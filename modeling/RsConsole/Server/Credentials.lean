import RsConsole.Server.Invalidation

set_option autoImplicit false

/-! # Where credentials come from

Every credential was inserted by one completed registration, and is charged to the ceremony and the
capability that this registration spent. A ceremony and a capability are spent at most once and
stay spent, so nothing is charged twice. -/

namespace RsConsole

open Library Library.Table Database PgAuthStore

variable {τ : Type}

/-- The event registered the credential `id` of user `userId`: it completed the ceremony
    `ceremonyId` at `now`, and spent the capability it named. -/
def Registered (e : AuthEvent τ) (id : Uuid) (userId : String) (ceremonyId : Uuid)
    (capabilityHash : Option SecretHash) (now : DateTime) : Prop :=
  ∃ credential audit,
    Succeeded e (.completeRegistration ceremonyId capabilityHash credential now audit) () ∧
    e.post.passkeyCredentials = e.pre.passkeyCredentials ++ [credential.row id userId now]

/-- The credential `row` is charged to `ceremony`, which `e` found unconsumed and consumed. -/
structure ChargedTo (e : AuthEvent τ) (db : Database) (row : PasskeyCredential)
    (ceremony : AuthCeremony) (capabilityHash : Option SecretHash) (now : DateTime) : Prop where
  registered : Registered e row.id row.userId ceremony.id capabilityHash now
  mem : ceremony ∈ e.pre.authCeremonies
  owner : ceremony.userId = some row.userId
  live : ceremony.Live now
  consumed : ∃ c ∈ db.authCeremonies, ceremony.Becomes c ∧ c.consumedAt ≠ none

/-- The credential `row` is charged to `capability` too. -/
structure PaidBy (e : AuthEvent τ) (db : Database) (row : PasskeyCredential)
    (ceremony : AuthCeremony) (capability : AuthCapability) (now : DateTime) : Prop where
  mem : capability ∈ e.pre.authCapabilities
  owner : capability.userId = row.userId
  live : capability.Live now
  consumed : ∃ c ∈ db.authCapabilities, capability.Becomes c ∧ c.consumedAt ≠ none
  purpose : (ceremony.kind = "registration" ∧
      (capability.purpose = "setup" ∨ capability.purpose = "recovery_setup")) ∨
    (ceremony.kind = "operator_recovery" ∧ capability.purpose = "operator_recovery")

/-- The credential `row` was registered at the bootstrap endpoint, without a capability: no operator
    had a credential, neither at the start nor at the completion. -/
structure Bootstrapped (ops : τ → Operation) (tr : List (AuthEvent τ)) (e : AuthEvent τ)
    (row : PasskeyCredential) (ceremony : AuthCeremony) : Prop where
  kind : ceremony.kind = "operator_bootstrap"
  none : e.pre.operatorCredentials = []
  started : ∃ start, Precedes tr start e ∧ start.call = .operatorWithoutCredential ∧
    (∃ now seed, ops start.tid = .startOperatorBootstrap now seed ceremony.id) ∧
    start.pre.operatorCredentials = [] ∧
    ∃ user ∈ start.pre.humanUsers, user.id = row.userId ∧ user.role = "operator" ∧
      user.enabled = true

/-- The operation is one that a handler or a command runs: `setup_start` looks for the capabilities
    of setups only. -/
def Operation.Offered : Operation → Prop
  | .startSetupRegistration _ purpose _ _ _ => purpose = .setup ∨ purpose = .recoverySetup
  | _ => True

/-- The ceremony `ceremonyId` was started with the setup token `token`. -/
def StartedWith (ops : τ → Operation) (tr : List (AuthEvent τ)) (token : SecretToken)
    (ceremonyId : Uuid) : Prop :=
  ∃ e ∈ tr, ∃ purpose now seed ceremony,
    ops e.tid = .startSetupRegistration token purpose now seed ceremonyId ∧
    Succeeded e (.insertCeremony ceremony) ()

theorem row_inj {c c' : VerifiedCredential} {id id' : Uuid} {userId userId' : String}
    {now now' : DateTime} (h : c.row id userId now = c'.row id' userId' now') :
    id = id' ∧ userId = userId' :=
  ⟨congrArg PasskeyCredential.id h, congrArg PasskeyCredential.userId h⟩

/-- What a registration inserted is fixed by its event. -/
theorem Registered.unique {e : AuthEvent τ} {id id' ceremonyId ceremonyId' : Uuid}
    {userId userId' : String} {hash hash' : Option SecretHash} {now now' : DateTime}
    (h : Registered e id userId ceremonyId hash now)
    (h' : Registered e id' userId' ceremonyId' hash' now') :
    id = id' ∧ ceremonyId = ceremonyId' ∧ hash = hash' := by
  obtain ⟨credential, audit, hc, hadded⟩ := h
  obtain ⟨credential', audit', hc', hadded'⟩ := h'
  have hcall := hc.unique hc'
  injection hcall with hceremony hhash
  have hrows := List.append_cancel_left (hadded.symm.trans hadded')
  exact ⟨(row_inj (List.singleton_inj.1 hrows)).1, hceremony, hhash⟩

theorem Registered.completes {e : AuthEvent τ} {id ceremonyId : Uuid} {userId : String}
    {capabilityHash : Option SecretHash} {now : DateTime}
    (h : Registered e id userId ceremonyId capabilityHash now) : completes ceremonyId e = true := by
  obtain ⟨credential, audit, hc, -⟩ := h
  unfold RsConsole.completes
  rw [hc]
  exact decide_eq_true rfl

namespace History

variable [DecidableEq τ] [Crates] {config : AuthConfig} {engine : CeremonyEngine}
  {ops : τ → Operation} {tr : List (AuthEvent τ)} {db : Database} {e e' e₁ e₂ : AuthEvent τ}
  {id id' ceremonyId ceremonyId' : Uuid} {userId userId' : String}
  {capabilityHash capabilityHash' : Option SecretHash} {now now' : DateTime}

theorem registered_completed (h : History config engine ops tr db) (he : e ∈ tr)
    (hreg : Registered e id userId ceremonyId capabilityHash now) :
    ∃ credential ceremony kind,
      Completed ops tr e ceremonyId capabilityHash credential now ceremony id userId kind := by
  obtain ⟨credential, audit, hc, hadded⟩ := hreg
  obtain ⟨ceremony, id', userId', kind, hdone⟩ := h.completed he hc
  have hrows := List.append_cancel_left (hdone.added.symm.trans hadded)
  obtain ⟨rfl, rfl⟩ := row_inj (List.singleton_inj.1 hrows)
  exact ⟨credential, ceremony, kind, hdone⟩

/-- A credential is not registered again. -/
theorem registered_once (h : History config engine ops tr db) (hprec : Precedes tr e₁ e₂)
    (h₁ : Registered e₁ id userId ceremonyId capabilityHash now) :
    ¬ Registered e₂ id userId' ceremonyId' capabilityHash' now' := by
  intro h₂
  obtain ⟨credential, audit, -, hadded⟩ := h₁
  obtain ⟨credential', audit', -, hadded'⟩ := h₂
  have hrow : credential.row id userId now ∈ e₁.post.passkeyCredentials := by simp [hadded]
  obtain ⟨c, hc, hbecomes⟩ := (h.evolves_between hprec).passkeyCredentials.exists_of_mem hrow
  have hkeys := (h.consistent_post hprec.right_mem).credentialRowIds
  rw [hadded'] at hkeys
  refine hkeys.ne_of_append hc ?_
  rw [hbecomes.fixed]
  rfl

/-! ## Capabilities -/

/-- A registration finds the capability it names unconsumed and leaves it consumed. -/
theorem registered_spends (h : History config engine ops tr db) (he : e ∈ tr) {hash : SecretHash}
    (hreg : Registered e id userId ceremonyId (some hash) now) :
    ∃ capability ∈ e.pre.authCapabilities, capability.tokenHash = hash.asBytes ∧
      capability.consumedAt = none ∧
      ∃ b ∈ e.post.authCapabilities, capability.Becomes b ∧ b.consumedAt ≠ none := by
  obtain ⟨credential, ceremony, kind, hdone⟩ := h.registered_completed he hreg
  obtain ⟨capability, hmem, htoken, hlive, hspent⟩ := hdone.spentCapability hash rfl
  exact ⟨capability, hmem, htoken, hlive.1, hspent⟩

/-- Nothing is registered with a capability that is consumed at some event before. -/
theorem not_registered_consumed (h : History config engine ops tr db) (hprec : Precedes tr e₁ e₂)
    {capability : AuthCapability} (hmem : capability ∈ e₁.post.authCapabilities)
    (hconsumed : capability.consumedAt ≠ none) {hash : SecretHash}
    (hhash : capability.tokenHash = hash.asBytes) :
    ¬ Registered e₂ id userId ceremonyId (some hash) now := by
  intro hreg
  obtain ⟨c, hc, htoken, hunspent, -⟩ := h.registered_spends hprec.right_mem hreg
  have hbecomes : capability.Becomes c := (h.evolves_between hprec).becomes_of_capabilityHash
    (h.consistent_pre hprec.right_mem) hmem hc (htoken.trans hhash.symm)
  rw [hbecomes.consumed hconsumed] at hunspent
  exact hconsumed hunspent

/-- A capability registers one credential. -/
theorem capability_spent_once (h : History config engine ops tr db) (hprec : Precedes tr e₁ e₂)
    {hash : SecretHash} (h₁ : Registered e₁ id userId ceremonyId (some hash) now) :
    ¬ Registered e₂ id' userId' ceremonyId' (some hash) now' := by
  obtain ⟨c, -, htoken, -, b, hb, hbecomes, hconsumed⟩ := h.registered_spends hprec.left_mem h₁
  exact h.not_registered_consumed hprec hb hconsumed (by rw [hbecomes.fixed]; exact htoken)

/-- A capability that exists at an invalidation of its user registers nothing afterwards. -/
theorem not_registered_invalidated (h : History config engine ops tr db)
    (hprec : Precedes tr e₁ e₂) {capability : AuthCapability}
    (hmem : capability ∈ e₁.pre.authCapabilities)
    (hinv : InvalidatesUser e₁ capability.userId) {hash : SecretHash}
    (hhash : capability.tokenHash = hash.asBytes) :
    ¬ Registered e₂ id userId ceremonyId (some hash) now := by
  obtain ⟨b, hb, hbecomes, hconsumed⟩ :=
    (h.invalidates hprec.left_mem hinv).capabilities capability hmem rfl
  exact h.not_registered_consumed hprec hb hconsumed (by rw [hbecomes.fixed]; exact hhash)

/-- Two registrations have different ceremonies and different capabilities. -/
theorem charged_once (h : History config engine ops tr db) (hprec : Precedes tr e₁ e₂)
    (h₁ : Registered e₁ id userId ceremonyId capabilityHash now)
    (h₂ : Registered e₂ id' userId' ceremonyId' capabilityHash' now') :
    ceremonyId ≠ ceremonyId' ∧ (capabilityHash = capabilityHash' → capabilityHash = none) := by
  constructor
  · rintro rfl
    have hnot := h.not_completes_twice hprec h₁.completes
    rw [h₂.completes] at hnot
    cases hnot
  · rintro rfl
    cases capabilityHash with
    | none => rfl
    | some hash => exact absurd h₂ (h.capability_spent_once hprec h₁)

theorem registered_inj (h : History config engine ops tr db) (he : e ∈ tr) (he' : e' ∈ tr)
    (hreg : Registered e id userId ceremonyId capabilityHash now)
    (hreg' : Registered e' id' userId' ceremonyId' capabilityHash' now')
    (hsame : ceremonyId = ceremonyId' ∨ (capabilityHash = capabilityHash' ∧ capabilityHash ≠ none)) :
    id = id' := by
  rcases precedes_total he he' with rfl | hprec | hprec
  · exact (hreg.unique hreg').1
  · obtain ⟨hceremony, hcapability⟩ := h.charged_once hprec hreg hreg'
    rcases hsame with heq | ⟨heq, hne⟩
    · exact absurd heq hceremony
    · exact absurd (hcapability heq) hne
  · obtain ⟨hceremony, hcapability⟩ := h.charged_once hprec hreg' hreg
    rcases hsame with heq | ⟨heq, hne⟩
    · exact absurd heq.symm hceremony
    · exact absurd (heq.trans (hcapability heq.symm)) hne

/-- A ceremony that was started with a setup token is completed with that token's capability. -/
theorem registered_token (h : History config engine ops tr db) (he : e ∈ tr) {token : SecretToken}
    (hstarted : StartedWith ops tr token ceremonyId)
    (hreg : Registered e id userId ceremonyId capabilityHash now) :
    capabilityHash = some token.hash := by
  obtain ⟨e₀, he₀, purpose, now₀, seed, ceremony₀, hop, hc₀⟩ := hstarted
  obtain ⟨credential, ceremony, kind, hdone⟩ := h.registered_completed he hreg
  obtain ⟨past, hstarts, hback, -⟩ := h.explained_of_succeeded he₀ hc₀
  cases hstarts with
  | registration token' purpose' now' seed' capability user operation found owner kind userId hash =>
      cases hop.symm.trans operation
      obtain ⟨e₁, hprec₁, -, hc₁⟩ := hback _ _ found
      obtain ⟨env₁, hperform₁⟩ := h.succeeded hprec₁.left_mem hc₁
      obtain ⟨row₁, -, htoken, -, -, hdecodes⟩ := capability_found hperform₁
      obtain ⟨env₀, hperform₀⟩ := h.succeeded he₀ hc₀
      have hinserted : ceremony₀.row env₀.clock ∈ e₀.post.authCeremonies := by
        simp [insertCeremony_committed hperform₀]
      -- the inserted ceremony and the completed one end as the same row
      obtain ⟨a, ha, hbecomes₀⟩ := (h.evolves_end he₀).authCeremonies.exists_of_mem hinserted
      obtain ⟨b, hb, hbecomes⟩ := (h.evolves_from he).authCeremonies.exists_of_mem hdone.mem
      have hsame : a = b := h.consistent.ceremonyIds.eq_of_mem ha hb (by
        rw [hbecomes₀.fixed, hbecomes.fixed]
        exact hdone.ceremony_id.symm)
      have hhash : ceremony.capabilityHash = some token.hash.asBytes := by
        calc ceremony.capabilityHash = b.capabilityHash := by rw [hbecomes.fixed]
          _ = (ceremony₀.row env₀.clock).capabilityHash := by rw [← hsame, hbecomes₀.fixed]
          _ = some capability.tokenHash.asBytes := by simp [Ceremony.row, hash]
          _ = some token.hash.asBytes := by rw [← hdecodes.tokenHash, htoken]
      obtain ⟨hash', rfl, heq⟩ := Option.map_eq_some_iff.1 (hdone.hash_eq.symm.trans hhash)
      rw [SecretHash.asBytes_injective heq]
  | operatorRecovery _ _ _ _ operation => cases hop.symm.trans operation
  | operatorBootstrap _ _ _ operation => cases hop.symm.trans operation
  | authentication _ _ operation => cases hop.symm.trans operation

/-- **What a credential is charged to.** -/
theorem charged (h : History config engine ops tr db) {row : PasskeyCredential}
    (hrow : row ∈ db.passkeyCredentials) :
    ∃ e ∈ tr, ∃ ceremony capabilityHash now,
      ChargedTo e db row ceremony capabilityHash now ∧
      Charge ops tr e capabilityHash now ceremony row.userId := by
  obtain ⟨e, he, ceremonyId, capabilityHash, credential, now, audit, ceremony, id, userId, hc, hreg,
    hbecomes, -⟩ := h.credential_origin hrow
  -- the row was inserted by a registration, and neither its id nor its user changes later
  have hid : row.id = id := by rw [hbecomes.fixed]; rfl
  have huser : row.userId = userId := by rw [hbecomes.fixed]; rfl
  have hregistered : Registered e row.id row.userId ceremonyId capabilityHash now :=
    ⟨credential, audit, hc, by rw [hid, huser]; exact hreg.added⟩
  obtain ⟨credential', ceremony', kind, hdone⟩ := h.registered_completed he hregistered
  refine ⟨e, he, ceremony', capabilityHash, now, ⟨?_, hdone.mem, hdone.owner, hdone.live, ?_⟩,
    hdone.charge h he⟩
  · rw [hdone.ceremony_id]
    exact hregistered
  · obtain ⟨b, hb, hspent, hconsumed⟩ := hdone.spentCeremony
    obtain ⟨c, hc, hlater⟩ := (h.evolves_end he).authCeremonies.exists_of_mem hb
    exact ⟨c, hc, hspent.trans hlater, by rwa [hlater.consumed hconsumed]⟩

/-- A charge to a capability, when clients run what is offered. -/
theorem paidBy (h : History config engine ops tr db) (he : e ∈ tr) {row : PasskeyCredential}
    {ceremony : AuthCeremony} {capability : AuthCapability}
    (hoffered : ∀ t, (ops t).Offered)
    (hmem : capability ∈ e.pre.authCapabilities) (howner : capability.userId = row.userId)
    (hlive : capability.Live now)
    (hspent : ∃ b ∈ e.post.authCapabilities, capability.Becomes b ∧ b.consumedAt ≠ none)
    (hpurpose : (ceremony.kind = "registration" ∧ ∃ t token purpose now seed,
        ops t = .startSetupRegistration token purpose now seed ceremony.id ∧
          capability.purpose = purposeName purpose) ∨
      (ceremony.kind = "operator_recovery" ∧ capability.purpose = "operator_recovery")) :
    PaidBy e db row ceremony capability now := by
  refine ⟨hmem, howner, hlive, ?_, ?_⟩
  · obtain ⟨b, hb, hbecomes, hconsumed⟩ := hspent
    obtain ⟨c, hc, hlater⟩ := (h.evolves_end he).authCapabilities.exists_of_mem hb
    exact ⟨c, hc, hbecomes.trans hlater, by rwa [hlater.consumed hconsumed]⟩
  · refine hpurpose.imp_left ?_
    -- the capability was asked for by a public operation, which offers two purposes only
    rintro ⟨hkind, t, token, purpose, now', seed, hop, heq⟩
    have hpurpose := hoffered t
    rw [hop] at hpurpose
    rcases hpurpose with rfl | rfl
    · exact ⟨hkind, Or.inl heq⟩
    · exact ⟨hkind, Or.inr heq⟩

theorem bootstrapped (h : History config engine ops tr db) {start : AuthEvent τ} {user : User}
    {ceremony : AuthCeremony} {row : PasskeyCredential} (hprec : Precedes tr start e)
    (hop : ∃ now seed, ops start.tid = .startOperatorBootstrap now seed ceremony.id)
    (hkind : ceremony.kind = "operator_bootstrap") (hnone : e.pre.operatorCredentials = [])
    (hstarted : Succeeded start .operatorWithoutCredential (some user))
    (howner : user.id.value = row.userId) : Bootstrapped ops tr e row ceremony := by
  obtain ⟨env, hperform⟩ := h.succeeded hprec.left_mem hstarted
  obtain ⟨u, hu, hrole, henabled, hempty, hdecodes⟩ := operatorWithoutCredential_found hperform
  exact ⟨hkind, hnone, start, hprec, congrArg Exchange.call hstarted, hop, hempty, u, hu,
    hdecodes.id.trans howner, hrole, henabled⟩

end History

/-- **Every credential is charged to one ceremony, and to one capability or to a bootstrap.** -/
theorem credential_provenance [DecidableEq τ] [Crates] {config : AuthConfig}
    {engine : CeremonyEngine} {ops : τ → Operation} {tr : List (AuthEvent τ)} {db : Database}
    (h : History config engine ops tr db) (hoffered : ∀ t, (ops t).Offered) :
    (∀ row ∈ db.passkeyCredentials, ∃ e ∈ tr, ∃ ceremony capabilityHash now,
      ChargedTo e db row ceremony capabilityHash now ∧
      ((∃ hash capability, capabilityHash = some hash ∧ capability.tokenHash = hash.asBytes ∧
          PaidBy e db row ceremony capability now) ∨
        (capabilityHash = none ∧ Bootstrapped ops tr e row ceremony)) ∧
      ∀ e' ∈ tr, ∀ userId ceremonyId capabilityHash' now',
        Registered e' row.id userId ceremonyId capabilityHash' now' →
        e' = e ∧ ceremonyId = ceremony.id ∧ capabilityHash' = capabilityHash) ∧
    (∀ e ∈ tr, ∀ e' ∈ tr, ∀ id id' userId userId' ceremonyId ceremonyId' hash hash' now now',
      Registered e id userId ceremonyId hash now →
      Registered e' id' userId' ceremonyId' hash' now' →
      ceremonyId = ceremonyId' ∨ (hash = hash' ∧ hash ≠ none) → id = id') ∧
    (∀ e ∈ tr, ∀ e' ∈ tr, ∀ token id id' userId userId' ceremonyId ceremonyId' hash hash' now now',
      StartedWith ops tr token ceremonyId → StartedWith ops tr token ceremonyId' →
      Registered e id userId ceremonyId hash now →
      Registered e' id' userId' ceremonyId' hash' now' → id = id') ∧
    ∀ e₁ e₂ capability hash id userId ceremonyId now, Precedes tr e₁ e₂ →
      InvalidatesUser e₁ capability.userId → capability ∈ e₁.pre.authCapabilities →
      capability.tokenHash = hash.asBytes →
      ¬ Registered e₂ id userId ceremonyId (some hash) now := by
  refine ⟨?_, ?_, ?_, ?_⟩
  · intro row hrow
    obtain ⟨e, he, ceremony, capabilityHash, now, hcharged, hcharge⟩ := h.charged hrow
    refine ⟨e, he, ceremony, capabilityHash, now, hcharged, ?_, ?_⟩
    · cases hcharge with
      | capability hash capability named mem token owner live spent purpose =>
          exact Or.inl ⟨hash, capability, named, token,
            h.paidBy he hoffered mem owner live spent purpose⟩
      | bootstrap start now seed user operation kind named before started owner none =>
          exact Or.inr ⟨named,
            h.bootstrapped before ⟨now, seed, operation⟩ kind none started owner⟩
    · intro e' he' userId ceremonyId capabilityHash' now' hreg
      rcases precedes_total he' he with rfl | hprec | hprec
      · -- the same event registers one row; two events cannot register one id
        exact ⟨rfl, (hreg.unique hcharged.registered).2⟩
      · exact absurd hcharged.registered (h.registered_once hprec hreg)
      · exact absurd hreg (h.registered_once hprec hcharged.registered)
  · intro e he e' he' id id' userId userId' ceremonyId ceremonyId' hash hash' now now' hreg hreg'
      hsame
    exact h.registered_inj he he' hreg hreg' hsame
  · intro e he e' he' token id id' userId userId' ceremonyId ceremonyId' hash hash' now now'
      hstarted hstarted' hreg hreg'
    have hhash := h.registered_token he hstarted hreg
    have hhash' := h.registered_token he' hstarted' hreg'
    exact h.registered_inj he he' hreg hreg' (Or.inr ⟨hhash.trans hhash'.symm, by simp [hhash]⟩)
  · intro e₁ e₂ capability hash id userId ceremonyId now hprec hinv hmem hhash
    exact h.not_registered_invalidated hprec hmem hinv hhash

section Sample

attribute [local instance] Reference.crates

/-- Two ceremonies are started with one setup token, and both are finished. -/
def sampleSetups : List Operation :=
  [.seedOperator sampleOperator "operator@example.com" "Operator" 0 1,
    .approveUserAndIssueSetup sampleOperator sampleColleague "alice@example.com" "Alice" 1
      (sampleToken 5) 2 50,
    .startSetupRegistration (sampleToken 5) .setup 2 0 10,
    .startSetupRegistration (sampleToken 5) .setup 2 0 11,
    .finishRegistration 10 .registration (.string "a") 3,
    .finishRegistration 11 .registration (.string "b") 3]

def sampleSetupSchedule : List (ℕ × Uuid) :=
  [(0, 0), (0, 0), (0, 0), (1, 0), (1, 0), (2, 0), (2, 0), (2, 0), (2, 0), (3, 0), (3, 0), (3, 0),
    (3, 0), (4, 0), (5, 0), (5, 31), (4, 30)]

theorem sampleOperations_forall {p : Operation → Prop} {operations : List Operation}
    (h : ∀ op ∈ operations, p op) (hdefault : p .pendingRecoveries) (t : ℕ) :
    p (sampleOperations operations t) := by
  unfold sampleOperations
  rw [List.getD_eq_getElem?_getD]
  cases hget : operations[t]? with
  | none => exact hdefault
  | some op => exact h op (List.mem_of_getElem? hget)

/-- One of them gives a credential, which is charged to a ceremony and the token's capability. -/
theorem credential_provenance_sample :
    (sampleRun sampleSetups sampleSetupSchedule).state.passkeyCredentials.length = 1 ∧
    ∃ row, row ∈ (sampleRun sampleSetups sampleSetupSchedule).state.passkeyCredentials ∧
      ∃ e ∈ (sampleRun sampleSetups sampleSetupSchedule).trace, ∃ ceremony capabilityHash now,
        ChargedTo e (sampleRun sampleSetups sampleSetupSchedule).state row ceremony
          capabilityHash now := by
  have hlength : (sampleRun sampleSetups sampleSetupSchedule).state.passkeyCredentials.length = 1 :=
    by decide +kernel
  obtain ⟨row, hrow⟩ := List.exists_mem_of_length_pos (hlength ▸ Nat.one_pos)
  have hoffered : ∀ t, (sampleOperations sampleSetups t).Offered :=
    sampleOperations_forall (by simp [sampleSetups, Operation.Offered]) trivial
  obtain ⟨e, he, ceremony, capabilityHash, now, hcharged, -⟩ :=
    (credential_provenance (sampleRun_history _ _) hoffered).1 row hrow
  exact ⟨hlength, row, hrow, e, he, ceremony, capabilityHash, now, hcharged⟩

end Sample

end RsConsole
