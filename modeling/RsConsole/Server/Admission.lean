import RsConsole.Server.Answers
import RsConsole.Server.Unavailable

set_option autoImplicit false

/-! # What a registration and a login need

Whether a completion is accepted depends on what stands at its commit: its ceremony, the capability
that it spends, the passkey that it presents and the passkeys of the operators. Each of them stands
since an event has given it and none has ended it. With `store_answers_iff` these events say
exactly which completions are accepted. -/

namespace RsConsole

open Library Library.Table Database PgAuthStore

variable {τ : Type}

/-- The call registers a passkey with the id `credentialId` for the user. -/
def AuthCall.RegistersPasskey (db : Database) (userId : UserId) (credentialId : List UInt8) :
    AuthCall → Prop
  | .completeRegistration ceremonyId _ credential _ _ =>
      credential.credentialId = credentialId ∧
        ∃ r ∈ db.authCeremonies, r.id = ceremonyId ∧ r.userId = some userId.value
  | _ => False

/-- The call revokes the passkey with the id `credentialId`. -/
def AuthCall.RevokesPasskey (db : Database) (credentialId : List UInt8) : AuthCall → Prop
  | .breakGlass rowId _ _ _ =>
      ∃ k ∈ db.passkeyCredentials, k.id = rowId ∧ k.credentialId = credentialId
  | _ => False

/-- The call adds the operator. -/
def AuthCall.AddsOperator (userId : UserId) : AuthCall → Prop
  | .insertUser user _ _ => user.id = userId ∧ user.role = .operator
  | .approveUserWithSetup user _ _ _ => user.id = userId ∧ user.role = .operator
  | _ => False

def RegistersPasskey (userId : UserId) (credentialId : List UInt8) (e : AuthEvent τ) : Prop :=
  e.resp.isOk = true ∧ e.call.RegistersPasskey e.pre userId credentialId

def RevokesPasskey (credentialId : List UInt8) (e : AuthEvent τ) : Prop :=
  e.resp.isOk = true ∧ e.call.RevokesPasskey e.pre credentialId

def AddsOperator (userId : UserId) (e : AuthEvent τ) : Prop :=
  e.resp.isOk = true ∧ e.call.AddsOperator userId

/-! ## One call -/

namespace LiveStore

variable {s s' : LiveStore} {db : Database} {c : AuthCall} {a : c.Reply}

/-- The user has the passkey. -/
def HasPasskey (s : LiveStore) (userId : UserId) (credentialId : List UInt8) : Prop :=
  ∃ credential, s.credentials credential.id = some credential ∧ credential.userId = userId ∧
    credential.credentialId = credentialId

/-- The user is an operator. -/
def IsOperator (s : LiveStore) (userId : UserId) : Prop :=
  ∃ user, s.users userId = some user ∧ user.role = .operator

theorem use_credentials (hash : SecretHash) (csrfHash : Option SecretHash) (now idle : DateTime) :
    (s.use hash csrfHash now idle).credentials = s.credentials := by
  unfold use
  split
  · rfl
  · rfl

/-- A call that leaves the passkeys alone. -/
theorem passkey_kept {userId : UserId} {credentialId : List UInt8}
    (hmap : s'.credentials = s.credentials)
    (hregisters : ¬ c.RegistersPasskey db userId credentialId)
    (hrevokes : ¬ c.RevokesPasskey db credentialId) :
    s'.HasPasskey userId credentialId ↔ c.RegistersPasskey db userId credentialId ∨
      (¬ c.RevokesPasskey db credentialId ∧ s.HasPasskey userId credentialId) := by
  unfold HasPasskey
  rw [hmap]
  simp [hregisters, hrevokes]

/-- Two passkeys with one id are one. -/
theorem passkey_unique (hdb : db.Abstracts s) {x y : StoredCredential}
    (hx : s.credentials x.id = some x) (hy : s.credentials y.id = some y)
    (hid : x.credentialId = y.credentialId) : x = y := by
  obtain ⟨-, k, hk, hkept⟩ := (hdb.shows.credentials _ _).1 hx
  obtain ⟨-, k', hk', hkept'⟩ := (hdb.shows.credentials _ _).1 hy
  obtain rfl := hdb.consistent.credentialIds.eq_of_mem hk hk'
    ((StoredCredential.row_of_tryFrom hkept.2).2.2.1.trans
      (hid.trans (StoredCredential.row_of_tryFrom hkept'.2).2.2.1.symm))
  exact Except.ok.inj (hkept.2.symm.trans hkept'.2)

theorem Does.passkey_iff (h : s.Does c a s') (hdb : db.Abstracts s) (userId : UserId)
    (credentialId : List UInt8) :
    s'.HasPasskey userId credentialId ↔ c.RegistersPasskey db userId credentialId ∨
      (¬ c.RevokesPasskey db credentialId ∧ s.HasPasskey userId credentialId) := by
  cases c with
  | completeRegistration ceremonyId capabilityHash verified now audit =>
      obtain ⟨ceremony, owner, id, hentry, -, howner, -, -, hnew, -, rfl⟩ := h
      obtain ⟨hid, r, hr, hkept⟩ := (hdb.shows.ceremonies _ _).1 hentry
      obtain ⟨hrid, -, hruser, -⟩ := Ceremony.row_of_tryFrom hkept.2
      have hregisters : (AuthCall.completeRegistration ceremonyId capabilityHash verified now
          audit).RegistersPasskey db userId credentialId ↔
          owner = userId ∧ verified.credentialId = credentialId := by
        constructor
        · rintro ⟨hpasskey, r', hr', hrid', huser'⟩
          obtain rfl := hdb.consistent.ceremonyIds.eq_of_mem hr' hr
            (hrid'.trans (hrid.trans hid).symm)
          rw [hruser, howner] at huser'
          exact ⟨OpaqueId.value_injective (Option.some.inj huser'), hpasskey⟩
        · rintro ⟨rfl, hpasskey⟩
          exact ⟨hpasskey, r, hr, hrid.trans hid, hruser.trans (congrArg _ howner)⟩
      have hentries : ∀ v : StoredCredential, Function.update s.credentials id
          (some ⟨id, owner, verified.credentialId, verified.publicData, none⟩) v.id = some v ↔
          ⟨id, owner, verified.credentialId, verified.publicData, none⟩ = v ∨
            s.credentials v.id = some v :=
        fun v => update_eq_some_iff StoredCredential.id
          (w := ⟨id, owner, verified.credentialId, verified.publicData, none⟩) hnew
      rw [hregisters]
      constructor
      · rintro ⟨v, hv, rfl, rfl⟩
        rcases (hentries v).1 hv with rfl | hold
        · exact Or.inl ⟨rfl, rfl⟩
        · exact Or.inr ⟨fun h => h, v, hold, rfl, rfl⟩
      · rintro (⟨rfl, rfl⟩ | ⟨-, v, hold, rfl, rfl⟩)
        · exact ⟨_, (hentries _).2 (Or.inl rfl), rfl, rfl⟩
        · exact ⟨v, (hentries v).2 (Or.inr hold), rfl, rfl⟩
  | completeAuthentication ceremonyId verification record =>
      obtain ⟨-, -, -, rfl⟩ := h
      simp only [AuthCall.RegistersPasskey, AuthCall.RevokesPasskey, false_or, not_false_eq_true,
        true_and]
      constructor
      · rintro ⟨v, hv, rfl, rfl⟩
        obtain ⟨w, hw, rfl⟩ := Option.map_eq_some_iff.1 hv
        have hkey := hdb.shows.credentials.key_of_entry hw
        refine ⟨w, ?_, ?_, ?_⟩
        · rw [hkey]
          exact hw
        · split <;> rfl
        · split <;> rfl
      · rintro ⟨w, hw, rfl, rfl⟩
        refine ⟨if w.userId = record.userId ∧ w.credentialId = verification.credentialId then
          { w with publicData := verification.updatedPublicData } else w, ?_, ?_, ?_⟩
        · have hid : (if w.userId = record.userId ∧ w.credentialId = verification.credentialId then
              { w with publicData := verification.updatedPublicData } else w).id = w.id := by
            split <;> rfl
          rw [hid]
          exact Option.map_eq_some_iff.2 ⟨w, hw, rfl⟩
        · split <;> rfl
        · split <;> rfl
  | breakGlass rowId given now reason =>
      obtain ⟨⟨held, user, hheld, -⟩, -, rfl⟩ := h
      have hheldId := hdb.shows.credentials.key_of_entry hheld
      obtain ⟨-, k, hk, hkept⟩ := (hdb.shows.credentials _ _).1 hheld
      obtain ⟨hkid, -, hkcredential, -⟩ := StoredCredential.row_of_tryFrom hkept.2
      have hrevokes : (AuthCall.breakGlass rowId given now reason).RevokesPasskey db credentialId ↔
          held.credentialId = credentialId := by
        constructor
        · rintro ⟨k', hk', hkid', rfl⟩
          obtain rfl := hdb.consistent.credentialRowIds.eq_of_mem hk' hk
            (hkid'.trans (hkid.trans hheldId).symm)
          exact hkcredential.symm
        · rintro rfl
          exact ⟨k, hk, hkid.trans hheldId, hkcredential⟩
      rw [hrevokes]
      change (∃ v, Function.update s.credentials rowId none v.id = some v ∧ _) ↔ False ∨ _
      rw [false_or]
      constructor
      · rintro ⟨v, hv, rfl, rfl⟩
        have hne : v.id ≠ rowId := by
          intro heq
          rw [heq, Function.update_self] at hv
          cases hv
        rw [Function.update_of_ne hne] at hv
        refine ⟨fun hsame => hne ?_, v, hv, rfl, rfl⟩
        rw [passkey_unique hdb hv (hheldId ▸ hheld) hsame.symm]
        exact hheldId
      · rintro ⟨hother, v, hv, rfl, rfl⟩
        refine ⟨v, ?_, rfl, rfl⟩
        rw [Function.update_of_ne, hv]
        rintro rfl
        exact hother (congrArg _ (Option.some.inj (hheld.symm.trans hv)))
  | approveRecovery =>
      obtain ⟨recovery, -, -, rfl⟩ := h
      exact passkey_kept rfl id id
  | issueRecoverySetup =>
      obtain ⟨_, -, -, -, -, -, rfl⟩ := h
      exact passkey_kept rfl id id
  | session => exact passkey_kept (h.2 ▸ use_credentials ..) id id
  | rotateSessionCsrf => exact passkey_kept (h.2 ▸ use_credentials ..) id id
  | insertCapability => exact passkey_kept (h.2 ▸ rfl) id id
  | insertUser => exact passkey_kept (h.2 ▸ rfl) id id
  | approveUserWithSetup => exact passkey_kept (h.2.2 ▸ rfl) id id
  | rotateAllAuthEpochs => exact passkey_kept (h.2 ▸ rfl) id id
  | insertCeremony => exact passkey_kept (h.2 ▸ rfl) id id
  | deleteSession => exact passkey_kept (h ▸ rfl) id id
  | createRecovery => exact passkey_kept (h.2.2.2.2.2.2 ▸ rfl) id id
  | _ => exact passkey_kept (h.unchanged rfl ▸ rfl) id id

theorem use_users (hash : SecretHash) (csrfHash : Option SecretHash) (now idle : DateTime) :
    (s.use hash csrfHash now idle).users = s.users := by
  unfold use
  split
  · rfl
  · rfl

/-- A call that leaves the users alone. -/
theorem operator_kept {userId : UserId} (hmap : s'.users = s.users)
    (hadds : ¬ c.AddsOperator userId) :
    s'.IsOperator userId ↔ c.AddsOperator userId ∨ (¬ False ∧ s.IsOperator userId) := by
  unfold IsOperator
  rw [hmap]
  simp [hadds]

/-- A call that adds a user. -/
theorem operator_added {userId : UserId} {user : User}
    (hmap : s'.users = Function.update s.users user.id (some user)) (hnew : s.users user.id = none)
    (hadds : c.AddsOperator userId ↔ user.id = userId ∧ user.role = .operator) :
    s'.IsOperator userId ↔ c.AddsOperator userId ∨ (¬ False ∧ s.IsOperator userId) := by
  unfold IsOperator
  rw [hmap, hadds]
  by_cases hid : userId = user.id
  · rw [hid, Function.update_self, hnew]
    simp
  · rw [Function.update_of_ne hid]
    simp [Ne.symm hid]

/-- A call that invalidates users. -/
theorem operator_invalidated {userId : UserId} {P : UserId → Prop} [DecidablePred P]
    (hmap : s'.users = fun id => (s.users id).map fun user => if P user.id then user.next else user)
    (hadds : ¬ c.AddsOperator userId) :
    s'.IsOperator userId ↔ c.AddsOperator userId ∨ (¬ False ∧ s.IsOperator userId) := by
  have hrole : ∀ user : User, (if P user.id then user.next else user).role = user.role := by
    intro user
    split <;> rfl
  unfold IsOperator
  rw [hmap]
  simp [hadds, hrole]

theorem Does.operator_iff (h : s.Does c a s') (userId : UserId) :
    s'.IsOperator userId ↔ c.AddsOperator userId ∨ (¬ False ∧ s.IsOperator userId) := by
  cases c with
  | insertUser => exact operator_added (h.2 ▸ rfl) h.1 Iff.rfl
  | approveUserWithSetup => exact operator_added (h.2.2 ▸ rfl) h.1 Iff.rfl
  | rotateAllAuthEpochs =>
      exact operator_invalidated (P := fun _ => True) (h.2 ▸ rfl) id
  | approveRecovery =>
      obtain ⟨recovery, -, -, rfl⟩ := h
      exact operator_invalidated (P := fun id => id = recovery.request.userId) rfl id
  | breakGlass _ given =>
      obtain ⟨-, -, rfl⟩ := h
      exact operator_invalidated (P := fun id => id = given.userId) rfl id
  | session => exact operator_kept (h.2 ▸ use_users ..) id
  | rotateSessionCsrf => exact operator_kept (h.2 ▸ use_users ..) id
  | insertCapability => exact operator_kept (h.2 ▸ rfl) id
  | insertCeremony => exact operator_kept (h.2 ▸ rfl) id
  | completeRegistration =>
      obtain ⟨_, _, _, -, -, -, -, -, -, -, rfl⟩ := h
      exact operator_kept rfl id
  | completeAuthentication => exact operator_kept (h.2.2.2 ▸ rfl) id
  | deleteSession => exact operator_kept (h ▸ rfl) id
  | createRecovery => exact operator_kept (h.2.2.2.2.2.2 ▸ rfl) id
  | issueRecoverySetup =>
      obtain ⟨_, -, -, -, -, -, rfl⟩ := h
      exact operator_kept rfl id
  | _ => exact operator_kept (h.unchanged rfl ▸ rfl) id

end LiveStore

/-- A passkey is stored when it is registered. -/
theorem Commits.credential_stored {env : Env} {db db' : Database} {c : AuthCall}
    {credentialId : List UInt8} (h : Commits env db c db') (hlegible : db.Legible)
    (hbefore : ¬ ∃ k ∈ db.passkeyCredentials, k.credentialId = credentialId)
    (hafter : ∃ k ∈ db'.passkeyCredentials, k.credentialId = credentialId) :
    c.reads = false ∧ ∃ userId, c.RegistersPasskey db userId credentialId := by
  obtain ⟨k', hk', hid⟩ := hafter
  have hupdated : ∀ {p : PasskeyCredential → Bool} {f : PasskeyCredential → PasskeyCredential},
      (∀ k, (f k).credentialId = k.credentialId) →
      k' ∉ updateWhere p f db.passkeyCredentials := by
    intro p f hf hmem
    obtain ⟨k, hk, rfl⟩ := mem_updateWhere.1 hmem
    refine hbefore ⟨k, hk, ?_⟩
    split at hid
    · rw [← hf k]
      exact hid
    · exact hid
  cases h with
  | completeRegistration ceremonyId capabilityHash credential now audit ceremony userId mem id live
      owner =>
      rcases List.mem_append.1 hk' with hmem | hmem
      · exact absurd ⟨k', hmem, hid⟩ hbefore
      · rw [List.mem_singleton.1 hmem] at hid
        obtain ⟨held, hheld⟩ := hlegible.ceremonies ceremony mem
        obtain ⟨-, -, huser, -⟩ := Ceremony.row_of_tryFrom hheld
        rw [owner] at huser
        obtain ⟨user, -, huser⟩ := Option.map_eq_some_iff.1 huser.symm
        exact ⟨rfl, user, hid, ceremony, mem, id, owner.trans (congrArg _ huser.symm)⟩
  | completeAuthentication => exact absurd hk' (hupdated fun _ => rfl)
  | breakGlass => exact absurd hk' (hupdated fun _ => rfl)
  | _ => exact absurd ⟨k', hk', hid⟩ hbefore

/-! ## Runs -/

namespace StoreRun

variable [DecidableEq τ] {out : τ → Type}
  {start : (t : τ) → Program AuthCall AuthCall.Answer (out t)} {tr : List (AuthEvent τ)}
  {db : Database}

theorem passkey_kept_iff (h : StoreRun start tr db) {s : LiveStore} (hs : db.Abstracts s)
    (userId : UserId) (credentialId : List UInt8) :
    s.HasPasskey userId credentialId ↔
      Since (RegistersPasskey userId credentialId) (RevokesPasskey credentialId) tr := by
  refine h.kept_iff_since hs (G := fun s => s.HasPasskey userId credentialId) ?_
    fun _ _ _ _ _ hs hdoes => hdoes.passkey_iff hs userId credentialId
  rintro ⟨_, hnone, -⟩
  cases hnone

theorem operator_kept_iff (h : StoreRun start tr db) {s : LiveStore} (hs : db.Abstracts s)
    (userId : UserId) : s.IsOperator userId ↔ ∃ e ∈ tr, AddsOperator userId e := by
  have hsince : s.IsOperator userId ↔
      Since (AddsOperator userId) (fun e => e.resp.isOk = true ∧ False) tr := by
    refine h.kept_iff_since hs (G := fun s => s.IsOperator userId) ?_
      fun _ _ _ _ _ hs hdoes => hdoes.operator_iff userId
    rintro ⟨_, hnone, -⟩
    cases hnone
  exact hsince.trans (since_iff_exists fun e _ hnever => hnever.2)

/-- A passkey was registered at some time if and only if it is stored, revoked or not. -/
theorem credential_stored_iff (h : StoreRun start tr db) (credentialId : List UInt8) :
    (∃ k ∈ db.passkeyCredentials, k.credentialId = credentialId) ↔
      ∃ e ∈ tr, ∃ userId, RegistersPasskey userId credentialId e := by
  have hrun := h
  obtain ⟨pool, run⟩ := h
  constructor
  · intro hstored
    obtain ⟨e, he, hbefore, hafter⟩ := run.origin
      (F := fun db => ∃ k ∈ db.passkeyCredentials, k.credentialId = credentialId)
      (fun hnone => by
        obtain ⟨k, hk, -⟩ := hnone
        exact List.not_mem_nil hk) hstored
    obtain ⟨s, s', hs, -, -⟩ := hrun.effect he
    rcases run_commits run he with hsame | ⟨env, hcommits, hok⟩
    · rw [hsame] at hafter
      exact absurd hafter hbefore
    · obtain ⟨hreads, userId, hregisters⟩ := hcommits.credential_stored hs.legible hbefore hafter
      exact ⟨e, he, userId, hok hreads, hregisters⟩
  · rintro ⟨e, he, userId, hok, hregisters⟩
    obtain ⟨ceremonyId, capabilityHash, credential, now, audit, hcall, rfl⟩ :
        ∃ ceremonyId capabilityHash credential now audit,
          e.call = .completeRegistration ceremonyId capabilityHash credential now audit ∧
            credential.credentialId = credentialId := by
      cases hc : e.call with
      | completeRegistration ceremonyId capabilityHash credential now audit =>
          rw [hc] at hregisters
          exact ⟨_, _, _, _, _, rfl, hregisters.1⟩
      | _ =>
          rw [hc] at hregisters
          exact hregisters.elim
    obtain ⟨a, hdone⟩ := succeeded_of_isOk hcall hok
    obtain ⟨env, hperform⟩ := hrun.succeeded he hdone
    obtain ⟨_, id, owner, hregistration⟩ := completeRegistration_committed hperform
    have hrow : credential.row id owner now ∈ e.post.passkeyCredentials := by
      rw [hregistration.added]
      exact List.mem_append_right _ (List.mem_singleton_self _)
    obtain ⟨k, hk, hbecomes⟩ := (hrun.evolves_end he).passkeyCredentials.exists_of_mem hrow
    exact ⟨k, hk, by rw [hbecomes.fixed]; rfl⟩

end StoreRun

section Accepted

variable [DecidableEq τ] [Crates] {config : AuthConfig} {engine : CeremonyEngine}
  {ops : τ → Operation} {newer older : List (AuthEvent τ)} {db : Database} {e : AuthEvent τ}
  {now : DateTime} {id : Uuid} {audit : AuditEvent}

/-- **Which logins are accepted.** With a database that executes every statement, the commit of a login
    is answered if and only if its ceremony stands and has not expired, and its passkey has been
    registered for the user and not been revoked since. -/
theorem login_accepted_iff (hengine : engine.Serves)
    (h : History config engine ops (newer ++ e :: older) db)
    {verification : AuthenticationVerification} {session : SessionRecord}
    (hcall : e.call = .completeAuthentication id verification session now audit)
    (hserved : Served e) : e.resp.isOk = true ↔
      (∃ ceremony : Ceremony, ceremony.id = id ∧ ceremony.kind = .authentication ∧
        now < ceremony.expiresAt ∧
        Since (StartsCeremony ceremony) (EndsCeremony ceremony) older) ∧
      Since (RegistersPasskey session.userId verification.credentialId)
        (RevokesPasskey verification.credentialId) older := by
  have he : e ∈ newer ++ e :: older := List.mem_append_right _ List.mem_cons_self
  have hrun := h.storeRun.older
  obtain ⟨s, hs⟩ := hrun.abstracts
  obtain ⟨⟨env, hlasts, hperform, hdraws⟩, hepochs⟩ := hserved
  have hready : e.call.Ready env e.pre := by
    have hknows := h.knows he
    obtain ⟨pool, run⟩ := h
    obtain ⟨past, hasks, -⟩ := run.asks_of_mem he
    have hexplained := explained_of_asks hasks
    rw [hcall] at hexplained
    obtain ⟨_, _, _, _, _, _, _, _, hop, -⟩ := hexplained
    refine AuthCall.Prepared.ready (prepared_of_asks ?_ ?_ hengine hasks) hdraws hknows hepochs
    · rw [hop]
      rfl
    · rw [hop]
      exact fun text htext => absurd htext List.not_mem_nil
  obtain ⟨tid, call, resp, pre, post⟩ := e
  obtain rfl : call = .completeAuthentication id verification session now audit := hcall
  refine (answered_iff hperform hlasts hs hready).trans ?_
  rw [← hrun.passkey_kept_iff hs]
  constructor
  · rintro ⟨a, s', ⟨ceremony, hentry, hkind, hlive⟩, ⟨credential, hheld, howner, hid⟩, -⟩
    have hkey := hs.shows.ceremonies.key_of_entry hentry
    refine ⟨⟨ceremony, hkey, hkind, hlive, ?_⟩, credential, hheld, howner, hid⟩
    rw [← hrun.ceremony_kept_iff hs]
    exact hkey ▸ hentry
  · rintro ⟨⟨ceremony, rfl, hkind, hlive, hstands⟩, hpasskey⟩
    rw [← hrun.ceremony_kept_iff hs] at hstands
    obtain ⟨-, -, -, -, hfresh⟩ := hready
    exact ⟨(), _, ⟨ceremony, hstands, hkind, hlive⟩, hpasskey,
      hs.shows.sessions_fresh fun r hr => (hfresh r hr).2, rfl⟩

/-- **Which registrations are accepted.** With a database that executes every statement, the commit of
    a registration is answered if and only if its ceremony stands and has not expired, so does the
    capability that it spends, if any, its passkey has never been registered, and, for a bootstrap, no
    operator has a passkey that stands. -/
theorem registration_accepted_iff (hengine : engine.Serves)
    (h : History config engine ops (newer ++ e :: older) db) {capabilityHash : Option SecretHash}
    {credential : VerifiedCredential}
    (hcall : e.call = .completeRegistration id capabilityHash credential now audit) {env : Env}
    (hlasts : env.left = none) (hperform : perform env e.call e.pre = (e.resp, e.post))
    (hdrawn : ∀ k ∈ e.pre.passkeyCredentials, k.id ≠ env.fresh) : e.resp.isOk = true ↔
      (∃ (ceremony : Ceremony) (userId : UserId), ceremony.id = id ∧ ceremony.userId = some userId ∧
        now < ceremony.expiresAt ∧
        Since (StartsCeremony ceremony) (EndsCeremony ceremony) older ∧
        (ceremony.kind = .operatorBootstrap → ∀ operatorId credentialId,
          (∃ e' ∈ older, AddsOperator operatorId e') →
            ¬ Since (RegistersPasskey operatorId credentialId) (RevokesPasskey credentialId) older)) ∧
      (∀ hash, capabilityHash = some hash → ∃ given : Capability, given.tokenHash = hash ∧
        now < given.expiresAt ∧ Since (GivesCapability given) (EndsCapability given) older) ∧
      ∀ e' ∈ older, ∀ userId, ¬ RegistersPasskey userId credential.credentialId e' := by
  have he : e ∈ newer ++ e :: older := List.mem_append_right _ List.mem_cons_self
  have hrun := h.storeRun.older
  obtain ⟨s, hs⟩ := hrun.abstracts
  have hready : e.call.Ready env e.pre := by
    have hknows := h.knows he
    obtain ⟨pool, run⟩ := h
    obtain ⟨past, hasks, -⟩ := run.asks_of_mem he
    have hexplained := explained_of_asks hasks
    rw [hcall] at hexplained
    obtain ⟨_, _, _, _, _, hop, -⟩ := hexplained
    have hprepared := prepared_of_asks (by rw [hop]; rfl)
      (by rw [hop]; exact fun text htext => absurd htext List.not_mem_nil) hengine hasks
    rw [hcall] at hprepared hknows ⊢
    exact ⟨hprepared.1, hprepared.2, hknows.1, hknows.2⟩
  have hregistered : s.OperatorRegistered ↔ ∃ operatorId credentialId,
      (∃ e' ∈ older, AddsOperator operatorId e') ∧
        Since (RegistersPasskey operatorId credentialId) (RevokesPasskey credentialId) older := by
    simp only [← hrun.operator_kept_iff hs, ← hrun.passkey_kept_iff hs]
    constructor
    · rintro ⟨rowId, held, user, hheld, huser, hrole⟩
      have hkey := hs.shows.credentials.key_of_entry hheld
      exact ⟨held.userId, held.credentialId, ⟨user, huser, hrole⟩, held, hkey ▸ hheld, rfl, rfl⟩
    · rintro ⟨operatorId, credentialId, ⟨user, huser, hrole⟩, held, hheld, rfl, -⟩
      exact ⟨held.id, held, user, hheld, huser, hrole⟩
  obtain ⟨tid, call, resp, pre, post⟩ := e
  obtain rfl : call = .completeRegistration id capabilityHash credential now audit := hcall
  constructor
  · intro hok
    cases resp with
    | error error => cases hok
    | ok a =>
        obtain ⟨s', hdoes, -⟩ := hs.step hperform
        obtain ⟨ceremony, userId, _, hentry, hlive, howner, hbootstrap, hcapability, -⟩ := hdoes
        obtain rfl := hs.shows.ceremonies.key_of_entry hentry
        refine ⟨⟨ceremony, userId, rfl, howner, hlive, (hrun.ceremony_kept_iff hs ceremony).1 hentry,
          fun hkind operatorId credentialId hoperator hstands => ?_⟩, fun hash hhash => ?_,
          fun e' he' userId hregisters => ?_⟩
        · exact hbootstrap hkind (hregistered.2 ⟨operatorId, credentialId, hoperator, hstands⟩)
        · obtain ⟨given, hgiven, hunexpired⟩ := hcapability hash hhash
          obtain rfl := hs.shows.capabilities.key_of_entry hgiven
          exact ⟨given, rfl, hunexpired, (hrun.capability_kept_iff hs given).1 hgiven⟩
        · -- the new row would have the credential id of an old one
          obtain ⟨k, hk, hid⟩ := (hrun.credential_stored_iff credential.credentialId).2
            ⟨e', he', userId, hregisters⟩
          obtain ⟨_, rowId, owner, hregistration⟩ := completeRegistration_committed hperform
          have hkeys := (perform_consistent hperform hs.consistent).credentialIds
          rw [hregistration.added] at hkeys
          exact hkeys.ne_of_append hk hid
  · rintro ⟨⟨ceremony, userId, rfl, howner, hlive, hstands, hbootstrap⟩, hcapability, hnever⟩
    have hunstored : ∀ k ∈ pre.passkeyCredentials, k.credentialId ≠ credential.credentialId := by
      intro k hk hid
      obtain ⟨e', he', userId, hregisters⟩ :=
        (hrun.credential_stored_iff credential.credentialId).1 ⟨k, hk, hid⟩
      exact hnever e' he' userId hregisters
    refine answered_of_does (a := ()) hperform hlasts hs
      ⟨hready, fun k hk => ⟨hdrawn k hk, hunstored k hk⟩⟩
      ⟨ceremony, userId, env.fresh, (hrun.ceremony_kept_iff hs ceremony).2 hstands, hlive, howner,
        fun hkind hsome => ?_, fun hash hhash => ?_, hs.shows.credentials_fresh hdrawn,
        fun held hheld hid => ?_, rfl⟩
    · obtain ⟨operatorId, credentialId, hoperator, hkept⟩ := hregistered.1 hsome
      exact hbootstrap hkind operatorId credentialId hoperator hkept
    · obtain ⟨given, rfl, hunexpired, hgiven⟩ := hcapability hash hhash
      exact ⟨given, (hrun.capability_kept_iff hs given).2 hgiven, hunexpired⟩
    · obtain ⟨-, k, hk, hkept⟩ := (hs.shows.credentials _ _).1 hheld
      exact hunstored k hk ((StoredCredential.row_of_tryFrom hkept.2).2.2.1.trans hid)

end Accepted

section Sample

attribute [local instance] Reference.crates

/-- An operator registers the passkey "k" and logs in with it. -/
def admissionOperations : ℕ → Operation :=
  sampleOperations (sampleRegistration "k" ++
    [.startAuthentication 3 0 11,
      .finishAuthentication 11 .null 4 (sampleToken 1) (sampleToken 2) 20])

def admissionRun (schedule : List ℕ) :=
  play perform Database.empty
    (fun t => (admissionOperations t).program .default steadyEngine)
    (schedule.map fun t => (t, sampleEnv 30))

theorem admissionRun_history (schedule : List ℕ) :
    History .default steadyEngine admissionOperations (admissionRun schedule).trace
      (admissionRun schedule).state :=
  ⟨_, play_run perform Database.empty _ _⟩

/-- The passkey of the login at 4 was registered and not revoked. -/
theorem login_accepted_iff_sample :
    ∃ e older verification session audit,
      (admissionRun [0, 0, 0, 1, 1, 1, 2, 2, 3, 4, 4, 4, 4]).trace = [] ++ e :: older ∧
      Succeeded e (.completeAuthentication 11 verification session 4 audit) () ∧
      Since (RegistersPasskey session.userId verification.credentialId)
        (RevokesPasskey verification.credentialId) older := by
  obtain ⟨e, older, verification, session, audit, htrace, hdone, hserved⟩ :
      ∃ e older verification session audit,
        (admissionRun [0, 0, 0, 1, 1, 1, 2, 2, 3, 4, 4, 4, 4]).trace = [] ++ e :: older ∧
        Succeeded e (.completeAuthentication 11 verification session 4 audit) () ∧ Served e := by
    refine ⟨_, _, _, _, _, rfl, by rfl, ⟨sampleEnv 30, rfl, rfl, ?_⟩, ?_⟩
    · intro s hs
      cases hs
    · decide +kernel
  have h := admissionRun_history [0, 0, 0, 1, 1, 1, 2, 2, 3, 4, 4, 4, 4]
  rw [htrace] at h
  exact ⟨e, older, verification, session, audit, htrace, hdone,
    ((login_accepted_iff steadyEngine_serves h (congrArg Exchange.call hdone) hserved).1
      hdone.isOk).2⟩

/-- The bootstrap at 2 found no operator with a passkey. -/
theorem registration_accepted_iff_sample :
    ∃ e older credential audit,
      (admissionRun [0, 0, 0, 1, 1, 1, 2, 2]).trace = [] ++ e :: older ∧
      Succeeded e (.completeRegistration 10 none credential 2 audit) () ∧
      ∀ e' ∈ older, ∀ userId, ¬ RegistersPasskey userId credential.credentialId e' := by
  obtain ⟨e, older, credential, audit, htrace, hdone, hperform, hdrawn⟩ :
      ∃ e older credential audit,
        (admissionRun [0, 0, 0, 1, 1, 1, 2, 2]).trace = [] ++ e :: older ∧
        Succeeded e (.completeRegistration 10 none credential 2 audit) () ∧
        perform (sampleEnv 30) e.call e.pre = (e.resp, e.post) ∧
        ∀ k ∈ e.pre.passkeyCredentials, k.id ≠ 30 := by
    refine ⟨_, _, _, _, rfl, by rfl, rfl, ?_⟩
    intro k hk
    cases hk
  have h := admissionRun_history [0, 0, 0, 1, 1, 1, 2, 2]
  rw [htrace] at h
  exact ⟨e, older, credential, audit, htrace, hdone,
    ((registration_accepted_iff steadyEngine_serves h (congrArg Exchange.call hdone)
      rfl hperform hdrawn).1 hdone.isOk).2.2⟩

end Sample

end RsConsole
