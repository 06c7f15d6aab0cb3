import RsConsole.Server.Runs

set_option autoImplicit false

/-! # What stands behind a ceremony

`complete_registration` checks neither whose the capability is nor what it is for: that follows from
how ceremonies are started. `Provenance` says, for each kind of ceremony, which rows its user and
its capability were taken from; it holds of every ceremony in every history, because what it speaks
of never changes. Completions inherit it (`Completion`). -/

namespace RsConsole

open Library Library.Table Database PgAuthStore

variable {τ : Type}

/-- Where the user and the capability of a ceremony come from; `seen` are the events so far. -/
inductive Provenance (ops : τ → Operation) (seen : AuthEvent τ → Prop) (db : Database)
    (row : AuthCeremony) : Prop
  | registration (t : τ) (token : SecretToken) (purpose : CapabilityPurpose) (now : DateTime)
      (seed : ℕ) (capability : AuthCapability)
      (operation : ops t = .startSetupRegistration token purpose now seed row.id)
      (kind : row.kind = "registration") (mem : capability ∈ db.authCapabilities)
      (owner : row.userId = some capability.userId)
      (hash : row.capabilityHash = some capability.tokenHash)
      (purpose_eq : capability.purpose = purposeName purpose)
  | operatorRecovery (capability : AuthCapability) (kind : row.kind = "operator_recovery")
      (mem : capability ∈ db.authCapabilities) (owner : row.userId = some capability.userId)
      (hash : row.capabilityHash = some capability.tokenHash)
      (purpose_eq : capability.purpose = "operator_recovery")
  | operatorBootstrap (e : AuthEvent τ) (now : DateTime) (seed : ℕ) (user : User)
      (operation : ops e.tid = .startOperatorBootstrap now seed row.id)
      (kind : row.kind = "operator_bootstrap") (seen : seen e)
      (start : Succeeded e .operatorWithoutCredential (some user))
      (owner : row.userId = some user.id.value) (hash : row.capabilityHash = none)
  | authentication (kind : row.kind = "authentication") (owner : row.userId = none)
      (hash : row.capabilityHash = none)

theorem Provenance.mono {ops : τ → Operation} {seen seen' : AuthEvent τ → Prop} {db : Database}
    {row : AuthCeremony} (h : Provenance ops seen db row) (hseen : ∀ e, seen e → seen' e) :
    Provenance ops seen' db row := by
  cases h with
  | registration t token purpose now seed capability operation kind mem owner hash purpose_eq =>
      exact .registration t token purpose now seed capability operation kind mem owner hash
        purpose_eq
  | operatorRecovery capability kind mem owner hash purpose_eq =>
      exact .operatorRecovery capability kind mem owner hash purpose_eq
  | operatorBootstrap e now seed user operation kind seen start owner hash =>
      exact .operatorBootstrap e now seed user operation kind (hseen e seen) start owner hash
  | authentication kind owner hash => exact .authentication kind owner hash

section

variable [DecidableEq τ] [Crates] {config : AuthConfig} {engine : CeremonyEngine}
  {ops : τ → Operation} {tr : List (AuthEvent τ)} {db : Database} {e : AuthEvent τ}

/-- What a completed registration is charged to: a capability of its user that was live at that
    moment and is spent with it, or a bootstrap started while no operator had a credential. -/
inductive Charge (ops : τ → Operation) (tr : List (AuthEvent τ)) (e : AuthEvent τ)
    (capabilityHash : Option SecretHash) (now : DateTime) (ceremony : AuthCeremony)
    (userId : String) : Prop
  | capability (hash : SecretHash) (capability : AuthCapability)
      (named : capabilityHash = some hash) (mem : capability ∈ e.pre.authCapabilities)
      (token : capability.tokenHash = hash.asBytes) (owner : capability.userId = userId)
      (live : capability.Live now)
      (spent : ∃ b ∈ e.post.authCapabilities, capability.Becomes b ∧ b.consumedAt ≠ none)
      (purpose : (ceremony.kind = "registration" ∧ ∃ t token purpose now seed,
          ops t = .startSetupRegistration token purpose now seed ceremony.id ∧
            capability.purpose = purposeName purpose) ∨
        (ceremony.kind = "operator_recovery" ∧ capability.purpose = "operator_recovery"))
  | bootstrap (start : AuthEvent τ) (now : DateTime) (seed : ℕ) (user : User)
      (operation : ops start.tid = .startOperatorBootstrap now seed ceremony.id)
      (kind : ceremony.kind = "operator_bootstrap")
      (named : capabilityHash = none) (before : Precedes tr start e)
      (started : Succeeded start .operatorWithoutCredential (some user))
      (owner : user.id.value = userId) (none : e.pre.operatorCredentials = [])

namespace History

/-- A capability that was read before is still there, for the same user and purpose. -/
theorem capability_kept (h : History config engine ops tr db) (he : e ∈ tr)
    {capability : AuthCapability} (hmem : capability ∈ e.pre.authCapabilities) :
    ∃ c ∈ db.authCapabilities, c.userId = capability.userId ∧ c.tokenHash = capability.tokenHash ∧
      c.purpose = capability.purpose := by
  obtain ⟨c, hc, hbecomes⟩ := (h.evolves_from he).authCapabilities.exists_of_mem hmem
  exact ⟨c, hc, by rw [hbecomes.fixed], by rw [hbecomes.fixed], by rw [hbecomes.fixed]⟩

/-- **Every ceremony has a provenance.** -/
theorem provenance (h : History config engine ops tr db) {row : AuthCeremony}
    (hrow : row ∈ db.authCeremonies) : Provenance ops (· ∈ tr) db row := by
  obtain ⟨e, he, ceremony, clock, hc, hbecomes, -⟩ := h.ceremony_origin hrow
  obtain ⟨past, hstarts, hback, -⟩ := h.explained_of_succeeded he hc
  have hid : row.id = ceremony.id := by rw [hbecomes.fixed]; rfl
  have hkind : row.kind = ceremonyName ceremony.kind := by rw [hbecomes.fixed]; rfl
  have howner : row.userId = ceremony.userId.map (·.value) := by rw [hbecomes.fixed]; rfl
  have hhash : row.capabilityHash = ceremony.capabilityHash.map (·.asBytes) := by
    rw [hbecomes.fixed]
    rfl
  cases hstarts with
  | registration token purpose now seed capability user operation found owner kind userId hash =>
      obtain ⟨e₁, hprec₁, -, hc₁⟩ := hback _ _ found
      obtain ⟨env₁, hperform₁⟩ := h.succeeded hprec₁.left_mem hc₁
      obtain ⟨row₁, hrow₁, -, hpurpose, -, hdecodes₁⟩ := capability_found hperform₁
      obtain ⟨e₂, hprec₂, -, hc₂⟩ := hback _ _ owner
      obtain ⟨env₂, hperform₂⟩ := h.succeeded hprec₂.left_mem hc₂
      obtain ⟨row₂, -, huserid, hdecodes₂⟩ := userById_found hperform₂
      obtain ⟨c, hcap, huser, htoken, hsame⟩ := h.capability_kept hprec₁.left_mem hrow₁
      -- the user that was read is the capability's
      have hvalue : user.id.value = capability.userId.value :=
        hdecodes₂.id.symm.trans huserid
      refine .registration e.tid token purpose now seed c (hid ▸ operation) ?_ hcap ?_ ?_ ?_
      · rw [hkind, kind]
        rfl
      · rw [howner, userId, huser, hdecodes₁.userId]
        exact congrArg some hvalue
      · rw [hhash, hash, htoken, hdecodes₁.tokenHash]
        rfl
      · rw [hsame, hpurpose]
  | operatorRecovery now seed user hash operation found kind userId capabilityHash =>
      obtain ⟨e₁, hprec₁, -, hc₁⟩ := hback _ _ found
      obtain ⟨env₁, hperform₁⟩ := h.succeeded hprec₁.left_mem hc₁
      obtain ⟨capability, hmem, row₁, -, hpurpose, -, huserid, -, -, htoken₁, hdecodes⟩ :=
        operatorRecoveryWindow_found hperform₁
      obtain ⟨c, hcap, huser, htoken, hsame⟩ := h.capability_kept hprec₁.left_mem hmem
      refine .operatorRecovery c ?_ hcap ?_ ?_ ?_
      · rw [hkind, kind]
        rfl
      · rw [howner, userId, huser, ← huserid, hdecodes.id]
        rfl
      · rw [hhash, capabilityHash, htoken, htoken₁]
        rfl
      · rw [hsame, hpurpose]
  | operatorBootstrap now seed user operation found kind userId capabilityHash =>
      obtain ⟨e₁, hprec₁, htid, hc₁⟩ := hback _ _ found
      refine .operatorBootstrap e₁ now seed user ?_ ?_ hprec₁.left_mem hc₁ ?_ ?_
      · rw [htid, hid]
        exact operation
      · rw [hkind, kind]
        rfl
      · rw [howner, userId]
        rfl
      · rw [hhash, capabilityHash]
        rfl
  | authentication now seed operation kind userId capabilityHash =>
      refine .authentication ?_ ?_ ?_
      · rw [hkind, kind]
        rfl
      · rw [howner, userId]
        rfl
      · rw [hhash, capabilityHash]
        rfl

theorem provenance_pre (h : History config engine ops tr db) (he : e ∈ tr) {row : AuthCeremony}
    (hrow : row ∈ e.pre.authCeremonies) : Provenance ops (Precedes tr · e) e.pre row := by
  obtain ⟨newer, older, rfl⟩ := List.append_of_mem he
  exact (h.older.provenance hrow).mono
    (fun e₀ hmem => precedes_iff_split.2 ⟨newer, older, rfl, hmem⟩)

/-! ## Completed registrations -/

/-- A completed registration, with the operation that completed it. -/
structure Completed (ops : τ → Operation) (tr : List (AuthEvent τ)) (e : AuthEvent τ)
    (ceremonyId : Uuid) (capabilityHash : Option SecretHash) (credential : VerifiedCredential)
    (now : DateTime) (ceremony : AuthCeremony) (id : Uuid) (userId : String)
    (kind : CeremonyKind) : Prop
    extends Registration ceremonyId capabilityHash credential now e.pre e.post ceremony id userId
    where
  operation : ∃ response, ops e.tid = .finishRegistration ceremonyId kind response now
  kind_eq : ceremony.kind = ceremonyName kind
  hash_eq : ceremony.capabilityHash = capabilityHash.map (·.asBytes)
  provenance : Provenance ops (Precedes tr · e) e.pre ceremony

theorem completed (h : History config engine ops tr db) (he : e ∈ tr) {ceremonyId : Uuid}
    {capabilityHash : Option SecretHash} {credential : VerifiedCredential} {now : DateTime}
    {audit : AuditEvent}
    (hc : Succeeded e (.completeRegistration ceremonyId capabilityHash credential now audit) ()) :
    ∃ ceremony id userId kind,
      Completed ops tr e ceremonyId capabilityHash credential now ceremony id userId kind := by
  obtain ⟨env, hperform⟩ := h.succeeded he hc
  obtain ⟨ceremony, id, userId, hreg⟩ := completeRegistration_committed hperform
  obtain ⟨past, ⟨asked, kind, response, read, owner, hop, found, hid, hhash, -, -⟩, hback, -⟩ :=
    h.explained_of_succeeded he hc
  obtain ⟨e₁, hprec, -, hc₁⟩ := hback _ _ found
  obtain ⟨env₁, hperform₁⟩ := h.succeeded hprec.left_mem hc₁
  obtain ⟨row, hrow, hasked, hkind, -, hdecodes⟩ := ceremony_found hperform₁
  -- the ceremony that was read is the one that is spent
  have hbecomes : row.Becomes ceremony :=
    ((h.evolves_event hprec.left_mem).trans (h.evolves_between hprec)).becomes_of_ceremonyId
      (h.consistent_pre he) hrow hreg.mem (hreg.ceremony_id.trans (hid.trans hdecodes.id.symm))
  refine ⟨ceremony, id, userId, kind, hreg, ⟨response, ?_⟩, ?_, ?_, h.provenance_pre he hreg.mem⟩
  · rw [hop, hid, ← hdecodes.id, hasked]
  · rw [hbecomes.fixed, ← hkind]
  · rw [hbecomes.fixed, hhash, ← hdecodes.capabilityHash]

namespace Completed

variable {ceremonyId : Uuid} {capabilityHash : Option SecretHash} {credential : VerifiedCredential}
  {now : DateTime} {ceremony : AuthCeremony} {id : Uuid} {userId : String} {kind : CeremonyKind}

omit [DecidableEq τ] [Crates] in
/-- A login ceremony names no user, so no registration spends one. -/
theorem kind_ne (c : Completed ops tr e ceremonyId capabilityHash credential now ceremony id userId
    kind) : kind ≠ .authentication := by
  rintro rfl
  have howner := c.owner
  cases c.provenance with
  | registration _ _ _ _ _ _ _ hkind => exact absurd (c.kind_eq.symm.trans hkind) (by decide)
  | operatorRecovery _ hkind => exact absurd (c.kind_eq.symm.trans hkind) (by decide)
  | operatorBootstrap _ _ _ _ _ hkind => exact absurd (c.kind_eq.symm.trans hkind) (by decide)
  | authentication _ hnone => cases hnone.symm.trans howner

/-- The capability that stands behind the ceremony is the one that its completion spends. -/
theorem spends (h : History config engine ops tr db) (he : e ∈ tr)
    (c : Completed ops tr e ceremonyId capabilityHash credential now ceremony id userId kind)
    {capability : AuthCapability} (hmem : capability ∈ e.pre.authCapabilities)
    (hhash : ceremony.capabilityHash = some capability.tokenHash) :
    ∃ hash, capabilityHash = some hash ∧ capability.tokenHash = hash.asBytes ∧
      capability.Live now ∧
      ∃ b ∈ e.post.authCapabilities, capability.Becomes b ∧ b.consumedAt ≠ none := by
  obtain ⟨hash, rfl, htoken⟩ := Option.map_eq_some_iff.1 (c.hash_eq.symm.trans hhash)
  obtain ⟨spent, hspent, htoken', hlive, hconsumed⟩ := c.spentCapability hash rfl
  obtain rfl : spent = capability :=
    (h.consistent_pre he).capabilityHashes.eq_of_mem hspent hmem (htoken'.trans htoken)
  exact ⟨hash, rfl, htoken', hlive, hconsumed⟩

/-- **What a registration is charged to.** -/
theorem charge (h : History config engine ops tr db) (he : e ∈ tr)
    (c : Completed ops tr e ceremonyId capabilityHash credential now ceremony id userId kind) :
    Charge ops tr e capabilityHash now ceremony userId := by
  cases c.provenance with
  | registration t token purpose now' seed capability operation hkind hmem howner hhash
      hpurpose =>
      obtain ⟨hash, hnamed, htoken, hlive, hspent⟩ := c.spends h he hmem hhash
      exact .capability hash capability hnamed hmem htoken
        (Option.some.inj (howner.symm.trans c.owner)) hlive hspent
        (Or.inl ⟨hkind, t, token, purpose, now', seed, operation, hpurpose⟩)
  | operatorRecovery capability hkind hmem howner hhash hpurpose =>
      obtain ⟨hash, hnamed, htoken, hlive, hspent⟩ := c.spends h he hmem hhash
      exact .capability hash capability hnamed hmem htoken
        (Option.some.inj (howner.symm.trans c.owner)) hlive hspent (Or.inr ⟨hkind, hpurpose⟩)
  | operatorBootstrap start now' seed user operation hkind hstart hstarted howner hhash =>
      refine .bootstrap start now' seed user operation hkind ?_ hstart hstarted
        (Option.some.inj (howner.symm.trans c.owner)) (c.bootstrap hkind)
      exact Option.map_eq_none_iff.1 (c.hash_eq.symm.trans hhash)
  | authentication _ howner => cases howner.symm.trans c.owner

end Completed

end History

end

end RsConsole
