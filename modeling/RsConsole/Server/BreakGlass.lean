import RsConsole.Server.Credentials

set_option autoImplicit false

/-! # The break-glass window

A break-glass revokes a credential of the operator and opens a window, a capability with which they
register another one. When the window is over, `start_operator_bootstrap` falls back to the first
operator without a credential, and that can be the same operator: then a passkey is registered with
no capability at all. Registrations stay within the window in the runs that do not take this
fallback. -/

namespace RsConsole

open Library Library.Table Database PgAuthStore

variable {τ : Type}

/-- A bootstrap ceremony is inserted only for a user of whom no credential was revoked. -/
def keepsWindow (e : AuthEvent τ) : Bool :=
  match e.exchange with
  | ⟨.insertCeremony inserted, .ok _⟩ =>
      inserted.kind ≠ .operatorBootstrap || e.pre.passkeyCredentials.all
        (fun c => inserted.userId.map (·.value) ≠ some c.userId || c.revokedAt = none)
  | _ => true

theorem keepsWindow_inserted {e : AuthEvent τ} {ceremony : Ceremony} (h : keepsWindow e = true)
    (hc : Succeeded e (.insertCeremony ceremony) ()) (hkind : ceremony.kind = .operatorBootstrap)
    {u : String} (howner : ceremony.userId.map (·.value) = some u) {c : PasskeyCredential}
    (hmem : c ∈ e.pre.passkeyCredentials) (huser : c.userId = u) : c.revokedAt = none := by
  unfold keepsWindow at h
  rw [hc] at h
  simp only [hkind, ne_eq, not_true_eq_false, decide_false, Bool.false_or, List.all_eq_true,
    Bool.or_eq_true, decide_eq_true_eq] at h
  rcases h c hmem with hne | hnone
  · rw [howner, huser] at hne
    exact absurd rfl hne
  · exact hnone

namespace History

variable [DecidableEq τ] [Crates] {config : AuthConfig} {engine : CeremonyEngine}
  {ops : τ → Operation} {tr : List (AuthEvent τ)} {db : Database} {e e₁ e₂ : AuthEvent τ}
  {u : String}

/-- A row that is new after an event was registered after it. -/
theorem registered_after (h : History config engine ops tr db) (he₁ : e₁ ∈ tr)
    (hother : ∀ id hash credential now audit,
      ¬ Succeeded e₁ (.completeRegistration id hash credential now audit) ())
    {row : PasskeyCredential} (hnew : ∀ a ∈ e₁.post.passkeyCredentials, a.id ≠ row.id)
    (he : e ∈ tr) {userId : String} {ceremonyId : Uuid} {capabilityHash : Option SecretHash}
    {now : DateTime} (hreg : Registered e row.id userId ceremonyId capabilityHash now) :
    Precedes tr e₁ e := by
  obtain ⟨credential, audit, hc, hadded⟩ := hreg
  rcases precedes_total he₁ he with rfl | hprec | hprec
  · exact absurd hc (hother _ _ _ _ _)
  · exact hprec
  · have hrow : credential.row row.id userId now ∈ e.post.passkeyCredentials := by simp [hadded]
    obtain ⟨a, ha, hbecomes⟩ := ((h.evolves_between hprec).trans
      (h.evolves_event he₁)).passkeyCredentials.exists_of_mem hrow
    refine absurd ?_ (hnew a ha)
    rw [hbecomes.fixed]
    rfl

/-- After a break-glass no bootstrap is completed for its operator. -/
theorem not_bootstrapped (h : History config engine ops tr db)
    (hkeeps : ∀ e ∈ tr, keepsWindow e = true) (hprec : Precedes tr e₁ e₂)
    (hinv : InvalidatesUser e₁ u)
    (hrevoked : ∃ c ∈ e₁.post.passkeyCredentials, c.userId = u ∧ c.revokedAt ≠ none)
    {ceremony : AuthCeremony} (hmem : ceremony ∈ e₂.pre.authCeremonies)
    (howner : ceremony.userId = some u) (hlive : ceremony.consumedAt = none) :
    ceremony.kind ≠ "operator_bootstrap" := by
  intro hkind
  obtain ⟨newer, older, heq⟩ := List.append_of_mem hprec.right_mem
  have holder : History config engine ops older e₂.pre := (heq ▸ h).older
  obtain ⟨e, he, inserted, clock, hc, hbecomes, -⟩ := holder.ceremony_origin hmem
  have hbefore : Precedes tr e e₂ := precedes_iff_split.2 ⟨newer, older, heq, he⟩
  have hid : ceremony.id = inserted.id := by rw [hbecomes.fixed]; rfl
  have huser : inserted.userId.map (·.value) = some u := by
    rw [← howner, hbecomes.fixed]
    rfl
  rcases precedes_total hprec.left_mem hbefore.left_mem with rfl | hafter | hbefore₁
  · cases hinv with
    | approveRecovery _ _ _ _ approved => cases approved.unique hc
    | breakGlass _ _ _ _ opened => cases opened.unique hc
    | rotateAllAuthEpochs _ _ _ rotated => cases rotated.unique hc
  · -- inserted after the break-glass, which had revoked a credential
    obtain ⟨c, hcmem, hcuser, hmark⟩ := hrevoked
    obtain ⟨c', hcmem', hcbecomes⟩ :=
      (h.evolves_between hafter).passkeyCredentials.exists_of_mem hcmem
    have hname : ceremonyName inserted.kind = ceremonyName .operatorBootstrap := by
      rw [hbecomes.fixed] at hkind
      exact hkind
    have hnone := keepsWindow_inserted (hkeeps e hafter.right_mem) hc
      (ceremonyName_injective hname) huser hcmem' (by rw [hcbecomes.fixed]; exact hcuser)
    rw [hcbecomes.revoked hmark] at hnone
    exact hmark hnone
  · -- inserted before it, so the break-glass consumed it
    obtain ⟨env, hperform⟩ := h.succeeded hbefore.left_mem hc
    have hrow : inserted.row env.clock ∈ e.post.authCeremonies := by
      simp [insertCeremony_committed hperform]
    obtain ⟨a, ha, hrowa⟩ := (h.evolves_between hbefore₁).authCeremonies.exists_of_mem hrow
    obtain ⟨b, hb, hab, hconsumed⟩ := (h.invalidates hprec.left_mem hinv).ceremonies a ha
      (by rw [hrowa.fixed]; exact huser)
    have hlater : b.Becomes ceremony := (h.evolves_between hprec).becomes_of_ceremonyId
      (h.consistent_pre hprec.right_mem) hb hmem (by
        rw [hab.fixed, hrowa.fixed]
        exact hid)
    rw [hlater.consumed hconsumed] at hlive
    exact hconsumed hlive

end History

/-- **Registrations after a break-glass stay within a window**, as long as no bootstrap is started
    for an operator whose credential was revoked. -/
theorem break_glass_window [DecidableEq τ] [Crates] {config : AuthConfig} {engine : CeremonyEngine}
    {ops : τ → Operation} {tr : List (AuthEvent τ)} {db : Database}
    (h : History config engine ops tr db) (hkeeps : ∀ e ∈ tr, keepsWindow e = true)
    {e₁ : AuthEvent τ} (he₁ : e₁ ∈ tr) {credentialId : Uuid} {opened : Capability}
    {openedAt : DateTime} {reason : String}
    (hopened : Succeeded e₁ (.breakGlass credentialId opened openedAt reason) ())
    {row : PasskeyCredential} (hrow : row ∈ db.passkeyCredentials)
    (huser : row.userId = opened.userId.value)
    (hnew : ∀ a ∈ e₁.post.passkeyCredentials, a.id ≠ row.id) :
    ∃ e₂ ceremonyId hash now capability, Precedes tr e₁ e₂ ∧
      Registered e₂ row.id row.userId ceremonyId (some hash) now ∧
      capability ∈ e₂.pre.authCapabilities ∧ capability.tokenHash = hash.asBytes ∧
      capability.userId = row.userId ∧ capability.consumedAt = none ∧ now < capability.expiresAt ∧
      ∃ b ∈ e₂.post.authCapabilities, capability.Becomes b ∧ b.consumedAt ≠ none := by
  obtain ⟨env, hperform⟩ := h.succeeded he₁ hopened
  obtain ⟨-, hrevoked, -⟩ := breakGlass_committed hperform
  obtain ⟨e₂, he₂, ceremony, capabilityHash, now, hcharged, hcharge⟩ := h.charged hrow
  -- the row is not there when the window opens, so its registration comes later
  have hprec : Precedes tr e₁ e₂ := by
    refine h.registered_after he₁ ?_ hnew he₂ hcharged.registered
    intro id hash credential now audit hc
    cases hopened.unique hc
  cases hcharge with
  | capability hash capability named mem token owner live spent =>
      subst named
      exact ⟨e₂, ceremony.id, hash, now, capability, hprec, hcharged.registered, mem, token, owner,
        live.1, live.2, spent⟩
  | bootstrap _ _ _ _ _ kind =>
      rw [← huser] at hrevoked
      have hinv : InvalidatesUser e₁ row.userId :=
        .breakGlass credentialId opened openedAt reason hopened huser.symm
      exact absurd kind (h.not_bootstrapped hkeeps hprec hinv hrevoked hcharged.mem hcharged.owner
        hcharged.live.1)

section Sample

attribute [local instance] Reference.crates

/-- The event opened a break-glass window for user `u`. -/
def opensWindow (u : String) (e : AuthEvent τ) : Bool :=
  match e.exchange with
  | ⟨.breakGlass _ opened _ _, .ok _⟩ => opened.userId.value = u
  | _ => false

theorem opensWindow_cases {u : String} {e : AuthEvent τ} (h : opensWindow u e = true) :
    ∃ credentialId opened now reason,
      Succeeded e (.breakGlass credentialId opened now reason) () ∧ opened.userId.value = u := by
  unfold opensWindow at h
  split at h
  · next credentialId opened now reason a he =>
      exact ⟨credentialId, opened, now, reason, he, of_decide_eq_true h⟩
  · cases h

/-- The event completed the registration `id` at `now` without a capability. -/
def registersFreely (id : Uuid) (now : DateTime) (e : AuthEvent τ) : Bool :=
  match e.exchange with
  | ⟨.completeRegistration ceremonyId none _ at_ _, .ok _⟩ => ceremonyId = id ∧ at_ = now
  | _ => false

theorem registersFreely_cases {id : Uuid} {now : DateTime} {e : AuthEvent τ}
    (h : registersFreely id now e = true) :
    ∃ credential audit, Succeeded e (.completeRegistration id none credential now audit) () := by
  unfold registersFreely at h
  split at h
  · next ceremonyId credential at_ audit a he =>
      obtain ⟨rfl, rfl⟩ := of_decide_eq_true h
      exact ⟨credential, audit, he⟩
  · cases h

/-- The operator registers credential 30, which a break-glass revokes at time 50 to open a window
    until time 100; they start again at `start` and register credential 31 at `finish`. -/
def sampleBreakGlass (start finish : DateTime) (kind : CeremonyKind) : List Operation :=
  sampleRegistration "k" ++
    [.breakGlass 30 ⟨60, sampleOperator, .operatorRecovery, (sampleToken 7).hash, 100⟩ 50
      "lost platform passkey",
    .startOperatorBootstrap start 0 11,
    .finishRegistration 11 kind (.string "l") finish]

def sampleBreakGlassSchedule : List (ℕ × Uuid) :=
  [(0, 0), (0, 0), (0, 0), (1, 0), (1, 0), (1, 0), (2, 0), (2, 30), (3, 0), (4, 0), (4, 0), (4, 0),
    (5, 31), (5, 31)]

/-- Within the window the operator registers with a capability. -/
theorem break_glass_window_sample :
    ∃ e₁ e₂ ceremonyId hash now capability,
      Precedes (sampleRun (sampleBreakGlass 60 70 .operatorRecovery)
        sampleBreakGlassSchedule).trace e₁ e₂ ∧ opensWindow "operator" e₁ = true ∧
      Registered e₂ 31 "operator" ceremonyId (some hash) now ∧
      capability ∈ e₂.pre.authCapabilities ∧ capability.userId = "operator" ∧
      now < capability.expiresAt := by
  have hkeeps : ∀ e ∈ (sampleRun (sampleBreakGlass 60 70 .operatorRecovery)
      sampleBreakGlassSchedule).trace, keepsWindow e = true :=
    List.all_eq_true.1 (by decide +kernel)
  have hrow : (sampleRun (sampleBreakGlass 60 70 .operatorRecovery)
      sampleBreakGlassSchedule).state.passkeyCredentials.any
        (fun c => c.id = 31 ∧ c.userId = "operator") = true := by decide +kernel
  have hopened : (sampleRun (sampleBreakGlass 60 70 .operatorRecovery)
      sampleBreakGlassSchedule).trace.any (fun e => opensWindow "operator" e = true ∧
        e.post.passkeyCredentials.all (·.id ≠ 31)) = true := by decide +kernel
  obtain ⟨row, hmem, hrow⟩ := List.any_eq_true.1 hrow
  obtain ⟨hid, huser⟩ := of_decide_eq_true hrow
  obtain ⟨e₁, he₁, hopened⟩ := List.any_eq_true.1 hopened
  obtain ⟨hopens, hnew⟩ := of_decide_eq_true hopened
  obtain ⟨credentialId, opened, openedAt, reason, hc, hvalue⟩ := opensWindow_cases hopens
  obtain ⟨e₂, ceremonyId, hash, now, capability, hprec, hreg, hcap, -, howner, -, hlive, -⟩ :=
    break_glass_window (sampleRun_history _ _) hkeeps he₁ hc hmem (huser.trans hvalue.symm) (by
      intro a ha
      rw [hid]
      exact of_decide_eq_true (List.all_eq_true.1 hnew a ha))
  rw [hid, huser] at hreg
  exact ⟨e₁, e₂, ceremonyId, hash, now, capability, hprec, hopens, hreg, hcap,
    howner.trans huser, hlive⟩

/-- After the window the operator registers without any capability. -/
theorem registered_after_window :
    ∃ e₁ e₂ row, History .default sampleEngine
        (sampleOperations (sampleBreakGlass 200 201 .operatorBootstrap))
        (sampleRun (sampleBreakGlass 200 201 .operatorBootstrap) sampleBreakGlassSchedule).trace
        (sampleRun (sampleBreakGlass 200 201 .operatorBootstrap) sampleBreakGlassSchedule).state ∧
      Precedes (sampleRun (sampleBreakGlass 200 201 .operatorBootstrap)
        sampleBreakGlassSchedule).trace e₁ e₂ ∧
      (∃ credentialId opened now reason,
        Succeeded e₁ (.breakGlass credentialId opened now reason) () ∧
          opened.userId.value = "operator") ∧
      (∃ credential audit,
        Succeeded e₂ (.completeRegistration 11 none credential 201 audit) ()) ∧
      row ∈ e₂.post.passkeyCredentials ∧ row.userId = "operator" ∧
      (∀ a ∈ e₂.pre.passkeyCredentials, a.id ≠ row.id) ∧
      ∀ c ∈ e₂.pre.authCapabilities, c.expiresAt ≤ 201 := by
  have hrun : hasChain [fun e => registersFreely 11 201 e = true ∧
        e.post.passkeyCredentials.any (fun c => c.id = 31 ∧ c.userId = "operator") ∧
        e.pre.passkeyCredentials.all (·.id ≠ 31) ∧ e.pre.authCapabilities.all (·.expiresAt ≤ 201),
      opensWindow "operator"]
      (sampleRun (sampleBreakGlass 200 201 .operatorBootstrap) sampleBreakGlassSchedule).trace =
        true := by decide +kernel
  obtain ⟨e₁, e₂, hprec, h₁, h₂⟩ := exists_precedes hrun
  obtain ⟨hregisters, hany, hnew, hover⟩ := of_decide_eq_true h₂
  obtain ⟨row, hrow, hrow'⟩ := List.any_eq_true.1 hany
  obtain ⟨hid, huser⟩ := of_decide_eq_true hrow'
  refine ⟨e₁, e₂, row, sampleRun_history _ _, hprec, opensWindow_cases h₁,
    registersFreely_cases hregisters, hrow, huser, ?_, ?_⟩
  · intro a ha
    rw [hid]
    exact of_decide_eq_true (List.all_eq_true.1 hnew a ha)
  · exact fun c hc => of_decide_eq_true (List.all_eq_true.1 hover c hc)

end Sample

end RsConsole
