import RsConsole.Server.AuditLog
import RsConsole.Server.Counters

set_option autoImplicit false

/-! # Every row decodes

Rows are written from typed values, and no update touches a column that a decoder checks. So
whatever a run has written can be read: the decoders fail on rows that something else wrote, and
never on these. A recovery has no value of its own when it is read; its user exists, and the id of
an existing user decodes. -/

namespace RsConsole

open Library Library.Table Database PgAuthStore

variable {τ : Type}

/-- Every row decodes, and every recovery belongs to a user. -/
structure Database.Readable (db : Database) : Prop where
  users : ∀ u ∈ db.humanUsers, ∃ user, User.tryFrom u = .ok user
  credentials : ∀ c ∈ db.passkeyCredentials, ∃ credential, StoredCredential.tryFrom c = .ok credential
  capabilities : ∀ c ∈ db.authCapabilities, ∃ capability, Capability.tryFrom c = .ok capability
  ceremonies : ∀ c ∈ db.authCeremonies, ∃ ceremony, Ceremony.tryFrom c = .ok ceremony
  sessions : ∀ s ∈ db.authSessions, ∃ csrfHash, SecretHash.fromSlice s.csrfHash = .ok csrfHash
  recoveries : ∀ r ∈ db.recoveryRequests, ∃ request, RecoveryRequest.tryFrom r = .ok request
  requested : ∀ r ∈ db.recoveryRequests, db.hasUser r.userId = true

/-! ## Written values -/

theorem SecretHash.fromSlice_asBytes (hash : SecretHash) :
    SecretHash.fromSlice hash.asBytes = .ok hash := by
  obtain ⟨hash', h⟩ := SecretHash.fromSlice_of_length hash.length_asBytes
  rw [h, SecretHash.asBytes_injective (SecretHash.fromSlice_ok h)]

theorem parsePurpose_purposeName (purpose : CapabilityPurpose) :
    parsePurpose (purposeName purpose) = .ok purpose := by
  cases purpose <;> rfl

theorem parseCeremonyKind_ceremonyName (kind : CeremonyKind) :
    parseCeremonyKind (ceremonyName kind) = .ok kind := by
  cases kind <;> rfl

/-- A capability, also a consumed one. -/
theorem Capability.tryFrom_row (capability : Capability) (clock : DateTime)
    (consumedAt : Option DateTime) :
    Capability.tryFrom { capability.row clock with consumedAt } = .ok capability := by
  simp only [Capability.tryFrom, Capability.row, parseUserId_value, parsePurpose_purposeName,
    SecretHash.fromSlice_asBytes]
  rfl

/-- A ceremony, also a consumed one. -/
theorem Ceremony.tryFrom_row (ceremony : Ceremony) (clock : DateTime)
    (consumedAt : Option DateTime) :
    Ceremony.tryFrom { ceremony.row clock with consumedAt } = .ok ceremony := by
  obtain ⟨id, kind, userId, capabilityHash, state, expiresAt⟩ := ceremony
  have huser : transpose parseUserId (userId.map (·.value)) = .ok userId := by
    cases userId with
    | none => rfl
    | some userId => simp only [Option.map_some, transpose, parseUserId_value, Except.map]
  have hhash : transpose SecretHash.fromSlice (capabilityHash.map (·.asBytes)) =
      .ok capabilityHash := by
    cases capabilityHash with
    | none => rfl
    | some hash =>
        simp only [Option.map_some, transpose, SecretHash.fromSlice_asBytes, Except.map]
  simp only [Ceremony.tryFrom, Ceremony.row, parseCeremonyKind_ceremonyName, huser, hhash]
  rfl

theorem parseUserId_of_user {u : HumanUser} {user : User} (h : User.tryFrom u = .ok user) :
    parseUserId u.id = .ok user.id := by
  obtain ⟨id, hid, h⟩ := except_bind_ok h
  obtain ⟨role, -, h⟩ := except_bind_ok h
  cases h
  exact hid

theorem StoredCredential.tryFrom_of_user {c : PasskeyCredential} {userId : UserId}
    (h : parseUserId c.userId = .ok userId) :
    ∃ credential, StoredCredential.tryFrom c = .ok credential := by
  simp only [StoredCredential.tryFrom, h]
  exact ⟨_, rfl⟩

theorem RecoveryRequest.tryFrom_of_user {r : Database.RecoveryRequest} {userId : UserId}
    (h : parseUserId r.userId = .ok userId) :
    ∃ request, RecoveryRequest.tryFrom r = .ok request := by
  simp only [RecoveryRequest.tryFrom, h]
  exact ⟨_, rfl⟩

/-! ## What commits write -/

namespace Commits

variable {env : Env} {db db' : Database} {c : AuthCall}

/-- A row after an update is an old row, or one that the update has rewritten. -/
theorem old_of_update {ρ : Type} {p : ρ → Bool} {f : ρ → ρ} {rows : List ρ} {r' : ρ}
    {Q : ρ → ρ → Prop} (hr' : r' ∈ updateWhere p f rows) (hrefl : ∀ r, Q r r)
    (hf : ∀ r, Q r (f r)) : ∃ r ∈ rows, Q r r' := by
  obtain ⟨r, hr, rfl⟩ := mem_updateWhere.1 hr'
  refine ⟨r, hr, ?_⟩
  split
  · exact hf r
  · exact hrefl r

/-- A credential is stored for the user of the ceremony that it completes. -/
theorem passkeyCredentials_cases (h : Commits env db c db') :
    ∀ k' ∈ db'.passkeyCredentials, (∃ k ∈ db.passkeyCredentials, k.userId = k'.userId) ∨
      ∃ ceremony ∈ db.authCeremonies, ceremony.userId = some k'.userId := by
  intro k' hk'
  have hupdated : ∀ {p : PasskeyCredential → Bool} {f : PasskeyCredential → PasskeyCredential},
      k' ∈ updateWhere p f db.passkeyCredentials → (∀ k, k.userId = (f k).userId) →
      ∃ k ∈ db.passkeyCredentials, k.userId = k'.userId :=
    fun hmem hf => old_of_update (Q := fun k k' => k.userId = k'.userId) hmem (fun _ => rfl) hf
  cases h with
  | completeRegistration _ _ _ _ _ ceremony userId mem _ _ owner =>
      rcases List.mem_append.1 hk' with hk' | hk'
      · exact Or.inl ⟨k', hk', rfl⟩
      · cases List.mem_singleton.1 hk'
        exact Or.inr ⟨ceremony, mem, owner⟩
  | completeAuthentication => exact Or.inl (hupdated hk' fun _ => rfl)
  | breakGlass => exact Or.inl (hupdated hk' fun _ => rfl)
  | _ => exact Or.inl ⟨k', hk', rfl⟩

/-- A capability is written from a value, and marked. -/
theorem authCapabilities_cases (h : Commits env db c db') :
    ∀ k' ∈ db'.authCapabilities,
      (∃ k ∈ db.authCapabilities, k' = { k with consumedAt := k'.consumedAt }) ∨
        ∃ (capability : Capability) (clock : DateTime), k' = capability.row clock := by
  intro k' hk'
  have hinserted : ∀ {rows : List AuthCapability} {capability : Capability} {clock : DateTime},
      k' ∈ rows ++ [capability.row clock] →
      (k' ∈ rows → ∃ k ∈ db.authCapabilities, k' = { k with consumedAt := k'.consumedAt }) →
      (∃ k ∈ db.authCapabilities, k' = { k with consumedAt := k'.consumedAt }) ∨
        ∃ (capability : Capability) (clock : DateTime), k' = capability.row clock := by
    intro rows capability clock hmem hold
    rcases List.mem_append.1 hmem with hmem | hmem
    · exact Or.inl (hold hmem)
    · exact Or.inr ⟨capability, clock, List.mem_singleton.1 hmem⟩
  have hupdated : ∀ {p : AuthCapability → Bool} {f : AuthCapability → AuthCapability},
      k' ∈ updateWhere p f db.authCapabilities →
      (∀ k, f k = { k with consumedAt := (f k).consumedAt }) →
      ∃ k ∈ db.authCapabilities, k' = { k with consumedAt := k'.consumedAt } :=
    fun hmem hf => old_of_update (Q := fun k k' => k' = { k with consumedAt := k'.consumedAt }) hmem
      (fun _ => rfl) hf
  have hsame : k' ∈ db.authCapabilities →
      ∃ k ∈ db.authCapabilities, k' = { k with consumedAt := k'.consumedAt } :=
    fun hmem => ⟨k', hmem, rfl⟩
  cases h with
  | insertCapability => exact hinserted hk' hsame
  | approveUserWithSetup => exact hinserted hk' hsame
  | issueRecoverySetup => exact hinserted hk' hsame
  | breakGlass =>
      exact hinserted hk' fun hmem => hupdated hmem fun _ => rfl
  | rotateAllAuthEpochs => exact Or.inl (hupdated hk' fun _ => rfl)
  | completeRegistration => exact Or.inl (hupdated hk' fun _ => rfl)
  | approveRecovery => exact Or.inl (hupdated hk' fun _ => rfl)
  | _ => exact Or.inl (hsame hk')

/-- A ceremony is written from a value, and marked. -/
theorem authCeremonies_cases (h : Commits env db c db') :
    ∀ k' ∈ db'.authCeremonies,
      (∃ k ∈ db.authCeremonies, k' = { k with consumedAt := k'.consumedAt }) ∨
        ∃ (ceremony : Ceremony) (clock : DateTime), k' = ceremony.row clock := by
  intro k' hk'
  have hupdated : ∀ {p : AuthCeremony → Bool} {f : AuthCeremony → AuthCeremony},
      k' ∈ updateWhere p f db.authCeremonies →
      (∀ k, f k = { k with consumedAt := (f k).consumedAt }) →
      ∃ k ∈ db.authCeremonies, k' = { k with consumedAt := k'.consumedAt } :=
    fun hmem hf => old_of_update (Q := fun k k' => k' = { k with consumedAt := k'.consumedAt }) hmem
      (fun _ => rfl) hf
  cases h with
  | insertCeremony ceremony =>
      rcases List.mem_append.1 hk' with hk' | hk'
      · exact Or.inl ⟨k', hk', rfl⟩
      · exact Or.inr ⟨ceremony, _, List.mem_singleton.1 hk'⟩
  | rotateAllAuthEpochs => exact Or.inl (hupdated hk' fun _ => rfl)
  | completeRegistration => exact Or.inl (hupdated hk' fun _ => rfl)
  | completeAuthentication => exact Or.inl (hupdated hk' fun _ => rfl)
  | approveRecovery => exact Or.inl (hupdated hk' fun _ => rfl)
  | breakGlass => exact Or.inl (hupdated hk' fun _ => rfl)
  | _ => exact Or.inl ⟨k', hk', rfl⟩

end Commits

/-! ## Runs -/

namespace StoreRun

variable [DecidableEq τ] {out : τ → Type} {start : (t : τ) → Program AuthCall AuthCall.Answer (out t)}
  {tr : List (AuthEvent τ)} {db : Database}

/-- What every commit keeps of a database, a run keeps. -/
theorem invariant {P : Database → Prop} (h : StoreRun start tr db) (hempty : P Database.empty)
    (hcommits : ∀ env c a b, Commits env a c b → P a → P b) : P db := by
  refine h.induct (P := fun _ db => P db) hempty ?_
  intro e tr _ hpost ih
  rcases hpost.commits_event List.mem_cons_self with hsame | ⟨env, hcommit⟩
  · rw [hsame]
    exact ih
  · exact hcommits env e.call e.pre e.post hcommit ih

/-- Every capability was written from a value. -/
theorem capabilities_written (h : StoreRun start tr db) : ∀ k ∈ db.authCapabilities,
    ∃ (capability : Capability) (clock : DateTime),
      k = { capability.row clock with consumedAt := k.consumedAt } := by
  refine h.invariant (P := fun db => ∀ k ∈ db.authCapabilities,
    ∃ (capability : Capability) (clock : DateTime),
      k = { capability.row clock with consumedAt := k.consumedAt }) (fun k hk => nomatch hk) ?_
  intro env c a b hcommits ih k' hk'
  rcases hcommits.authCapabilities_cases k' hk' with ⟨k, hk, hsame⟩ | ⟨capability, clock, rfl⟩
  · obtain ⟨capability, clock, hrow⟩ := ih k hk
    refine ⟨capability, clock, ?_⟩
    rw [hsame, hrow]
  · exact ⟨capability, clock, rfl⟩

/-- Every ceremony was written from a value. -/
theorem ceremonies_written (h : StoreRun start tr db) : ∀ k ∈ db.authCeremonies,
    ∃ (ceremony : Ceremony) (clock : DateTime),
      k = { ceremony.row clock with consumedAt := k.consumedAt } := by
  refine h.invariant (P := fun db => ∀ k ∈ db.authCeremonies,
    ∃ (ceremony : Ceremony) (clock : DateTime),
      k = { ceremony.row clock with consumedAt := k.consumedAt }) (fun k hk => nomatch hk) ?_
  intro env c a b hcommits ih k' hk'
  rcases hcommits.authCeremonies_cases k' hk' with ⟨k, hk, hsame⟩ | ⟨ceremony, clock, rfl⟩
  · obtain ⟨ceremony, clock, hrow⟩ := ih k hk
    refine ⟨ceremony, clock, ?_⟩
    rw [hsame, hrow]
  · exact ⟨ceremony, clock, rfl⟩

/-- Every credential is stored for a user id. -/
theorem credentials_written (h : StoreRun start tr db) : ∀ k ∈ db.passkeyCredentials,
    ∃ userId : UserId, k.userId = userId.value := by
  refine h.induct (P := fun _ db => ∀ k ∈ db.passkeyCredentials,
    ∃ userId : UserId, k.userId = userId.value) (fun k hk => nomatch hk) ?_
  intro e tr hpre hpost ih k' hk'
  rcases hpost.commits_event List.mem_cons_self with hsame | ⟨env, hcommits⟩
  · rw [hsame] at hk'
    exact ih k' hk'
  rcases hcommits.passkeyCredentials_cases k' hk' with ⟨k, hk, hid⟩ | ⟨k, hk, howner⟩
  · rw [← hid]
    exact ih k hk
  · obtain ⟨ceremony, clock, hrow⟩ := hpre.ceremonies_written k hk
    rw [hrow] at howner
    obtain ⟨userId, -, hvalue⟩ := Option.map_eq_some_iff.1 howner
    exact ⟨userId, hvalue.symm⟩

end StoreRun

namespace History

variable [DecidableEq τ] [Crates] {config : AuthConfig} {engine : CeremonyEngine}
  {ops : τ → Operation} {tr : List (AuthEvent τ)} {db : Database} {e : AuthEvent τ}

/-- **Every row ever written decodes.** -/
theorem readable (h : History config engine ops tr db) : Database.Readable db where
  users := h.users_decode
  credentials := by
    intro k hk
    obtain ⟨userId, hid⟩ := h.storeRun.credentials_written k hk
    have hparse : parseUserId k.userId = .ok userId := by rw [hid, parseUserId_value]
    exact StoredCredential.tryFrom_of_user hparse
  capabilities := by
    intro k hk
    obtain ⟨capability, clock, hrow⟩ := h.storeRun.capabilities_written k hk
    rw [hrow]
    exact ⟨capability, capability.tryFrom_row clock _⟩
  ceremonies := by
    intro k hk
    obtain ⟨ceremony, clock, hrow⟩ := h.storeRun.ceremonies_written k hk
    rw [hrow]
    exact ⟨ceremony, ceremony.tryFrom_row clock _⟩
  sessions := fun s hs => SecretHash.fromSlice_of_length (h.csrfHashes_decode s hs)
  recoveries := by
    intro r hr
    obtain ⟨u, hu, hid⟩ := hasUser_iff.1 (h.raisesUsers.requests r hr)
    obtain ⟨user, huser⟩ := h.users_decode u hu
    have hparse : parseUserId r.userId = .ok user.id := by rw [← hid, parseUserId_of_user huser]
    exact RecoveryRequest.tryFrom_of_user hparse
  requested := h.raisesUsers.requests

theorem readable_pre (h : History config engine ops tr db) (he : e ∈ tr) :
    Database.Readable e.pre := by
  obtain ⟨newer, older, rfl⟩ := List.append_of_mem he
  exact h.older.readable

end History

end RsConsole
