import RsConsole.Server.History

set_option autoImplicit false

/-! # What a committed call did

For each method of the repository that the results below reason about: what its answer says about
the rows it read, and what a successful call changed. -/

namespace RsConsole

open Library Library.Table Database

/-! ## Decoded rows -/

theorem parseUserId_ok {value : String} {id : UserId} (h : parseUserId value = .ok id) :
    value = id.value := by
  unfold parseUserId OpaqueId.new at h
  split at h
  · cases h
    rfl
  · cases h

theorem parseRole_ok {value : String} {role : Role} (h : parseRole value = .ok role) :
    value = roleName role := by
  unfold parseRole at h
  split at h
  · cases h
    assumption
  split at h
  · cases h
    assumption
  · cases h

theorem parsePurpose_ok {value : String} {purpose : CapabilityPurpose}
    (h : parsePurpose value = .ok purpose) : value = purposeName purpose := by
  unfold parsePurpose at h
  split at h
  · cases h
    assumption
  split at h
  · cases h
    assumption
  split at h
  · cases h
    assumption
  · cases h

theorem parseCeremonyKind_ok {value : String} {kind : CeremonyKind}
    (h : parseCeremonyKind value = .ok kind) : value = ceremonyName kind := by
  unfold parseCeremonyKind at h
  split at h
  · cases h
    assumption
  split at h
  · cases h
    assumption
  split at h
  · cases h
    assumption
  split at h
  · cases h
    assumption
  · cases h

theorem ceremonyName_injective : Function.Injective ceremonyName := by
  intro a b h
  cases a <;> cases b <;> first | rfl | exact absurd h (by decide)

theorem transpose_some {α β : Type} {f : α → Except AuthError β} {o : Option α} {b : β}
    (h : transpose f o = .ok (some b)) : ∃ a, o = some a ∧ f a = .ok b := by
  cases o with
  | none => cases h
  | some a =>
      refine ⟨a, rfl, ?_⟩
      simp only [transpose] at h
      cases hf : f a with
      | error e =>
          rw [hf] at h
          cases h
      | ok b' =>
          rw [hf] at h
          cases h
          rfl

theorem transpose_map {α β : Type} {f : α → Except AuthError β} {g : β → α}
    (hf : ∀ a b, f a = .ok b → a = g b) {o : Option α} {o' : Option β}
    (h : transpose f o = .ok o') : o = o'.map g := by
  cases o with
  | none =>
      cases h
      rfl
  | some a =>
      simp only [transpose] at h
      cases hfa : f a with
      | error e =>
          rw [hfa] at h
          cases h
      | ok b =>
          rw [hfa] at h
          cases h
          exact congrArg some (hf a b hfa)

/-- What a decoded user says about its row. -/
structure User.Decodes (user : User) (row : HumanUser) : Prop where
  id : row.id = user.id.value
  webauthnHandle : row.webauthnHandle = user.webauthnHandle
  role : row.role = roleName user.role
  enabled : row.enabled = user.enabled
  authEpoch : row.authEpoch = user.authEpoch

/-- What a decoded capability says about its row. -/
structure Capability.Decodes (capability : Capability) (row : AuthCapability) : Prop where
  id : row.id = capability.id
  userId : row.userId = capability.userId.value
  purpose : row.purpose = purposeName capability.purpose
  tokenHash : row.tokenHash = capability.tokenHash.asBytes

/-- What a decoded ceremony says about its row. -/
structure Ceremony.Decodes (ceremony : Ceremony) (row : AuthCeremony) : Prop where
  id : row.id = ceremony.id
  kind : row.kind = ceremonyName ceremony.kind
  userId : row.userId = ceremony.userId.map (·.value)
  capabilityHash : row.capabilityHash = ceremony.capabilityHash.map (·.asBytes)

theorem User.decodes_of_tryFrom {row : HumanUser} {user : User} (h : User.tryFrom row = .ok user) :
    user.Decodes row := by
  obtain ⟨id, hid, h⟩ := except_bind_ok h
  obtain ⟨role, hrole, h⟩ := except_bind_ok h
  cases h
  exact ⟨parseUserId_ok hid, rfl, parseRole_ok hrole, rfl, rfl⟩

theorem Capability.decodes_of_tryFrom {row : AuthCapability} {capability : Capability}
    (h : Capability.tryFrom row = .ok capability) : capability.Decodes row := by
  obtain ⟨userId, huser, h⟩ := except_bind_ok h
  obtain ⟨purpose, hpurpose, h⟩ := except_bind_ok h
  obtain ⟨tokenHash, hhash, h⟩ := except_bind_ok h
  cases h
  exact ⟨rfl, parseUserId_ok huser, parsePurpose_ok hpurpose, SecretHash.fromSlice_ok hhash⟩

theorem Ceremony.decodes_of_tryFrom {row : AuthCeremony} {ceremony : Ceremony}
    (h : Ceremony.tryFrom row = .ok ceremony) : ceremony.Decodes row := by
  obtain ⟨kind, hkind, h⟩ := except_bind_ok h
  obtain ⟨userId, huser, h⟩ := except_bind_ok h
  obtain ⟨capabilityHash, hhash, h⟩ := except_bind_ok h
  cases h
  exact ⟨rfl, parseCeremonyKind_ok hkind, transpose_map (fun _ _ => parseUserId_ok) huser,
    transpose_map (fun _ _ => SecretHash.fromSlice_ok) hhash⟩

/-! ## Yields -/

namespace Repo

variable {α β : Type} {db db' : Database} {r : Except AuthError α} {a : α}

theorem yields_execute_ok {stmt : Statement α} (h : Tx.Yields (execute stmt) db (.ok a) db') :
    stmt db = .ok (a, db') :=
  Tx.yields_exec_ok h

theorem yields_fetch_ok {q : Database → α} (h : Tx.Yields (fetch q) db (.ok a) db') :
    a = q db ∧ db' = db := by
  have hselect := yields_execute_ok h
  cases hselect
  exact ⟨rfl, rfl⟩

/-- A query's answer is decoded from the row it found. -/
theorem yields_query {q : Database → Option β} {f : β → Except AuthError α}
    (h : Tx.Yields (do let row ← fetch q; Tx.ofExcept (transpose f row) : Repo (Option α)) db
      (.ok (some a)) db') : ∃ row, q db = some row ∧ f row = .ok a := by
  obtain ⟨row, db₁, hfetch, hdecode⟩ := Tx.yields_bind_ok h
  obtain ⟨rfl, rfl⟩ := yields_fetch_ok hfetch
  exact transpose_some (Tx.yields_ofExcept hdecode).1.symm

theorem evolves_of_yields {x : Repo α} (tables : List TableName) (h : Tx.Yields x db r db')
    (hx : OnlyWrites tables x) : Evolves db db' :=
  (hx _ _ _ h).evolves

theorem lasts_execute {stmt : Statement α} {Q : Except AuthError α → Database → Prop}
    (h : stmt db = .ok (a, db')) (hq : Q (.ok a) db') : Tx.Lasts (execute stmt) Q db :=
  Tx.lasts_exec_of_ok h hq

theorem lasts_fetch {q : Database → α} {Q : Except AuthError α → Database → Prop}
    (hq : Q (.ok (q db)) db) : Tx.Lasts (fetch q) Q db :=
  lasts_execute rfl hq

end Repo

namespace PgAuthStore

open Repo

variable {env : Env} {db db' : Database} {now : DateTime}

/-- On a connection that lasts, a call is answered with what its method comes to. -/
theorem perform_of_lasts {c : AuthCall} {r : c.Answer} {Q : c.Answer → Database → Prop}
    (h : perform env c db = (r, db')) (hlasts : env.left = none)
    (hmethod : Tx.Lasts (method env c) Q db) : Q r db' := by
  unfold perform at h
  rw [hlasts] at h
  obtain ⟨r', db'', heq, hq⟩ := hmethod
  rw [heq] at h
  obtain ⟨rfl, rfl⟩ := Prod.mk.inj h
  exact hq

/-! ## Answers of queries -/

theorem userById_found {id : UserId} {user : User}
    (h : perform env (.userById id) db = (.ok (some user), db')) :
    ∃ row ∈ db.humanUsers, row.id = id.value ∧ user.Decodes row := by
  obtain ⟨row, hrow, hdecode⟩ := yields_query (yields_of_perform h)
  obtain ⟨hmem, hrow⟩ := mem_of_find hrow
  exact ⟨row, hmem, hrow, User.decodes_of_tryFrom hdecode⟩

theorem userByHandle_found {handle : Uuid} {user : User}
    (h : perform env (.userByHandle handle) db = (.ok (some user), db')) :
    ∃ row ∈ db.humanUsers, row.webauthnHandle = handle ∧ user.Decodes row := by
  obtain ⟨row, hrow, hdecode⟩ := yields_query (yields_of_perform h)
  obtain ⟨hmem, hrow⟩ := mem_of_find hrow
  exact ⟨row, hmem, hrow, User.decodes_of_tryFrom hdecode⟩

theorem operatorWithoutCredential_found {user : User}
    (h : perform env .operatorWithoutCredential db = (.ok (some user), db')) :
    ∃ row ∈ db.humanUsers, row.role = "operator" ∧ row.enabled = true ∧
      db.operatorCredentials = [] ∧ user.Decodes row := by
  obtain ⟨row, hrow, hdecode⟩ := yields_query (yields_of_perform h)
  have hmem := List.mem_of_head? hrow
  rw [mem_orderBy, List.mem_filter, decide_eq_true_eq] at hmem
  obtain ⟨hrow, hrole, henabled, hnone⟩ := hmem
  exact ⟨row, hrow, hrole, henabled, hnone, User.decodes_of_tryFrom hdecode⟩

theorem operatorRecoveryWindow_found {user : User} {hash : SecretHash}
    (h : perform env (.operatorRecoveryWindow now) db = (.ok (some (user, hash)), db')) :
    ∃ capability ∈ db.authCapabilities, ∃ row ∈ db.humanUsers,
      capability.purpose = "operator_recovery" ∧ capability.Live now ∧
      row.id = capability.userId ∧ row.role = "operator" ∧ row.enabled = true ∧
      capability.tokenHash = hash.asBytes ∧ user.Decodes row := by
  obtain ⟨⟨capability, row⟩, hrow, hdecode⟩ := yields_query (yields_of_perform h)
  have hmem := List.mem_of_head? hrow
  rw [mem_join, mem_orderBy, List.mem_filter, List.mem_filter, decide_eq_true_eq,
    decide_eq_true_eq, decide_eq_true_eq] at hmem
  obtain ⟨⟨hcapability, hpurpose, hlive⟩, ⟨hrow, hrole, henabled⟩, hid⟩ := hmem
  obtain ⟨hash', hhash, hdecode⟩ := except_bind_ok hdecode
  obtain ⟨user', huser, hdecode⟩ := except_bind_ok hdecode
  cases hdecode
  exact ⟨capability, hcapability, row, hrow, hpurpose, hlive, hid, hrole, henabled,
    SecretHash.fromSlice_ok hhash, User.decodes_of_tryFrom huser⟩

theorem capability_found {hash : SecretHash} {purpose : CapabilityPurpose}
    {capability : Capability}
    (h : perform env (.capability hash purpose now) db = (.ok (some capability), db')) :
    ∃ row ∈ db.authCapabilities, row.tokenHash = hash.asBytes ∧
      row.purpose = purposeName purpose ∧ row.Live now ∧ capability.Decodes row := by
  obtain ⟨row, hrow, hdecode⟩ := yields_query (yields_of_perform h)
  obtain ⟨hmem, hhash, hpurpose, hlive⟩ := mem_of_find hrow
  exact ⟨row, hmem, hhash, hpurpose, hlive,
    Capability.decodes_of_tryFrom hdecode⟩

theorem ceremony_found {id : Uuid} {kind : CeremonyKind} {ceremony : Ceremony}
    (h : perform env (.ceremony id kind now) db = (.ok (some ceremony), db')) :
    ∃ row ∈ db.authCeremonies, row.id = id ∧ row.kind = ceremonyName kind ∧ row.Live now ∧
      ceremony.Decodes row := by
  obtain ⟨row, hrow, hdecode⟩ := yields_query (yields_of_perform h)
  obtain ⟨hmem, hid, hkind, hlive⟩ := mem_of_find hrow
  exact ⟨row, hmem, hid, hkind, hlive,
    Ceremony.decodes_of_tryFrom hdecode⟩

/-- A principal is built from a session and its user that satisfy the query's condition. -/
theorem useSession_found {tokenHash : SecretHash} {touch : AuthSession → Statement Unit}
    {principal : AuthSession × HumanUser → Except AuthError SessionPrincipal}
    {p : SessionPrincipal} (hid : ∀ row q, principal row = .ok q → q.sessionId = row.1.id)
    (h : Tx.Yields (useSession tokenHash now touch principal) db (.ok (some p)) db') :
    ∃ s ∈ db.authSessions, ∃ u ∈ db.humanUsers, s.id = p.sessionId ∧
      SessionFound tokenHash.asBytes now s u := by
  obtain ⟨found, db₁, htransaction, hdecode⟩ := Tx.yields_bind_ok h
  obtain ⟨row, rfl, hrow⟩ := transpose_some (Tx.yields_ofExcept hdecode).1.symm
  obtain ⟨found, db₂, hfetch, hrest⟩ := Tx.yields_bind_ok (Tx.yields_transaction_ok htransaction)
  obtain ⟨rfl, rfl⟩ := yields_fetch_ok hfetch
  cases hsession : Database.session tokenHash.asBytes now db₂ with
  | none =>
      rw [hsession] at hrest
      cases (Tx.yields_pure hrest).1
  | some row' =>
      rw [hsession] at hrest
      obtain ⟨u, db₃, htouch, hpure⟩ := Tx.yields_bind_ok hrest
      cases (Tx.yields_pure hpure).1
      have hmem := List.mem_of_head? hsession
      rw [mem_join, decide_eq_true_eq] at hmem
      exact ⟨row.1, hmem.1, row.2, hmem.2.1, (hid row p hrow).symm, hmem.2.2⟩

theorem session_found {tokenHash : SecretHash} {idleExpiresAt : DateTime} {p : SessionPrincipal}
    (h : perform env (.session tokenHash now idleExpiresAt) db = (.ok (some p), db')) :
    ∃ s ∈ db.authSessions, ∃ u ∈ db.humanUsers, s.id = p.sessionId ∧
      SessionFound tokenHash.asBytes now s u := by
  have hsession : Tx.Yields (session tokenHash now idleExpiresAt) db _ db' := yields_of_perform h
  unfold session at hsession
  refine useSession_found (fun row q hq => ?_) hsession
  obtain ⟨user, -, hq⟩ := except_bind_ok hq
  obtain ⟨csrfHash, -, hq⟩ := except_bind_ok hq
  cases hq
  rfl

theorem rotateSessionCsrf_found {tokenHash csrfHash : SecretHash} {idleExpiresAt : DateTime}
    {p : SessionPrincipal}
    (h : perform env (.rotateSessionCsrf tokenHash csrfHash now idleExpiresAt) db =
      (.ok (some p), db')) :
    ∃ s ∈ db.authSessions, ∃ u ∈ db.humanUsers, s.id = p.sessionId ∧
      SessionFound tokenHash.asBytes now s u := by
  have hrotate : Tx.Yields (rotateSessionCsrf tokenHash csrfHash now idleExpiresAt) db _ db' :=
    yields_of_perform h
  unfold rotateSessionCsrf at hrotate
  refine useSession_found (fun row q hq => ?_) hrotate
  obtain ⟨user, -, hq⟩ := except_bind_ok hq
  cases hq
  rfl

/-! ## Invalidation -/

/-- Between the two databases everything that user `u` was authenticated by was invalidated. -/
structure Invalidates (u : String) (db db' : Database) : Prop where
  epoch : ∀ a ∈ db.humanUsers, a.id = u →
    ∃ b ∈ db'.humanUsers, a.Becomes b ∧ a.authEpoch < b.authEpoch
  sessions : ∀ a ∈ db.authSessions, a.userId = u →
    ∃ b ∈ db'.authSessions, a.Becomes b ∧ b.revokedAt ≠ none
  ceremonies : ∀ a ∈ db.authCeremonies, a.userId = some u →
    ∃ b ∈ db'.authCeremonies, a.Becomes b ∧ b.consumedAt ≠ none
  capabilities : ∀ a ∈ db.authCapabilities, a.userId = u →
    ∃ b ∈ db'.authCapabilities, a.Becomes b ∧ b.consumedAt ≠ none

/-- What was invalidated in between stays so. -/
theorem Invalidates.mono {u : String} {db₀ db db' db₁ : Database} (h : Invalidates u db db')
    (before : Evolves db₀ db) (after : Evolves db' db₁) : Invalidates u db₀ db₁ where
  epoch := by
    intro a ha hid
    obtain ⟨b, hb, hab⟩ := before.humanUsers.exists_of_mem ha
    obtain ⟨c, hc, hbc, hlt⟩ := h.epoch b hb (by rw [hab.fixed]; exact hid)
    obtain ⟨d, hd, hcd⟩ := after.humanUsers.exists_of_mem hc
    exact ⟨d, hd, (hab.trans hbc).trans hcd, (hab.epoch.trans_lt hlt).trans_le hcd.epoch⟩
  sessions := by
    intro a ha hid
    obtain ⟨b, hb, hab⟩ := before.authSessions.exists_of_mem ha
    obtain ⟨c, hc, hbc, hmark⟩ := h.sessions b hb (by rw [hab.fixed]; exact hid)
    obtain ⟨d, hd, hcd⟩ := after.authSessions.exists_of_mem hc
    exact ⟨d, hd, (hab.trans hbc).trans hcd, by rwa [hcd.revoked hmark]⟩
  ceremonies := by
    intro a ha hid
    obtain ⟨b, hb, hab⟩ := before.authCeremonies.exists_of_mem ha
    obtain ⟨c, hc, hbc, hmark⟩ := h.ceremonies b hb (by rw [hab.fixed]; exact hid)
    obtain ⟨d, hd, hcd⟩ := after.authCeremonies.exists_of_mem hc
    exact ⟨d, hd, (hab.trans hbc).trans hcd, by rwa [hcd.consumed hmark]⟩
  capabilities := by
    intro a ha hid
    obtain ⟨b, hb, hab⟩ := before.authCapabilities.exists_of_mem ha
    obtain ⟨c, hc, hbc, hmark⟩ := h.capabilities b hb (by rw [hab.fixed]; exact hid)
    obtain ⟨d, hd, hcd⟩ := after.authCapabilities.exists_of_mem hc
    exact ⟨d, hd, (hab.trans hbc).trans hcd, by rwa [hcd.consumed hmark]⟩

theorem becomes_advanced (a : HumanUser) (now : DateTime) :
    a.Becomes { a with authEpoch := a.authEpoch + 1, updatedAt := now } :=
  ⟨rfl, Int.le_of_lt (Int.lt_succ a.authEpoch)⟩

/-- A row that an update marks unless it is marked already. -/
theorem exists_marked {ρ : Type} {Becomes : ρ → ρ → Prop} {mark : ρ → Option DateTime}
    {p : ρ → Bool} {f : ρ → ρ} {rows : List ρ} (hrefl : ∀ a, Becomes a a)
    (hf : ∀ a, mark a = none → Becomes a (f a) ∧ mark (f a) ≠ none) {a : ρ} (ha : a ∈ rows)
    (hp : p a = true) :
    ∃ b ∈ updateWhere (fun a => p a && decide (mark a = none)) f rows,
      Becomes a b ∧ mark b ≠ none := by
  by_cases hmark : mark a = none
  · refine ⟨f a, mem_updateWhere.2 ⟨a, ha, ?_⟩, hf a hmark⟩
    simp [hp, hmark]
  · refine ⟨a, mem_updateWhere.2 ⟨a, ha, ?_⟩, hrefl a, hmark⟩
    simp [hmark]

/-- The four updates of an invalidation, on the rows of `u` at least. -/
theorem invalidates_of_updates {u : String} {db db' : Database} {now : DateTime}
    {pu : HumanUser → Bool} {ps : AuthSession → Bool} {pc : AuthCeremony → Bool}
    {pk : AuthCapability → Bool} (hu : ∀ a, a.id = u → pu a = true)
    (hs : ∀ a, a.userId = u → ps a = true) (hc : ∀ a, a.userId = some u → pc a = true)
    (hk : ∀ a, a.userId = u → pk a = true)
    {n : ℕ} {u₁ u₂ u₃ : Unit} {db₁ db₂ db₃ : Database}
    (h₁ : advanceEpochs pu now db = .ok (n, db₁)) (h₂ : revokeSessions ps now db₁ = .ok (u₁, db₂))
    (h₃ : consumeCeremonies pc now db₂ = .ok (u₂, db₃))
    (h₄ : consumeCapabilities pk now db₃ = .ok (u₃, db')) : Invalidates u db db' := by
  cases advanceEpochs_ok h₁
  cases h₂
  cases h₃
  cases h₄
  refine ⟨?_, ?_, ?_, ?_⟩
  · intro a ha hid
    refine ⟨_, mem_updateWhere.2 ⟨a, ha, rfl⟩, ?_⟩
    rw [if_pos (hu a hid)]
    exact ⟨becomes_advanced a now, Int.lt_succ a.authEpoch⟩
  · intro a ha hid
    exact exists_marked AuthSession.becomes_refl
      (fun s hs => ⟨⟨rfl, .of_none hs⟩, Option.some_ne_none now⟩) ha (hs a hid)
  · intro a ha hid
    exact exists_marked AuthCeremony.becomes_refl
      (fun c hc => ⟨⟨rfl, .of_none hc⟩, Option.some_ne_none now⟩) ha (hc a hid)
  · intro a ha hid
    exact exists_marked AuthCapability.becomes_refl
      (fun c hc => ⟨⟨rfl, .of_none hc⟩, Option.some_ne_none now⟩) ha (hk a hid)

theorem invalidateUserAuth_ok {u : String} {a : Unit}
    (h : Tx.Yields (invalidateUserAuth u now) db (.ok a) db') : Invalidates u db db' := by
  obtain ⟨n, db₁, h₁, h⟩ := Tx.yields_bind_ok h
  obtain ⟨_, db₂, h₂, h⟩ := Tx.yields_bind_ok h
  obtain ⟨_, db₃, h₃, h₄⟩ := Tx.yields_bind_ok h
  exact invalidates_of_updates (fun _ ha => decide_eq_true ha) (fun _ ha => decide_eq_true ha)
    (fun _ ha => decide_eq_true ha) (fun _ ha => decide_eq_true ha) (yields_execute_ok h₁)
    (yields_execute_ok h₂) (yields_execute_ok h₃) (yields_execute_ok h₄)

theorem approveRecovery_committed {recoveryId : Uuid} {operatorId : UserId}
    (h : perform env (.approveRecovery recoveryId operatorId now) db = (.ok (), db')) :
    ∃ r ∈ db.recoveryRequests, r.id = recoveryId ∧ r.Pending ∧ Invalidates r.userId db db' := by
  obtain ⟨approved, db₁, happrove, h⟩ :=
    Tx.yields_bind_ok (Tx.yields_transaction_ok (yields_of_perform h))
  obtain ⟨userId, db₂, huser, h⟩ := Tx.yields_bind_ok h
  obtain ⟨_, db₃, hinvalidate, hrest⟩ := Tx.yields_bind_ok h
  have hwrite : Write [] db db₁ := approveRequest_write (yields_execute_ok happrove)
  obtain ⟨rfl, rfl⟩ := Tx.yields_okOr huser
  obtain ⟨hfound, -⟩ := approveRequest_ok (yields_execute_ok happrove)
  obtain ⟨r, hr, rfl⟩ := Option.map_eq_some_iff.1 hfound.symm
  have hmem := List.mem_of_head? hr
  rw [List.mem_filter, decide_eq_true_eq] at hmem
  have hafter : Evolves db₃ db' := evolves_of_yields [.authAuditEvents] hrest
    (onlyWrites_bind (onlyWrites_ofExcept _) fun _ => onlyWrites_insertAudit (by simp) _ _)
  exact ⟨r, hmem.1, hmem.2.1, hmem.2.2,
    (invalidateUserAuth_ok hinvalidate).mono hwrite.evolves hafter⟩

theorem rotateAllAuthEpochs_committed {reason : String} {n : ℕ}
    (h : perform env (.rotateAllAuthEpochs now reason) db = (.ok n, db')) (u : String) :
    Invalidates u db db' := by
  obtain ⟨users, db₁, h₁, h⟩ := Tx.yields_bind_ok (Tx.yields_transaction_ok (yields_of_perform h))
  obtain ⟨_, db₂, h₂, h⟩ := Tx.yields_bind_ok h
  obtain ⟨_, db₃, h₃, h⟩ := Tx.yields_bind_ok h
  obtain ⟨_, db₄, h₄, hrest⟩ := Tx.yields_bind_ok h
  have hafter : Evolves db₄ db' := evolves_of_yields [.authAuditEvents] hrest
    (onlyWrites_bind (onlyWrites_insertAudit (by simp) _ _) fun _ => onlyWrites_pure _)
  refine (invalidates_of_updates ?_ ?_ ?_ ?_ (yields_execute_ok h₁) (yields_execute_ok h₂)
    (yields_execute_ok h₃) (yields_execute_ok h₄)).mono (evolves_refl db) hafter
  all_goals exact fun _ _ => rfl

/-- A break-glass revoked a credential of the operator, invalidated everything else and issued the
    capability. -/
theorem breakGlass_committed {credentialId : Uuid} {capability : Capability} {reason : String}
    (h : perform env (.breakGlass credentialId capability now reason) db = (.ok (), db')) :
    Invalidates capability.userId.value db db' ∧
      (∃ c ∈ db'.passkeyCredentials, c.userId = capability.userId.value ∧ c.revokedAt ≠ none) ∧
      ∃ user ∈ db.humanUsers, user.id = capability.userId.value ∧ user.role = "operator" := by
  obtain ⟨revoked, db₁, hrevoke, h⟩ :=
    Tx.yields_bind_ok (Tx.yields_transaction_ok (yields_of_perform h))
  obtain ⟨userId, db₂, huser, h⟩ := Tx.yields_bind_ok h
  obtain ⟨_, db₃, hensure, h⟩ := Tx.yields_bind_ok h
  obtain ⟨_, db₄, hinvalidate, hrest⟩ := Tx.yields_bind_ok h
  obtain ⟨rfl, rfl⟩ := Tx.yields_okOr huser
  obtain ⟨hsame, rfl⟩ := Tx.yields_ensure hensure
  have hwrite : Write [] db db₃ := revokeOperatorCredential_write (yields_execute_ok hrevoke)
  have hafter : Evolves db₄ db' :=
    evolves_of_yields [.authCapabilities, .authAuditEvents] hrest
      (onlyWrites_bind (onlyWrites_insertAuthCapability (by simp) _) fun _ =>
        onlyWrites_insertAudit (by simp) _ _)
  have hinvalidates := invalidateUserAuth_ok hinvalidate
  have hbetween : Evolves db₃ db₄ :=
    evolves_of_yields [] hinvalidate (onlyWrites_invalidateUserAuth _ _)
  rw [hsame]
  refine ⟨hinvalidates.mono hwrite.evolves hafter, ?_⟩
  -- the credential that the update revoked
  have hstmt := yields_execute_ok hrevoke
  simp only [revokeOperatorCredential, Except.ok.injEq, Prod.mk.injEq] at hstmt
  obtain ⟨hfound, hdb₃⟩ := hstmt
  obtain ⟨c, hc, rfl⟩ := Option.map_eq_some_iff.1 hfound
  have hmem := List.mem_of_head? hc
  rw [List.mem_filter, decide_eq_true_eq] at hmem
  obtain ⟨hmem, hsel⟩ := hmem
  have hrevoked : { c with revokedAt := some now } ∈ db₃.passkeyCredentials := by
    rw [← hdb₃]
    exact mem_updateWhere.2 ⟨c, hmem, (if_pos (decide_eq_true hsel)).symm⟩
  obtain ⟨-, -, user, hu, huser, hrole⟩ := hsel
  obtain ⟨c', hc', hbecomes⟩ :=
    (hbetween.trans hafter).passkeyCredentials.exists_of_mem hrevoked
  refine ⟨⟨c', hc', by rw [hbecomes.fixed], ?_⟩, user, hu, huser, hrole⟩
  rw [hbecomes.revoked (Option.some_ne_none now)]
  exact Option.some_ne_none now

theorem deleteSession_committed {tokenHash : SecretHash}
    (h : perform env (.deleteSession tokenHash) db = (.ok (), db')) :
    ∀ a ∈ db.authSessions, a.tokenHash = tokenHash.asBytes →
      ∃ b ∈ db'.authSessions, a.Becomes b ∧ b.revokedAt ≠ none := by
  intro a ha hhash
  have hdelete : Tx.Yields (deleteSession env tokenHash) db _ db' := yields_of_perform h
  unfold deleteSession at hdelete
  cases yields_execute_ok hdelete
  exact exists_marked AuthSession.becomes_refl
    (fun s hs => ⟨⟨rfl, .of_none hs⟩, Option.some_ne_none _⟩) ha (decide_eq_true hhash)

/-! ## Ceremonies -/

theorem insertCeremony_committed {ceremony : Ceremony}
    (h : perform env (.insertCeremony ceremony) db = (.ok (), db')) :
    db' = { db with authCeremonies := db.authCeremonies ++ [ceremony.row env.clock] } :=
  (insertAuthCeremony_ok (yields_execute_ok (yields_of_perform h))).1

theorem insertCeremony_failed {ceremony : Ceremony} {e : AuthError}
    (h : perform env (.insertCeremony ceremony) db = (.error e, db')) : db' = db :=
  Tx.yields_exec_error (yields_of_perform h)

/-- A committed registration: the ceremony and the capability it spent and the credential it
    added. -/
structure Registration (ceremonyId : Uuid) (capabilityHash : Option SecretHash)
    (credential : VerifiedCredential) (now : DateTime) (db db' : Database)
    (ceremony : AuthCeremony) (id : Uuid) (userId : String) : Prop where
  mem : ceremony ∈ db.authCeremonies
  ceremony_id : ceremony.id = ceremonyId
  live : ceremony.Live now
  owner : ceremony.userId = some userId
  bootstrap : ceremony.kind = "operator_bootstrap" → db.operatorCredentials = []
  spentCeremony : ∃ b ∈ db'.authCeremonies, ceremony.Becomes b ∧ b.consumedAt ≠ none
  spentCapability : ∀ hash, capabilityHash = some hash → ∃ capability ∈ db.authCapabilities,
    capability.tokenHash = hash.asBytes ∧ capability.Live now ∧
      ∃ b ∈ db'.authCapabilities, capability.Becomes b ∧ b.consumedAt ≠ none
  added : db'.passkeyCredentials = db.passkeyCredentials ++ [credential.row id userId now]

theorem consumeCeremony_ok {id : Uuid} {owner : Option String × String} {db db' : Database}
    (h : consumeCeremony id now db = .ok (some owner, db')) :
    db' = { db with authCeremonies := db'.authCeremonies } ∧
      ∃ ceremony ∈ db.authCeremonies, ceremony.id = id ∧ ceremony.Live now ∧
        owner = (ceremony.userId, ceremony.kind) ∧
        ∃ b ∈ db'.authCeremonies, ceremony.Becomes b ∧ b.consumedAt ≠ none := by
  simp only [consumeCeremony, Except.ok.injEq, Prod.mk.injEq] at h
  obtain ⟨hfound, rfl⟩ := h
  obtain ⟨c, hc, rfl⟩ := Option.map_eq_some_iff.1 hfound
  have hmem := List.mem_of_head? hc
  rw [List.mem_filter, decide_eq_true_eq] at hmem
  obtain ⟨hmem, hsel⟩ := hmem
  refine ⟨rfl, c, hmem, hsel.1, hsel.2, rfl, { c with consumedAt := some now }, ?_, ?_⟩
  · exact mem_updateWhere.2 ⟨c, hmem, (if_pos (decide_eq_true hsel)).symm⟩
  · exact ⟨⟨rfl, .of_none hsel.2.1⟩, Option.some_ne_none now⟩

theorem consumeAuthentication_ok {id : Uuid} {db db' : Database}
    (h : consumeAuthentication id now db = .ok (1, db')) :
    db' = { db with authCeremonies := db'.authCeremonies } ∧
      ∃ ceremony ∈ db.authCeremonies, ceremony.id = id ∧ ceremony.kind = "authentication" ∧
        ceremony.Live now ∧
        ∃ b ∈ db'.authCeremonies, ceremony.Becomes b ∧ b.consumedAt ≠ none := by
  simp only [consumeAuthentication, Except.ok.injEq, Prod.mk.injEq] at h
  obtain ⟨hone, rfl⟩ := h
  obtain ⟨c, hc⟩ := List.length_eq_one_iff.1 hone
  have hmem := List.mem_singleton_self c
  rw [← hc, List.mem_filter, decide_eq_true_eq] at hmem
  obtain ⟨hmem, hsel⟩ := hmem
  refine ⟨rfl, c, hmem, hsel.1, hsel.2.1, hsel.2.2, { c with consumedAt := some now }, ?_, ?_⟩
  · exact mem_updateWhere.2 ⟨c, hmem, (if_pos (decide_eq_true hsel)).symm⟩
  · exact ⟨⟨rfl, .of_none hsel.2.2.1⟩, Option.some_ne_none now⟩

theorem consumeCapability_ok {hash : List UInt8} {db db' : Database}
    (h : consumeCapability hash now db = .ok (1, db')) :
    db' = { db with authCapabilities := db'.authCapabilities } ∧
      ∃ capability ∈ db.authCapabilities, capability.tokenHash = hash ∧ capability.Live now ∧
        ∃ b ∈ db'.authCapabilities, capability.Becomes b ∧ b.consumedAt ≠ none := by
  simp only [consumeCapability, Except.ok.injEq, Prod.mk.injEq] at h
  obtain ⟨hone, rfl⟩ := h
  obtain ⟨c, hc⟩ := List.length_eq_one_iff.1 hone
  have hmem := List.mem_singleton_self c
  rw [← hc, List.mem_filter, decide_eq_true_eq] at hmem
  obtain ⟨hmem, hsel⟩ := hmem
  refine ⟨rfl, c, hmem, hsel.1, hsel.2, { c with consumedAt := some now }, ?_, ?_⟩
  · exact mem_updateWhere.2 ⟨c, hmem, (if_pos (decide_eq_true hsel)).symm⟩
  · exact ⟨⟨rfl, .of_none hsel.2.1⟩, Option.some_ne_none now⟩

theorem spentCeremony_ok {spent : Option (Option String × String)} {owner : String × String}
    (h : Tx.Yields (spentCeremony spent) db (.ok owner) db') :
    spent = some (some owner.1, owner.2) ∧ db' = db := by
  rcases spent with _ | ⟨_ | userId, kind⟩
  · cases (Tx.yields_fail h).1
  · cases (Tx.yields_fail h).1
  · obtain ⟨howner, rfl⟩ := Tx.yields_pure h
    cases howner
    exact ⟨rfl, rfl⟩

theorem checkBootstrap_ok {kind : String} {u : Unit}
    (h : Tx.Yields (checkBootstrap kind) db (.ok u) db') :
    (kind = "operator_bootstrap" → db.operatorCredentials = []) ∧ db' = db := by
  unfold checkBootstrap at h
  split at h
  · obtain ⟨n, db₁, hfetch, hensure⟩ := Tx.yields_bind_ok h
    obtain ⟨rfl, rfl⟩ := yields_fetch_ok hfetch
    obtain ⟨hzero, rfl⟩ := Tx.yields_ensure hensure
    exact ⟨fun _ => List.length_eq_zero_iff.1 hzero, rfl⟩
  · next hkind => exact ⟨fun hk => absurd hk hkind, (Tx.yields_pure h).2⟩

theorem spendCapability_ok {capabilityHash : Option SecretHash} {u : Unit}
    (h : Tx.Yields (spendCapability capabilityHash now) db (.ok u) db') :
    db' = { db with authCapabilities := db'.authCapabilities } ∧
      ∀ hash, capabilityHash = some hash → ∃ capability ∈ db.authCapabilities,
        capability.tokenHash = hash.asBytes ∧ capability.Live now ∧
          ∃ b ∈ db'.authCapabilities, capability.Becomes b ∧ b.consumedAt ≠ none := by
  cases capabilityHash with
  | none =>
      obtain ⟨-, rfl⟩ := Tx.yields_pure h
      exact ⟨rfl, fun hash hhash => nomatch hhash⟩
  | some hash =>
      obtain ⟨n, db₁, hconsume, hensure⟩ := Tx.yields_bind_ok h
      obtain ⟨rfl, rfl⟩ := Tx.yields_ensure hensure
      obtain ⟨hframe, hspent⟩ := consumeCapability_ok (yields_execute_ok hconsume)
      refine ⟨hframe, fun hash' hhash => ?_⟩
      cases hhash
      exact hspent

theorem completeRegistration_committed {ceremonyId : Uuid} {capabilityHash : Option SecretHash}
    {credential : VerifiedCredential} {audit : AuditEvent}
    (h : perform env (.completeRegistration ceremonyId capabilityHash credential now audit) db =
      (.ok (), db')) :
    ∃ ceremony id userId,
      Registration ceremonyId capabilityHash credential now db db' ceremony id userId := by
  obtain ⟨_, db₀, hlock, hbody⟩ :=
    Tx.yields_bind_ok (Tx.yields_transaction_ok (yields_of_perform h))
  obtain ⟨spent, db₁, hconsume, hbody⟩ := Tx.yields_bind_ok hbody
  obtain ⟨⟨userId, kind⟩, db₂, hspent, hbody⟩ := Tx.yields_bind_ok hbody
  obtain ⟨_, db₃, hcheck, hbody⟩ := Tx.yields_bind_ok hbody
  obtain ⟨_, db₄, hspend, hbody⟩ := Tx.yields_bind_ok hbody
  obtain ⟨_, db₅, hinsert, hbody⟩ := Tx.yields_bind_ok hbody
  obtain ⟨_, db₆, hcomplete, haudit⟩ := Tx.yields_bind_ok hbody
  obtain ⟨-, hdb₀⟩ := yields_fetch_ok hlock
  obtain ⟨rfl, hdb₂⟩ := spentCeremony_ok hspent
  obtain ⟨hbootstrap, hdb₃⟩ := checkBootstrap_ok hcheck
  obtain ⟨hdb₄, hcapability⟩ := spendCapability_ok hspend
  obtain ⟨hdb₁, ceremony, hmem, hid, hlive, howner, b, hb, hbecomes⟩ :=
    consumeCeremony_ok (yields_execute_ok hconsume)
  obtain ⟨hdb₅, -⟩ := insertPasskeyCredential_ok (Tx.yields_exec_ok hinsert)
  obtain ⟨howner, rfl⟩ := Prod.mk.inj howner
  -- from here every state is written in terms of the first and the last
  subst hdb₀ hdb₂ hdb₃
  cases yields_execute_ok hcomplete
  cases insertAuthAuditEvent_ok (yields_execute_ok haudit)
  rw [hdb₁] at hbootstrap hcapability hdb₄
  rw [hdb₄] at hdb₅
  refine ⟨ceremony, env.fresh, userId, hmem, hid, hlive, howner.symm, hbootstrap, ?_, ?_, ?_⟩
  · refine ⟨b, ?_, hbecomes⟩
    rw [hdb₅]
    exact hb
  · rw [hdb₅]
    exact hcapability
  · rw [hdb₅]

/-- A registration that fails at any point changes nothing. -/
theorem completeRegistration_failed {ceremonyId : Uuid} {capabilityHash : Option SecretHash}
    {credential : VerifiedCredential} {audit : AuditEvent} {e : AuthError}
    (h : perform env (.completeRegistration ceremonyId capabilityHash credential now audit) db =
      (.error e, db')) : db' = db :=
  Tx.yields_transaction_error (yields_of_perform h)

/-- A committed login: the ceremony it spent and the session it added. -/
structure Login (ceremonyId : Uuid) (session : SessionRecord) (now : DateTime)
    (db db' : Database) (ceremony : AuthCeremony) : Prop where
  mem : ceremony ∈ db.authCeremonies
  ceremony_id : ceremony.id = ceremonyId
  kind : ceremony.kind = "authentication"
  live : ceremony.Live now
  spentCeremony : ∃ b ∈ db'.authCeremonies, ceremony.Becomes b ∧ b.consumedAt ≠ none
  credential : ∃ c ∈ db.passkeyCredentials, c.userId = session.userId.value ∧ c.revokedAt = none
  added : db'.authSessions = db.authSessions ++ [session.row now]

theorem completeAuthentication_committed {ceremonyId : Uuid}
    {verification : AuthenticationVerification} {session : SessionRecord} {audit : AuditEvent}
    (h : perform env (.completeAuthentication ceremonyId verification session now audit) db =
      (.ok (), db')) : ∃ ceremony, Login ceremonyId session now db db' ceremony := by
  obtain ⟨consumed, db₁, hconsume, hbody⟩ :=
    Tx.yields_bind_ok (Tx.yields_transaction_ok (yields_of_perform h))
  obtain ⟨_, db₂, hone, hbody⟩ := Tx.yields_bind_ok hbody
  obtain ⟨used, db₃, huse, hbody⟩ := Tx.yields_bind_ok hbody
  obtain ⟨_, db₄, hused, hbody⟩ := Tx.yields_bind_ok hbody
  obtain ⟨_, db₅, hinsert, haudit⟩ := Tx.yields_bind_ok hbody
  obtain ⟨rfl, hdb₂⟩ := Tx.yields_ensure hone
  obtain ⟨rfl, hdb₄⟩ := Tx.yields_ensure hused
  obtain ⟨hdb₁, ceremony, hmem, hid, hkind, hlive, b, hb, hbecomes⟩ :=
    consumeAuthentication_ok (yields_execute_ok hconsume)
  obtain ⟨hcount, hdb₃⟩ := useCredential_ok (yields_execute_ok huse)
  obtain ⟨hdb₅, -⟩ := insertAuthSession_ok (yields_execute_ok hinsert)
  subst hdb₂ hdb₄
  cases insertAuthAuditEvent_ok (yields_execute_ok haudit)
  obtain ⟨c, hc⟩ := List.length_eq_one_iff.1 hcount.symm
  have hcred := List.mem_singleton_self c
  rw [← hc, List.mem_filter, decide_eq_true_eq, hdb₁] at hcred
  rw [hdb₁] at hdb₃
  rw [hdb₃] at hdb₅
  refine ⟨ceremony, hmem, hid, hkind, hlive, ⟨b, ?_, hbecomes⟩,
    ⟨c, hcred.1, hcred.2.1, hcred.2.2.2⟩, ?_⟩
  · rw [hdb₅]
    exact hb
  · rw [hdb₅]

/-- A login that fails at any point changes nothing. -/
theorem completeAuthentication_failed {ceremonyId : Uuid}
    {verification : AuthenticationVerification} {session : SessionRecord} {audit : AuditEvent}
    {e : AuthError}
    (h : perform env (.completeAuthentication ceremonyId verification session now audit) db =
      (.error e, db')) : db' = db :=
  Tx.yields_transaction_error (yields_of_perform h)

end PgAuthStore

end RsConsole
