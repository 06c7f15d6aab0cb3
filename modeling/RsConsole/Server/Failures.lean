import RsConsole.Server.Rows

set_option autoImplicit false

/-! # Which calls fail with `Store`

On a connection that lasts, a call can fail with `AuthError::Store` only because a row does not
decode, a value cannot be stored, an epoch overflows or a constraint is violated that the method does
not tell apart. Every row decodes (`Database.Readable`), and what the operations pass leaves one
constraint to violate: the reference to a user. `AuthCall.Ready` says what a call needs for that, and
`AuthCall.MissesUser` when the reference is missing. -/

namespace RsConsole

open Library Library.Table Database PgAuthStore

/-! ## Storable texts -/

theorem storableText_of_subset {s s' : String} (h : ∀ c ∈ s'.toList, c ∈ s.toList)
    (hs : storableText s = true) : storableText s' = true := by
  rw [storableText, List.all_eq_true] at hs ⊢
  exact fun c hc => hs c (h c hc)

/-- `trim` removes characters. -/
theorem storableText_trim {s : String} (h : storableText s = true) :
    storableText (trim s) = true := by
  refine storableText_of_subset (fun c hc => ?_) h
  rw [trim, String.toList_ofList, List.mem_reverse] at hc
  have hc := (List.dropWhile_sublist _).subset hc
  rw [List.mem_reverse] at hc
  exact (List.dropWhile_sublist _).subset hc

theorem hexDigit_ne_zero {n : ℕ} (h : n < 16) : (Json.hexDigit n).toNat ≠ 0 := by
  have hall : ∀ n : Fin 16, (Json.hexDigit n).toNat ≠ 0 := by decide
  exact hall ⟨n, h⟩

theorem storableText_uuidText (id : Uuid) : storableText (uuidText id) = true := by
  have hdigit : ∀ c ∈ (List.range 32).map
      (fun i => Json.hexDigit (id.toNat / 16 ^ (31 - i) % 16)), c.toNat ≠ 0 := by
    intro c hc
    obtain ⟨i, -, rfl⟩ := List.mem_map.1 hc
    exact hexDigit_ne_zero (Nat.mod_lt _ (by decide))
  have hdash : ('-' : Char).toNat ≠ 0 := by decide
  rw [storableText, List.all_eq_true, uuidText, String.toList_ofList]
  intro c hc
  rw [decide_eq_true_eq]
  generalize (List.range 32).map (fun i => Json.hexDigit (id.toNat / 16 ^ (31 - i) % 16)) = digits
    at hdigit hc
  simp only [List.mem_append, List.mem_cons, or_assoc] at hc
  rcases hc with hc | rfl | hc | rfl | hc | rfl | hc | rfl | hc
  · exact hdigit c (List.mem_of_mem_take hc)
  · exact hdash
  · exact hdigit c (List.mem_of_mem_drop (List.mem_of_mem_take hc))
  · exact hdash
  · exact hdigit c (List.mem_of_mem_drop (List.mem_of_mem_take hc))
  · exact hdash
  · exact hdigit c (List.mem_of_mem_drop (List.mem_of_mem_take hc))
  · exact hdash
  · exact hdigit c (List.mem_of_mem_drop hc)

/-- The data of the audit events that name an id. -/
theorem storable_ofId (id : Uuid) {key : String} (h : storableText key = true) :
    storable (.object [(key, .string (uuidText id))]) = true := by
  simp [storable, storableMembers, h, storableText_uuidText]

/-! ## Inserts -/

section Inserts

variable {db : Database}

theorem insertRow_valid {ρ : Type} (collides : ρ → ρ → Bool) (references : Bool) (r : ρ)
    (rows : List ρ) : insertRow true true collides references r rows =
      if rows.any (collides r) then .error .unique
      else if references = false then .error .foreignKey
      else .ok (rows ++ [r]) := rfl

/-- A user who is stored under none of the new user's keys. -/
def Database.Untaken (db : Database) (user : User) : Prop :=
  ∀ u ∈ db.humanUsers, u.id ≠ user.id.value ∧ u.webauthnHandle ≠ user.webauthnHandle ∧
    u.email ≠ user.email

theorem insertHumanUser_eq {user : User} (now : DateTime) (hemail : storableText user.email = true)
    (hname : storableText user.displayName = true) (hepoch : 0 < user.authEpoch) :
    (db.Untaken user ∧ insertHumanUser (user.row now) db =
      .ok ((), { db with humanUsers := db.humanUsers ++ [user.row now] })) ∨
    (¬ db.Untaken user ∧ insertHumanUser (user.row now) db = .error .unique) := by
  have hcheck : (decide ((user.row now).role = "user" ∨ (user.row now).role = "operator") &&
      decide (0 < (user.row now).authEpoch)) = true := by
    rw [Bool.and_eq_true, decide_eq_true_eq, decide_eq_true_eq]
    refine ⟨?_, hepoch⟩
    cases hrole : user.role <;> simp [User.row, hrole, roleName]
  have hstorable : (storableText (user.row now).email && storableText (user.row now).displayName) =
      true := by
    simp [User.row, hemail, hname]
  have htaken : db.humanUsers.any (fun u' => decide ((user.row now).id = u'.id ∨
      (user.row now).webauthnHandle = u'.webauthnHandle ∨ (user.row now).email = u'.email)) =
      false ↔ db.Untaken user := by
    rw [List.any_eq_false]
    refine forall₂_congr fun u _ => ?_
    simp only [decide_eq_true_eq, not_or]
    exact and_congr ne_comm (and_congr ne_comm ne_comm)
  unfold insertHumanUser
  rw [hstorable, hcheck, insertRow_valid]
  by_cases huntaken : db.Untaken user
  · rw [htaken.2 huntaken]
    exact Or.inl ⟨huntaken, rfl⟩
  · rw [Bool.eq_true_of_not_eq_false (fun h => huntaken (htaken.1 h))]
    exact Or.inr ⟨huntaken, rfl⟩

/-- A capability with a new id and a new token. -/
def Database.FreshCapability (db : Database) (capability : Capability) : Prop :=
  ∀ k ∈ db.authCapabilities, k.id ≠ capability.id ∧ k.tokenHash ≠ capability.tokenHash.asBytes

theorem insertAuthCapability_fresh {capability : Capability} {clock : DateTime}
    (hfresh : db.FreshCapability capability) (howner : db.hasUser capability.userId.value = true) :
    insertAuthCapability (capability.row clock) db =
      .ok ((), { db with authCapabilities := db.authCapabilities ++ [capability.row clock] }) := by
  have hcheck : (decide ((capability.row clock).purpose ∈
      ["setup", "recovery_setup", "operator_recovery"]) &&
      decide ((capability.row clock).tokenHash.length = 32)) = true := by
    cases hpurpose : capability.purpose <;> simp [Capability.row, hpurpose, purposeName]
  have hnone : db.authCapabilities.any (fun k => decide ((capability.row clock).id = k.id ∨
      (capability.row clock).tokenHash = k.tokenHash)) = false := by
    simp only [List.any_eq_false, decide_eq_true_eq, not_or]
    exact fun k hk => ⟨(hfresh k hk).1.symm, (hfresh k hk).2.symm⟩
  have hrefers : db.hasUser (capability.row clock).userId = true := howner
  unfold insertAuthCapability
  rw [hcheck, insertRow_valid, hnone, hrefers]
  rfl

theorem insertAuthCeremony_fresh {ceremony : Ceremony} {clock : DateTime}
    (hstorable : storable ceremony.state = true)
    (hfresh : ∀ k ∈ db.authCeremonies, k.id ≠ ceremony.id)
    (howner : db.refersToUser (ceremony.userId.map (·.value)) = true) :
    insertAuthCeremony (ceremony.row clock) db =
      .ok ((), { db with authCeremonies := db.authCeremonies ++ [ceremony.row clock] }) := by
  have hcheck : (decide ((ceremony.row clock).kind ∈
      ["registration", "authentication", "operator_bootstrap", "operator_recovery"]) &&
      decide (∀ hash, (ceremony.row clock).capabilityHash = some hash → hash.length = 32)) =
      true := by
    rw [Bool.and_eq_true, decide_eq_true_eq, decide_eq_true_eq]
    constructor
    · cases hkind : ceremony.kind <;> simp [Ceremony.row, hkind, ceremonyName]
    · intro hash hhash
      obtain ⟨hash', -, rfl⟩ := Option.map_eq_some_iff.1 hhash
      exact hash'.length_asBytes
  have hnone : db.authCeremonies.any (fun k => decide ((ceremony.row clock).id = k.id)) = false := by
    simp only [List.any_eq_false, decide_eq_true_eq]
    exact fun k hk heq => hfresh k hk heq.symm
  have hstate : storable (ceremony.row clock).state = true := hstorable
  have hrefers : db.refersToUser (ceremony.row clock).userId = true := howner
  unfold insertAuthCeremony
  rw [hcheck, hstate, insertRow_valid, hnone, hrefers]
  rfl

theorem insertAuthSession_fresh {session : SessionRecord} {now : DateTime}
    (hfresh : ∀ s ∈ db.authSessions, s.id ≠ session.id ∧ s.tokenHash ≠ session.tokenHash.asBytes)
    (howner : db.hasUser session.userId.value = true) :
    insertAuthSession (session.row now) db =
      .ok ((), { db with authSessions := db.authSessions ++ [session.row now] }) := by
  have hcheck : (decide ((session.row now).tokenHash.length = 32) &&
      decide ((session.row now).csrfHash.length = 32)) = true := by
    simp [SessionRecord.row]
  have hnone : db.authSessions.any (fun s => decide ((session.row now).id = s.id ∨
      (session.row now).tokenHash = s.tokenHash)) = false := by
    simp only [List.any_eq_false, decide_eq_true_eq, not_or]
    exact fun s hs => ⟨(hfresh s hs).1.symm, (hfresh s hs).2.symm⟩
  have hrefers : db.hasUser (session.row now).userId = true := howner
  unfold insertAuthSession
  rw [hcheck, insertRow_valid, hnone, hrefers]
  rfl

/-- A new credential of a user who exists is only refused when its credential id is stored already. -/
theorem insertPasskeyCredential_error {credential : VerifiedCredential} {id : Uuid}
    {userId : String} {now : DateTime} {d : SqlError}
    (h : insertPasskeyCredential (credential.row id userId now) db = .error d)
    (hstorable : storable credential.publicData = true) (howner : db.hasUser userId = true) :
    d = .unique := by
  have hdata : storable (credential.row id userId now).publicData = true := hstorable
  have hrefers : db.hasUser (credential.row id userId now).userId = true := howner
  unfold insertPasskeyCredential at h
  rw [hdata, insertRow_valid, hrefers] at h
  split at h
  · cases h
    rfl
  · cases h

/-- A request for a user who does not exist violates the reference: nobody else's request is in the
    way. For a user who exists it is stored, unless one is pending. -/
theorem insertRecoveryRequest_eq {id : Uuid} (userId : UserId) (now : DateTime)
    (hfresh : ∀ r ∈ db.recoveryRequests, r.id ≠ id)
    (hrequested : ∀ r ∈ db.recoveryRequests, db.hasUser r.userId = true) :
    (db.hasUser userId.value = false ∧
      insertRecoveryRequest { id, userId := userId.value, requestedAt := now } db =
        .error .foreignKey) ∨
    (db.hasUser userId.value = true ∧
      ((∃ db', insertRecoveryRequest { id, userId := userId.value, requestedAt := now } db =
          .ok ((), db')) ∨
        insertRecoveryRequest { id, userId := userId.value, requestedAt := now } db =
          .error .unique)) := by
  unfold insertRecoveryRequest
  rw [insertRow_valid]
  cases howner : db.hasUser userId.value with
  | true =>
      refine Or.inr ⟨rfl, ?_⟩
      split
      · exact Or.inr rfl
      · exact Or.inl ⟨_, rfl⟩
  | false =>
      refine Or.inl ⟨rfl, ?_⟩
      rw [if_neg]
      · rfl
      · rw [List.any_eq_true]
        rintro ⟨r, hr, hcollides⟩
        rcases of_decide_eq_true hcollides with hid | ⟨-, -, huser⟩
        · exact hfresh r hr hid.symm
        · have hrow := hrequested r hr
          rw [← huser, howner] at hrow
          cases hrow

/-- Both users that an audit event names exist. -/
def Database.Attributes (db : Database) (event : AuditEvent) : Prop :=
  db.refersToUser (event.actorUserId.map (·.value)) = true ∧
    db.refersToUser (event.subjectUserId.map (·.value)) = true

theorem lasts_insertAudit {event : AuditEvent} {now : DateTime}
    {Q : Except AuthError Unit → Database → Prop} (hdata : storable event.data = true)
    (hok : db.Attributes event → Q (.ok ()) (db.logged (event.row now)))
    (herror : ¬ db.Attributes event → Q (.error .store) db) :
    Tx.Lasts (insertAudit event now) Q db := by
  have hstorable : storable (event.row now).data = true := hdata
  have hattributes : (db.refersToUser (event.row now).actorUserId &&
      db.refersToUser (event.row now).subjectUserId) = true ↔ db.Attributes event :=
    Bool.and_eq_true _ _ ▸ Iff.rfl
  unfold insertAudit execute
  refine Tx.lasts_exec ?_ ?_
  · rintro ⟨⟩ db' hinsert
    obtain ⟨rows, hrows, hdb⟩ := except_bind_ok hinsert
    obtain ⟨rfl, -, -, hrefers⟩ := insertRow_ok hrows
    cases hdb
    exact hok (hattributes.1 hrefers)
  · intro d hinsert
    refine herror fun hnames => ?_
    unfold insertAuthAuditEvent at hinsert
    rw [hstorable, insertRow_valid, hattributes.2 hnames, if_neg (by simp)] at hinsert
    cases hinsert

end Inserts

/-! ## What a call needs -/

/-- What the operations see to, and the draws and epochs that the environment keeps: with it, only a
    missing user makes the call fail with `Store`. The calls of the command line are left out. -/
def AuthCall.Ready (env : Env) (db : Database) : AuthCall → Prop
  | .insertCapability _ => False
  | .insertUser .. => False
  | .rotateAllAuthEpochs .. => False
  | .breakGlass .. => False
  | .insertCeremony started =>
      storable started.state = true ∧ (∀ k ∈ db.authCeremonies, k.id ≠ started.id) ∧
        db.refersToUser (started.userId.map (·.value)) = true
  | .completeRegistration ceremonyId _ credential _ audit =>
      storable credential.publicData = true ∧ storable audit.data = true ∧ db.Attributes audit ∧
        ∀ k ∈ db.authCeremonies, k.id = ceremonyId →
          ∃ userId, k.userId = some userId ∧ db.hasUser userId = true
  | .completeAuthentication _ verification created _ audit =>
      storable verification.updatedPublicData = true ∧ storable audit.data = true ∧
        db.Attributes audit ∧ db.hasUser created.userId.value = true ∧
        ∀ s ∈ db.authSessions, s.id ≠ created.id ∧ s.tokenHash ≠ created.tokenHash.asBytes
  | .approveUserWithSetup user issued _ _ =>
      storableText user.email = true ∧ storableText user.displayName = true ∧
        0 < user.authEpoch ∧ issued.userId = user.id ∧ db.FreshCapability issued
  | .issueRecoverySetup _ issued _ _ => db.FreshCapability issued
  | .approveRecovery .. => ∀ u ∈ db.humanUsers, u.authEpoch < 2 ^ 63 - 1
  | .createRecovery .. => ∀ r ∈ db.recoveryRequests, r.id ≠ env.fresh
  | _ => True

/-- The call would write a reference to a user who does not exist. -/
def AuthCall.MissesUser (db : Database) : AuthCall → Prop
  | .createRecovery userId _ => db.hasUser userId.value = false
  | .approveUserWithSetup user _ operatorId _ =>
      db.hasUser operatorId.value = false ∧ operatorId ≠ user.id ∧ db.Untaken user
  | .approveRecovery recoveryId operatorId _ =>
      db.hasUser operatorId.value = false ∧
        ∃ r ∈ db.recoveryRequests, r.id = recoveryId ∧ r.Pending
  | .issueRecoverySetup recoveryId issued operatorId _ =>
      db.hasUser operatorId.value = false ∧
        ∃ r ∈ db.recoveryRequests, r.id = recoveryId ∧ r.approvedAt ≠ none ∧
          r.setupIssuedAt = none ∧ r.completedAt = none ∧ r.userId = issued.userId.value
  | _ => False

/-- The answer is `Store` exactly when `P`. -/
def StoreIff {α : Type} (P : Prop) (r : Except AuthError α) (_ : Database) : Prop :=
  r = .error .store ↔ P

theorem storeIff_ok {α : Type} {P : Prop} {a : α} (h : ¬ P) :
    (.ok a : Except AuthError α) = .error .store ↔ P :=
  ⟨nofun, fun hp => absurd hp h⟩

theorem storeIff_error {α : Type} {P : Prop} {e : AuthError} (h : ¬ P) (he : e ≠ .store) :
    (.error e : Except AuthError α) = .error .store ↔ P :=
  ⟨fun heq => absurd (Except.error.inj heq) he, fun hp => absurd hp h⟩

theorem storeIff_store {α : Type} {P : Prop} (h : P) :
    (.error .store : Except AuthError α) = .error .store ↔ P :=
  ⟨fun _ => h, fun _ => rfl⟩

/-! ## Queries -/

theorem transpose_ne_error {α β : Type} {f : α → Except AuthError β} {o : Option α} {e : AuthError}
    (h : ∀ a, o = some a → ∃ b, f a = .ok b) : transpose f o ≠ .error e := by
  intro herror
  cases o with
  | none => cases herror
  | some a =>
      obtain ⟨b, hb⟩ := h a rfl
      rw [transpose, hb] at herror
      cases herror

theorem mapM_ne_error {α β : Type} {f : α → Except AuthError β} {as : List α} {e : AuthError}
    (h : ∀ a ∈ as, ∃ b, f a = .ok b) : as.mapM f ≠ .error e := by
  have hok : ∃ bs, as.mapM f = .ok bs := by
    induction as with
    | nil => exact ⟨[], rfl⟩
    | cons a as ih =>
        obtain ⟨b, hb⟩ := h a List.mem_cons_self
        obtain ⟨bs, hbs⟩ := ih fun a' ha' => h a' (List.mem_cons_of_mem _ ha')
        rw [List.mapM_cons, hb, hbs]
        exact ⟨b :: bs, rfl⟩
  obtain ⟨bs, hbs⟩ := hok
  rw [hbs]
  nofun

theorem storeIff_of_ne {α : Type} {r : Except AuthError α} (h : r ≠ .error .store) :
    r = .error .store ↔ False :=
  ⟨h, False.elim⟩

section Calls

variable {env : Env} {db : Database} {now idle : DateTime}

theorem lasts_decoded {α β : Type} {query : Database → α} {decode : α → Except AuthError β}
    (h : decode (query db) ≠ .error .store) :
    Tx.Lasts (fetch query >>= fun rows => Tx.ofExcept (decode rows)) (StoreIff False) db :=
  Tx.lasts_bind (Repo.lasts_fetch (Tx.lasts_ofExcept (storeIff_of_ne h)))

/-- A lookup whose `touch` succeeds, and whose rows decode. -/
theorem lasts_useSession {tokenHash : SecretHash} {touch : AuthSession → Statement Unit}
    {principal : AuthSession × HumanUser → Except AuthError SessionPrincipal}
    (htouch : ∀ s, ∃ db', touch s db = .ok ((), db'))
    (hprincipal : ∀ row, Database.session tokenHash.asBytes now db = some row →
      ∃ p, principal row = .ok p) :
    Tx.Lasts (useSession tokenHash now touch principal) (StoreIff False) db := by
  refine Tx.lasts_bind (Tx.lasts_transaction (Tx.lasts_bind (Repo.lasts_fetch ?_)))
  cases hfound : Database.session tokenHash.asBytes now db with
  | none => exact Tx.lasts_pure (Tx.lasts_ofExcept (storeIff_ok id))
  | some row =>
      obtain ⟨db', htouched⟩ := htouch row.1
      refine Tx.lasts_bind (Repo.lasts_execute htouched (Tx.lasts_pure (Tx.lasts_ofExcept ?_)))
      refine storeIff_of_ne (transpose_ne_error ?_)
      rintro row' hrow'
      cases hrow'
      exact hprincipal row hfound

variable (hd : Database.Readable db)

include hd

theorem Database.Readable.session_decodes {hash : List UInt8}
    {row : AuthSession × HumanUser} (hrow : Database.session hash now db = some row) :
    (∃ p, sessionPrincipal row = .ok p) ∧ ∀ csrfHash, ∃ p, rotatedPrincipal csrfHash row = .ok p := by
  have hmem := List.mem_of_head? hrow
  rw [mem_join] at hmem
  obtain ⟨user, huser⟩ := hd.users row.2 hmem.2.1
  obtain ⟨csrfHash, hcsrf⟩ := hd.sessions row.1 hmem.1
  simp only [sessionPrincipal, rotatedPrincipal, huser, hcsrf]
  exact ⟨⟨_, rfl⟩, fun _ => ⟨_, rfl⟩⟩

theorem lasts_session (hash : SecretHash) :
    Tx.Lasts (PgAuthStore.session hash now idle) (StoreIff False) db :=
  lasts_useSession (fun _ => ⟨_, rfl⟩) fun _ hrow => (hd.session_decodes hrow).1

theorem lasts_rotateSessionCsrf (hash csrfHash : SecretHash) :
    Tx.Lasts (PgAuthStore.rotateSessionCsrf hash csrfHash now idle) (StoreIff False) db := by
  refine lasts_useSession (fun s => ?_) fun row hrow => (hd.session_decodes hrow).2 csrfHash
  rw [touchSessionCsrf, if_pos csrfHash.length_asBytes]
  exact ⟨_, rfl⟩

variable (env) in
/-- The queries decode what they find. -/
theorem storeIff_queries : ∀ c : AuthCall, c.reads = true →
    Tx.Lasts (method env c) (StoreIff False) db := by
  intro c hreads
  cases c with
  | userById id =>
      refine lasts_decoded ?_
      exact transpose_ne_error fun u hu => hd.users u (List.mem_of_find?_eq_some hu)
  | userByHandle handle =>
      refine lasts_decoded ?_
      exact transpose_ne_error fun u hu => hd.users u (List.mem_of_find?_eq_some hu)
  | credentialsForUser userId =>
      refine lasts_decoded ?_
      refine mapM_ne_error fun k hk => hd.credentials k ?_
      rw [Database.credentialsForUser, mem_orderBy, List.mem_filter] at hk
      exact hk.1
  | operatorWithoutCredential =>
      refine lasts_decoded ?_
      refine transpose_ne_error fun u hu => hd.users u ?_
      have hmem := List.mem_of_head? hu
      rw [mem_orderBy, List.mem_filter] at hmem
      exact hmem.1
  | operatorExists => exact Repo.lasts_fetch (storeIff_ok id)
  | operatorRecoveryWindow now =>
      refine lasts_decoded ?_
      refine transpose_ne_error fun row hrow => ?_
      have hmem := List.mem_of_head? hrow
      rw [mem_join, mem_orderBy, List.mem_filter, List.mem_filter] at hmem
      obtain ⟨user, huser⟩ := hd.users row.2 hmem.2.1.1
      obtain ⟨capability, hcapability⟩ := hd.capabilities row.1 hmem.1.1
      have hhash := SecretHash.fromSlice_asBytes capability.tokenHash
      rw [← (Capability.decodes_of_tryFrom hcapability).tokenHash] at hhash
      rw [recoveryWindow, hhash, huser]
      exact ⟨_, rfl⟩
  | capability hash purpose now =>
      refine lasts_decoded ?_
      exact transpose_ne_error fun k hk => hd.capabilities k (List.mem_of_find?_eq_some hk)
  | ceremony id kind now =>
      refine lasts_decoded ?_
      exact transpose_ne_error fun k hk => hd.ceremonies k (List.mem_of_find?_eq_some hk)
  | session hash now idle => exact lasts_session hd hash
  | rotateSessionCsrf hash csrfHash now idle => exact lasts_rotateSessionCsrf hd hash csrfHash
  | pendingRecoveries =>
      refine lasts_decoded ?_
      refine mapM_ne_error fun r hr => hd.recoveries r ?_
      rw [Database.pendingRecoveries, mem_orderBy, List.mem_filter] at hr
      exact hr.1
  | _ => cases hreads

end Calls

/-! ## Writes -/

theorem hasUser_of_ids {db db' : Database}
    (h : db'.humanUsers.map (·.id) = db.humanUsers.map (·.id)) (id : String) :
    db'.hasUser id = db.hasUser id := by
  have hany : ∀ db : Database, db.hasUser id = (db.humanUsers.map (·.id)).any (· = id) := by
    intro db
    rw [List.any_map]
    rfl
  rw [hany, hany, h]

theorem hasUser_invalidated (db : Database) (p : String → Bool) (q : Option String → Bool)
    (now : DateTime) (id : String) : (db.invalidated p q now).hasUser id = db.hasUser id := by
  refine hasUser_of_ids ?_ id
  exact updateWhere_map (f := advanced now) (fun _ _ => rfl) _

theorem hasUser_append (db : Database) (user : User) (now : DateTime) (id : String) :
    ({ db with humanUsers := db.humanUsers ++ [user.row now] } : Database).hasUser id = true ↔
      db.hasUser id = true ∨ id = user.id.value := by
  rw [hasUser, List.any_append, Bool.or_eq_true]
  refine or_congr Iff.rfl ?_
  simp only [User.row, List.any_cons, List.any_nil, Bool.or_false, decide_eq_true_eq]
  exact eq_comm

section Writes

variable {env : Env} {db : Database} {now : DateTime}

theorem lasts_invalidateUserAuth {userId : String} {Q : Except AuthError Unit → Database → Prop}
    (hepochs : ∀ u ∈ db.humanUsers, u.authEpoch < 2 ^ 63 - 1)
    (hq : Q (.ok ()) (db.invalidatedUser userId now)) :
    Tx.Lasts (invalidateUserAuth userId now) Q db := by
  have hbound : db.humanUsers.any (fun u => decide (u.id = userId) &&
      decide (2 ^ 63 ≤ u.authEpoch + 1)) = false := by
    rw [List.any_eq_false]
    intro u hu
    have := hepochs u hu
    simp only [Bool.and_eq_true, decide_eq_true_eq, not_and]
    omega
  have hadvance : ∃ n, advanceEpochs (fun u => u.id = userId) now db = .ok (n, { db with
      humanUsers := updateWhere (fun u => u.id = userId)
        (fun u => { u with authEpoch := u.authEpoch + 1, updatedAt := now }) db.humanUsers }) := by
    unfold advanceEpochs
    rw [hbound]
    exact ⟨_, rfl⟩
  obtain ⟨n, hadvance⟩ := hadvance
  refine Tx.lasts_bind (Repo.lasts_execute hadvance ?_)
  refine Tx.lasts_bind (Repo.lasts_execute rfl ?_)
  refine Tx.lasts_bind (Repo.lasts_execute rfl ?_)
  exact Repo.lasts_execute rfl hq

theorem lasts_createRecovery {userId : UserId} (hd : Database.Readable db)
    (hfresh : ∀ r ∈ db.recoveryRequests, r.id ≠ env.fresh) :
    Tx.Lasts (createRecovery env userId now) (StoreIff (db.hasUser userId.value = false)) db := by
  refine Tx.lasts_bind ?_
  rcases insertRecoveryRequest_eq userId now hfresh hd.requested with
    ⟨habsent, hinsert⟩ | ⟨hpresent, ⟨db', hinsert⟩ | hinsert⟩
  · exact Tx.lasts_exec_of_error hinsert (storeIff_store habsent)
  · exact Tx.lasts_exec_of_ok hinsert (Tx.lasts_pure (storeIff_ok (by simp [hpresent])))
  · exact Tx.lasts_exec_of_error hinsert (storeIff_error (by simp [hpresent]) nofun)

theorem lasts_approveUserWithSetup {user : User} {capability : Capability} {operatorId : UserId}
    (h : (AuthCall.approveUserWithSetup user capability operatorId now).Ready env db) :
    Tx.Lasts (approveUserWithSetup env user capability operatorId now)
      (StoreIff (db.hasUser operatorId.value = false ∧ operatorId ≠ user.id ∧ db.Untaken user))
      db := by
  obtain ⟨hemail, hname, hepoch, howner, hfresh⟩ := h
  refine Tx.lasts_transaction (Tx.lasts_bind ?_)
  rcases insertHumanUser_eq now hemail hname hepoch with
    ⟨huntaken, hinsert⟩ | ⟨htaken, hinsert⟩
  · refine Tx.lasts_exec_of_ok hinsert (Tx.lasts_bind ?_)
    have huser := hasUser_append db user now
    refine Repo.lasts_execute (insertAuthCapability_fresh hfresh
      ((huser _).2 (Or.inr (congrArg (·.value) howner)))) ?_
    -- the operator may be the user who has just been inserted
    refine lasts_insertAudit (storable_ofId _ (by decide)) (fun hnames => ?_) fun hnames => ?_
    · refine storeIff_ok ?_
      rintro ⟨habsent, hne, -⟩
      rcases (huser operatorId.value).1 hnames.1 with hold | hnew
      · rw [habsent] at hold
        cases hold
      · exact hne (OpaqueId.value_injective hnew)
    · refine storeIff_store ⟨?_, ?_, huntaken⟩
      · refine Bool.eq_false_of_not_eq_true fun hold => hnames ⟨?_, ?_⟩
        · exact (huser operatorId.value).2 (Or.inl hold)
        · exact (huser user.id.value).2 (Or.inr rfl)
      · rintro rfl
        exact hnames ⟨(huser _).2 (Or.inr rfl), (huser _).2 (Or.inr rfl)⟩
  · exact Tx.lasts_exec_of_error hinsert (storeIff_error (fun hmisses => htaken hmisses.2.2) nofun)

/-- The approval finds a pending request only for an operator who exists. -/
theorem lasts_approveRecovery {recoveryId : Uuid} {operatorId : UserId}
    (hd : Database.Readable db) (hepochs : ∀ u ∈ db.humanUsers, u.authEpoch < 2 ^ 63 - 1) :
    Tx.Lasts (approveRecovery recoveryId operatorId now)
      (StoreIff (db.hasUser operatorId.value = false ∧
        ∃ r ∈ db.recoveryRequests, r.id = recoveryId ∧ r.Pending)) db := by
  refine Tx.lasts_transaction (Tx.lasts_bind (Tx.lasts_exec ?_ ?_))
  · rintro approved db₁ happrove
    have hallowed : ¬ (db.hasUser operatorId.value = false ∧
        ∃ r ∈ db.recoveryRequests, r.id = recoveryId ∧ r.Pending) := by
      rintro ⟨habsent, r, hr, hpending⟩
      have hany : db.recoveryRequests.any
          (fun r => decide (r.id = recoveryId ∧ r.Pending)) = true :=
        List.any_eq_true.2 ⟨r, hr, decide_eq_true hpending⟩
      unfold approveRequest at happrove
      simp only [hany, habsent] at happrove
      cases happrove
    obtain ⟨rfl, rfl⟩ := approveRequest_ok happrove
    refine Tx.lasts_bind (Tx.lasts_okOr (fun userId hfound => ?_)
      (fun _ => storeIff_error hallowed nofun))
    obtain ⟨r, hr, rfl⟩ := Option.map_eq_some_iff.1 hfound
    have hmem := List.mem_of_head? hr
    rw [List.mem_filter, decide_eq_true_eq] at hmem
    have howner := hd.requested r hmem.1
    have hoperator : db.hasUser operatorId.value = true :=
      Bool.eq_true_of_not_eq_false fun habsent => hallowed ⟨habsent, r, hmem⟩
    obtain ⟨u, hu, hid⟩ := hasUser_iff.1 howner
    obtain ⟨user, huser⟩ := hd.users u hu
    have hparse := parseUserId_of_user huser
    rw [hid] at hparse
    refine Tx.lasts_bind (lasts_invalidateUserAuth hepochs ?_)
    refine Tx.lasts_bind (Tx.lasts_ofExcept ?_)
    rw [hparse]
    refine lasts_insertAudit (storable_ofId _ (by decide)) (fun _ => storeIff_ok hallowed) ?_
    -- the invalidation keeps the users
    refine fun hnames => absurd ⟨?_, ?_⟩ hnames
    · exact (hasUser_invalidated ..).trans hoperator
    · refine (hasUser_invalidated ..).trans ?_
      rw [parseUserId_ok hparse] at howner
      exact howner
  · intro d happrove
    refine storeIff_store ?_
    unfold approveRequest at happrove
    simp only at happrove
    split at happrove
    · next hrefused =>
        rw [Bool.and_eq_true, Bool.not_eq_true', List.any_eq_true] at hrefused
        obtain ⟨⟨r, hr, hpending⟩, habsent⟩ := hrefused
        exact ⟨habsent, r, hr, of_decide_eq_true hpending⟩
    · cases happrove

theorem lasts_issueRecoverySetup {recoveryId : Uuid} {capability : Capability}
    {operatorId : UserId} (hd : Database.Readable db) (hkeyed : Keyed (·.id) db.recoveryRequests)
    (hfresh : db.FreshCapability capability) :
    Tx.Lasts (issueRecoverySetup env recoveryId capability operatorId now)
      (StoreIff (db.hasUser operatorId.value = false ∧
        ∃ r ∈ db.recoveryRequests, r.id = recoveryId ∧ r.approvedAt ≠ none ∧
          r.setupIssuedAt = none ∧ r.completedAt = none ∧ r.userId = capability.userId.value))
      db := by
  refine Tx.lasts_transaction (Tx.lasts_bind (Repo.lasts_execute rfl ?_))
  refine Tx.lasts_bind (Tx.lasts_ensure (fun hone => ?_) fun hnot => storeIff_error ?_ nofun)
  · -- the one request that was issued belongs to the owner of the capability
    obtain ⟨r, hr⟩ := List.exists_mem_of_length_pos (lt_of_lt_of_eq Nat.zero_lt_one hone.symm)
    rw [List.mem_filter, decide_eq_true_eq] at hr
    have howner := hd.requested r hr.1
    rw [hr.2.2.2.2.2] at howner
    refine Tx.lasts_bind (Repo.lasts_execute (insertAuthCapability_fresh hfresh howner) ?_)
    refine lasts_insertAudit (storable_ofId _ (by decide)) (fun hnames => storeIff_ok ?_)
      fun hnames => storeIff_store ⟨?_, r, hr⟩
    · rintro ⟨habsent, -⟩
      have hoperator : db.hasUser operatorId.value = true := hnames.1
      rw [habsent] at hoperator
      cases hoperator
    · exact Bool.eq_false_of_not_eq_true fun hoperator => hnames ⟨hoperator, howner⟩
  · rintro ⟨-, r, hr, hmatches⟩
    refine hnot (hkeyed.length_filter_one hr fun r' hr' => ?_)
    rw [decide_eq_true_eq]
    refine ⟨fun hmatches' => hkeyed.eq_of_mem hr' hr (hmatches'.1.trans hmatches.1.symm), ?_⟩
    rintro rfl
    exact hmatches

theorem lasts_checkBootstrap {kind : String} {Q : Except AuthError Unit → Database → Prop}
    (hok : Q (.ok ()) db) (herror : Q (.error .conflict) db) :
    Tx.Lasts (checkBootstrap kind) Q db := by
  unfold checkBootstrap
  split
  · exact Tx.lasts_bind (Repo.lasts_fetch (Tx.lasts_ensure (fun _ => hok) fun _ => herror))
  · exact Tx.lasts_pure hok

theorem lasts_spendCapability {capabilityHash : Option SecretHash}
    {Q : Except AuthError Unit → Database → Prop}
    (hok : ∀ authCapabilities, Q (.ok ()) { db with authCapabilities })
    (herror : ∀ authCapabilities, Q (.error .invalidState) { db with authCapabilities }) :
    Tx.Lasts (spendCapability capabilityHash now) Q db := by
  cases capabilityHash with
  | none => exact Tx.lasts_pure (hok db.authCapabilities)
  | some hash =>
      exact Tx.lasts_bind (Repo.lasts_execute rfl
        (Tx.lasts_ensure (fun _ => hok _) fun _ => herror _))

/-- A ceremony that a registration spends has a user. -/
theorem lasts_completeRegistration {ceremonyId : Uuid} {capabilityHash : Option SecretHash}
    {credential : VerifiedCredential} {audit : AuditEvent}
    (h : (AuthCall.completeRegistration ceremonyId capabilityHash credential now audit).Ready env
      db) :
    Tx.Lasts (completeRegistration env ceremonyId capabilityHash credential now audit)
      (StoreIff False) db := by
  obtain ⟨hcredential, haudit, hnames, howned⟩ := h
  refine Tx.lasts_transaction (Tx.lasts_bind (Repo.lasts_fetch (Tx.lasts_bind
    (Repo.lasts_execute rfl (Tx.lasts_bind ?_)))))
  cases hfound : (db.authCeremonies.filter
      fun k => decide (k.id = ceremonyId ∧ k.Live now)).head? with
  | none => exact Tx.lasts_fail (storeIff_error id nofun)
  | some k =>
      have hmem := List.mem_of_head? hfound
      rw [List.mem_filter, decide_eq_true_eq] at hmem
      obtain ⟨userId, howner, huser⟩ := howned k hmem.1 hmem.2.1
      rw [Option.map_some, howner]
      refine Tx.lasts_pure (Tx.lasts_bind (lasts_checkBootstrap ?_ (storeIff_error id nofun)))
      refine Tx.lasts_bind (lasts_spendCapability (fun authCapabilities => ?_)
        fun _ => storeIff_error id nofun)
      -- the statements before the credential is stored leave its table and the users alone
      refine Tx.lasts_bind (Tx.lasts_exec (fun _ db' hinsert => ?_) fun d hinsert => ?_)
      · obtain ⟨rfl, -⟩ := insertPasskeyCredential_ok hinsert
        refine Tx.lasts_bind (Repo.lasts_execute rfl ?_)
        exact lasts_insertAudit haudit (fun _ => storeIff_ok id) fun hnot => absurd hnames hnot
      · cases insertPasskeyCredential_error hinsert hcredential huser
        exact storeIff_error id nofun

theorem lasts_completeAuthentication (env : Env) {ceremonyId : Uuid}
    {verification : AuthenticationVerification} {created : SessionRecord} {audit : AuditEvent}
    (h : (AuthCall.completeAuthentication ceremonyId verification created now audit).Ready env
      db) :
    Tx.Lasts (completeAuthentication ceremonyId verification created now audit) (StoreIff False)
      db := by
  obtain ⟨hdata, haudit, hnames, huser, hfresh⟩ := h
  refine Tx.lasts_transaction (Tx.lasts_bind (Repo.lasts_execute rfl ?_))
  refine Tx.lasts_bind (Tx.lasts_ensure (fun _ => ?_) fun _ => storeIff_error id nofun)
  refine Tx.lasts_bind (Tx.lasts_exec (fun used db₁ huse => ?_) fun d huse => ?_)
  · obtain ⟨-, rfl⟩ := useCredential_ok huse
    refine Tx.lasts_bind (Tx.lasts_ensure (fun _ => ?_) fun _ => storeIff_error id nofun)
    refine Tx.lasts_bind (Repo.lasts_execute (insertAuthSession_fresh hfresh huser) ?_)
    exact lasts_insertAudit haudit (fun _ => storeIff_ok id) fun hnot => absurd hnames hnot
  · unfold useCredential at huse
    simp only [hdata] at huse
    cases huse

end Writes

/-! ## Calls -/

/-- A call that is ready fails with `Store` exactly when it names a user who does not exist. -/
theorem lasts_method {env : Env} {db : Database} {c : AuthCall} (hready : c.Ready env db)
    (hd : Database.Readable db) (hkeyed : Keyed (·.id) db.recoveryRequests) :
    Tx.Lasts (method env c) (StoreIff (c.MissesUser db)) db := by
  cases c with
  | insertCapability => exact hready.elim
  | insertUser => exact hready.elim
  | rotateAllAuthEpochs => exact hready.elim
  | breakGlass => exact hready.elim
  | insertCeremony started =>
      obtain ⟨hstate, hfresh, howner⟩ := hready
      exact Repo.lasts_execute (insertAuthCeremony_fresh hstate hfresh howner) (storeIff_ok id)
  | deleteSession tokenHash =>
      have hrevoked : revokeSessions (fun s => s.tokenHash = tokenHash.asBytes) env.clock db =
          .ok ((), _) := rfl
      exact Repo.lasts_execute hrevoked (storeIff_ok id)
  | completeRegistration => exact lasts_completeRegistration hready
  | completeAuthentication => exact lasts_completeAuthentication env hready
  | approveUserWithSetup => exact lasts_approveUserWithSetup hready
  | issueRecoverySetup => exact lasts_issueRecoverySetup hd hkeyed hready
  | approveRecovery => exact lasts_approveRecovery hd hready
  | createRecovery => exact lasts_createRecovery hd hready
  | userById => exact storeIff_queries env hd _ rfl
  | userByHandle => exact storeIff_queries env hd _ rfl
  | credentialsForUser => exact storeIff_queries env hd _ rfl
  | operatorWithoutCredential => exact storeIff_queries env hd _ rfl
  | operatorExists => exact storeIff_queries env hd .operatorExists rfl
  | operatorRecoveryWindow => exact storeIff_queries env hd _ rfl
  | capability => exact storeIff_queries env hd _ rfl
  | ceremony => exact storeIff_queries env hd _ rfl
  | session => exact storeIff_queries env hd _ rfl
  | rotateSessionCsrf => exact storeIff_queries env hd _ rfl
  | pendingRecoveries => exact storeIff_queries env hd _ rfl

theorem store_iff {env : Env} {db db' : Database} {c : AuthCall} {r : c.Answer}
    (h : perform env c db = (r, db')) (hlasts : env.left = none) (hready : c.Ready env db)
    (hd : Database.Readable db) (hkeyed : Keyed (·.id) db.recoveryRequests) :
    r = .error .store ↔ c.MissesUser db :=
  perform_of_lasts h hlasts (lasts_method hready hd hkeyed)

end RsConsole
