import Mathlib.Data.Set.List
import RsConsole.Server.Live

set_option autoImplicit false

/-! # The repository is a store of live values

`Database.Shows db s` connects the two levels: the tables hold the maps, where a row that is consumed,
revoked or completed stands for nothing and the others for what the decoders read from them. Every
statement then is a change of the maps, every method does what `LiveStore.Does` says
(`perform_refines`), and every run of clients over the database is a run over the store's
specification (`store_refines`). -/

namespace RsConsole

open Library Library.Table Database

variable {τ : Type}

/-! ## What a row stands for -/

/-- The session's row, live or not. -/
structure SessionRecord.Describes (record : SessionRecord) (row : AuthSession) : Prop where
  id : row.id = record.id
  userId : row.userId = record.userId.value
  tokenHash : row.tokenHash = record.tokenHash.asBytes
  csrfHash : row.csrfHash = record.csrfHash.asBytes
  authEpoch : row.authEpoch = record.authEpoch
  idleExpiresAt : row.idleExpiresAt = record.idleExpiresAt
  absoluteExpiresAt : row.absoluteExpiresAt = record.absoluteExpiresAt

theorem SessionRecord.describes_unique {a b : SessionRecord} {row : AuthSession}
    (ha : a.Describes row) (hb : b.Describes row) : a = b := by
  obtain ⟨id, userId, tokenHash, csrfHash, authEpoch, idle, absolute⟩ := a
  obtain ⟨haid, hauser, hatoken, hacsrf, haepoch, haidle, haabsolute⟩ := ha
  obtain ⟨hbid, hbuser, hbtoken, hbcsrf, hbepoch, hbidle, hbabsolute⟩ := hb
  obtain rfl : id = b.id := haid.symm.trans hbid
  obtain rfl : userId = b.userId := OpaqueId.value_injective (hauser.symm.trans hbuser)
  obtain rfl : tokenHash = b.tokenHash := SecretHash.asBytes_injective (hatoken.symm.trans hbtoken)
  obtain rfl : csrfHash = b.csrfHash := SecretHash.asBytes_injective (hacsrf.symm.trans hbcsrf)
  obtain rfl : authEpoch = b.authEpoch := haepoch.symm.trans hbepoch
  obtain rfl : idle = b.idleExpiresAt := haidle.symm.trans hbidle
  obtain rfl : absolute = b.absoluteExpiresAt := haabsolute.symm.trans hbabsolute
  rfl

def User.KeptIn (user : User) (row : HumanUser) : Prop := User.tryFrom row = .ok user

def StoredCredential.KeptIn (credential : StoredCredential) (row : PasskeyCredential) : Prop :=
  row.revokedAt = none ∧ StoredCredential.tryFrom row = .ok credential

def Capability.KeptIn (given : Capability) (row : AuthCapability) : Prop :=
  row.consumedAt = none ∧ Capability.tryFrom row = .ok given

def Ceremony.KeptIn (ceremony : Ceremony) (row : AuthCeremony) : Prop :=
  row.consumedAt = none ∧ Ceremony.tryFrom row = .ok ceremony

def SessionRecord.KeptIn (record : SessionRecord) (row : AuthSession) : Prop :=
  row.revokedAt = none ∧ record.Describes row

def OpenRecovery.KeptIn (recovery : OpenRecovery) (row : Database.RecoveryRequest) : Prop :=
  row.completedAt = none ∧ RecoveryRequest.tryFrom row = .ok recovery.request ∧
    recovery.setupIssued = row.setupIssuedAt.isSome

/-- **The abstraction**: the tables hold the maps. -/
structure Database.Shows (db : Database) (s : LiveStore) : Prop where
  users : Represents User.KeptIn (·.id) db.humanUsers s.users
  credentials : Represents StoredCredential.KeptIn (·.id) db.passkeyCredentials s.credentials
  capabilities : Represents Capability.KeptIn (·.tokenHash) db.authCapabilities s.capabilities
  ceremonies : Represents Ceremony.KeptIn (·.id) db.authCeremonies s.ceremonies
  sessions : Represents SessionRecord.KeptIn (·.tokenHash) db.authSessions s.sessions
  recoveries : Represents OpenRecovery.KeptIn (·.request.id) db.recoveryRequests s.recoveries

/-- Every row decodes, and is one that the store's methods can have written. -/
structure Database.Legible (db : Database) : Prop where
  users : ∀ r ∈ db.humanUsers, ∃ user, User.tryFrom r = .ok user
  credentials : ∀ r ∈ db.passkeyCredentials, ∃ credential, StoredCredential.tryFrom r = .ok credential
  capabilities : ∀ r ∈ db.authCapabilities, ∃ given, Capability.tryFrom r = .ok given
  ceremonies : ∀ r ∈ db.authCeremonies, ∃ ceremony, Ceremony.tryFrom r = .ok ceremony
  sessions : ∀ r ∈ db.authSessions, ∃ record : SessionRecord, record.Describes r
  recoveries : ∀ r ∈ db.recoveryRequests, ∃ request, RecoveryRequest.tryFrom r = .ok request

/-! ## Columns of decoded rows -/

theorem User.row_of_tryFrom {row : HumanUser} {user : User} (h : User.tryFrom row = .ok user) :
    row.id = user.id.value ∧ row.webauthnHandle = user.webauthnHandle ∧
      row.role = roleName user.role ∧ row.enabled = user.enabled ∧ row.authEpoch = user.authEpoch :=
  have hdecodes := User.decodes_of_tryFrom h
  ⟨hdecodes.id, hdecodes.webauthnHandle, hdecodes.role, hdecodes.enabled, hdecodes.authEpoch⟩

theorem StoredCredential.row_of_tryFrom {row : PasskeyCredential} {credential : StoredCredential}
    (h : StoredCredential.tryFrom row = .ok credential) :
    row.id = credential.id ∧ row.userId = credential.userId.value ∧
      row.credentialId = credential.credentialId ∧ row.publicData = credential.publicData ∧
      row.revokedAt = credential.revokedAt := by
  obtain ⟨userId, huser, h⟩ := except_bind_ok h
  cases h
  exact ⟨rfl, parseUserId_ok huser, rfl, rfl, rfl⟩

theorem Capability.row_of_tryFrom {row : AuthCapability} {given : Capability}
    (h : Capability.tryFrom row = .ok given) :
    row.userId = given.userId.value ∧ row.purpose = purposeName given.purpose ∧
      row.tokenHash = given.tokenHash.asBytes ∧ row.expiresAt = given.expiresAt := by
  obtain ⟨userId, huser, h⟩ := except_bind_ok h
  obtain ⟨purpose, hpurpose, h⟩ := except_bind_ok h
  obtain ⟨hash, hhash, h⟩ := except_bind_ok h
  cases h
  exact ⟨parseUserId_ok huser, parsePurpose_ok hpurpose, SecretHash.fromSlice_ok hhash, rfl⟩

theorem Ceremony.row_of_tryFrom {row : AuthCeremony} {ceremony : Ceremony}
    (h : Ceremony.tryFrom row = .ok ceremony) :
    row.id = ceremony.id ∧ row.kind = ceremonyName ceremony.kind ∧
      row.userId = ceremony.userId.map (·.value) ∧ row.expiresAt = ceremony.expiresAt := by
  have hdecodes := Ceremony.decodes_of_tryFrom h
  refine ⟨hdecodes.id, hdecodes.kind, hdecodes.userId, ?_⟩
  obtain ⟨kind, -, h⟩ := except_bind_ok h
  obtain ⟨userId, -, h⟩ := except_bind_ok h
  obtain ⟨hash, -, h⟩ := except_bind_ok h
  cases h
  rfl

theorem RecoveryRequest.row_of_tryFrom {row : Database.RecoveryRequest}
    {request : RecoveryRequest} (h : RecoveryRequest.tryFrom row = .ok request) :
    row.id = request.id ∧ row.userId = request.userId.value ∧
      row.approvedAt = request.approvedAt := by
  obtain ⟨userId, huser, h⟩ := except_bind_ok h
  cases h
  exact ⟨rfl, parseUserId_ok huser, rfl⟩

theorem purposeName_injective : Function.Injective purposeName := by
  intro a b h
  cases a <;> cases b <;> first | rfl | exact absurd h (by decide)

theorem roleName_injective : Function.Injective roleName := by
  intro a b h
  cases a <;> cases b <;> first | rfl | exact absurd h (by decide)

/-- An epoch that advanced is the only change. -/
theorem User.keptIn_advanced {user' : User} {row : HumanUser} {now : DateTime}
    (h : user'.KeptIn (advanced now row)) :
    ∃ user : User, user.KeptIn row ∧ user.next = user' := by
  obtain ⟨id, hid, h⟩ := except_bind_ok h
  obtain ⟨role, hrole, h⟩ := except_bind_ok h
  cases h
  refine ⟨⟨id, row.webauthnHandle, row.email, row.displayName, role, row.enabled, row.authEpoch⟩,
    ?_, rfl⟩
  simp only [advanced] at hid hrole
  simp only [User.KeptIn, User.tryFrom, hid, hrole]
  rfl

/-! ## Inserted rows -/

namespace Database.Shows

variable {db : Database} {s : LiveStore} {now clock : DateTime}

/-- An audit event shows nothing. -/
theorem logged (h : db.Shows s) (event : AuthAuditEvent) : (db.logged event).Shows s :=
  ⟨h.users, h.credentials, h.capabilities, h.ceremonies, h.sessions, h.recoveries⟩

theorem addUser (h : db.Shows s) {user : User} (hnew : s.users user.id = none) :
    Database.Shows { db with humanUsers := db.humanUsers ++ [user.row now] } (s.addUser user) where
  users := h.users.append (user.tryFrom_row now)
    (fun _ hkept => Except.ok.inj (hkept.symm.trans (user.tryFrom_row now))) hnew
  credentials := h.credentials
  capabilities := h.capabilities
  ceremonies := h.ceremonies
  sessions := h.sessions
  recoveries := h.recoveries

theorem addCapability (h : db.Shows s) {given : Capability}
    (hnew : s.capabilities given.tokenHash = none) :
    Database.Shows { db with authCapabilities := db.authCapabilities ++ [given.row clock] }
      (s.addCapability given) where
  users := h.users
  credentials := h.credentials
  capabilities := h.capabilities.append ⟨rfl, given.tryFrom_row clock none⟩
    (fun _ hkept => Except.ok.inj (hkept.2.symm.trans (given.tryFrom_row clock none))) hnew
  ceremonies := h.ceremonies
  sessions := h.sessions
  recoveries := h.recoveries

theorem addCeremony (h : db.Shows s) {ceremony : Ceremony} (hnew : s.ceremonies ceremony.id = none) :
    Database.Shows { db with authCeremonies := db.authCeremonies ++ [ceremony.row clock] }
      { s with ceremonies := Function.update s.ceremonies ceremony.id (some ceremony) } where
  users := h.users
  credentials := h.credentials
  capabilities := h.capabilities
  ceremonies := h.ceremonies.append ⟨rfl, ceremony.tryFrom_row clock none⟩
    (fun _ hkept => Except.ok.inj (hkept.2.symm.trans (ceremony.tryFrom_row clock none))) hnew
  sessions := h.sessions
  recoveries := h.recoveries

/-! ## Updated rows -/

/-- The four updates of an invalidation. -/
theorem invalidated (h : db.Shows s) {p : String → Bool} {q : Option String → Bool}
    {P : UserId → Prop} [DecidablePred P] {Q : Option UserId → Prop} [DecidablePred Q]
    (hp : ∀ id : UserId, p id.value = true ↔ P id)
    (hq : ∀ id : Option UserId, q (id.map (·.value)) = true ↔ Q id) :
    (db.invalidated p q now).Shows (s.invalidate P Q) where
  users := by
    refine h.users.change (f := advanced now) (P := fun user => P user.id)
      (g := User.next) (fun user r hr hkept => ?_) (fun _ _ => rfl)
      (fun user r hr _ hkept => User.tryFrom_advanced hkept now)
      (fun user' r hr _ hkept => User.keptIn_advanced hkept)
    rw [(User.row_of_tryFrom hkept).1]
    exact hp user.id
  credentials := h.credentials
  capabilities := by
    refine h.capabilities.retire (f := fun c => { c with consumedAt := some now })
      (P := fun given => P given.userId) (fun given r hr hkept => ?_)
      (fun r hr _ given hkept => absurd hkept.1 (Option.some_ne_none now))
    rw [Bool.and_eq_true, (Capability.row_of_tryFrom hkept.2).1, decide_eq_true_eq]
    exact ⟨fun hsel => (hp _).1 hsel.1, fun hP => ⟨(hp _).2 hP, hkept.1⟩⟩
  ceremonies := by
    refine h.ceremonies.retire (f := fun c => { c with consumedAt := some now })
      (P := fun ceremony => Q ceremony.userId)
      (fun ceremony r hr hkept => ?_)
      (fun r hr _ ceremony hkept => absurd hkept.1 (Option.some_ne_none now))
    rw [Bool.and_eq_true, (Ceremony.row_of_tryFrom hkept.2).2.2.1, decide_eq_true_eq]
    exact ⟨fun hsel => (hq _).1 hsel.1, fun hQ => ⟨(hq _).2 hQ, hkept.1⟩⟩
  sessions := by
    refine h.sessions.retire (f := fun s => { s with revokedAt := some now })
      (P := fun record => P record.userId) (fun record r hr hkept => ?_)
      (fun r hr _ record hkept => absurd hkept.1 (Option.some_ne_none now))
    rw [Bool.and_eq_true, hkept.2.userId, decide_eq_true_eq]
    exact ⟨fun hsel => (hp _).1 hsel.1, fun hP => ⟨(hp _).2 hP, hkept.1⟩⟩
  recoveries := h.recoveries

theorem invalidatedUser (h : db.Shows s) (userId : UserId) :
    (db.invalidatedUser userId.value now).Shows (s.invalidateUser userId) := by
  refine h.invalidated (fun id => ?_) fun id => ?_
  · rw [decide_eq_true_eq]
    exact OpaqueId.value_injective.eq_iff
  · rw [decide_eq_true_eq]
    cases id with
    | none => exact ⟨fun h => absurd h.symm (Option.some_ne_none _),
        fun h => absurd h.symm (Option.some_ne_none _)⟩
    | some id =>
        rw [Option.map_some, Option.some.injEq, Option.some.injEq, OpaqueId.value_injective.eq_iff]

/-- A ceremony is spent. -/
theorem spendCeremony (h : db.Shows s) (now : DateTime) (id : Uuid) {p : AuthCeremony → Bool}
    (hp : ∀ ceremony, ∀ r ∈ db.authCeremonies, Ceremony.KeptIn ceremony r →
      (p r = true ↔ ceremony.id = id)) :
    Database.Shows
      { db with
        authCeremonies := updateWhere p (fun c => { c with consumedAt := some now })
          db.authCeremonies }
      { s with ceremonies := Function.update s.ceremonies id none } where
  users := h.users
  credentials := h.credentials
  capabilities := h.capabilities
  ceremonies := h.ceremonies.erase hp
    fun _ _ _ _ hkept => absurd hkept.1 (Option.some_ne_none now)
  sessions := h.sessions
  recoveries := h.recoveries

/-- A registration spends the capability that it names, if that one is live. -/
theorem spendCapability (h : db.Shows s) {capabilityHash : Option SecretHash}
    (hlive : ∀ hash, capabilityHash = some hash → ∃ given, s.capabilities hash = some given ∧
      now < given.expiresAt) :
    Database.Shows
      { db with
        authCapabilities := updateWhere
          (fun c => decide (some c.tokenHash = capabilityHash.map (·.asBytes) ∧ c.Live now))
          (fun c => { c with consumedAt := some now }) db.authCapabilities }
      { s with
        capabilities := capabilityHash.elim s.capabilities fun hash =>
          Function.update s.capabilities hash none } where
  users := h.users
  credentials := h.credentials
  capabilities := by
    cases capabilityHash with
    | none =>
        simp only [Option.map_none, reduceCtorEq, false_and, decide_false]
        rw [updateWhere_false]
        exact h.capabilities
    | some hash =>
        refine h.capabilities.erase (fun given r hr hkept => ?_)
          fun r hr _ given hkept => absurd hkept.1 (Option.some_ne_none now)
        obtain ⟨-, -, htoken, hexpires⟩ := Capability.row_of_tryFrom hkept.2
        rw [decide_eq_true_eq, Option.map_some, Option.some.injEq, htoken,
          SecretHash.asBytes_injective.eq_iff]
        refine ⟨And.left, fun hhash => ⟨hhash, hkept.1, ?_⟩⟩
        obtain ⟨given', hentry, hbefore⟩ := hlive hash rfl
        rw [← hhash, h.capabilities.entry hr hkept] at hentry
        cases hentry
        rw [hexpires]
        exact hbefore
  ceremonies := h.ceremonies
  sessions := h.sessions
  recoveries := h.recoveries

theorem addCredential (h : db.Shows s) {credential : VerifiedCredential} {id : Uuid} {userId : UserId}
    (hnew : s.credentials id = none) :
    Database.Shows
      { db with passkeyCredentials := db.passkeyCredentials ++ [credential.row id userId.value now] }
      { s with
        credentials := Function.update s.credentials id
          (some ⟨id, userId, credential.credentialId, credential.publicData, none⟩) } where
  users := h.users
  credentials := by
    have hrow : StoredCredential.tryFrom (credential.row id userId.value now) =
        .ok ⟨id, userId, credential.credentialId, credential.publicData, none⟩ := by
      simp only [StoredCredential.tryFrom, VerifiedCredential.row, parseUserId_value]
      rfl
    exact h.credentials.append ⟨rfl, hrow⟩
      (fun _ hkept => Except.ok.inj (hkept.2.symm.trans hrow)) hnew
  capabilities := h.capabilities
  ceremonies := h.ceremonies
  sessions := h.sessions
  recoveries := h.recoveries

/-- The recoveries of a user are over once a passkey is registered. -/
theorem completeRecoveries (h : db.Shows s) (subject : Option UserId) :
    Database.Shows
      { db with
        recoveryRequests := updateWhere
          (fun r => decide (some r.userId = subject.map (·.value) ∧ r.approvedAt ≠ none ∧
            r.setupIssuedAt ≠ none ∧ r.completedAt = none))
          (fun r => { r with completedAt := some now }) db.recoveryRequests }
      { s with
        recoveries := fun id => (s.recoveries id).filter fun recovery =>
          ¬ (some recovery.request.userId = subject ∧ recovery.request.approvedAt ≠ none ∧
            recovery.setupIssued = true) } where
  users := h.users
  credentials := h.credentials
  capabilities := h.capabilities
  ceremonies := h.ceremonies
  sessions := h.sessions
  recoveries := by
    refine h.recoveries.retire (fun recovery r hr hkept => ?_)
      fun r hr _ recovery hkept => absurd hkept.1 (Option.some_ne_none now)
    obtain ⟨hopen, hrequest, hissued⟩ := hkept
    obtain ⟨-, huser, happroved⟩ := RecoveryRequest.row_of_tryFrom hrequest
    have howner : some r.userId = subject.map (·.value) ↔ some recovery.request.userId = subject := by
      rw [huser]
      cases subject with
      | none =>
          exact ⟨fun h => absurd h (Option.some_ne_none _), fun h => absurd h (Option.some_ne_none _)⟩
      | some id =>
          rw [Option.map_some, Option.some.injEq, Option.some.injEq, OpaqueId.value_injective.eq_iff]
    rw [decide_eq_true_eq, howner, happroved, hissued, Option.isSome_iff_ne_none]
    exact and_congr_right fun _ => and_congr_right fun _ => and_iff_left hopen

/-- A login renews the data of the passkey. -/
theorem useCredential (h : db.Shows s) {userId : UserId} {credentialId : List UInt8}
    {publicData : Value} :
    Database.Shows
      { db with
        passkeyCredentials := updateWhere
          (fun c => decide (c.userId = userId.value ∧ c.credentialId = credentialId ∧
            c.revokedAt = none))
          (fun c => { c with publicData := publicData, lastUsedAt := some now })
          db.passkeyCredentials }
      { s with
        credentials := fun id => (s.credentials id).map fun credential =>
          if credential.userId = userId ∧ credential.credentialId = credentialId then
            { credential with publicData := publicData } else credential } where
  users := h.users
  credentials := by
    refine h.credentials.change (fun credential r hr hkept => ?_) (fun _ _ => rfl)
      (fun credential r hr _ hkept => ⟨hkept.1, ?_⟩) fun credential' r hr hsel hkept => ?_
    · obtain ⟨-, huser, hid, -⟩ := StoredCredential.row_of_tryFrom hkept.2
      rw [decide_eq_true_eq, huser, hid, OpaqueId.value_injective.eq_iff]
      exact and_congr_right fun _ => and_iff_left hkept.1
    · obtain ⟨owner, howner, hrow⟩ := except_bind_ok hkept.2
      cases hrow
      simp only [StoredCredential.tryFrom, howner]
      rfl
    · obtain ⟨owner, howner, hrow⟩ := except_bind_ok hkept.2
      cases hrow
      refine ⟨⟨r.id, owner, r.credentialId, r.publicData, r.revokedAt⟩, ⟨hkept.1, ?_⟩, rfl⟩
      simp only [StoredCredential.tryFrom, howner]
      rfl
  capabilities := h.capabilities
  ceremonies := h.ceremonies
  sessions := h.sessions
  recoveries := h.recoveries

theorem dropCredential (h : db.Shows s) (now : DateTime) (id : Uuid) {p : PasskeyCredential → Bool}
    (hp : ∀ credential, ∀ r ∈ db.passkeyCredentials, StoredCredential.KeptIn credential r →
      (p r = true ↔ credential.id = id)) :
    Database.Shows
      { db with
        passkeyCredentials := updateWhere p (fun c => { c with revokedAt := some now })
          db.passkeyCredentials } (s.dropCredential id) where
  users := h.users
  credentials := h.credentials.erase hp
    fun _ _ _ _ hkept => absurd hkept.1 (Option.some_ne_none now)
  capabilities := h.capabilities
  ceremonies := h.ceremonies
  sessions := h.sessions
  recoveries := h.recoveries

theorem addSession (h : db.Shows s) {record : SessionRecord}
    (hnew : s.sessions record.tokenHash = none) :
    Database.Shows { db with authSessions := db.authSessions ++ [record.row now] }
      { s with sessions := Function.update s.sessions record.tokenHash (some record) } where
  users := h.users
  credentials := h.credentials
  capabilities := h.capabilities
  ceremonies := h.ceremonies
  sessions := by
    have hrow : record.Describes (record.row now) := ⟨rfl, rfl, rfl, rfl, rfl, rfl, rfl⟩
    exact h.sessions.append ⟨rfl, hrow⟩
      (fun _ hkept => SessionRecord.describes_unique hkept.2 hrow) hnew
  recoveries := h.recoveries

theorem deleteSession (h : db.Shows s) (hash : SecretHash) :
    Database.Shows
      { db with
        authSessions := updateWhere
          (fun r => decide (r.tokenHash = hash.asBytes) && decide (r.revokedAt = none))
          (fun r => { r with revokedAt := some now }) db.authSessions }
      { s with sessions := Function.update s.sessions hash none } where
  users := h.users
  credentials := h.credentials
  capabilities := h.capabilities
  ceremonies := h.ceremonies
  sessions := by
    refine h.sessions.erase (fun record r hr hkept => ?_)
      fun r hr _ record hkept => absurd hkept.1 (Option.some_ne_none now)
    rw [Bool.and_eq_true, decide_eq_true_eq, decide_eq_true_eq, hkept.2.tokenHash,
      SecretHash.asBytes_injective.eq_iff]
    exact and_iff_left hkept.1
  recoveries := h.recoveries

/-- A request's row becomes the row of `recovery'`. -/
theorem setRecovery (h : db.Shows s) {id : Uuid} {recovery : OpenRecovery} (recovery' : OpenRecovery)
    {p : Database.RecoveryRequest → Bool} {f : Database.RecoveryRequest → Database.RecoveryRequest}
    (hentry : s.recoveries id = some recovery) (hid : recovery'.request.id = id)
    (hp : ∀ recovery, ∀ r ∈ db.recoveryRequests, OpenRecovery.KeptIn recovery r →
      (p r = true ↔ recovery.request.id = id))
    (hf : ∀ r ∈ db.recoveryRequests, p r = true → OpenRecovery.KeptIn recovery r →
      ∀ recovery₀, OpenRecovery.KeptIn recovery₀ (f r) ↔ recovery₀ = recovery')
    (hback : ∀ recovery₀, ∀ r ∈ db.recoveryRequests, p r = true →
      OpenRecovery.KeptIn recovery₀ (f r) → ∃ recovery, OpenRecovery.KeptIn recovery r) :
    Database.Shows { db with recoveryRequests := updateWhere p f db.recoveryRequests }
      (s.setRecovery id recovery') where
  users := h.users
  credentials := h.credentials
  capabilities := h.capabilities
  ceremonies := h.ceremonies
  sessions := h.sessions
  recoveries := h.recoveries.set hentry hid hp hf hback

theorem addRecovery (h : db.Shows s) {id : Uuid} {userId : UserId} (hnew : s.recoveries id = none) :
    Database.Shows
      { db with
        recoveryRequests := db.recoveryRequests ++
          [{ id := id, userId := userId.value, requestedAt := now }] }
      (s.setRecovery id ⟨⟨id, userId, now, none⟩, false⟩) where
  users := h.users
  credentials := h.credentials
  capabilities := h.capabilities
  ceremonies := h.ceremonies
  sessions := h.sessions
  recoveries := by
    have hrow : RecoveryRequest.tryFrom { id := id, userId := userId.value, requestedAt := now } =
        .ok ⟨id, userId, now, none⟩ := by
      simp only [RecoveryRequest.tryFrom, parseUserId_value]
      rfl
    refine h.recoveries.append (v := ⟨⟨id, userId, now, none⟩, false⟩) ⟨rfl, hrow, rfl⟩
      (fun recovery hkept => ?_) hnew
    obtain ⟨request, issued⟩ := recovery
    obtain rfl : request = ⟨id, userId, now, none⟩ := Except.ok.inj (hkept.2.1.symm.trans hrow)
    obtain rfl : issued = false := hkept.2.2
    rfl

/-! ## Sessions in use -/

theorem liveSession_eq_some {hash : SecretHash} {record : SessionRecord} {user : User} :
    s.liveSession hash now = some (record, user) ↔
      s.sessions hash = some record ∧ s.users record.userId = some user ∧
        now < record.idleExpiresAt ∧ now < record.absoluteExpiresAt ∧ user.enabled = true ∧
        record.authEpoch = user.authEpoch := by
  simp only [LiveStore.liveSession, Option.bind_eq_bind, Option.bind_eq_some_iff]
  constructor
  · rintro ⟨record', hrecord, user', huser, hlive⟩
    split at hlive
    · next hcond =>
        cases hlive
        exact ⟨hrecord, huser, hcond⟩
    · cases hlive
  · rintro ⟨hrecord, huser, hcond⟩
    exact ⟨record, hrecord, user, huser, if_pos hcond⟩

/-- The rows that the query joins are the live session of the token and its user. -/
theorem liveSession_of_found (h : db.Shows s) (hlegible : db.Legible) {hash : SecretHash}
    {row : AuthSession} {u : HumanUser} (hrow : row ∈ db.authSessions) (hu : u ∈ db.humanUsers)
    (hfound : SessionFound hash.asBytes now row u) :
    ∃ record user, s.liveSession hash now = some (record, user) ∧ record.KeptIn row ∧
      User.tryFrom u = .ok user := by
  obtain ⟨howner, htoken, hunrevoked, hidle, habsolute, henabled, hepoch⟩ := hfound
  obtain ⟨record, hrecord⟩ := hlegible.sessions row hrow
  obtain ⟨user, huser⟩ := hlegible.users u hu
  obtain ⟨hid, -, -, hue, huepoch⟩ := User.row_of_tryFrom huser
  have hkept : record.KeptIn row := ⟨hunrevoked, hrecord⟩
  have hhash : record.tokenHash = hash :=
    SecretHash.asBytes_injective (hrecord.tokenHash.symm.trans htoken)
  have huserId : user.id = record.userId :=
    OpaqueId.value_injective (hid.symm.trans (howner.trans hrecord.userId))
  refine ⟨record, user, liveSession_eq_some.2 ⟨?_, ?_, ?_, ?_, ?_, ?_⟩, hkept, huser⟩
  · rw [← hhash]
    exact h.sessions.entry hrow hkept
  · rw [← huserId]
    exact h.users.entry hu huser
  · rw [← hrecord.idleExpiresAt]
    exact hidle
  · rw [← hrecord.absoluteExpiresAt]
    exact habsolute
  · rw [← hue]
    exact henabled
  · rw [← hrecord.authEpoch, ← huepoch]
    exact hepoch

/-- Where the query finds nothing, no session is live. -/
theorem liveSession_of_not_found (h : db.Shows s) {hash : SecretHash}
    (hnone : ∀ row ∈ db.authSessions, ∀ u ∈ db.humanUsers,
      ¬ SessionFound hash.asBytes now row u) : s.liveSession hash now = none := by
  cases hlive : s.liveSession hash now with
  | none => rfl
  | some found =>
      obtain ⟨record, user⟩ := found
      obtain ⟨hrecord, huser, hidle, habsolute, henabled, hepoch⟩ := liveSession_eq_some.1 hlive
      obtain ⟨rfl, row, hrow, hunrevoked, hdescribes⟩ := (h.sessions _ _).1 hrecord
      obtain ⟨hid, u, hu, hdecoded⟩ := (h.users _ _).1 huser
      obtain ⟨huid, -, -, hue, huepoch⟩ := User.row_of_tryFrom hdecoded
      refine absurd ⟨?_, hdescribes.tokenHash, hunrevoked, ?_, ?_, ?_, ?_⟩ (hnone row hrow u hu)
      · exact huid.trans ((congrArg OpaqueId.value hid).trans hdescribes.userId.symm)
      · rw [hdescribes.idleExpiresAt]
        exact hidle
      · rw [hdescribes.absoluteExpiresAt]
        exact habsolute
      · rw [hue]
        exact henabled
      · rw [hdescribes.authEpoch, huepoch]
        exact hepoch

theorem used (h : db.Shows s) (hkeyed : Keyed (·.id) db.authSessions) (csrfHash : Option SecretHash)
    (idle : DateTime) {hash : SecretHash} {row : AuthSession} {record : SessionRecord} {user : User}
    (hrow : row ∈ db.authSessions) (hkept : record.KeptIn row)
    (hlive : s.liveSession hash now = some (record, user)) :
    (db.used row csrfHash idle now).Shows (s.use hash csrfHash now idle) := by
  have hentry := (liveSession_eq_some.1 hlive).1
  have hhash := h.sessions.key_of_entry hentry
  have hsame : ∀ r ∈ db.authSessions, r.id = row.id → r = row :=
    fun r hr hid => hkeyed.eq_of_mem hr hrow hid
  rw [LiveStore.use, hlive]
  refine ⟨h.users, h.credentials, h.capabilities, h.ceremonies, ?_, h.recoveries⟩
  refine h.sessions.set hentry hhash (fun record' r hr hkept' => ?_) (fun r hr hsel hrecord => ?_)
    fun record' r hr hsel hkept' => ?_
  · rw [decide_eq_true_eq]
    constructor
    · intro hid
      obtain rfl := hsame r hr hid
      rw [SessionRecord.describes_unique hkept'.2 hkept.2]
      exact hhash
    · intro hkey
      have hother := h.sessions.entry hr hkept'
      rw [hkey, hentry] at hother
      cases hother
      rw [hkept'.2.id, hkept.2.id]
  · intro record'
    have hdescribes : SessionRecord.Describes
        { record with
          csrfHash := csrfHash.getD record.csrfHash
          idleExpiresAt := min idle record.absoluteExpiresAt }
        { r with
          csrfHash := (csrfHash.map (·.asBytes)).getD r.csrfHash
          idleExpiresAt := min idle row.absoluteExpiresAt
          lastSeenAt := now } := by
      obtain ⟨hid, huser, htoken, hcsrf, hepoch, hidle, habsolute⟩ := hrecord.2
      refine ⟨hid, huser, htoken, ?_, hepoch, ?_, habsolute⟩
      · cases csrfHash with
        | none => exact hcsrf
        | some csrf => rfl
      · exact congrArg (min idle) hkept.2.absoluteExpiresAt
    constructor
    · exact fun hkept' => SessionRecord.describes_unique hkept'.2 hdescribes
    · rintro rfl
      exact ⟨hrecord.1, hdescribes⟩
  · obtain rfl := hsame r hr (of_decide_eq_true hsel)
    exact ⟨record, hkept⟩

/-! ## Queries -/

/-- The row that a query by a key finds is the entry of the key. -/
theorem found_of_find {ρ ν κ : Type} {Enc : ν → ρ → Prop} {key : ν → κ} {rows : List ρ}
    {m : κ → Option ν} (h : Represents Enc key rows m) {q : ρ → Prop} [DecidablePred q]
    {decode : ρ → Except AuthError ν} {k : κ} {P : ν → Prop} [DecidablePred P] {a : Option ν}
    (hfound : transpose decode (rows.find? fun r => decide (q r)) = .ok a)
    (hsome : ∀ r ∈ rows, q r → ∀ v, decode r = .ok v → key v = k ∧ P v ∧ Enc v r)
    (hnone : ∀ v, ∀ r ∈ rows, Enc v r → key v = k → P v → q r) :
    a = (m k).filter (fun v => P v) := by
  cases hfind : rows.find? (fun r => decide (q r)) with
  | none =>
      rw [hfind] at hfound
      cases hfound
      refine h.found (fun v hv => absurd hv.symm (Option.some_ne_none v))
        fun _ v r hr henc hkey hP => ?_
      exact List.find?_eq_none.1 hfind r hr (decide_eq_true (hnone v r hr henc hkey hP))
  | some r =>
      rw [hfind] at hfound
      obtain ⟨hr, hq⟩ := mem_of_find hfind
      cases hdecode : decode r with
      | error e =>
          rw [transpose, hdecode] at hfound
          cases hfound
      | ok v =>
          rw [transpose, hdecode] at hfound
          cases hfound
          obtain ⟨hkey, hP, henc⟩ := hsome r hr hq v hdecode
          refine h.found (fun v' hv' => ?_) fun hnot => absurd hnot (Option.some_ne_none v)
          cases hv'
          exact ⟨hkey, hP, r, hr, henc⟩

theorem userById (h : db.Shows s) {id : UserId} {a : Option User}
    (ha : transpose User.tryFrom (Database.userById id.value db) = .ok a) : a = s.users id := by
  have hfound := found_of_find h.users (k := id) (P := fun _ => True) ha
    (fun r hr hid user huser => ⟨?_, trivial, huser⟩) fun user r hr huser hid _ => ?_
  · rw [hfound]
    cases s.users id <;> rfl
  · exact OpaqueId.value_injective ((User.row_of_tryFrom huser).1.symm.trans hid)
  · rw [(User.row_of_tryFrom huser).1]
    exact congrArg OpaqueId.value hid

theorem userByHandle (h : db.Shows s) (hkeyed : Keyed (·.webauthnHandle) db.humanUsers)
    {handle : Uuid} {a : Option User}
    (ha : transpose User.tryFrom (Database.userByHandle handle db) = .ok a) (user : User) :
    a = some user ↔ s.users user.id = some user ∧ user.webauthnHandle = handle := by
  constructor
  · rintro rfl
    obtain ⟨r, hfind, hdecode⟩ := transpose_some ha
    obtain ⟨hr, hhandle⟩ := mem_of_find hfind
    exact ⟨h.users.entry hr hdecode, (User.row_of_tryFrom hdecode).2.1.symm.trans hhandle⟩
  · rintro ⟨hentry, hhandle⟩
    obtain ⟨-, r, hr, hdecode⟩ := (h.users _ _).1 hentry
    have hmatch : r.webauthnHandle = handle := (User.row_of_tryFrom hdecode).2.1.trans hhandle
    cases hfind : Database.userByHandle handle db with
    | none => exact absurd (decide_eq_true hmatch) (List.find?_eq_none.1 hfind r hr)
    | some r' =>
        obtain ⟨hr', hmatch'⟩ := mem_of_find hfind
        obtain rfl := hkeyed.eq_of_mem hr' hr (hmatch'.trans hmatch.symm)
        rw [hfind, transpose, show User.tryFrom r' = .ok user from hdecode] at ha
        exact (Except.ok.inj ha).symm

/-- Some operator's passkey is an unrevoked credential of an operator's row. -/
theorem registered_iff (h : db.Shows s) (hlegible : db.Legible) :
    s.OperatorRegistered ↔ db.operatorCredentials ≠ [] := by
  constructor
  · rintro ⟨id, credential, user, hcredential, huser, hrole⟩ hempty
    obtain ⟨-, c, hc, hunrevoked, hdecode⟩ := (h.credentials _ _).1 hcredential
    obtain ⟨hid, u, hu, hdecoded⟩ := (h.users _ _).1 huser
    have hpair : (c, u) ∈ db.operatorCredentials := by
      rw [operatorCredentials, mem_join, List.mem_filter, List.mem_filter]
      refine ⟨⟨hc, decide_eq_true hunrevoked⟩, ⟨hu, decide_eq_true ?_⟩, decide_eq_true ?_⟩
      · rw [(User.row_of_tryFrom hdecoded).2.2.1, hrole]
        rfl
      · rw [(User.row_of_tryFrom hdecoded).1, (StoredCredential.row_of_tryFrom hdecode).2.1]
        exact congrArg OpaqueId.value hid
    rw [hempty] at hpair
    exact List.not_mem_nil hpair
  · intro hsome
    obtain ⟨⟨c, u⟩, hpair⟩ := List.exists_mem_of_ne_nil _ hsome
    rw [operatorCredentials, mem_join, List.mem_filter, List.mem_filter] at hpair
    obtain ⟨⟨hc, hunrevoked⟩, ⟨hu, hrole⟩, howner⟩ := hpair
    obtain ⟨credential, hcredential⟩ := hlegible.credentials c hc
    obtain ⟨user, huser⟩ := hlegible.users u hu
    have hid : user.id = credential.userId := by
      refine OpaqueId.value_injective ?_
      rw [← (User.row_of_tryFrom huser).1, ← (StoredCredential.row_of_tryFrom hcredential).2.1]
      exact of_decide_eq_true howner
    refine ⟨credential.id, credential, user,
      h.credentials.entry hc ⟨of_decide_eq_true hunrevoked, hcredential⟩, ?_, ?_⟩
    · rw [← hid]
      exact h.users.entry hu huser
    · refine roleName_injective ?_
      rw [← (User.row_of_tryFrom huser).2.2.1]
      exact of_decide_eq_true hrole

/-- An operator's row. -/
theorem operator_iff (h : db.Shows s) (hlegible : db.Legible) :
    (∃ u ∈ db.humanUsers, u.role = "operator") ↔
      ∃ user, s.users user.id = some user ∧ user.role = .operator := by
  constructor
  · rintro ⟨u, hu, hrole⟩
    obtain ⟨user, huser⟩ := hlegible.users u hu
    refine ⟨user, h.users.entry hu huser, roleName_injective ?_⟩
    rw [← (User.row_of_tryFrom huser).2.2.1]
    exact hrole
  · rintro ⟨user, hentry, hrole⟩
    obtain ⟨-, u, hu, hdecoded⟩ := (h.users _ _).1 hentry
    refine ⟨u, hu, ?_⟩
    rw [(User.row_of_tryFrom hdecoded).2.2.1, hrole]
    rfl

theorem operatorWithoutCredential (h : db.Shows s) (hlegible : db.Legible) {rank : Rank}
    {a : Option User}
    (ha : transpose User.tryFrom (Database.operatorWithoutCredential rank db) = .ok a) :
    (∀ user, a = some user → s.users user.id = some user ∧ user.role = .operator ∧
        user.enabled = true ∧ ¬ s.OperatorRegistered) ∧
      (a = none → ∀ user, s.users user.id = some user → user.role = .operator →
        user.enabled = true → s.OperatorRegistered) := by
  constructor
  · rintro user rfl
    obtain ⟨u, hhead, hdecoded⟩ := transpose_some ha
    have hmem := List.mem_of_head? hhead
    rw [mem_orderBy, List.mem_filter, decide_eq_true_eq] at hmem
    obtain ⟨hu, hrole, henabled, hnone⟩ := hmem
    obtain ⟨-, -, hrolename, hue, -⟩ := User.row_of_tryFrom hdecoded
    exact ⟨h.users.entry hu hdecoded, roleName_injective (hrolename.symm.trans hrole),
      hue.symm.trans henabled, fun hregistered => (h.registered_iff hlegible).1 hregistered hnone⟩
  · rintro rfl user hentry hrole henabled
    obtain ⟨-, u, hu, hdecoded⟩ := (h.users _ _).1 hentry
    obtain ⟨-, -, hrolename, hue, -⟩ := User.row_of_tryFrom hdecoded
    refine (h.registered_iff hlegible).2 fun hnone => ?_
    cases hhead : Database.operatorWithoutCredential rank db with
    | some u' =>
        rw [hhead, transpose] at ha
        cases hdecode : User.tryFrom u' with
        | error e =>
            rw [hdecode] at ha
            cases ha
        | ok user' =>
            rw [hdecode] at ha
            cases ha
    | none =>
        have hempty := List.head?_eq_none_iff.1 hhead
        have hmem : u ∈ orderBy (·.createdAt) (fun u => rank u.webauthnHandle)
            (db.humanUsers.filter
              (fun u => u.role = "operator" ∧ u.enabled ∧ db.operatorCredentials = [])) := by
          rw [mem_orderBy, List.mem_filter, decide_eq_true_eq]
          exact ⟨hu, hrolename.trans (congrArg roleName hrole), hue.trans henabled, hnone⟩
        rw [hempty] at hmem
        exact List.not_mem_nil hmem

theorem operatorRecoveryWindow (h : db.Shows s) (hlegible : db.Legible) {rank : Rank}
    {a : Option (User × SecretHash)}
    (ha : transpose recoveryWindow (Database.operatorRecoveryWindow rank now db) = .ok a) :
    (∀ user hash, a = some (user, hash) → s.Window now user hash) ∧
      (a = none → ∀ user hash, ¬ s.Window now user hash) := by
  constructor
  · rintro user hash rfl
    obtain ⟨⟨k, u⟩, hhead, hdecoded⟩ := transpose_some ha
    have hmem := List.mem_of_head? hhead
    rw [mem_join, mem_orderBy, List.mem_filter, List.mem_filter, decide_eq_true_eq,
      decide_eq_true_eq, decide_eq_true_eq] at hmem
    obtain ⟨⟨hk, hpurpose, hunconsumed, hexpires⟩, ⟨hu, hrole, henabled⟩, howner⟩ := hmem
    obtain ⟨hash', hhash, hdecoded⟩ := except_bind_ok hdecoded
    obtain ⟨user', huser, hdecoded⟩ := except_bind_ok hdecoded
    cases hdecoded
    obtain ⟨given, hgiven⟩ := hlegible.capabilities k hk
    obtain ⟨hgu, hgp, hgt, hge⟩ := Capability.row_of_tryFrom hgiven
    obtain ⟨huid, -, hrolename, hue, -⟩ := User.row_of_tryFrom huser
    obtain rfl : given.tokenHash = hash :=
      SecretHash.asBytes_injective (hgt.symm.trans (SecretHash.fromSlice_ok hhash))
    refine ⟨given, h.capabilities.entry hk ⟨hunconsumed, hgiven⟩,
      purposeName_injective (hgp.symm.trans hpurpose), hge ▸ hexpires, ?_,
      roleName_injective (hrolename.symm.trans hrole), hue.symm.trans henabled⟩
    rw [← OpaqueId.value_injective (huid.symm.trans (howner.trans hgu))]
    exact h.users.entry hu huser
  · rintro rfl user hash ⟨given, hentry, hpurpose, hexpires, huser, hrole, henabled⟩
    obtain ⟨-, k, hk, hunconsumed, hgiven⟩ := (h.capabilities _ _).1 hentry
    obtain ⟨hid, u, hu, hdecoded⟩ := (h.users _ _).1 huser
    obtain ⟨hgu, hgp, hgt, hge⟩ := Capability.row_of_tryFrom hgiven
    obtain ⟨huid, -, hrolename, hue, -⟩ := User.row_of_tryFrom hdecoded
    cases hhead : Database.operatorRecoveryWindow rank now db with
    | some pair =>
        rw [hhead, transpose] at ha
        cases hdecode : recoveryWindow pair with
        | error e =>
            rw [hdecode] at ha
            cases ha
        | ok found =>
            rw [hdecode] at ha
            cases ha
    | none =>
        have hempty := List.head?_eq_none_iff.1 hhead
        have hmem : (k, u) ∈ join (fun (c : AuthCapability) (u : HumanUser) => u.id = c.userId)
            (orderBy (fun c => -c.createdAt) (fun c => rank c.id)
              (db.authCapabilities.filter
                (fun c => c.purpose = "operator_recovery" ∧ c.Live now)))
            (db.humanUsers.filter (fun u => u.role = "operator" ∧ u.enabled)) := by
          rw [mem_join, mem_orderBy, List.mem_filter, List.mem_filter, decide_eq_true_eq,
            decide_eq_true_eq, decide_eq_true_eq]
          refine ⟨⟨hk, hgp.trans (congrArg purposeName hpurpose), hunconsumed, ?_⟩,
            ⟨hu, hrolename.trans (congrArg roleName hrole), hue.trans henabled⟩,
            huid.trans ((congrArg OpaqueId.value hid).trans hgu.symm)⟩
          rw [hge]
          exact hexpires
        rw [hempty] at hmem
        exact List.not_mem_nil hmem

theorem capability (h : db.Shows s) {hash : SecretHash} {purpose : CapabilityPurpose}
    {a : Option Capability}
    (ha : transpose Capability.tryFrom
      (Database.capability hash.asBytes (purposeName purpose) now db) = .ok a) :
    a = (s.capabilities hash).filter
      (fun given => given.purpose = purpose ∧ now < given.expiresAt) := by
  refine found_of_find h.capabilities (k := hash) ha (fun r hr hq given hgiven => ?_)
    fun given r hr hkept hkey hP => ?_
  · obtain ⟨htoken, hpurpose, hunconsumed, hexpires⟩ := hq
    obtain ⟨-, hgp, hgt, hge⟩ := Capability.row_of_tryFrom hgiven
    exact ⟨SecretHash.asBytes_injective (hgt.symm.trans htoken),
      ⟨purposeName_injective (hgp.symm.trans hpurpose), hge ▸ hexpires⟩, hunconsumed, hgiven⟩
  · obtain ⟨-, hgp, hgt, hge⟩ := Capability.row_of_tryFrom hkept.2
    refine ⟨hgt.trans (congrArg SecretHash.asBytes hkey), hgp.trans (congrArg purposeName hP.1),
      hkept.1, ?_⟩
    rw [hge]
    exact hP.2

theorem ceremony (h : db.Shows s) {id : Uuid} {kind : CeremonyKind} {a : Option Ceremony}
    (ha : transpose Ceremony.tryFrom (Database.ceremony id (ceremonyName kind) now db) = .ok a) :
    a = (s.ceremonies id).filter
      (fun ceremony => ceremony.kind = kind ∧ now < ceremony.expiresAt) := by
  refine found_of_find h.ceremonies (k := id) ha (fun r hr hq ceremony hdecoded => ?_)
    fun ceremony r hr hkept hkey hP => ?_
  · obtain ⟨hid, hkind, hunconsumed, hexpires⟩ := hq
    obtain ⟨hcid, hck, -, hce⟩ := Ceremony.row_of_tryFrom hdecoded
    exact ⟨hcid.symm.trans hid, ⟨ceremonyName_injective (hck.symm.trans hkind), hce ▸ hexpires⟩,
      hunconsumed, hdecoded⟩
  · obtain ⟨hcid, hck, -, hce⟩ := Ceremony.row_of_tryFrom hkept.2
    refine ⟨hcid.trans hkey, hck.trans (congrArg ceremonyName hP.1), hkept.1, ?_⟩
    rw [hce]
    exact hP.2

theorem mapM_forall₂ {α β : Type} {f : α → Except AuthError β} {as : List α} {bs : List β}
    (h : as.mapM f = .ok bs) : List.Forall₂ (fun a b => f a = .ok b) as bs := by
  induction as generalizing bs with
  | nil =>
      cases h
      exact .nil
  | cons a as ih =>
      rw [List.mapM_cons] at h
      obtain ⟨b, hb, h⟩ := except_bind_ok h
      obtain ⟨bs', hbs', h⟩ := except_bind_ok h
      cases h
      exact .cons hb (ih hbs')

/-- The values that are read from sorted rows: all of them, each once. -/
theorem listed {ρ ν κ : Type} {rows : List ρ} {keep : ρ → Bool} {order : ρ → ℤ} {tie : ρ → ℕ}
    {decode : ρ → Except AuthError ν} {column : ρ → κ} {key : ν → κ} {a : List ν}
    (ha : (orderBy order tie (rows.filter keep)).mapM decode = .ok a) (hkeyed : Keyed column rows)
    (hkey : ∀ r v, decode r = .ok v → column r = key v) :
    (a.map key).Nodup ∧ ∀ v, v ∈ a ↔ ∃ r ∈ rows, keep r = true ∧ decode r = .ok v := by
  have hdecoded := mapM_forall₂ ha
  constructor
  · have hcolumns : (orderBy order tie (rows.filter keep)).map column = a.map key := by
      refine List.forall₂_eq_eq_eq ▸ List.forall₂_map_left_iff.2 (List.forall₂_map_right_iff.2 ?_)
      exact hdecoded.imp hkey
    rw [← hcolumns]
    have hperm := (List.perm_insertionSort
      (fun r r' => order r < order r' ∨ (order r = order r' ∧ tie r ≤ tie r'))
      (rows.filter keep)).map column
    refine hperm.nodup_iff.2 ?_
    exact hkeyed.sublist (List.filter_sublist.map column)
  · intro v
    constructor
    · intro hv
      obtain ⟨r, hr, hdecode⟩ := mapM_ok ha v hv
      rw [mem_orderBy, List.mem_filter] at hr
      exact ⟨r, hr.1, hr.2, hdecode⟩
    · rintro ⟨r, hr, hkeep, hdecode⟩
      have hmem : r ∈ orderBy order tie (rows.filter keep) :=
        mem_orderBy.2 (List.mem_filter.2 ⟨hr, hkeep⟩)
      obtain ⟨n, hn, rfl⟩ := List.getElem_of_mem hmem
      have hn' : n < a.length := hdecoded.length_eq ▸ hn
      have hread := hdecoded.get hn hn'
      obtain rfl : a[n] = v := Except.ok.inj (hread.symm.trans hdecode)
      exact List.getElem_mem hn'

theorem credentialsForUser (h : db.Shows s) (hkeyed : Keyed (·.id) db.passkeyCredentials)
    {rank : Rank} {userId : UserId} {a : List StoredCredential}
    (ha : (Database.credentialsForUser rank userId.value db).mapM StoredCredential.tryFrom = .ok a) :
    (a.map (·.id)).Nodup ∧ ∀ credential, credential ∈ a ↔
      s.credentials credential.id = some credential ∧ credential.userId = userId := by
  obtain ⟨hnodup, hmem⟩ := listed ha hkeyed fun r v hv => (StoredCredential.row_of_tryFrom hv).1
  refine ⟨hnodup, fun credential => (hmem credential).trans ?_⟩
  constructor
  · rintro ⟨r, hr, hkeep, hdecode⟩
    obtain ⟨huser, hunrevoked⟩ := of_decide_eq_true hkeep
    refine ⟨h.credentials.entry hr ⟨hunrevoked, hdecode⟩, OpaqueId.value_injective ?_⟩
    rw [← (StoredCredential.row_of_tryFrom hdecode).2.1]
    exact huser
  · rintro ⟨hentry, rfl⟩
    obtain ⟨-, r, hr, hunrevoked, hdecode⟩ := (h.credentials _ _).1 hentry
    exact ⟨r, hr, decide_eq_true ⟨(StoredCredential.row_of_tryFrom hdecode).2.1, hunrevoked⟩, hdecode⟩

theorem pendingRecoveries (h : db.Shows s) (hkeyed : Keyed (·.id) db.recoveryRequests) {rank : Rank}
    {a : List RsConsole.RecoveryRequest}
    (ha : (Database.pendingRecoveries rank db).mapM RsConsole.RecoveryRequest.tryFrom = .ok a) :
    (a.map (·.id)).Nodup ∧ ∀ request, request ∈ a ↔
      ∃ recovery, s.recoveries request.id = some recovery ∧ recovery.request = request := by
  obtain ⟨hnodup, hmem⟩ := listed ha hkeyed fun r v hv => (RecoveryRequest.row_of_tryFrom hv).1
  refine ⟨hnodup, fun request => (hmem request).trans ?_⟩
  constructor
  · rintro ⟨r, hr, hkeep, hdecode⟩
    exact ⟨⟨request, r.setupIssuedAt.isSome⟩,
      h.recoveries.entry (v := ⟨request, r.setupIssuedAt.isSome⟩) hr
        ⟨of_decide_eq_true hkeep, hdecode, rfl⟩, rfl⟩
  · rintro ⟨recovery, hentry, rfl⟩
    obtain ⟨-, r, hr, hopen, hdecode, -⟩ := (h.recoveries _ _).1 hentry
    exact ⟨r, hr, decide_eq_true hopen, hdecode⟩

/-! ## Unused keys -/

theorem users_fresh (h : db.Shows s) {id : UserId} (hnew : ∀ r ∈ db.humanUsers, r.id ≠ id.value) :
    s.users id = none := by
  refine h.users.fresh fun r hr user hkept hid => hnew r hr ?_
  rw [(User.row_of_tryFrom hkept).1]
  exact congrArg OpaqueId.value hid

theorem credentials_fresh (h : db.Shows s) {id : Uuid}
    (hnew : ∀ r ∈ db.passkeyCredentials, r.id ≠ id) : s.credentials id = none :=
  h.credentials.fresh fun r hr _ hkept hid =>
    hnew r hr ((StoredCredential.row_of_tryFrom hkept.2).1.trans hid)

theorem capabilities_fresh (h : db.Shows s) {hash : SecretHash}
    (hnew : ∀ r ∈ db.authCapabilities, r.tokenHash ≠ hash.asBytes) : s.capabilities hash = none := by
  refine h.capabilities.fresh fun r hr given hkept hhash => hnew r hr ?_
  rw [(Capability.row_of_tryFrom hkept.2).2.2.1]
  exact congrArg SecretHash.asBytes hhash

theorem ceremonies_fresh (h : db.Shows s) {id : Uuid} (hnew : ∀ r ∈ db.authCeremonies, r.id ≠ id) :
    s.ceremonies id = none :=
  h.ceremonies.fresh fun r hr _ hkept hid =>
    hnew r hr ((Ceremony.row_of_tryFrom hkept.2).1.trans hid)

theorem sessions_fresh (h : db.Shows s) {hash : SecretHash}
    (hnew : ∀ r ∈ db.authSessions, r.tokenHash ≠ hash.asBytes) : s.sessions hash = none := by
  refine h.sessions.fresh fun r hr record hkept hhash => hnew r hr ?_
  rw [hkept.2.tokenHash]
  exact congrArg SecretHash.asBytes hhash

theorem recoveries_fresh (h : db.Shows s) {id : Uuid} (hnew : ∀ r ∈ db.recoveryRequests, r.id ≠ id) :
    s.recoveries id = none :=
  h.recoveries.fresh fun r hr _ hkept hid =>
    hnew r hr ((RecoveryRequest.row_of_tryFrom hkept.2.1).1.trans hid)

end Database.Shows

/-! ## The methods -/

/-- What a query answers is decoded from the rows that it read. -/
theorem Repo.yields_read {α β : Type} {q : Database → α} {f : α → Except AuthError β} {b : β}
    {db db' : Database}
    (h : Tx.Yields (do let rows ← fetch q; Tx.ofExcept (f rows) : Repo β) db (.ok b) db') :
    f (q db) = .ok b ∧ db' = db := by
  obtain ⟨rows, db₁, hfetch, hdecode⟩ := Tx.yields_bind_ok h
  obtain ⟨rfl, rfl⟩ := yields_fetch_ok hfetch
  obtain ⟨hdecoded, rfl⟩ := Tx.yields_ofExcept hdecode
  exact ⟨hdecoded.symm, rfl⟩

namespace PgAuthStore

open Repo

variable {env : Env} {db db' : Database} {s : LiveStore} {now : DateTime}

/-- A session is looked for in vain, or found and touched; the connection may be lost before. -/
theorem useSession_outcome {tokenHash : SecretHash} {touch : AuthSession → Statement Unit}
    {principal : AuthSession × HumanUser → Except AuthError SessionPrincipal}
    {r : Except AuthError (Option SessionPrincipal)}
    (h : Tx.Yields (useSession tokenHash now touch principal) db r db') :
    (∃ e, r = .error e ∧ db' = db) ∨
      (r = .ok none ∧ db' = db ∧ ∀ row ∈ db.authSessions, ∀ u ∈ db.humanUsers,
        ¬ SessionFound tokenHash.asBytes now row u) ∨
      ∃ row ∈ db.authSessions, ∃ u ∈ db.humanUsers, SessionFound tokenHash.asBytes now row u ∧
        touch row db = .ok ((), db') ∧ r = (principal (row, u)).map some := by
  rcases Tx.yields_bind h with ⟨e, rfl, htransaction⟩ | ⟨found, db₁, htransaction, hdecode⟩
  · exact Or.inl ⟨e, rfl, Tx.yields_transaction_error htransaction⟩
  obtain ⟨rfl, rfl⟩ := Tx.yields_ofExcept hdecode
  obtain ⟨found, db₂, hfetch, hrest⟩ := Tx.yields_bind_ok (Tx.yields_transaction_ok htransaction)
  obtain ⟨rfl, rfl⟩ := yields_fetch_ok hfetch
  cases hsession : Database.session tokenHash.asBytes now db₂ with
  | none =>
      rw [hsession] at hrest
      obtain ⟨hfound, rfl⟩ := Tx.yields_pure hrest
      cases hfound
      refine Or.inr (Or.inl ⟨rfl, rfl, fun row hrow u hu hcond => ?_⟩)
      have hpair : (row, u) ∈ join (fun (s : AuthSession) (u : HumanUser) =>
          SessionFound tokenHash.asBytes now s u) db'.authSessions db'.humanUsers :=
        mem_join.2 ⟨hrow, hu, decide_eq_true hcond⟩
      rw [List.head?_eq_none_iff.1 hsession] at hpair
      exact List.not_mem_nil hpair
  | some pair =>
      rw [hsession] at hrest
      obtain ⟨⟨⟩, db₃, htouch, hpure⟩ := Tx.yields_bind_ok hrest
      obtain ⟨hfound, rfl⟩ := Tx.yields_pure hpure
      cases hfound
      have hmem := List.mem_of_head? hsession
      rw [mem_join, decide_eq_true_eq] at hmem
      exact Or.inr (Or.inr ⟨pair.1, hmem.1, pair.2, hmem.2.1, hmem.2.2, yields_execute_ok htouch,
        rfl⟩)

theorem insertCapability_refines {given : Capability}
    (h : perform env (.insertCapability given) db = (.ok (), db')) (hshows : db.Shows s) :
    ∃ s', s.Does (.insertCapability given) () s' ∧ db'.Shows s' := by
  obtain ⟨rfl, hfresh⟩ := insertAuthCapability_ok (yields_execute_ok (yields_of_perform h))
  have hnew := hshows.capabilities_fresh fun r hr => (hfresh r hr).2
  exact ⟨_, ⟨hnew, rfl⟩, hshows.addCapability hnew⟩

theorem insertUser_refines {user : User} {audit : AuditEvent}
    (h : perform env (.insertUser user now audit) db = (.ok (), db')) (hshows : db.Shows s) :
    ∃ s', s.Does (.insertUser user now audit) () s' ∧ db'.Shows s' := by
  cases insertUser_commits h with
  | unchanged _ reads => cases reads
  | insertUser _ _ _ absent =>
      have hnew := hshows.users_fresh absent
      exact ⟨_, ⟨hnew, rfl⟩, (hshows.addUser hnew).logged _⟩

theorem approveUserWithSetup_refines {user : User} {given : Capability} {operatorId : UserId}
    (h : perform env (.approveUserWithSetup user given operatorId now) db = (.ok (), db'))
    (hconsistent : db.Consistent) (hshows : db.Shows s) :
    ∃ s', s.Does (.approveUserWithSetup user given operatorId now) () s' ∧ db'.Shows s' := by
  have hkeys := (perform_consistent h hconsistent).capabilityHashes
  cases approveUserWithSetup_commits h with
  | unchanged _ reads => cases reads
  | approveUserWithSetup _ _ _ _ absent =>
      have huser := hshows.users_fresh absent
      have hgiven := hshows.capabilities_fresh fun r hr => hkeys.ne_of_append hr
      exact ⟨_, ⟨huser, hgiven, rfl⟩, ((hshows.addUser huser).addCapability hgiven).logged _⟩

theorem insertCeremony_refines {ceremony : Ceremony}
    (h : perform env (.insertCeremony ceremony) db = (.ok (), db')) (hshows : db.Shows s) :
    ∃ s', s.Does (.insertCeremony ceremony) () s' ∧ db'.Shows s' := by
  obtain ⟨rfl, hfresh⟩ := insertAuthCeremony_ok (yields_execute_ok (yields_of_perform h))
  have hnew := hshows.ceremonies_fresh hfresh
  exact ⟨_, ⟨hnew, rfl⟩, hshows.addCeremony hnew⟩

theorem deleteSession_refines {hash : SecretHash}
    (h : perform env (.deleteSession hash) db = (.ok (), db')) (hshows : db.Shows s) :
    ∃ s', s.Does (.deleteSession hash) () s' ∧ db'.Shows s' := by
  cases deleteSession_commits h with
  | unchanged _ reads => cases reads
  | deleteSession => exact ⟨_, rfl, hshows.deleteSession hash⟩

/-- The number that a rotation answers is that of the users. -/
theorem rotateAllAuthEpochs_count {reason : String} {n : ℕ}
    (h : perform env (.rotateAllAuthEpochs now reason) db = (.ok n, db')) :
    n = db.humanUsers.length := by
  obtain ⟨users, db₁, h₁, h⟩ := Tx.yields_bind_ok (Tx.yields_transaction_ok (yields_of_perform h))
  obtain ⟨_, db₂, -, h⟩ := Tx.yields_bind_ok h
  obtain ⟨_, db₃, -, h⟩ := Tx.yields_bind_ok h
  obtain ⟨_, db₄, -, h⟩ := Tx.yields_bind_ok h
  obtain ⟨_, db₅, -, hpure⟩ := Tx.yields_bind_ok h
  obtain ⟨hn, -⟩ := Tx.yields_pure hpure
  cases hn
  have hadvance := yields_execute_ok h₁
  unfold advanceEpochs at hadvance
  split at hadvance
  · cases hadvance
  · obtain ⟨hcount, -⟩ := Prod.mk.inj (Except.ok.inj hadvance)
    rw [← hcount, List.filter_true]

theorem rotateAllAuthEpochs_refines {reason : String} {n : ℕ}
    (h : perform env (.rotateAllAuthEpochs now reason) db = (.ok n, db')) (hlegible : db.Legible)
    (hconsistent : db.Consistent) (hshows : db.Shows s) :
    ∃ s', s.Does (.rotateAllAuthEpochs now reason) n s' ∧ db'.Shows s' := by
  have hcount := rotateAllAuthEpochs_count h
  have hids : db.humanUsers.map (·.id) ∈ Set.range (List.map (OpaqueId.value : UserId → String)) := by
    rw [Set.range_list_map]
    intro id hid
    obtain ⟨r, hr, rfl⟩ := List.mem_map.1 hid
    obtain ⟨user, huser⟩ := hlegible.users r hr
    exact ⟨user.id, (User.row_of_tryFrom huser).1.symm⟩
  obtain ⟨ids, hids⟩ := hids
  have hnodup : (ids.map OpaqueId.value).Nodup := hids ▸ hconsistent.userIds
  have hlength : ids.length = n := by
    have hlengths := congrArg List.length hids
    rw [List.length_map, List.length_map] at hlengths
    exact hlengths.trans hcount.symm
  have hmem : ∀ id, id ∈ ids ↔ (s.users id).isSome = true := by
    intro id
    rw [← List.mem_map_of_injective OpaqueId.value_injective, hids, List.mem_map,
      Option.isSome_iff_exists]
    constructor
    · rintro ⟨r, hr, hid⟩
      obtain ⟨user, huser⟩ := hlegible.users r hr
      obtain rfl : user.id = id :=
        OpaqueId.value_injective ((User.row_of_tryFrom huser).1.symm.trans hid)
      exact ⟨user, hshows.users.entry hr huser⟩
    · rintro ⟨user, huser⟩
      obtain ⟨rfl, r, hr, hkept⟩ := (hshows.users _ _).1 huser
      exact ⟨r, hr, (User.row_of_tryFrom hkept).1⟩
  cases rotateAllAuthEpochs_commits h with
  | unchanged _ reads => cases reads
  | rotateAllAuthEpochs =>
      refine ⟨_, ⟨⟨ids, hnodup.of_map _, hlength, hmem⟩, rfl⟩, (hshows.invalidated ?_ ?_).logged _⟩
      · exact fun _ => iff_of_true rfl trivial
      · exact fun _ => iff_of_true rfl trivial

theorem session_refines {hash : SecretHash} {idle : DateTime} {r : Except AuthError _}
    (h : perform env (.session hash now idle) db = (r, db')) (hlegible : db.Legible)
    (hconsistent : db.Consistent) (hshows : db.Shows s) :
    ∃ s', LiveStore.Effect (.session hash now idle) s r s' ∧ db'.Shows s' := by
  have hsession : Tx.Yields (session hash now idle) db r db' := yields_of_perform h
  unfold session at hsession
  rcases useSession_outcome hsession with ⟨e, rfl, rfl⟩ | ⟨rfl, rfl, hnone⟩ |
    ⟨row, hrow, u, hu, hfound, htouch, rfl⟩
  · exact ⟨s, rfl, hshows⟩
  · have hlive := hshows.liveSession_of_not_found hnone
    refine ⟨s, ⟨?_, ?_⟩, hshows⟩
    · rw [LiveStore.principal, hlive]
      rfl
    · rw [LiveStore.use, hlive]
  · obtain ⟨record, user, hlive, hkept, huser⟩ :=
      hshows.liveSession_of_found hlegible hrow hu hfound
    have hprincipal : sessionPrincipal (row, u) =
        .ok ⟨record.id, user, record.csrfHash, record.absoluteExpiresAt⟩ := by
      obtain ⟨hid, -, -, hcsrf, -, -, habsolute⟩ := hkept.2
      simp only [sessionPrincipal, huser, hcsrf, SecretHash.fromSlice_asBytes, hid, habsolute]
      rfl
    cases htouch
    rw [hprincipal]
    refine ⟨s.use hash none now idle, ⟨?_, rfl⟩,
      hshows.used hconsistent.sessionIds none idle hrow hkept hlive⟩
    rw [LiveStore.principal, hlive]
    rfl

theorem rotateSessionCsrf_refines {hash csrfHash : SecretHash} {idle : DateTime}
    {r : Except AuthError _}
    (h : perform env (.rotateSessionCsrf hash csrfHash now idle) db = (r, db'))
    (hlegible : db.Legible) (hconsistent : db.Consistent) (hshows : db.Shows s) :
    ∃ s', LiveStore.Effect (.rotateSessionCsrf hash csrfHash now idle) s r s' ∧ db'.Shows s' := by
  have hrotate : Tx.Yields (rotateSessionCsrf hash csrfHash now idle) db r db' :=
    yields_of_perform h
  unfold rotateSessionCsrf at hrotate
  rcases useSession_outcome hrotate with ⟨e, rfl, rfl⟩ | ⟨rfl, rfl, hnone⟩ |
    ⟨row, hrow, u, hu, hfound, htouch, rfl⟩
  · exact ⟨s, rfl, hshows⟩
  · have hlive := hshows.liveSession_of_not_found hnone
    refine ⟨s, ⟨?_, ?_⟩, hshows⟩
    · rw [LiveStore.principal, hlive]
      rfl
    · rw [LiveStore.use, hlive]
  · obtain ⟨record, user, hlive, hkept, huser⟩ :=
      hshows.liveSession_of_found hlegible hrow hu hfound
    have hprincipal : rotatedPrincipal csrfHash (row, u) =
        .ok ⟨record.id, user, csrfHash, record.absoluteExpiresAt⟩ := by
      simp only [rotatedPrincipal, huser, hkept.2.id, hkept.2.absoluteExpiresAt]
      rfl
    simp only [touchSessionCsrf, SecretHash.length_asBytes, if_true] at htouch
    cases htouch
    rw [hprincipal]
    refine ⟨s.use hash (some csrfHash) now idle, ⟨?_, rfl⟩,
      hshows.used hconsistent.sessionIds (some csrfHash) idle hrow hkept hlive⟩
    rw [LiveStore.principal, hlive]
    rfl

theorem createRecovery_refines {userId : UserId} {a : RsConsole.RecoveryRequest}
    (h : perform env (.createRecovery userId now) db = (.ok a, db')) (hlegible : db.Legible)
    (hconsistent : db.Consistent) (hshows : db.Shows s) :
    ∃ s', s.Does (.createRecovery userId now) a s' ∧ db'.Shows s' := by
  have hkeys := (perform_consistent h hconsistent).recoveryIds
  obtain ⟨_, db₁, hinsert, hpure⟩ := Tx.yields_bind_ok (yields_of_perform h)
  obtain ⟨ha, -⟩ := Tx.yields_pure hpure
  cases ha
  cases createRecovery_commits h with
  | unchanged _ reads => cases reads
  | createRecovery _ _ owner none =>
      have hnew := hshows.recoveries_fresh fun r hr => hkeys.ne_of_append hr
      refine ⟨_, ⟨rfl, rfl, rfl, ?_, fun recovery hentry howner happroved => ?_, hnew, rfl⟩,
        hshows.addRecovery hnew⟩
      · obtain ⟨r, hr, hid⟩ := hasUser_iff.1 owner
        obtain ⟨user, huser⟩ := hlegible.users r hr
        obtain rfl : user.id = userId :=
          OpaqueId.value_injective ((User.row_of_tryFrom huser).1.symm.trans hid)
        rw [hshows.users.entry hr huser]
        rfl
      · obtain ⟨-, r, hr, hopen, hdecode, -⟩ := (hshows.recoveries _ _).1 hentry
        obtain ⟨-, hro, hra⟩ := RecoveryRequest.row_of_tryFrom hdecode
        exact none r hr (hro.trans (congrArg OpaqueId.value howner)) ⟨hra.trans happroved, hopen⟩

/-- The ceremony that a completion spends is the entry of its id. -/
theorem spent_ceremony (hlegible : db.Legible) (hkeyed : Keyed (·.id) db.authCeremonies)
    (hshows : db.Shows s) {row : AuthCeremony} (hrow : row ∈ db.authCeremonies)
    (hlive : row.Live now) {ceremonyId : Uuid} (hid : row.id = ceremonyId) :
    ∃ ceremony, s.ceremonies ceremonyId = some ceremony ∧ now < ceremony.expiresAt ∧
      Ceremony.tryFrom row = .ok ceremony ∧
      ∀ ceremony', ∀ r ∈ db.authCeremonies, Ceremony.KeptIn ceremony' r →
        ceremony'.id = ceremonyId → r = row := by
  obtain ⟨ceremony, hceremony⟩ := hlegible.ceremonies row hrow
  obtain ⟨hcid, -, -, hexpires⟩ := Ceremony.row_of_tryFrom hceremony
  have hentry := hshows.ceremonies.entry hrow ⟨hlive.1, hceremony⟩
  rw [← hcid, hid] at hentry
  refine ⟨ceremony, hentry, hexpires ▸ hlive.2, hceremony, fun ceremony' r hr hkept hid' => ?_⟩
  exact hkeyed.eq_of_mem hr hrow
    ((Ceremony.row_of_tryFrom hkept.2).1.trans (hid'.trans hid.symm))

theorem completeRegistration_refines {ceremonyId : Uuid} {capabilityHash : Option SecretHash}
    {credential : VerifiedCredential} {audit : AuditEvent}
    (h : perform env (.completeRegistration ceremonyId capabilityHash credential now audit) db =
      (.ok (), db')) (hlegible : db.Legible) (hconsistent : db.Consistent) (hshows : db.Shows s) :
    ∃ s', s.Does (.completeRegistration ceremonyId capabilityHash credential now audit) () s' ∧
      db'.Shows s' := by
  have hconsistent' := perform_consistent h hconsistent
  obtain ⟨_, _, _, hregistration⟩ := completeRegistration_committed h
  cases completeRegistration_commits h with
  | unchanged _ reads => cases reads
  | completeRegistration _ _ _ _ _ row userId mem id live owner bootstrap =>
      obtain ⟨ceremony, hentry, hexpires, hdecoded, hsame⟩ :=
        spent_ceremony hlegible hconsistent.ceremonyIds hshows mem live id
      obtain ⟨hcid, hkind, howner, -⟩ := Ceremony.row_of_tryFrom hdecoded
      obtain ⟨subject, hsubject, rfl⟩ := Option.map_eq_some_iff.1 (howner.symm.trans owner)
      have hspent : ∀ hash, capabilityHash = some hash → ∃ given, s.capabilities hash = some given ∧
          now < given.expiresAt := by
        rintro hash hnamed
        obtain ⟨k, hk, htoken, hlive, -⟩ := hregistration.spentCapability hash hnamed
        obtain ⟨given, hgiven⟩ := hlegible.capabilities k hk
        obtain ⟨-, -, hgt, hge⟩ := Capability.row_of_tryFrom hgiven
        refine ⟨given, ?_, hge ▸ hlive.2⟩
        rw [← SecretHash.asBytes_injective (hgt.symm.trans htoken)]
        exact hshows.capabilities.entry hk ⟨hlive.1, hgiven⟩
      have hfreshId : ∀ r ∈ db.passkeyCredentials, r.id ≠ env.fresh :=
        fun r hr => hconsistent'.credentialRowIds.ne_of_append hr
      have hfreshCredential : ∀ r ∈ db.passkeyCredentials,
          r.credentialId ≠ credential.credentialId :=
        fun r hr => hconsistent'.credentialIds.ne_of_append hr
      have hnew := hshows.credentials_fresh hfreshId
      have hspend := hshows.spendCeremony now ceremonyId
        (p := fun c => decide (c.id = ceremonyId ∧ c.Live now)) fun ceremony' r hr hkept => by
          rw [decide_eq_true_eq]
          refine ⟨fun hsel => (Ceremony.row_of_tryFrom hkept.2).1.symm.trans hsel.1, fun hid => ?_⟩
          rw [hsame ceremony' r hr hkept hid]
          exact ⟨id, live⟩
      refine ⟨_, ⟨ceremony, subject, env.fresh, hentry, hexpires, hsubject, fun hboot => ?_, hspent,
        hnew, fun other hother hid => ?_, rfl⟩, (((hspend.spendCapability hspent).addCredential
          hnew).completeRecoveries audit.subjectUserId).logged _⟩
      · exact fun hregistered => (hshows.registered_iff hlegible).1 hregistered
          (bootstrap (hkind.trans (congrArg ceremonyName hboot)))
      · obtain ⟨-, r, hr, -, hrow⟩ := (hshows.credentials _ _).1 hother
        exact hfreshCredential r hr ((StoredCredential.row_of_tryFrom hrow).2.2.1.trans hid)

theorem completeAuthentication_refines {ceremonyId : Uuid}
    {verification : AuthenticationVerification} {record : SessionRecord} {audit : AuditEvent}
    (h : perform env (.completeAuthentication ceremonyId verification record now audit) db =
      (.ok (), db')) (hlegible : db.Legible) (hconsistent : db.Consistent) (hshows : db.Shows s) :
    ∃ s', s.Does (.completeAuthentication ceremonyId verification record now audit) () s' ∧
      db'.Shows s' := by
  have hkeys := (perform_consistent h hconsistent).sessionHashes
  cases completeAuthentication_commits h with
  | unchanged _ reads => cases reads
  | completeAuthentication _ _ _ _ _ row c mem id kind live credential owner credentialId unrevoked =>
      obtain ⟨ceremony, hentry, hexpires, hdecoded, hsame⟩ :=
        spent_ceremony hlegible hconsistent.ceremonyIds hshows mem live id
      obtain ⟨-, hkind, -⟩ := Ceremony.row_of_tryFrom hdecoded
      obtain ⟨held, hheld⟩ := hlegible.credentials c credential
      obtain ⟨-, hho, hhi, -⟩ := StoredCredential.row_of_tryFrom hheld
      have hnew := hshows.sessions_fresh fun r hr => hkeys.ne_of_append hr
      have hspend := hshows.spendCeremony now ceremonyId
        (p := fun c => decide (c.id = ceremonyId ∧ c.kind = "authentication" ∧ c.Live now))
        fun ceremony' r hr hkept => by
          rw [decide_eq_true_eq]
          refine ⟨fun hsel => (Ceremony.row_of_tryFrom hkept.2).1.symm.trans hsel.1, fun hid => ?_⟩
          rw [hsame ceremony' r hr hkept hid]
          exact ⟨id, kind, live⟩
      refine ⟨_, ⟨⟨ceremony, hentry, ceremonyName_injective (hkind.symm.trans kind), hexpires⟩,
        ⟨held, hshows.credentials.entry credential ⟨unrevoked, hheld⟩,
          OpaqueId.value_injective (hho.symm.trans owner), hhi.symm.trans credentialId⟩, hnew, rfl⟩,
        ((hspend.useCredential).addSession hnew).logged _⟩

/-- A row stands for one open recovery at most. -/
theorem keptIn_iff {row : Database.RecoveryRequest} {request : RsConsole.RecoveryRequest}
    (hopen : row.completedAt = none) (hrow : RecoveryRequest.tryFrom row = .ok request)
    (recovery : OpenRecovery) :
    recovery.KeptIn row ↔ recovery = ⟨request, row.setupIssuedAt.isSome⟩ := by
  constructor
  · rintro ⟨-, hrequest, hissued⟩
    obtain ⟨request', issued⟩ := recovery
    obtain rfl : request' = request := Except.ok.inj (hrequest.symm.trans hrow)
    obtain rfl : issued = row.setupIssuedAt.isSome := hissued
    rfl
  · rintro rfl
    exact ⟨hopen, hrow, rfl⟩

theorem approveRecovery_refines {recoveryId : Uuid} {operatorId : UserId}
    (h : perform env (.approveRecovery recoveryId operatorId now) db = (.ok (), db'))
    (hlegible : db.Legible) (hconsistent : db.Consistent) (hshows : db.Shows s) :
    ∃ s', s.Does (.approveRecovery recoveryId operatorId now) () s' ∧ db'.Shows s' := by
  cases approveRecovery_commits h with
  | unchanged _ reads => cases reads
  | approveRecovery _ _ _ row subject mem id pending owner =>
      obtain ⟨request, hrequest⟩ := hlegible.recoveries row mem
      obtain ⟨hrid, hro, hra⟩ := RecoveryRequest.row_of_tryFrom hrequest
      have hkept : OpenRecovery.KeptIn ⟨request, row.setupIssuedAt.isSome⟩ row :=
        ⟨pending.2, hrequest, rfl⟩
      obtain rfl : request.id = recoveryId := hrid.symm.trans id
      obtain rfl : request.userId = subject := OpaqueId.value_injective (hro.symm.trans owner)
      have hentry := hshows.recoveries.entry mem hkept
      have hsame : ∀ r ∈ db.recoveryRequests, r.id = request.id → r = row :=
        fun r hr hid => hconsistent.recoveryIds.eq_of_mem hr mem (hid.trans hrid.symm)
      refine ⟨_, ⟨_, hentry, hra.symm.trans pending.1, rfl⟩,
        ((hshows.setRecovery (OpenRecovery.approved ⟨request, _⟩ now) hentry rfl
          (fun recovery r hr hrecovery => ?_) (fun r hr hsel _ recovery => ?_)
          fun recovery r hr hsel _ => ?_).invalidatedUser request.userId).logged _⟩
      · rw [decide_eq_true_eq]
        refine ⟨fun hsel => (RecoveryRequest.row_of_tryFrom hrecovery.2.1).1.symm.trans hsel.1,
          fun hid => ?_⟩
        obtain rfl := hsame r hr ((RecoveryRequest.row_of_tryFrom hrecovery.2.1).1.trans hid)
        exact ⟨hrid, pending⟩
      · obtain rfl := hsame r hr (of_decide_eq_true hsel).1
        refine keptIn_iff ?_ ?_ recovery
        · exact pending.2
        obtain ⟨userId, huser, hrow⟩ := except_bind_ok hrequest
        cases hrow
        simp only [RecoveryRequest.tryFrom, huser]
        rfl
      · obtain rfl := hsame r hr (of_decide_eq_true hsel).1
        exact ⟨_, hkept⟩

theorem issueRecoverySetup_refines {recoveryId : Uuid} {given : Capability} {operatorId : UserId}
    (h : perform env (.issueRecoverySetup recoveryId given operatorId now) db = (.ok (), db'))
    (hlegible : db.Legible) (hconsistent : db.Consistent) (hshows : db.Shows s) :
    ∃ s', s.Does (.issueRecoverySetup recoveryId given operatorId now) () s' ∧ db'.Shows s' := by
  have hkeys := (perform_consistent h hconsistent).capabilityHashes
  cases issueRecoverySetup_commits h with
  | unchanged _ reads => cases reads
  | issueRecoverySetup _ _ _ _ row mem id approved notIssued notCompleted owner =>
      obtain ⟨request, hrequest⟩ := hlegible.recoveries row mem
      obtain ⟨hrid, hro, hra⟩ := RecoveryRequest.row_of_tryFrom hrequest
      have hkept : OpenRecovery.KeptIn ⟨request, row.setupIssuedAt.isSome⟩ row :=
        ⟨notCompleted, hrequest, rfl⟩
      obtain rfl : request.id = recoveryId := hrid.symm.trans id
      have hentry := hshows.recoveries.entry mem hkept
      have hsame : ∀ r ∈ db.recoveryRequests, r.id = request.id → r = row :=
        fun r hr hid => hconsistent.recoveryIds.eq_of_mem hr mem (hid.trans hrid.symm)
      have hnew := hshows.capabilities_fresh fun r hr => hkeys.ne_of_append hr
      refine ⟨_, ⟨_, hentry, fun hnone => approved (hra.trans hnone), ?_,
        OpaqueId.value_injective (hro.symm.trans owner), hnew, rfl⟩,
        ((hshows.setRecovery ⟨request, true⟩ hentry rfl
          (fun recovery r hr hrecovery => ?_) (fun r hr hsel _ recovery => ?_)
          fun recovery r hr hsel _ => ?_).addCapability hnew).logged _⟩
      · rw [notIssued]
        rfl
      · rw [decide_eq_true_eq]
        refine ⟨fun hsel => (RecoveryRequest.row_of_tryFrom hrecovery.2.1).1.symm.trans hsel.1,
          fun hid => ?_⟩
        obtain rfl := hsame r hr ((RecoveryRequest.row_of_tryFrom hrecovery.2.1).1.trans hid)
        exact ⟨hrid, approved, notIssued, notCompleted, owner⟩
      · obtain rfl := hsame r hr (of_decide_eq_true hsel).1
        refine keptIn_iff ?_ ?_ recovery
        · exact notCompleted
        · exact hrequest
      · obtain rfl := hsame r hr (of_decide_eq_true hsel).1
        exact ⟨_, hkept⟩

theorem breakGlass_refines {credentialId : Uuid} {given : Capability} {reason : String}
    (h : perform env (.breakGlass credentialId given now reason) db = (.ok (), db'))
    (hlegible : db.Legible) (hconsistent : db.Consistent) (hshows : db.Shows s) :
    ∃ s', s.Does (.breakGlass credentialId given now reason) () s' ∧ db'.Shows s' := by
  have hkeys := (perform_consistent h hconsistent).capabilityHashes
  cases breakGlass_commits h with
  | unchanged _ reads => cases reads
  | breakGlass _ _ _ _ c u mem id unrevoked owner user userId role =>
      obtain ⟨held, hheld⟩ := hlegible.credentials c mem
      obtain ⟨hhid, hho, -⟩ := StoredCredential.row_of_tryFrom hheld
      obtain ⟨operator, hoperator⟩ := hlegible.users u user
      obtain ⟨hoid, -, hrole, -⟩ := User.row_of_tryFrom hoperator
      have hsame : ∀ r ∈ db.passkeyCredentials, r.id = credentialId → r = c :=
        fun r hr hid => hconsistent.credentialRowIds.eq_of_mem hr mem (hid.trans id.symm)
      have hnew : s.capabilities given.tokenHash = none := by
        refine hshows.capabilities_fresh fun r hr htoken => ?_
        obtain ⟨r', hr', htoken'⟩ := exists_mem_updateWhere
          (p := fun c : AuthCapability =>
            decide (c.userId = given.userId.value) && decide (c.consumedAt = none))
          (f := fun c : AuthCapability => { c with consumedAt := some now })
          (Q := fun r' : AuthCapability => r'.tokenHash = given.tokenHash.asBytes) hr
          (fun _ => htoken) fun _ => htoken
        exact hkeys.ne_of_append hr' htoken'
      have hcredential := hshows.credentials.entry mem ⟨unrevoked, hheld⟩
      rw [← hhid, id] at hcredential
      have hentry := hshows.users.entry user hoperator
      rw [OpaqueId.value_injective (hoid.symm.trans (userId.trans owner))] at hentry
      refine ⟨_, ⟨⟨held, operator, hcredential, OpaqueId.value_injective (hho.symm.trans owner),
        hentry, roleName_injective (hrole.symm.trans role)⟩, hnew, rfl⟩,
        (((hshows.dropCredential now credentialId fun credential r hr hkept => ?_).invalidatedUser
          given.userId).addCapability ?_).logged _⟩
      · rw [decide_eq_true_eq]
        refine ⟨fun hsel => (StoredCredential.row_of_tryFrom hkept.2).1.symm.trans hsel.1,
          fun hid => ?_⟩
        obtain rfl := hsame r hr ((StoredCredential.row_of_tryFrom hkept.2).1.trans hid)
        exact ⟨id, unrevoked, u, user, userId, role⟩
      · change (s.capabilities given.tokenHash).filter _ = none
        rw [hnew]
        rfl

/-- **Every method does what the specification says**, or it fails and changes nothing. -/
theorem perform_refines {c : AuthCall} {r : c.Answer} (h : perform env c db = (r, db'))
    (hlegible : db.Legible) (hconsistent : db.Consistent) (hshows : db.Shows s) :
    ∃ s', LiveStore.Effect c s r s' ∧ db'.Shows s' := by
  cases r with
  | error e =>
      rcases perform_error h with rfl | ⟨hreads, hcommits⟩
      · exact ⟨s, rfl, hshows⟩
      · cases hcommits with
        | unchanged => exact ⟨s, rfl, hshows⟩
        | session => exact session_refines h hlegible hconsistent hshows
        | rotateSessionCsrf => exact rotateSessionCsrf_refines h hlegible hconsistent hshows
        | _ => cases hreads
  | ok a =>
      have hyields := yields_of_perform h
      cases c with
      | session => exact session_refines h hlegible hconsistent hshows
      | rotateSessionCsrf => exact rotateSessionCsrf_refines h hlegible hconsistent hshows
      | userById =>
          obtain ⟨ha, rfl⟩ := yields_read hyields
          exact ⟨s, ⟨hshows.userById ha, rfl⟩, hshows⟩
      | userByHandle =>
          obtain ⟨ha, rfl⟩ := yields_read hyields
          exact ⟨s, ⟨hshows.userByHandle hconsistent.userHandles ha, rfl⟩, hshows⟩
      | credentialsForUser =>
          obtain ⟨ha, rfl⟩ := yields_read hyields
          obtain ⟨hnodup, hmem⟩ := hshows.credentialsForUser hconsistent.credentialRowIds ha
          exact ⟨s, ⟨hnodup, hmem, rfl⟩, hshows⟩
      | operatorWithoutCredential =>
          obtain ⟨ha, rfl⟩ := yields_read hyields
          obtain ⟨hsome, hnone⟩ := hshows.operatorWithoutCredential hlegible ha
          exact ⟨s, ⟨hsome, hnone, rfl⟩, hshows⟩
      | operatorExists =>
          obtain ⟨rfl, rfl⟩ := yields_fetch_ok hyields
          refine ⟨s, ⟨Iff.trans ?_ (hshows.operator_iff hlegible), rfl⟩, hshows⟩
          simp only [Database.operatorExists, List.any_eq_true, decide_eq_true_eq]
      | operatorRecoveryWindow =>
          obtain ⟨ha, rfl⟩ := yields_read hyields
          obtain ⟨hsome, hnone⟩ := hshows.operatorRecoveryWindow hlegible ha
          exact ⟨s, ⟨hsome, hnone, rfl⟩, hshows⟩
      | capability =>
          obtain ⟨ha, rfl⟩ := yields_read hyields
          exact ⟨s, ⟨hshows.capability ha, rfl⟩, hshows⟩
      | ceremony =>
          obtain ⟨ha, rfl⟩ := yields_read hyields
          exact ⟨s, ⟨hshows.ceremony ha, rfl⟩, hshows⟩
      | pendingRecoveries =>
          obtain ⟨ha, rfl⟩ := yields_read hyields
          obtain ⟨hnodup, hmem⟩ := hshows.pendingRecoveries hconsistent.recoveryIds ha
          exact ⟨s, ⟨hnodup, hmem, rfl⟩, hshows⟩
      | insertCapability => exact insertCapability_refines h hshows
      | insertUser => exact insertUser_refines h hshows
      | approveUserWithSetup => exact approveUserWithSetup_refines h hconsistent hshows
      | rotateAllAuthEpochs => exact rotateAllAuthEpochs_refines h hlegible hconsistent hshows
      | insertCeremony => exact insertCeremony_refines h hshows
      | completeRegistration => exact completeRegistration_refines h hlegible hconsistent hshows
      | completeAuthentication => exact completeAuthentication_refines h hlegible hconsistent hshows
      | deleteSession => exact deleteSession_refines h hshows
      | createRecovery => exact createRecovery_refines h hlegible hconsistent hshows
      | approveRecovery => exact approveRecovery_refines h hlegible hconsistent hshows
      | issueRecoverySetup => exact issueRecoverySetup_refines h hlegible hconsistent hshows
      | breakGlass => exact breakGlass_refines h hlegible hconsistent hshows

end PgAuthStore

/-! ## Runs -/

namespace Database

theorem legible_empty : Legible empty :=
  ⟨fun _ h => absurd h List.not_mem_nil, fun _ h => absurd h List.not_mem_nil,
    fun _ h => absurd h List.not_mem_nil, fun _ h => absurd h List.not_mem_nil,
    fun _ h => absurd h List.not_mem_nil, fun _ h => absurd h List.not_mem_nil⟩

/-- A commit writes rows that decode. -/
theorem Legible.commits {env : Env} {db db' : Database} {c : AuthCall} (h : db.Legible)
    (hcommits : Commits env db c db') : db'.Legible where
  users := by
    have hadded : ∀ (user : User) (now : DateTime), ∀ r ∈ db.humanUsers ++ [user.row now],
        ∃ user, User.tryFrom r = .ok user := by
      intro user now r hr
      rcases List.mem_append.1 hr with hr | hr
      · exact h.users r hr
      · rw [List.mem_singleton.1 hr]
        exact ⟨user, user.tryFrom_row now⟩
    rcases hcommits.humanUsers_cases with ⟨user, now, audit, -, hrows⟩ |
      ⟨user, given, operatorId, now, -, hrows⟩ | ⟨-, p, now, hrows⟩
    · rw [hrows]
      exact hadded user now
    · rw [hrows]
      exact hadded user now
    · rw [hrows]
      intro r hr
      obtain ⟨r₀, hr₀, rfl⟩ := mem_updateWhere.1 hr
      obtain ⟨user, huser⟩ := h.users r₀ hr₀
      split
      · exact ⟨_, User.tryFrom_advanced huser now⟩
      · exact ⟨user, huser⟩
  credentials := by
    intro r hr
    rcases hcommits.passkeyCredentials_cases r hr with ⟨k, hk, hsame⟩ | ⟨k, hk, howner⟩
    · obtain ⟨credential, hcredential⟩ := h.credentials k hk
      obtain ⟨userId, huser, -⟩ := except_bind_ok hcredential
      exact StoredCredential.tryFrom_of_user (hsame ▸ huser)
    · obtain ⟨ceremony, hceremony⟩ := h.ceremonies k hk
      obtain ⟨-, -, huser, -⟩ := Ceremony.row_of_tryFrom hceremony
      obtain ⟨userId, -, hvalue⟩ := Option.map_eq_some_iff.1 (huser.symm.trans howner)
      have hparse : parseUserId r.userId = .ok userId := by rw [← hvalue, parseUserId_value]
      exact StoredCredential.tryFrom_of_user hparse
  capabilities := by
    intro r hr
    rcases hcommits.authCapabilities_cases r hr with ⟨k, hk, hsame⟩ | ⟨given, clock, rfl⟩
    · obtain ⟨given, hgiven⟩ := h.capabilities k hk
      rw [hsame]
      exact ⟨given, hgiven⟩
    · exact ⟨given, given.tryFrom_row clock none⟩
  ceremonies := by
    intro r hr
    rcases hcommits.authCeremonies_cases r hr with ⟨k, hk, hsame⟩ | ⟨ceremony, clock, rfl⟩
    · obtain ⟨ceremony, hceremony⟩ := h.ceremonies k hk
      rw [hsame]
      exact ⟨ceremony, hceremony⟩
    · exact ⟨ceremony, ceremony.tryFrom_row clock none⟩
  sessions := by
    intro r hr
    rcases hcommits.authSessions_cases with ⟨_, _, record, now, _, -, hrows⟩ |
      ⟨-, row, -, csrfHash, idle, now, hused⟩ | ⟨p, now, hrows⟩
    · rw [hrows, List.mem_append, List.mem_singleton] at hr
      rcases hr with hr | rfl
      · exact h.sessions r hr
      · exact ⟨record, rfl, rfl, rfl, rfl, rfl, rfl, rfl⟩
    · rw [hused] at hr
      obtain ⟨r₀, hr₀, rfl⟩ := mem_updateWhere.1 hr
      obtain ⟨record, hid, huser, htoken, hcsrf, hepoch, hidle, habsolute⟩ := h.sessions r₀ hr₀
      split
      · refine ⟨{ record with
          csrfHash := csrfHash.getD record.csrfHash
          idleExpiresAt := min idle row.absoluteExpiresAt }, hid, huser, htoken, ?_, hepoch, rfl,
          habsolute⟩
        cases csrfHash with
        | none => exact hcsrf
        | some csrf => rfl
      · exact ⟨record, hid, huser, htoken, hcsrf, hepoch, hidle, habsolute⟩
    · rw [hrows] at hr
      obtain ⟨r₀, hr₀, rfl⟩ := mem_updateWhere.1 hr
      obtain ⟨record, hid, huser, htoken, hcsrf, hepoch, hidle, habsolute⟩ := h.sessions r₀ hr₀
      refine ⟨record, ?_⟩
      split
      · exact ⟨hid, huser, htoken, hcsrf, hepoch, hidle, habsolute⟩
      · exact ⟨hid, huser, htoken, hcsrf, hepoch, hidle, habsolute⟩
  recoveries := by
    intro r hr
    rcases hcommits.recoveryRequests_cases r hr with ⟨k, hk, hsame⟩ | howner
    · obtain ⟨request, hrequest⟩ := h.recoveries k hk
      obtain ⟨userId, huser, -⟩ := except_bind_ok hrequest
      exact RecoveryRequest.tryFrom_of_user (hsame ▸ huser)
    · obtain ⟨u, hu, hid⟩ := hasUser_iff.1 howner
      obtain ⟨user, huser⟩ := h.users u hu
      exact RecoveryRequest.tryFrom_of_user (hid ▸ parseUserId_of_user huser)

/-- A database whose rows decode and have their keys, and the maps that it holds. -/
structure Abstracts (db : Database) (s : LiveStore) : Prop where
  legible : db.Legible
  consistent : db.Consistent
  shows : db.Shows s

/-- Every database whose rows decode and have their keys holds maps. -/
theorem Legible.abstracts {db : Database} (hlegible : db.Legible) (hconsistent : db.Consistent) :
    ∃ s, db.Abstracts s := by
  obtain ⟨users, husers⟩ := exists_represents User.KeptIn (·.id) OpaqueId.value
    hconsistent.userIds (fun _ _ hkept => (User.row_of_tryFrom hkept).1)
    fun _ _ _ h h' => Except.ok.inj (h.symm.trans h')
  obtain ⟨credentials, hcredentials⟩ := exists_represents StoredCredential.KeptIn
    (·.id) id hconsistent.credentialRowIds
    (fun _ _ hkept => (StoredCredential.row_of_tryFrom hkept.2).1)
    fun _ _ _ h h' => Except.ok.inj (h.2.symm.trans h'.2)
  obtain ⟨capabilities, hcapabilities⟩ := exists_represents Capability.KeptIn
    (·.tokenHash) SecretHash.asBytes hconsistent.capabilityHashes
    (fun _ _ hkept => (Capability.row_of_tryFrom hkept.2).2.2.1)
    fun _ _ _ h h' => Except.ok.inj (h.2.symm.trans h'.2)
  obtain ⟨ceremonies, hceremonies⟩ := exists_represents Ceremony.KeptIn (·.id) id
    hconsistent.ceremonyIds
    (fun _ _ hkept => (Ceremony.row_of_tryFrom hkept.2).1)
    fun _ _ _ h h' => Except.ok.inj (h.2.symm.trans h'.2)
  obtain ⟨sessions, hsessions⟩ := exists_represents SessionRecord.KeptIn (·.tokenHash)
    SecretHash.asBytes hconsistent.sessionHashes
    (fun _ _ hkept => hkept.2.tokenHash)
    fun _ _ _ h h' => SessionRecord.describes_unique h.2 h'.2
  obtain ⟨recoveries, hrecoveries⟩ := exists_represents OpenRecovery.KeptIn
    (·.request.id) id hconsistent.recoveryIds
    (fun _ _ hkept => (RecoveryRequest.row_of_tryFrom hkept.2.1).1) fun a b r h h' => by
      obtain ⟨request, issued⟩ := a
      obtain rfl : request = b.request := Except.ok.inj (h.2.1.symm.trans h'.2.1)
      obtain rfl : issued = b.setupIssued := h.2.2.trans h'.2.2.symm
      rfl
  exact ⟨⟨users, credentials, capabilities, ceremonies, sessions, recoveries⟩, hlegible,
    hconsistent, husers, hcredentials, hcapabilities, hceremonies, hsessions, hrecoveries⟩

theorem Abstracts.step {env : Env} {db db' : Database} {c : AuthCall} {r : c.Answer} {s : LiveStore}
    (h : db.Abstracts s) (hperform : PgAuthStore.perform env c db = (r, db')) :
    ∃ s', LiveStore.Effect c s r s' ∧ db'.Abstracts s' := by
  obtain ⟨s', heffect, hshows⟩ :=
    PgAuthStore.perform_refines hperform h.legible h.consistent h.shows
  refine ⟨s', heffect, ?_, PgAuthStore.perform_consistent hperform h.consistent, hshows⟩
  rcases PgAuthStore.perform_cases hperform with rfl | hcommits
  · exact h.legible
  · exact h.legible.commits hcommits

end Database

/-- **The database is a store of live values.** From any database whose rows decode and have their
    keys, in particular from the migrated one, every run of any clients is a run over the store's
    specification that starts with the maps that the database holds: the same calls with the same
    answers, and before and after each the tables hold the maps. -/
theorem store_refines [DecidableEq τ] {out : τ → Type}
    (start : (t : τ) → Program AuthCall AuthCall.Answer (out t)) {db₀ : Database}
    (hlegible : db₀.Legible) (hconsistent : db₀.Consistent) :
    ∃ s₀, db₀.Abstracts s₀ ∧
      ∀ tr db pool, Run (effectOf PgAuthStore.perform) db₀ start tr db pool →
        ∃ tr' s, Run LiveStore.Effect s₀ start tr' s pool ∧ db.Abstracts s ∧
          List.Forall₂ (Event.Mirrors Database.Abstracts) tr tr' := by
  obtain ⟨s₀, h₀⟩ := hlegible.abstracts hconsistent
  refine ⟨s₀, h₀, fun tr db pool run => run.simulate h₀ ?_⟩
  rintro c a r b ⟨env, hperform⟩ s hs
  exact hs.step hperform

section Sample

attribute [local instance] Reference.crates

/-- Two clients that register the same passkey. -/
theorem store_refines_sample :
    ∃ s₀, empty.Abstracts s₀ ∧ ∃ tr' s pool, Run LiveStore.Effect s₀
        (fun t => (sampleOperations (sampleRegistration "k") t).program .default sampleEngine) tr' s
        pool ∧
      (sampleRun (sampleRegistration "k") sampleRace).state.Abstracts s ∧
      List.Forall₂ (Event.Mirrors Database.Abstracts)
        (sampleRun (sampleRegistration "k") sampleRace).trace tr' := by
  obtain ⟨pool, run⟩ := sampleRun_history (sampleRegistration "k") sampleRace
  obtain ⟨s₀, h₀, hruns⟩ := store_refines
    (fun t => (sampleOperations (sampleRegistration "k") t).program .default sampleEngine)
    legible_empty consistent_empty
  obtain ⟨tr', s, run', habstracts, hmirrors⟩ := hruns _ _ pool run
  exact ⟨s₀, h₀, tr', s, pool, run', habstracts, hmirrors⟩

end Sample

end RsConsole
