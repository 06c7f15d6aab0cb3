import RsConsole.Library.Table
import RsConsole.Auth.Types

set_option autoImplicit false

/-! # The database

The tables of `migrations/0001_human_auth.sql` with their columns, checks, keys and references, and
the SQL statements of `repository.rs`, one definition each. A statement takes the database to its
rows and the next database, or is refused and changes nothing. Enumerations are texts here, as in
the tables; the identity column of `auth_audit_events` is left out (no statement reads it), and
`jsonb` is taken to give back the value it was given. -/

namespace RsConsole

open Library Library.Table

/-! ## Values -/

/-- Postgres stores every character but U+0000 in a `text`. -/
def storableText (s : String) : Bool := s.toList.all (fun c => c.toNat ≠ 0)

mutual

/-- Whether a `jsonb` column takes the value. -/
def storable : Value → Bool
  | .string s => storableText s
  | .array items => storableItems items
  | .object members => storableMembers members
  | _ => true

def storableItems : List Value → Bool
  | [] => true
  | v :: items => storable v && storableItems items

def storableMembers : List (String × Value) → Bool
  | [] => true
  | (k, v) :: members => storableText k && storable v && storableMembers members

end

/-! ## Tables -/

namespace Database

/-- A row of `human_users`. -/
structure HumanUser where
  id : String
  webauthnHandle : Uuid
  email : String
  displayName : String
  role : String
  enabled : Bool
  authEpoch : ℤ
  createdAt : DateTime
  updatedAt : DateTime

/-- A row of `passkey_credentials`. -/
structure PasskeyCredential where
  id : Uuid
  userId : String
  credentialId : List UInt8
  publicData : Value
  createdAt : DateTime
  lastUsedAt : Option DateTime := none
  revokedAt : Option DateTime := none

/-- A row of `auth_capabilities`. -/
structure AuthCapability where
  id : Uuid
  userId : String
  purpose : String
  tokenHash : List UInt8
  expiresAt : DateTime
  consumedAt : Option DateTime := none
  createdAt : DateTime

/-- A row of `auth_ceremonies`. -/
structure AuthCeremony where
  id : Uuid
  kind : String
  userId : Option String
  capabilityHash : Option (List UInt8)
  state : Value
  expiresAt : DateTime
  consumedAt : Option DateTime := none
  createdAt : DateTime

/-- A row of `auth_sessions`. -/
structure AuthSession where
  id : Uuid
  userId : String
  tokenHash : List UInt8
  csrfHash : List UInt8
  authEpoch : ℤ
  idleExpiresAt : DateTime
  absoluteExpiresAt : DateTime
  createdAt : DateTime
  lastSeenAt : DateTime
  revokedAt : Option DateTime := none

/-- A row of `recovery_requests`. -/
structure RecoveryRequest where
  id : Uuid
  userId : String
  requestedAt : DateTime
  approvedAt : Option DateTime := none
  approvedBy : Option String := none
  setupIssuedAt : Option DateTime := none
  completedAt : Option DateTime := none

/-- A row of `auth_audit_events`. -/
structure AuthAuditEvent where
  occurredAt : DateTime
  eventType : String
  actorUserId : Option String
  subjectUserId : Option String
  data : Value

/-- `consumed_at IS NULL AND expires_at > now` -/
def AuthCapability.Live (c : AuthCapability) (now : DateTime) : Prop :=
  c.consumedAt = none ∧ now < c.expiresAt

/-- `consumed_at IS NULL AND expires_at > now` -/
def AuthCeremony.Live (c : AuthCeremony) (now : DateTime) : Prop :=
  c.consumedAt = none ∧ now < c.expiresAt

instance (c : AuthCapability) (now : DateTime) : Decidable (c.Live now) :=
  inferInstanceAs (Decidable (_ ∧ _))

instance (c : AuthCeremony) (now : DateTime) : Decidable (c.Live now) :=
  inferInstanceAs (Decidable (_ ∧ _))

/-- `CREATE UNIQUE INDEX one_pending_recovery_per_user … WHERE` -/
def RecoveryRequest.Pending (r : RecoveryRequest) : Prop :=
  r.approvedAt = none ∧ r.completedAt = none

instance (r : RecoveryRequest) : Decidable r.Pending := inferInstanceAs (Decidable (_ ∧ _))

end Database

open Database

structure Database where
  humanUsers : List HumanUser
  passkeyCredentials : List PasskeyCredential
  authCapabilities : List AuthCapability
  authCeremonies : List AuthCeremony
  authSessions : List AuthSession
  recoveryRequests : List Database.RecoveryRequest
  authAuditEvents : List AuthAuditEvent

namespace Database

/-- The tables after the migration. -/
def empty : Database := ⟨[], [], [], [], [], [], []⟩

/-- `REFERENCES human_users(id)` -/
def hasUser (db : Database) (id : String) : Bool := db.humanUsers.any (·.id = id)

/-- A reference that may be null. -/
def refersToUser (db : Database) : Option String → Bool
  | none => true
  | some id => db.hasUser id

/-- A statement: its rows and the next database, or why it is refused. -/
abbrev Statement (α : Type) : Type := Database → Except SqlError (α × Database)

/-- A statement that only reads. -/
def select {α : Type} (q : Database → α) : Statement α := fun db => .ok (q db, db)

/-! ## Queries -/

/-- The tie between rows that `ORDER BY` leaves in any order. -/
abbrev Rank : Type := Uuid → ℕ

def userById (id : String) (db : Database) : Option HumanUser :=
  db.humanUsers.find? (·.id = id)

def userByHandle (handle : Uuid) (db : Database) : Option HumanUser :=
  db.humanUsers.find? (·.webauthnHandle = handle)

def credentialsForUser (rank : Rank) (userId : String) (db : Database) : List PasskeyCredential :=
  orderBy (·.createdAt) (fun c => rank c.id)
    (db.passkeyCredentials.filter (fun c => c.userId = userId ∧ c.revokedAt = none))

/-- The unrevoked credentials joined with the operators who hold them. -/
def operatorCredentials (db : Database) : List (PasskeyCredential × HumanUser) :=
  join (fun c u => u.id = c.userId)
    (db.passkeyCredentials.filter (·.revokedAt = none))
    (db.humanUsers.filter (·.role = "operator"))

def operatorWithoutCredential (rank : Rank) (db : Database) : Option HumanUser :=
  (orderBy (·.createdAt) (fun u => rank u.webauthnHandle)
    (db.humanUsers.filter
      (fun u => u.role = "operator" ∧ u.enabled ∧ db.operatorCredentials = []))).head?

def operatorExists (db : Database) : Bool := db.humanUsers.any (·.role = "operator")

def operatorRecoveryWindow (rank : Rank) (now : DateTime) (db : Database) :
    Option (AuthCapability × HumanUser) :=
  (join (fun c u => u.id = c.userId)
    (orderBy (fun c => -c.createdAt) (fun c => rank c.id)
      (db.authCapabilities.filter (fun c => c.purpose = "operator_recovery" ∧ c.Live now)))
    (db.humanUsers.filter (fun u => u.role = "operator" ∧ u.enabled))).head?

def capability (hash : List UInt8) (purpose : String) (now : DateTime) (db : Database) :
    Option AuthCapability :=
  db.authCapabilities.find? (fun c => c.tokenHash = hash ∧ c.purpose = purpose ∧ c.Live now)

def ceremony (id : Uuid) (kind : String) (now : DateTime) (db : Database) : Option AuthCeremony :=
  db.authCeremonies.find? (fun c => c.id = id ∧ c.kind = kind ∧ c.Live now)

/-- The condition under which a session is found by its token. -/
def SessionFound (hash : List UInt8) (now : DateTime) (s : AuthSession) (u : HumanUser) : Prop :=
  u.id = s.userId ∧ s.tokenHash = hash ∧ s.revokedAt = none ∧ now < s.idleExpiresAt ∧
    now < s.absoluteExpiresAt ∧ u.enabled = true ∧ s.authEpoch = u.authEpoch

instance (hash : List UInt8) (now : DateTime) (s : AuthSession) (u : HumanUser) :
    Decidable (SessionFound hash now s u) :=
  inferInstanceAs (Decidable (_ ∧ _))

def session (hash : List UInt8) (now : DateTime) (db : Database) : Option (AuthSession × HumanUser) :=
  (join (fun s u => SessionFound hash now s u) db.authSessions db.humanUsers).head?

def pendingRecoveries (rank : Rank) (db : Database) : List RecoveryRequest :=
  orderBy (·.requestedAt) (fun r => rank r.id)
    (db.recoveryRequests.filter (·.completedAt = none))

/-! ## Inserts -/

def insertHumanUser (user : HumanUser) : Statement Unit := fun db => do
  let humanUsers ← insertRow (storableText user.email && storableText user.displayName)
    (decide (user.role = "user" ∨ user.role = "operator") && decide (0 < user.authEpoch))
    (fun u u' => u.id = u'.id ∨ u.webauthnHandle = u'.webauthnHandle ∨ u.email = u'.email)
    true user db.humanUsers
  pure ((), { db with humanUsers })

def insertPasskeyCredential (credential : PasskeyCredential) : Statement Unit := fun db => do
  let passkeyCredentials ← insertRow (storable credential.publicData) true
    (fun c c' => c.id = c'.id ∨ c.credentialId = c'.credentialId)
    (db.hasUser credential.userId) credential db.passkeyCredentials
  pure ((), { db with passkeyCredentials })

def insertAuthCapability (capability : AuthCapability) : Statement Unit := fun db => do
  let authCapabilities ← insertRow true
    (decide (capability.purpose ∈ ["setup", "recovery_setup", "operator_recovery"])
      && decide (capability.tokenHash.length = 32))
    (fun c c' => c.id = c'.id ∨ c.tokenHash = c'.tokenHash)
    (db.hasUser capability.userId) capability db.authCapabilities
  pure ((), { db with authCapabilities })

def insertAuthCeremony (ceremony : AuthCeremony) : Statement Unit := fun db => do
  let authCeremonies ← insertRow (storable ceremony.state)
    (decide (ceremony.kind ∈
        ["registration", "authentication", "operator_bootstrap", "operator_recovery"])
      && decide (∀ hash, ceremony.capabilityHash = some hash → hash.length = 32))
    (fun c c' => c.id = c'.id)
    (db.refersToUser ceremony.userId) ceremony db.authCeremonies
  pure ((), { db with authCeremonies })

def insertAuthSession (session : AuthSession) : Statement Unit := fun db => do
  let authSessions ← insertRow true
    (decide (session.tokenHash.length = 32) && decide (session.csrfHash.length = 32))
    (fun s s' => s.id = s'.id ∨ s.tokenHash = s'.tokenHash)
    (db.hasUser session.userId) session db.authSessions
  pure ((), { db with authSessions })

def insertRecoveryRequest (request : RecoveryRequest) : Statement Unit := fun db => do
  let recoveryRequests ← insertRow true true
    (fun r r' => r.id = r'.id ∨ (r.Pending ∧ r'.Pending ∧ r.userId = r'.userId))
    (db.hasUser request.userId && db.refersToUser request.approvedBy) request db.recoveryRequests
  pure ((), { db with recoveryRequests })

def insertAuthAuditEvent (event : AuthAuditEvent) : Statement Unit := fun db => do
  let authAuditEvents ← insertRow (storable event.data) true (fun _ _ => false)
    (db.refersToUser event.actorUserId && db.refersToUser event.subjectUserId)
    event db.authAuditEvents
  pure ((), { db with authAuditEvents })

/-! ## Invalidation

`rotate_all_auth_epochs` and `invalidate_user_auth` execute the same four updates, the first on all
rows and the second on the rows of one user. -/

/-- `UPDATE human_users SET auth_epoch = auth_epoch + 1 … WHERE p`, refused when the `bigint`
    overflows; gives the number of updated rows. -/
def advanceEpochs (p : HumanUser → Bool) (now : DateTime) : Statement ℕ := fun db =>
  let humanUsers := updateWhere p
    (fun u => { u with authEpoch := u.authEpoch + 1, updatedAt := now }) db.humanUsers
  if db.humanUsers.any (fun u => p u && decide (2 ^ 63 ≤ u.authEpoch + 1)) then .error .other
  else .ok ((db.humanUsers.filter p).length, { db with humanUsers })

/-- `UPDATE auth_sessions SET revoked_at = now WHERE p AND revoked_at IS NULL` -/
def revokeSessions (p : AuthSession → Bool) (now : DateTime) : Statement Unit := fun db =>
  let authSessions := updateWhere (fun s => p s && decide (s.revokedAt = none))
    (fun s => { s with revokedAt := some now }) db.authSessions
  .ok ((), { db with authSessions })

/-- `UPDATE auth_ceremonies SET consumed_at = now WHERE p AND consumed_at IS NULL` -/
def consumeCeremonies (p : AuthCeremony → Bool) (now : DateTime) : Statement Unit := fun db =>
  let authCeremonies := updateWhere (fun c => p c && decide (c.consumedAt = none))
    (fun c => { c with consumedAt := some now }) db.authCeremonies
  .ok ((), { db with authCeremonies })

/-- `UPDATE auth_capabilities SET consumed_at = now WHERE p AND consumed_at IS NULL` -/
def consumeCapabilities (p : AuthCapability → Bool) (now : DateTime) : Statement Unit := fun db =>
  let authCapabilities := updateWhere (fun c => p c && decide (c.consumedAt = none))
    (fun c => { c with consumedAt := some now }) db.authCapabilities
  .ok ((), { db with authCapabilities })

/-! ## Other updates -/

/-- Spend a ceremony; gives its user and kind. -/
def consumeCeremony (id : Uuid) (now : DateTime) : Statement (Option (Option String × String)) :=
  fun db =>
    let p := fun (c : AuthCeremony) => decide (c.id = id ∧ c.Live now)
    let authCeremonies := updateWhere p (fun c => { c with consumedAt := some now })
      db.authCeremonies
    .ok (((db.authCeremonies.filter p).head?).map (fun c => (c.userId, c.kind)),
      { db with authCeremonies })

/-- Spend a login ceremony; gives the number of updated rows. -/
def consumeAuthentication (id : Uuid) (now : DateTime) : Statement ℕ := fun db =>
  let p := fun (c : AuthCeremony) => decide (c.id = id ∧ c.kind = "authentication" ∧ c.Live now)
  let authCeremonies := updateWhere p (fun c => { c with consumedAt := some now })
    db.authCeremonies
  .ok ((db.authCeremonies.filter p).length, { db with authCeremonies })

/-- Spend a capability; gives the number of updated rows. -/
def consumeCapability (hash : List UInt8) (now : DateTime) : Statement ℕ := fun db =>
  let p := fun (c : AuthCapability) => decide (c.tokenHash = hash ∧ c.Live now)
  let authCapabilities := updateWhere p (fun c => { c with consumedAt := some now })
    db.authCapabilities
  .ok ((db.authCapabilities.filter p).length, { db with authCapabilities })

/-- Close the recoveries of a user whose setup was issued. -/
def completeRecoveries (userId : Option String) (now : DateTime) : Statement Unit := fun db =>
  let p := fun (r : RecoveryRequest) => decide (some r.userId = userId ∧ r.approvedAt ≠ none ∧
    r.setupIssuedAt ≠ none ∧ r.completedAt = none)
  let recoveryRequests := updateWhere p (fun r => { r with completedAt := some now })
    db.recoveryRequests
  .ok ((), { db with recoveryRequests })

/-- Record a login with a credential; gives the number of updated rows. -/
def useCredential (userId : String) (credentialId : List UInt8) (publicData : Value)
    (now : DateTime) : Statement ℕ := fun db =>
  let p := fun (c : PasskeyCredential) =>
    decide (c.userId = userId ∧ c.credentialId = credentialId ∧ c.revokedAt = none)
  let passkeyCredentials := updateWhere p
    (fun c => { c with publicData, lastUsedAt := some now }) db.passkeyCredentials
  if storable publicData = false then .error .other
  else .ok ((db.passkeyCredentials.filter p).length, { db with passkeyCredentials })

/-- Prolong a session. -/
def touchSession (id : Uuid) (idleExpiresAt now : DateTime) : Statement Unit := fun db =>
  let authSessions := updateWhere (fun s => s.id = id)
    (fun s => { s with idleExpiresAt, lastSeenAt := now }) db.authSessions
  .ok ((), { db with authSessions })

/-- Prolong a session and give it a new CSRF token. -/
def touchSessionCsrf (id : Uuid) (csrfHash : List UInt8) (idleExpiresAt now : DateTime) :
    Statement Unit := fun db =>
  let authSessions := updateWhere (fun s => s.id = id)
    (fun s => { s with csrfHash, idleExpiresAt, lastSeenAt := now }) db.authSessions
  if csrfHash.length = 32 then .ok ((), { db with authSessions }) else .error .check

/-- Approve a recovery; gives its user. -/
def approveRequest (id : Uuid) (operatorId : String) (now : DateTime) :
    Statement (Option String) := fun db =>
  let p := fun (r : RecoveryRequest) => decide (r.id = id ∧ r.Pending)
  let recoveryRequests := updateWhere p
    (fun r => { r with approvedAt := some now, approvedBy := some operatorId }) db.recoveryRequests
  if db.recoveryRequests.any p && !db.hasUser operatorId then .error .foreignKey
  else .ok (((db.recoveryRequests.filter p).head?).map (·.userId), { db with recoveryRequests })

/-- Mark the setup of a recovery as issued; gives the number of updated rows. -/
def issueSetup (id : Uuid) (userId : String) (now : DateTime) : Statement ℕ := fun db =>
  let p := fun (r : RecoveryRequest) => decide (r.id = id ∧ r.approvedAt ≠ none ∧
    r.setupIssuedAt = none ∧ r.completedAt = none ∧ r.userId = userId)
  let recoveryRequests := updateWhere p (fun r => { r with setupIssuedAt := some now })
    db.recoveryRequests
  .ok ((db.recoveryRequests.filter p).length, { db with recoveryRequests })

/-- Revoke an operator's credential; gives its user. -/
def revokeOperatorCredential (id : Uuid) (now : DateTime) : Statement (Option String) := fun db =>
  let p := fun (c : PasskeyCredential) => decide (c.id = id ∧ c.revokedAt = none ∧
    ∃ u ∈ db.humanUsers, u.id = c.userId ∧ u.role = "operator")
  let passkeyCredentials := updateWhere p (fun c => { c with revokedAt := some now })
    db.passkeyCredentials
  .ok (((db.passkeyCredentials.filter p).head?).map (·.userId), { db with passkeyCredentials })

end Database

end RsConsole
