import RsConsole.Library.Transaction
import RsConsole.Server.Database

set_option autoImplicit false

/-! # The repository

`PgAuthStore` of `repository.rs`. A method executes statements on a connection of the pool, inside
a transaction where the source begins one, and decodes the rows it gets. `perform` performs one
method as a whole, as the database commits it; a transaction that fails or loses its connection is
rolled back (a commit whose confirmation is lost is not modelled). -/

namespace RsConsole

open Library Library.Table

/-! ## Decoding rows -/

def roleName : Role → String
  | .user => "user"
  | .operator => "operator"

def parseRole (role : String) : Except AuthError Role :=
  if role = "user" then .ok .user
  else if role = "operator" then .ok .operator
  else .error .store

def purposeName : CapabilityPurpose → String
  | .setup => "setup"
  | .recoverySetup => "recovery_setup"
  | .operatorRecovery => "operator_recovery"

def parsePurpose (value : String) : Except AuthError CapabilityPurpose :=
  if value = "setup" then .ok .setup
  else if value = "recovery_setup" then .ok .recoverySetup
  else if value = "operator_recovery" then .ok .operatorRecovery
  else .error .store

def ceremonyName : CeremonyKind → String
  | .registration => "registration"
  | .authentication => "authentication"
  | .operatorBootstrap => "operator_bootstrap"
  | .operatorRecovery => "operator_recovery"

def parseCeremonyKind (value : String) : Except AuthError CeremonyKind :=
  if value = "registration" then .ok .registration
  else if value = "authentication" then .ok .authentication
  else if value = "operator_bootstrap" then .ok .operatorBootstrap
  else if value = "operator_recovery" then .ok .operatorRecovery
  else .error .store

/-- `UserId::new(…).map_err(|_| AuthError::Store)` -/
def parseUserId (value : String) : Except AuthError UserId :=
  (OpaqueId.new value).mapError (fun _ => .store)

/-- Convert what is there: Rust's `map(f).transpose()`. -/
def transpose {α β : Type} (f : α → Except AuthError β) : Option α → Except AuthError (Option β)
  | none => .ok none
  | some a => (f a).map some

def User.tryFrom (row : Database.HumanUser) : Except AuthError User := do
  let id ← parseUserId row.id
  let role ← parseRole row.role
  pure
    { id
      webauthnHandle := row.webauthnHandle
      email := row.email
      displayName := row.displayName
      role
      enabled := row.enabled
      authEpoch := row.authEpoch }

def StoredCredential.tryFrom (row : Database.PasskeyCredential) :
    Except AuthError StoredCredential := do
  let userId ← parseUserId row.userId
  pure
    { id := row.id
      userId
      credentialId := row.credentialId
      publicData := row.publicData
      revokedAt := row.revokedAt }

def Capability.tryFrom (row : Database.AuthCapability) : Except AuthError Capability := do
  let userId ← parseUserId row.userId
  let purpose ← parsePurpose row.purpose
  let tokenHash ← SecretHash.fromSlice row.tokenHash
  pure { id := row.id, userId, purpose, tokenHash, expiresAt := row.expiresAt }

def Ceremony.tryFrom (row : Database.AuthCeremony) : Except AuthError Ceremony := do
  let kind ← parseCeremonyKind row.kind
  let userId ← transpose parseUserId row.userId
  let capabilityHash ← transpose SecretHash.fromSlice row.capabilityHash
  pure { id := row.id, kind, userId, capabilityHash, state := row.state, expiresAt := row.expiresAt }

def RecoveryRequest.tryFrom (row : Database.RecoveryRequest) :
    Except AuthError RecoveryRequest := do
  let userId ← parseUserId row.userId
  pure { id := row.id, userId, requestedAt := row.requestedAt, approvedAt := row.approvedAt }

/-- The row of `operator_recovery_window`. -/
def recoveryWindow (row : Database.AuthCapability × Database.HumanUser) :
    Except AuthError (User × SecretHash) := do
  let hash ← SecretHash.fromSlice row.1.tokenHash
  let user ← User.tryFrom row.2
  pure (user, hash)

/-- The principal that `session` builds from the rows it found. -/
def sessionPrincipal (row : Database.AuthSession × Database.HumanUser) :
    Except AuthError SessionPrincipal := do
  let user ← User.tryFrom row.2
  let csrfHash ← SecretHash.fromSlice row.1.csrfHash
  pure
    { sessionId := row.1.id, user, csrfHash, absoluteExpiresAt := row.1.absoluteExpiresAt }

/-- The principal that `rotate_session_csrf` builds. -/
def rotatedPrincipal (csrfHash : SecretHash) (row : Database.AuthSession × Database.HumanUser) :
    Except AuthError SessionPrincipal := do
  let user ← User.tryFrom row.2
  pure
    { sessionId := row.1.id, user, csrfHash, absoluteExpiresAt := row.1.absoluteExpiresAt }

/-! ## Rows of values -/

def User.row (user : User) (now : DateTime) : Database.HumanUser where
  id := user.id.value
  webauthnHandle := user.webauthnHandle
  email := user.email
  displayName := user.displayName
  role := roleName user.role
  enabled := user.enabled
  authEpoch := user.authEpoch
  createdAt := now
  updatedAt := now

def Capability.row (capability : Capability) (clock : DateTime) : Database.AuthCapability where
  id := capability.id
  userId := capability.userId.value
  purpose := purposeName capability.purpose
  tokenHash := capability.tokenHash.asBytes
  expiresAt := capability.expiresAt
  createdAt := clock

def Ceremony.row (ceremony : Ceremony) (clock : DateTime) : Database.AuthCeremony where
  id := ceremony.id
  kind := ceremonyName ceremony.kind
  userId := ceremony.userId.map (·.value)
  capabilityHash := ceremony.capabilityHash.map (·.asBytes)
  state := ceremony.state
  expiresAt := ceremony.expiresAt
  createdAt := clock

def VerifiedCredential.row (credential : VerifiedCredential) (id : Uuid) (userId : String)
    (now : DateTime) : Database.PasskeyCredential where
  id
  userId
  credentialId := credential.credentialId
  publicData := credential.publicData
  createdAt := now

def SessionRecord.row (session : SessionRecord) (now : DateTime) : Database.AuthSession where
  id := session.id
  userId := session.userId.value
  tokenHash := session.tokenHash.asBytes
  csrfHash := session.csrfHash.asBytes
  authEpoch := session.authEpoch
  idleExpiresAt := session.idleExpiresAt
  absoluteExpiresAt := session.absoluteExpiresAt
  createdAt := now
  lastSeenAt := now

def AuditEvent.row (event : AuditEvent) (now : DateTime) : Database.AuthAuditEvent where
  occurredAt := now
  eventType := event.eventType
  actorUserId := event.actorUserId.map (·.value)
  subjectUserId := event.subjectUserId.map (·.value)
  data := event.data

/-! ## Executing statements -/

/-- What a call meets: the database's clock (`now()`), the order of rows that a query leaves tied,
    the id the store draws, and after how many round trips the connection is lost, if ever. -/
structure Env where
  clock : DateTime
  rank : Database.Rank
  fresh : Uuid
  left : Option ℕ

/-- Repository code. -/
abbrev Repo (α : Type) : Type := Tx AuthError Database α

/-- Execute a statement, with `map_err(|_| AuthError::Store)`. -/
def execute {α : Type} (stmt : Database.Statement α) : Repo α :=
  Tx.exec .store (fun _ => .store) stmt

/-- Execute a query. -/
def fetch {α : Type} (q : Database → α) : Repo α := execute (Database.select q)

/-- `pool.begin()`, the body, `transaction.commit()`. -/
def transaction {α : Type} (body : Repo α) : Repo α := Tx.transaction .store body

/-- A unique violation is a conflict. -/
def uniqueConflict : SqlError → AuthError
  | .unique => .conflict
  | _ => .store

/-- Every constraint violation is a conflict. -/
def constraintConflict : SqlError → AuthError
  | .other => .store
  | _ => .conflict

def insertAudit (event : AuditEvent) (now : DateTime) : Repo Unit :=
  execute (Database.insertAuthAuditEvent (event.row now))

def invalidateUserAuth (userId : String) (now : DateTime) : Repo Unit := do
  let _ ← execute (Database.advanceEpochs (fun u => u.id = userId) now)
  execute (Database.revokeSessions (fun s => s.userId = userId) now)
  execute (Database.consumeCeremonies (fun c => c.userId = some userId) now)
  execute (Database.consumeCapabilities (fun c => c.userId = userId) now)

namespace PgAuthStore

/-! ## Queries -/

def userById (id : UserId) : Repo (Option User) := do
  let row ← fetch (Database.userById id.value)
  Tx.ofExcept (transpose User.tryFrom row)

def userByHandle (handle : Uuid) : Repo (Option User) := do
  let row ← fetch (Database.userByHandle handle)
  Tx.ofExcept (transpose User.tryFrom row)

def credentialsForUser (env : Env) (userId : UserId) : Repo (List StoredCredential) := do
  let rows ← fetch (Database.credentialsForUser env.rank userId.value)
  Tx.ofExcept (rows.mapM StoredCredential.tryFrom)

def operatorWithoutCredential (env : Env) : Repo (Option User) := do
  let row ← fetch (Database.operatorWithoutCredential env.rank)
  Tx.ofExcept (transpose User.tryFrom row)

def operatorExists : Repo Bool := fetch Database.operatorExists

def operatorRecoveryWindow (env : Env) (now : DateTime) : Repo (Option (User × SecretHash)) := do
  let row ← fetch (Database.operatorRecoveryWindow env.rank now)
  Tx.ofExcept (transpose recoveryWindow row)

def capability (hash : SecretHash) (purpose : CapabilityPurpose) (now : DateTime) :
    Repo (Option Capability) := do
  let row ← fetch (Database.capability hash.asBytes (purposeName purpose) now)
  Tx.ofExcept (transpose Capability.tryFrom row)

def ceremony (id : Uuid) (kind : CeremonyKind) (now : DateTime) : Repo (Option Ceremony) := do
  let row ← fetch (Database.ceremony id (ceremonyName kind) now)
  Tx.ofExcept (transpose Ceremony.tryFrom row)

def pendingRecoveries (env : Env) : Repo (List RecoveryRequest) := do
  let rows ← fetch (Database.pendingRecoveries env.rank)
  Tx.ofExcept (rows.mapM RecoveryRequest.tryFrom)

/-! ## Single statements -/

def insertCapability (env : Env) (capability : Capability) : Repo Unit :=
  execute (Database.insertAuthCapability (capability.row env.clock))

def insertCeremony (env : Env) (ceremony : Ceremony) : Repo Unit :=
  execute (Database.insertAuthCeremony (ceremony.row env.clock))

def deleteSession (env : Env) (tokenHash : SecretHash) : Repo Unit :=
  execute (Database.revokeSessions (fun s => s.tokenHash = tokenHash.asBytes) env.clock)

def createRecovery (env : Env) (userId : UserId) (now : DateTime) : Repo RecoveryRequest := do
  Tx.exec .store uniqueConflict (Database.insertRecoveryRequest
    { id := env.fresh, userId := userId.value, requestedAt := now })
  pure { id := env.fresh, userId, requestedAt := now, approvedAt := none }

/-! ## Users -/

def insertUser (user : User) (now : DateTime) (audit : AuditEvent) : Repo Unit :=
  transaction do
    Tx.exec .store constraintConflict (Database.insertHumanUser (user.row now))
    insertAudit audit now

def approveUserWithSetup (env : Env) (user : User) (capability : Capability) (operatorId : UserId)
    (now : DateTime) : Repo Unit :=
  transaction do
    Tx.exec .store constraintConflict (Database.insertHumanUser (user.row now))
    execute (Database.insertAuthCapability (capability.row env.clock))
    insertAudit
      { eventType := "user.approved_with_setup"
        actorUserId := some operatorId
        subjectUserId := some user.id
        data := .object [("capability_id", .string (uuidText capability.id))] } now

def rotateAllAuthEpochs (now : DateTime) (reason : String) : Repo ℕ :=
  transaction do
    let users ← execute (Database.advanceEpochs (fun _ => true) now)
    execute (Database.revokeSessions (fun _ => true) now)
    execute (Database.consumeCeremonies (fun _ => true) now)
    execute (Database.consumeCapabilities (fun _ => true) now)
    insertAudit
      { eventType := "auth.epoch_rotated_all"
        actorUserId := none
        subjectUserId := none
        data := .object [("reason", .string reason), ("users", usizeNumber users)] } now
    pure users

/-! ## Completing ceremonies -/

/-- `RETURNING user_id, kind` read as `(String, String)`: a null user does not decode. -/
def spentCeremony : Option (Option String × String) → Repo (String × String)
  | none => Tx.fail .invalidState
  | some (none, _) => Tx.fail .store
  | some (some userId, kind) => pure (userId, kind)

/-- The capability a registration spends, if it names one. -/
def spendCapability (capabilityHash : Option SecretHash) (now : DateTime) : Repo Unit :=
  match capabilityHash with
  | none => pure ()
  | some hash => do
      let consumed ← execute (Database.consumeCapability hash.asBytes now)
      Tx.ensure (consumed = 1) .invalidState

/-- A bootstrap finds no unrevoked operator credential. -/
def checkBootstrap (kind : String) : Repo Unit :=
  if kind = "operator_bootstrap" then do
    let operatorCredentials ← fetch (fun db => db.operatorCredentials.length)
    Tx.ensure (operatorCredentials = 0) .conflict
  else pure ()

def completeRegistration (env : Env) (ceremonyId : Uuid) (capabilityHash : Option SecretHash)
    (credential : VerifiedCredential) (now : DateTime) (audit : AuditEvent) : Repo Unit :=
  transaction do
    -- the advisory lock
    fetch (fun _ => ())
    let spent ← execute (Database.consumeCeremony ceremonyId now)
    let (userId, kind) ← spentCeremony spent
    checkBootstrap kind
    spendCapability capabilityHash now
    Tx.exec .store uniqueConflict
      (Database.insertPasskeyCredential (credential.row env.fresh userId now))
    execute (Database.completeRecoveries (audit.subjectUserId.map (·.value)) now)
    insertAudit audit now

def completeAuthentication (ceremonyId : Uuid) (verification : AuthenticationVerification)
    (session : SessionRecord) (now : DateTime) (audit : AuditEvent) : Repo Unit :=
  transaction do
    let consumed ← execute (Database.consumeAuthentication ceremonyId now)
    Tx.ensure (consumed = 1) .invalidState
    let used ← execute (Database.useCredential session.userId.value verification.credentialId
      verification.updatedPublicData now)
    Tx.ensure (used = 1) .unauthenticated
    execute (Database.insertAuthSession (session.row now))
    insertAudit audit now

/-! ## Sessions -/

/-- What `session` and `rotate_session_csrf` have in common: find the session, `touch` it, commit,
    and build the principal from the rows found. -/
def useSession (tokenHash : SecretHash) (now : DateTime)
    (touch : Database.AuthSession → Database.Statement Unit)
    (principal : Database.AuthSession × Database.HumanUser → Except AuthError SessionPrincipal) :
    Repo (Option SessionPrincipal) := do
  let found ← transaction do
    let found ← fetch (Database.session tokenHash.asBytes now)
    match found with
    | none => pure none
    | some row => do
        execute (touch row.1)
        pure (some row)
  Tx.ofExcept (transpose principal found)

def session (tokenHash : SecretHash) (now idleExpiresAt : DateTime) :
    Repo (Option SessionPrincipal) :=
  useSession tokenHash now
    (fun s => Database.touchSession s.id (min idleExpiresAt s.absoluteExpiresAt) now)
    sessionPrincipal

def rotateSessionCsrf (tokenHash csrfHash : SecretHash) (now idleExpiresAt : DateTime) :
    Repo (Option SessionPrincipal) :=
  useSession tokenHash now
    (fun s => Database.touchSessionCsrf s.id csrfHash.asBytes
      (min idleExpiresAt s.absoluteExpiresAt) now)
    (rotatedPrincipal csrfHash)

/-! ## Recovery -/

def approveRecovery (recoveryId : Uuid) (operatorId : UserId) (now : DateTime) : Repo Unit :=
  transaction do
    let approved ← execute (Database.approveRequest recoveryId operatorId.value now)
    let userId ← Tx.okOr .conflict approved
    invalidateUserAuth userId now
    let subject ← Tx.ofExcept (parseUserId userId)
    insertAudit
      { eventType := "recovery.approved"
        actorUserId := some operatorId
        subjectUserId := some subject
        data := .object [("recovery_id", .string (uuidText recoveryId))] } now

def issueRecoverySetup (env : Env) (recoveryId : Uuid) (capability : Capability)
    (operatorId : UserId) (now : DateTime) : Repo Unit :=
  transaction do
    let issued ← execute (Database.issueSetup recoveryId capability.userId.value now)
    Tx.ensure (issued = 1) .conflict
    execute (Database.insertAuthCapability (capability.row env.clock))
    insertAudit
      { eventType := "recovery.setup_issued"
        actorUserId := some operatorId
        subjectUserId := some capability.userId
        data := .object [("recovery_id", .string (uuidText recoveryId))] } now

def breakGlass (env : Env) (credentialId : Uuid) (capability : Capability) (now : DateTime)
    (reason : String) : Repo Unit :=
  transaction do
    let revoked ← execute (Database.revokeOperatorCredential credentialId now)
    let userId ← Tx.okOr .conflict revoked
    Tx.ensure (capability.userId.value = userId) .forbidden
    invalidateUserAuth userId now
    execute (Database.insertAuthCapability (capability.row env.clock))
    insertAudit
      { eventType := "operator.break_glass_opened"
        actorUserId := none
        subjectUserId := some capability.userId
        data := .object [("credential_id", .string (uuidText credentialId)),
          ("reason", .string reason)] } now

/-- The method a call is performed by. -/
def method (env : Env) : (c : AuthCall) → Repo c.Reply
  | .userById id => userById id
  | .userByHandle handle => userByHandle handle
  | .credentialsForUser userId => credentialsForUser env userId
  | .operatorWithoutCredential => operatorWithoutCredential env
  | .operatorExists => operatorExists
  | .operatorRecoveryWindow now => operatorRecoveryWindow env now
  | .capability hash purpose now => capability hash purpose now
  | .insertCapability c => insertCapability env c
  | .insertUser user now audit => insertUser user now audit
  | .approveUserWithSetup user c operatorId now => approveUserWithSetup env user c operatorId now
  | .rotateAllAuthEpochs now reason => rotateAllAuthEpochs now reason
  | .insertCeremony c => insertCeremony env c
  | .ceremony id kind now => ceremony id kind now
  | .completeRegistration ceremonyId capabilityHash credential now audit =>
      completeRegistration env ceremonyId capabilityHash credential now audit
  | .completeAuthentication ceremonyId verification s now audit =>
      completeAuthentication ceremonyId verification s now audit
  | .session tokenHash now idleExpiresAt => session tokenHash now idleExpiresAt
  | .rotateSessionCsrf tokenHash csrfHash now idleExpiresAt =>
      rotateSessionCsrf tokenHash csrfHash now idleExpiresAt
  | .deleteSession tokenHash => deleteSession env tokenHash
  | .createRecovery userId now => createRecovery env userId now
  | .pendingRecoveries => pendingRecoveries env
  | .approveRecovery recoveryId operatorId now => approveRecovery recoveryId operatorId now
  | .issueRecoverySetup recoveryId c operatorId now =>
      issueRecoverySetup env recoveryId c operatorId now
  | .breakGlass credentialId c now reason => breakGlass env credentialId c now reason

/-- Perform a call on the database. -/
def perform (env : Env) (c : AuthCall) (db : Database) : c.Answer × Database :=
  let (answer, conn) := method env c ⟨db, env.left⟩
  (answer, conn.state)

end PgAuthStore

end RsConsole
