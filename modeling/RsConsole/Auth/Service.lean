import RsConsole.Auth.Types

set_option autoImplicit false

/-! # The authentication service

`AuthService` of `auth/src/lib.rs`: every operation is a program over the calls of `AuthStore`, one
call at a time. The random draws of an operation (a challenge's `seed`, ids, tokens) are its last
arguments. `Operation` lists what the HTTP handlers and the command line run; the commands call
`break_glass` on the store itself, with a capability they built. -/

namespace RsConsole

open Library

structure AuthConfig where
  ceremonyTtl : Duration
  capabilityTtl : Duration
  sessionIdleTtl : Duration
  sessionAbsoluteTtl : Duration

/-- `Duration::minutes` -/
def minutes (n : ℤ) : Duration := n * 60000000

/-- `AuthConfig::default` -/
def AuthConfig.default : AuthConfig where
  ceremonyTtl := minutes 5
  capabilityTtl := minutes 15
  sessionIdleTtl := minutes 30
  sessionAbsoluteTtl := minutes (12 * 60)

/-- Service code: a program over the store's calls that stops at the first error. -/
abbrev Auth (α : Type) : Type := ExceptT AuthError (Program AuthCall AuthCall.Answer) α

def ask (c : AuthCall) : Auth c.Reply := Fallible.await c

-- The reply type of a known call reduces, so the rules must not be found by it.

@[simp] theorem asks_ask (c c' : AuthCall) (past : List (Exchange AuthCall AuthCall.Answer)) :
    @Fallible.Asks _ _ _ (no_index c.Reply) (ask c) past c' ↔ past = [] ∧ c' = c :=
  Fallible.asks_await c c' past

@[simp] theorem returns_ask (c : AuthCall) (past : List (Exchange AuthCall AuthCall.Answer))
    (a : c.Reply) :
    @Fallible.Returns _ _ _ (no_index c.Reply) (ask c) past a ↔ past = [⟨c, .ok a⟩] :=
  Fallible.returns_await c past a

@[simp] theorem fails_ask (c : AuthCall) (past : List (Exchange AuthCall AuthCall.Answer))
    (e : AuthError) :
    @Fallible.Fails _ _ _ (no_index c.Reply) (ask c) past e ↔ past = [⟨c, .error e⟩] :=
  Fallible.fails_await c past e

namespace AuthService

section

variable [Crates] (config : AuthConfig) (engine : CeremonyEngine)

/-! ## Registration -/

def startSetupRegistration (token : SecretToken) (purpose : CapabilityPurpose) (now : DateTime)
    (seed : ℕ) (id : Uuid) : Auth (Uuid × Value) := do
  let found ← ask (.capability token.hash purpose now)
  let capability ← Fallible.okOr .invalidToken found
  let found ← ask (.userById capability.userId)
  let user ← Fallible.okOr .invalidToken (found.filter (·.enabled))
  let credentials ← ask (.credentialsForUser user.id)
  let (challenge, state) ← Fallible.ofExcept (engine.startRegistration seed user credentials)
  ask (.insertCeremony
    { id
      kind := .registration
      userId := some user.id
      capabilityHash := some capability.tokenHash
      state
      expiresAt := now + config.ceremonyTtl })
  pure (id, challenge)

/-- Who may register through the bootstrap endpoint: the operator of an open recovery window, else
    an operator as long as no operator has a credential. -/
def bootstrapCandidate (now : DateTime) :
    Auth (User × Option SecretHash × CeremonyKind) := do
  match ← ask (.operatorRecoveryWindow now) with
  | some (user, hash) => pure (user, some hash, .operatorRecovery)
  | none =>
      let found ← ask .operatorWithoutCredential
      let user ← Fallible.okOr .conflict found
      pure (user, none, .operatorBootstrap)

def startOperatorBootstrap (now : DateTime) (seed : ℕ) (id : Uuid) :
    Auth (Uuid × Value × CeremonyKind) := do
  let (user, capabilityHash, kind) ← bootstrapCandidate now
  let (challenge, state) ← Fallible.ofExcept (engine.startRegistration seed user [])
  ask (.insertCeremony
    { id
      kind
      userId := some user.id
      capabilityHash
      state
      expiresAt := now + config.ceremonyTtl })
  pure (id, challenge, kind)

/-- The audit event of a registration. -/
def registered (userId : UserId) (kind : CeremonyKind) : AuditEvent where
  eventType := "passkey.registered"
  actorUserId := some userId
  subjectUserId := some userId
  data := .object [("ceremony_kind", .string (ceremonyKindText kind))]

def finishRegistration (ceremonyId : Uuid) (kind : CeremonyKind) (response : Value)
    (now : DateTime) : Auth Unit := do
  let found ← ask (.ceremony ceremonyId kind now)
  let ceremony ← Fallible.okOr .invalidState found
  let credential ← Fallible.ofExcept (engine.finishRegistration response ceremony.state)
  let userId ← Fallible.okOr .invalidState ceremony.userId
  ask (.completeRegistration ceremony.id ceremony.capabilityHash credential now
    (registered userId kind))

/-! ## Authentication -/

def startAuthentication (now : DateTime) (seed : ℕ) (id : Uuid) : Auth (Uuid × Value) := do
  let (challenge, state) ← Fallible.ofExcept (engine.startAuthentication seed)
  ask (.insertCeremony
    { id
      kind := .authentication
      userId := none
      capabilityHash := none
      state
      expiresAt := now + config.ceremonyTtl })
  pure (id, challenge)

/-- The session that a login of `user` creates. -/
def newSession (user : User) (now : DateTime) (token csrf : SecretToken) (id : Uuid) :
    SessionRecord where
  id
  userId := user.id
  tokenHash := token.hash
  csrfHash := csrf.hash
  authEpoch := user.authEpoch
  idleExpiresAt := now + config.sessionIdleTtl
  absoluteExpiresAt := now + config.sessionAbsoluteTtl

/-- The audit event of a login. -/
def loggedIn (userId : UserId) : AuditEvent where
  eventType := "session.created"
  actorUserId := some userId
  subjectUserId := some userId
  data := .object []

def finishAuthentication (ceremonyId : Uuid) (response : Value) (now : DateTime)
    (token csrf : SecretToken) (id : Uuid) : Auth (SessionGrant × User) := do
  let found ← ask (.ceremony ceremonyId .authentication now)
  let ceremony ← Fallible.okOr .invalidState found
  let handle ← Fallible.ofExcept (engine.authenticationUserHandle response)
  let found ← ask (.userByHandle handle)
  -- an unknown handle and a disabled user give the same error
  let user ← Fallible.okOr .unauthenticated (found.filter (·.enabled))
  let credentials ← ask (.credentialsForUser user.id)
  let verification ←
    Fallible.ofExcept (engine.finishAuthentication response ceremony.state credentials)
  let record := newSession config user now token csrf id
  ask (.completeAuthentication ceremonyId verification record now (loggedIn user.id))
  pure (⟨token, csrf, record⟩, user)

def authenticateSession (token : SecretToken) (csrf : Option SecretToken) (now : DateTime) :
    Auth SessionPrincipal := do
  let found ← ask (.session token.hash now (now + config.sessionIdleTtl))
  let principal ← Fallible.okOr .unauthenticated found
  -- without a token to compare there is no check
  Fallible.ensure (∀ c, csrf = some c → c.hash = principal.csrfHash) .forbidden
  pure principal

def issueSessionCsrf (token : SecretToken) (now : DateTime) (csrf : SecretToken) :
    Auth (SessionPrincipal × SecretToken) := do
  let found ← ask (.rotateSessionCsrf token.hash csrf.hash now (now + config.sessionIdleTtl))
  let principal ← Fallible.okOr .unauthenticated found
  pure (principal, csrf)

def logout (token : SecretToken) : Auth Unit := ask (.deleteSession token.hash)

/-! ## Recovery -/

def requestRecovery (userId : UserId) (now : DateTime) : Auth RecoveryRequest :=
  ask (.createRecovery userId now)

def pendingRecoveries : Auth (List RecoveryRequest) := ask .pendingRecoveries

def approveRecovery (recoveryId : Uuid) (operatorId : UserId) (now : DateTime) : Auth Unit :=
  ask (.approveRecovery recoveryId operatorId now)

def issueRecoverySetup (recoveryId : Uuid) (operatorId userId : UserId) (now : DateTime)
    (token : SecretToken) (id : Uuid) : Auth SecretToken := do
  ask (.issueRecoverySetup recoveryId
    { id
      userId
      purpose := .recoverySetup
      tokenHash := token.hash
      expiresAt := now + config.capabilityTtl } operatorId now)
  pure token

/-! ## Users -/

/-- A person's trimmed email and name. -/
def validPerson (email displayName : String) : Prop :=
  ¬ (email = "" ∨ '@' ∉ email.toList ∨ displayName = "")

instance (email displayName : String) : Decidable (validPerson email displayName) :=
  inferInstanceAs (Decidable (¬ _))

def approveUserAndIssueSetup (operatorId userId : UserId) (email displayName : String)
    (now : DateTime) (token : SecretToken) (handle id : Uuid) : Auth SecretToken := do
  let email := trim email
  let displayName := trim displayName
  Fallible.ensure (validPerson email displayName) .invalidInput
  let found ← ask (.userById userId)
  Fallible.ensure (found.isSome = false) .conflict
  ask (.approveUserWithSetup
    { id := userId
      webauthnHandle := handle
      email
      displayName
      role := .user
      enabled := true
      authEpoch := 1 }
    { id
      userId
      purpose := .setup
      tokenHash := token.hash
      expiresAt := now + config.capabilityTtl } operatorId now)
  pure token

def seedOperator (userId : UserId) (email displayName : String) (now : DateTime) (handle : Uuid) :
    Auth Unit := do
  let email := trim email
  let displayName := trim displayName
  Fallible.ensure (validPerson email displayName) .invalidInput
  let found ← ask (.userById userId)
  Fallible.ensure (found.isSome = false) .conflict
  let taken ← ask .operatorExists
  Fallible.ensure (taken = false) .conflict
  ask (.insertUser
    { id := userId
      webauthnHandle := handle
      email
      displayName
      role := .operator
      enabled := true
      authEpoch := 1 } now
    { eventType := "operator.seeded"
      actorUserId := none
      subjectUserId := some userId
      data := .object [] })

def rotateAllAuthEpochs (now : DateTime) (reason : String) : Auth ℕ := do
  Fallible.ensure (¬ (trim reason).utf8ByteSize < 12) .invalidInput
  ask (.rotateAllAuthEpochs now (trim reason))

end

end AuthService

/-! ## Operations -/

/-- What clients of the console run, with the random draws each of them makes. -/
inductive Operation where
  | startSetupRegistration (token : SecretToken) (purpose : CapabilityPurpose) (now : DateTime)
      (seed : ℕ) (id : Uuid)
  | startOperatorBootstrap (now : DateTime) (seed : ℕ) (id : Uuid)
  | finishRegistration (ceremonyId : Uuid) (kind : CeremonyKind) (response : Value)
      (now : DateTime)
  | startAuthentication (now : DateTime) (seed : ℕ) (id : Uuid)
  | finishAuthentication (ceremonyId : Uuid) (response : Value) (now : DateTime)
      (token csrf : SecretToken) (id : Uuid)
  | authenticateSession (token : SecretToken) (csrf : Option SecretToken) (now : DateTime)
  | issueSessionCsrf (token : SecretToken) (now : DateTime) (csrf : SecretToken)
  | logout (token : SecretToken)
  | requestRecovery (userId : UserId) (now : DateTime)
  | pendingRecoveries
  | approveRecovery (recoveryId : Uuid) (operatorId : UserId) (now : DateTime)
  | issueRecoverySetup (recoveryId : Uuid) (operatorId userId : UserId) (now : DateTime)
      (token : SecretToken) (id : Uuid)
  | approveUserAndIssueSetup (operatorId userId : UserId) (email displayName : String)
      (now : DateTime) (token : SecretToken) (handle id : Uuid)
  | seedOperator (userId : UserId) (email displayName : String) (now : DateTime) (handle : Uuid)
  | rotateAllAuthEpochs (now : DateTime) (reason : String)
  | breakGlass (credentialId : Uuid) (capability : Capability) (now : DateTime) (reason : String)

namespace Operation

open AuthService

/-- The type of an operation's result. -/
abbrev Result : Operation → Type
  | startSetupRegistration .. => Uuid × Value
  | startOperatorBootstrap .. => Uuid × Value × CeremonyKind
  | finishRegistration .. => Unit
  | startAuthentication .. => Uuid × Value
  | finishAuthentication .. => SessionGrant × User
  | authenticateSession .. => SessionPrincipal
  | issueSessionCsrf .. => SessionPrincipal × SecretToken
  | logout _ => Unit
  | requestRecovery .. => RecoveryRequest
  | pendingRecoveries => List RecoveryRequest
  | approveRecovery .. => Unit
  | issueRecoverySetup .. => SecretToken
  | approveUserAndIssueSetup .. => SecretToken
  | seedOperator .. => Unit
  | rotateAllAuthEpochs .. => ℕ
  | breakGlass .. => Unit

section

variable [Crates] (config : AuthConfig) (engine : CeremonyEngine)

def code : (op : Operation) → Auth op.Result
  | startSetupRegistration token purpose now seed id =>
      AuthService.startSetupRegistration config engine token purpose now seed id
  | startOperatorBootstrap now seed id =>
      AuthService.startOperatorBootstrap config engine now seed id
  | finishRegistration ceremonyId kind response now =>
      AuthService.finishRegistration engine ceremonyId kind response now
  | startAuthentication now seed id => AuthService.startAuthentication config engine now seed id
  | finishAuthentication ceremonyId response now token csrf id =>
      AuthService.finishAuthentication config engine ceremonyId response now token csrf id
  | authenticateSession token csrf now => AuthService.authenticateSession config token csrf now
  | issueSessionCsrf token now csrf => AuthService.issueSessionCsrf config token now csrf
  | logout token => AuthService.logout token
  | requestRecovery userId now => AuthService.requestRecovery userId now
  | pendingRecoveries => AuthService.pendingRecoveries
  | approveRecovery recoveryId operatorId now =>
      AuthService.approveRecovery recoveryId operatorId now
  | issueRecoverySetup recoveryId operatorId userId now token id =>
      AuthService.issueRecoverySetup config recoveryId operatorId userId now token id
  | approveUserAndIssueSetup operatorId userId email displayName now token handle id =>
      AuthService.approveUserAndIssueSetup config operatorId userId email displayName now token
        handle id
  | seedOperator userId email displayName now handle =>
      AuthService.seedOperator userId email displayName now handle
  | rotateAllAuthEpochs now reason => AuthService.rotateAllAuthEpochs now reason
  | breakGlass credentialId capability now reason =>
      ask (.breakGlass credentialId capability now reason)

/-- The operation as a client of the store. -/
def program (op : Operation) : Program AuthCall AuthCall.Answer (Except AuthError op.Result) :=
  (op.code config engine).run

end

end Operation

end RsConsole
