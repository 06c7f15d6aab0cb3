import RsConsole.Auth.Service

set_option autoImplicit false

/-! # The HTTP interface

The routers and handlers of `server/src/http.rs`. A handler is a program over the calls of the store,
like the operations of the service that it runs; the times it reads and its random draws are
arguments. What `axum`, `http`, `serde`, `chrono` and `base64` make of octets and texts are
parameters, collected in `HttpCrates`. The cache header that every answer gets is left out. -/

namespace RsConsole

open Library

/-! ## Requests -/

/-- `http::Method`, as far as the routers tell methods apart. -/
inductive HttpMethod where
  | get
  | head
  | post
  | options
  | other
  deriving DecidableEq

/-- `HeaderMap`: lower-case names and the octets of their values, in the order of the request. -/
abbrev HeaderMap := List (String × List UInt8)

/-- `HeaderMap::get`: the first value of a name. -/
def HeaderMap.get (headers : HeaderMap) (name : String) : Option (List UInt8) :=
  (headers.find? (·.1 = name)).map (·.2)

structure HttpRequest where
  method : HttpMethod
  path : String
  headers : HeaderMap
  body : List UInt8

structure CeremonyFinish where
  ceremonyId : Uuid
  credential : Value
  ceremonyKind : Option CeremonyKind

structure SetupStart where
  setupToken : String
  recovery : Bool

structure RecoveryRequestBody where
  userId : String

structure RecoverySetupBody where
  userId : String

structure ApproveUserBody where
  userId : String
  email : String
  displayName : String

/-- What other crates make of a request. An extractor that refuses it gives the status of its
    answer. -/
class HttpCrates where
  /-- `HeaderValue::to_str` -/
  toStr : List UInt8 → Option String
  /-- `HeaderValue::from_str` -/
  fromStr : String → Option (List UInt8)
  /-- `URL_SAFE_NO_PAD.decode` -/
  urlDecode : String → Option (List UInt8)
  /-- `URL_SAFE_NO_PAD.encode` -/
  urlEncode : List UInt8 → String
  /-- `DateTime<Utc>` as `serde` writes it -/
  dateTimeText : DateTime → String
  /-- the paths of a route of `axum::Router` -/
  matchesPath : (route path : String) → Bool
  /-- `Path<Uuid>` -/
  pathId : HttpRequest → Except ℕ Uuid
  /-- `Json<CeremonyFinish>` -/
  ceremonyFinish : HttpRequest → Except ℕ CeremonyFinish
  /-- `Json<SetupStart>` -/
  setupStart : HttpRequest → Except ℕ SetupStart
  /-- `Json<RecoveryRequestBody>` -/
  recoveryRequestBody : HttpRequest → Except ℕ RecoveryRequestBody
  /-- `Json<RecoverySetupBody>` -/
  recoverySetupBody : HttpRequest → Except ℕ RecoverySetupBody
  /-- `Json<ApproveUserBody>` -/
  approveUserBody : HttpRequest → Except ℕ ApproveUserBody

section Secrets

variable [HttpCrates]

def SecretToken.parse (value : String) : Except AuthError SecretToken :=
  match HttpCrates.urlDecode value with
  | none => .error .invalidToken
  | some bytes =>
      if h : bytes.length = 32 then .ok ⟨⟨bytes.toArray, size_toArray_of_length h⟩⟩
      else .error .invalidToken

def SecretToken.expose (token : SecretToken) : String := HttpCrates.urlEncode token.bytes.toList

end Secrets

/-! ## Replies -/

structure Reply where
  status : ℕ
  body : Option Value
  setCookie : Option (List UInt8)

/-- `Json(body)` -/
def Reply.json (body : Value) : Reply := ⟨200, some body, none⟩

/-- An answer that is a status only. -/
def Reply.ofStatus (status : ℕ) : Reply := ⟨status, none, none⟩

/-- The status of an error, with its canonical reason. -/
def statusOf : AuthError → ℕ × String
  | .invalidInput => (400, "Bad Request")
  | .invalidToken => (400, "Bad Request")
  | .invalidState => (401, "Unauthorized")
  | .unauthenticated => (401, "Unauthorized")
  | .verification => (401, "Unauthorized")
  | .forbidden => (403, "Forbidden")
  | .conflict => (409, "Conflict")
  | .store => (503, "Service Unavailable")

/-- `ApiError::into_response` -/
def Reply.ofError (error : AuthError) : Reply :=
  ⟨(statusOf error).1, some (.object [("error", .string (statusOf error).2)]), none⟩

/-- `Role` as `serde` writes it. -/
def roleText : Role → String
  | .user => "user"
  | .operator => "operator"

/-- `CapabilityDocument` as `serde` writes it. -/
def capabilityDocument (audience : String) (capabilities : List String) : Value :=
  .object [("schema_version", usizeNumber 1), ("audience", .string audience),
    ("capabilities", .array (capabilities.map .string))]

/-- A started ceremony. -/
def ceremonyBody (ceremonyId : Uuid) (publicKey : Value) : Value :=
  .object [("ceremony_id", .string (uuidText ceremonyId)), ("public_key", publicKey)]

/-- An issued setup token. -/
def setupBody [HttpCrates] (token : SecretToken) : Value :=
  .object [("expires_in_seconds", usizeNumber 900),
    ("setup_fragment", .string ("#setup=" ++ token.expose))]

def anonymousBody : Value :=
  .object [("authenticated", .bool false), ("schema_version", usizeNumber 1)]

def RecoveryRequest.toValue [HttpCrates] (recovery : RecoveryRequest) : Value :=
  .object [
    ("approved_at", match recovery.approvedAt with
      | none => .null
      | some approvedAt => .string (HttpCrates.dateTimeText approvedAt)),
    ("id", .string (uuidText recovery.id)),
    ("requested_at", .string (HttpCrates.dateTimeText recovery.requestedAt)),
    ("user_id", .string recovery.userId.value)]

/-! ## Headers -/

namespace Http

/-- `SESSION_COOKIE` -/
def sessionCookie : String := "__Host-rs_session"

/-- `CSRF_HEADER` -/
def csrfHeader : String := "x-csrf-token"

structure AppState where
  config : AuthConfig
  engine : CeremonyEngine
  browserOrigin : String

/-- `str::strip_prefix` -/
def stripPrefix (start text : String) : Option String :=
  if start.toList.isPrefixOf text.toList then
    some (String.ofList (text.toList.drop start.toList.length))
  else none

section Headers

variable [HttpCrates]

def verifyOriginJson (state : AppState) (headers : HeaderMap) : Except AuthError Unit :=
  match (headers.get "origin").bind HttpCrates.toStr with
  | none => .error .forbidden
  | some origin =>
      if origin ≠ state.browserOrigin then .error .forbidden
      else
        let contentType := ((headers.get "content-type").bind HttpCrates.toStr).getD ""
        if contentType ≠ "application/json" then .error .invalidInput else .ok ()

def cookieValue (headers : HeaderMap) (name : String) : Option String := do
  let value ← headers.get "cookie"
  let text ← HttpCrates.toStr value
  let cookies := (text.toList.splitOn ';').map fun cookie => trim (String.ofList cookie)
  cookies.findSome? fun cookie => (stripPrefix name cookie).bind (stripPrefix "=")

def sessionToken (headers : HeaderMap) : Except AuthError SecretToken :=
  match cookieValue headers sessionCookie with
  | none => .error .unauthenticated
  | some value => SecretToken.parse value

/-- The token of the CSRF header. -/
def csrfToken (headers : HeaderMap) : Except AuthError SecretToken :=
  match (headers.get csrfHeader).bind HttpCrates.toStr with
  | none => .error .forbidden
  | some value => SecretToken.parse value

def sessionAndCsrf (headers : HeaderMap) : Except AuthError (SecretToken × SecretToken) := do
  let token ← sessionToken headers
  let csrf ← csrfToken headers
  pure (token, csrf)

end Headers

/-! ## Handlers -/

/-- What a handler reads of the clock, for the check of a session and for its operation, and draws;
    and whether the pool answered. -/
structure Draws where
  checkedAt : DateTime
  now : DateTime
  seed : ℕ
  id : Uuid
  handle : Uuid
  token : SecretToken
  csrf : SecretToken
  ready : Bool

section Handlers

variable [Crates] [HttpCrates] (state : AppState)

/-- The session that an operator's handler requires. -/
def operator (headers : HeaderMap) (csrfRequired : Bool) (now : DateTime) :
    Auth SessionPrincipal := do
  let (token, csrf) ← Fallible.ofExcept <|
    if csrfRequired then (sessionAndCsrf headers).map fun tokens => (tokens.1, some tokens.2)
    else (sessionToken headers).map fun token => (token, none)
  let principal ← AuthService.authenticateSession state.config token csrf now
  Fallible.ensure (principal.user.role = .operator) .forbidden
  pure principal

def optionalSession (headers : HeaderMap) (now : DateTime) : Auth (Option SessionPrincipal) :=
  match cookieValue headers sessionCookie with
  | none => pure none
  | some value => do
      let token ← Fallible.ofExcept (SecretToken.parse value)
      match ← Fallible.attempt (AuthService.authenticateSession state.config token none now) with
      | .ok principal => pure (some principal)
      | .error .unauthenticated => pure none
      | .error error => throw error

def ready (draws : Draws) : Reply :=
  if draws.ready then .json (.object [("status", .string "ready")])
  else ⟨503, some (.object [("status", .string "not_ready")]), none⟩

def publicCapabilities (request : HttpRequest) (draws : Draws) : Auth Reply := do
  match ← optionalSession state request.headers draws.now with
  | some _ =>
      pure (.json (capabilityDocument "user"
        ["session.logout", "profile.read_self", "recovery.request_self"]))
  | none =>
      pure (.json (capabilityDocument "anonymous"
        ["session.discover", "auth.login", "auth.setup", "recovery.request"]))

def sessionDiscovery (request : HttpRequest) (draws : Draws) : Auth Reply :=
  match cookieValue request.headers sessionCookie with
  | none => pure (.json anonymousBody)
  | some value => do
      let token ← Fallible.ofExcept (SecretToken.parse value)
      match ← Fallible.attempt
          (AuthService.issueSessionCsrf state.config token draws.now draws.csrf) with
      | .ok (principal, csrf) =>
          pure (.json (.object [
            ("absolute_expires_at",
              .string (HttpCrates.dateTimeText principal.absoluteExpiresAt)),
            ("authenticated", .bool true),
            ("csrf_token", .string csrf.expose),
            ("principal", .object [
              ("display_name", .string principal.user.displayName),
              ("id", .string principal.user.id.value),
              ("role", .string (roleText principal.user.role))]),
            ("schema_version", usizeNumber 1)]))
      | .error .unauthenticated => pure (.json anonymousBody)
      | .error error => throw error

def loginStart (request : HttpRequest) (draws : Draws) : Auth Reply := do
  Fallible.ofExcept (verifyOriginJson state request.headers)
  let (ceremonyId, publicKey) ← AuthService.startAuthentication state.config state.engine draws.now
    draws.seed draws.id
  pure (.json (ceremonyBody ceremonyId publicKey))

def loginFinish (request : HttpRequest) (body : CeremonyFinish) (draws : Draws) : Auth Reply := do
  Fallible.ofExcept (verifyOriginJson state request.headers)
  let (grant, user) ← AuthService.finishAuthentication state.config state.engine body.ceremonyId
    body.credential draws.now draws.token draws.csrf draws.id
  let cookie ← Fallible.okOr .store (HttpCrates.fromStr
    (sessionCookie ++ "=" ++ grant.token.expose ++ "; Path=/; Secure; HttpOnly; SameSite=Strict"))
  pure ⟨200, some (.object [
    ("absolute_expires_at", .string (HttpCrates.dateTimeText grant.record.absoluteExpiresAt)),
    ("authenticated", .bool true),
    ("csrf_token", .string grant.csrf.expose),
    ("role", .string (roleText user.role)),
    ("schema_version", usizeNumber 1)]), some cookie⟩

def logout (request : HttpRequest) (draws : Draws) : Auth Reply := do
  Fallible.ofExcept (verifyOriginJson state request.headers)
  let (token, csrf) ← Fallible.ofExcept (sessionAndCsrf request.headers)
  let _ ← AuthService.authenticateSession state.config token (some csrf) draws.checkedAt
  AuthService.logout token
  pure ⟨204, none, some (asBytes
    "__Host-rs_session=; Path=/; Secure; HttpOnly; SameSite=Strict; Max-Age=0")⟩

def setupStart (request : HttpRequest) (body : SetupStart) (draws : Draws) : Auth Reply := do
  Fallible.ofExcept (verifyOriginJson state request.headers)
  let token ← Fallible.ofExcept (SecretToken.parse body.setupToken)
  let purpose := if body.recovery then CapabilityPurpose.recoverySetup else .setup
  let (ceremonyId, publicKey) ← AuthService.startSetupRegistration state.config state.engine token
    purpose draws.now draws.seed draws.id
  pure (.json (ceremonyBody ceremonyId publicKey))

def setupFinish (request : HttpRequest) (body : CeremonyFinish) (draws : Draws) : Auth Reply := do
  Fallible.ofExcept (verifyOriginJson state request.headers)
  AuthService.finishRegistration state.engine body.ceremonyId .registration body.credential
    draws.now
  pure (.ofStatus 204)

/-- `UserId::new` on a text of the request. -/
def userIdOf (text : String) : Except AuthError UserId :=
  (OpaqueId.new text).mapError fun _ => .invalidInput

def recoveryRequest (request : HttpRequest) (body : RecoveryRequestBody) (draws : Draws) :
    Auth Reply := do
  Fallible.ofExcept (verifyOriginJson state request.headers)
  let userId ← Fallible.ofExcept (userIdOf body.userId)
  let recovery ← AuthService.requestRecovery userId draws.now
  pure ⟨202, some (.object [("request_id", .string (uuidText recovery.id)),
    ("status", .string "pending")]), none⟩

def operatorBootstrapStart (request : HttpRequest) (draws : Draws) : Auth Reply := do
  Fallible.ofExcept (verifyOriginJson state request.headers)
  let (ceremonyId, publicKey, ceremonyKind) ← AuthService.startOperatorBootstrap state.config
    state.engine draws.now draws.seed draws.id
  pure (.json (.object [("ceremony_id", .string (uuidText ceremonyId)),
    ("ceremony_kind", .string (ceremonyKindText ceremonyKind)), ("public_key", publicKey)]))

def operatorBootstrapFinish (request : HttpRequest) (body : CeremonyFinish) (draws : Draws) :
    Auth Reply := do
  Fallible.ofExcept (verifyOriginJson state request.headers)
  let kind := body.ceremonyKind.getD .operatorBootstrap
  Fallible.ensure (kind = .operatorBootstrap ∨ kind = .operatorRecovery) .invalidInput
  AuthService.finishRegistration state.engine body.ceremonyId kind body.credential draws.now
  pure (.ofStatus 204)

def pendingRecoveries (request : HttpRequest) (draws : Draws) : Auth Reply := do
  let _ ← operator state request.headers false draws.checkedAt
  let recoveries ← AuthService.pendingRecoveries
  pure (.json (.object [("recoveries", .array (recoveries.map (·.toValue))),
    ("schema_version", usizeNumber 1)]))

def approveRecovery (id : Uuid) (request : HttpRequest) (draws : Draws) : Auth Reply := do
  Fallible.ofExcept (verifyOriginJson state request.headers)
  let principal ← operator state request.headers true draws.checkedAt
  AuthService.approveRecovery id principal.user.id draws.now
  pure (.ofStatus 204)

def issueRecoverySetup (id : Uuid) (request : HttpRequest) (body : RecoverySetupBody)
    (draws : Draws) : Auth Reply := do
  Fallible.ofExcept (verifyOriginJson state request.headers)
  let principal ← operator state request.headers true draws.checkedAt
  let userId ← Fallible.ofExcept (userIdOf body.userId)
  let token ← AuthService.issueRecoverySetup state.config id principal.user.id userId draws.now
    draws.token draws.id
  pure (.json (setupBody token))

def approveUser (request : HttpRequest) (body : ApproveUserBody) (draws : Draws) : Auth Reply := do
  Fallible.ofExcept (verifyOriginJson state request.headers)
  let principal ← operator state request.headers true draws.checkedAt
  let userId ← Fallible.ofExcept (userIdOf body.userId)
  let token ← AuthService.approveUserAndIssueSetup state.config principal.user.id userId body.email
    body.displayName draws.now draws.token draws.handle draws.id
  pure (.json (setupBody token))

def operatorCapabilities (request : HttpRequest) (draws : Draws) : Auth Reply := do
  let _ ← operator state request.headers false draws.checkedAt
  pure (.json (capabilityDocument "operator"
    ["platform.read", "user.approve", "recovery.list", "recovery.approve",
      "recovery.setup_issue"]))

end Handlers

/-! ## Routers -/

inductive Endpoint where
  | live
  | ready
  | publicCapabilities
  | sessionDiscovery
  | loginStart
  | loginFinish
  | logout
  | setupStart
  | setupFinish
  | recoveryRequest
  | operatorBootstrapStart
  | operatorBootstrapFinish
  | pendingRecoveries
  | approveRecovery
  | issueRecoverySetup
  | approveUser
  | operatorCapabilities
  deriving DecidableEq

/-- `.route(path, get(handler))`, or `post(handler)`. -/
structure Route where
  path : String
  method : HttpMethod
  endpoint : Endpoint

def publicRouter : List Route :=
  [⟨"/health/live", .get, .live⟩,
    ⟨"/health/ready", .get, .ready⟩,
    ⟨"/v1/capabilities", .get, .publicCapabilities⟩,
    ⟨"/v1/session", .get, .sessionDiscovery⟩,
    ⟨"/v1/auth/login/start", .post, .loginStart⟩,
    ⟨"/v1/auth/login/finish", .post, .loginFinish⟩,
    ⟨"/v1/auth/logout", .post, .logout⟩,
    ⟨"/v1/auth/setup/start", .post, .setupStart⟩,
    ⟨"/v1/auth/setup/finish", .post, .setupFinish⟩,
    ⟨"/v1/recovery/request", .post, .recoveryRequest⟩]

def privateRouter : List Route :=
  [⟨"/health/live", .get, .live⟩,
    ⟨"/health/ready", .get, .ready⟩,
    ⟨"/v1/operator/bootstrap/start", .post, .operatorBootstrapStart⟩,
    ⟨"/v1/operator/bootstrap/finish", .post, .operatorBootstrapFinish⟩,
    ⟨"/v1/operator/recoveries", .get, .pendingRecoveries⟩,
    ⟨"/v1/operator/recoveries/{id}/approve", .post, .approveRecovery⟩,
    ⟨"/v1/operator/recoveries/{id}/setup", .post, .issueRecoverySetup⟩,
    ⟨"/v1/operator/users", .post, .approveUser⟩,
    ⟨"/v1/operator/capabilities", .get, .operatorCapabilities⟩]

section Routers

variable [Crates] [HttpCrates] (state : AppState) (request : HttpRequest) (draws : Draws)

/-- Go on with what an extractor gives, or answer with the status that it refuses with. -/
def extract {T : Type} (extracted : Except ℕ T) (handler : T → Auth Reply) : Auth Reply :=
  match extracted with
  | .ok value => handler value
  | .error status => pure (.ofStatus status)

/-- The handler of an endpoint, after its extractors. -/
def handle : Endpoint → Auth Reply
  | .live => pure (.json (.object [("status", .string "ok")]))
  | .ready => pure (ready draws)
  | .publicCapabilities => publicCapabilities state request draws
  | .sessionDiscovery => sessionDiscovery state request draws
  | .loginStart => loginStart state request draws
  | .loginFinish =>
      extract (HttpCrates.ceremonyFinish request) fun body => loginFinish state request body draws
  | .logout => logout state request draws
  | .setupStart =>
      extract (HttpCrates.setupStart request) fun body => setupStart state request body draws
  | .setupFinish =>
      extract (HttpCrates.ceremonyFinish request) fun body => setupFinish state request body draws
  | .recoveryRequest =>
      extract (HttpCrates.recoveryRequestBody request) fun body =>
        recoveryRequest state request body draws
  | .operatorBootstrapStart => operatorBootstrapStart state request draws
  | .operatorBootstrapFinish =>
      extract (HttpCrates.ceremonyFinish request) fun body =>
        operatorBootstrapFinish state request body draws
  | .pendingRecoveries => pendingRecoveries state request draws
  | .approveRecovery =>
      extract (HttpCrates.pathId request) fun id => approveRecovery state id request draws
  | .issueRecoverySetup =>
      extract (HttpCrates.pathId request) fun id =>
        extract (HttpCrates.recoverySetupBody request) fun body =>
          issueRecoverySetup state id request body draws
  | .approveUser =>
      extract (HttpCrates.approveUserBody request) fun body => approveUser state request body draws
  | .operatorCapabilities => operatorCapabilities state request draws

/-- `get(handler)` answers `HEAD` as well. -/
def Route.allows (route : Route) (method : HttpMethod) : Bool :=
  method = route.method || (route.method = .get && method = .head)

/-- The endpoint that a router hands a request to. `CorsLayer` answers `OPTIONS` itself. -/
def endpointOf (router : List Route) : Option Endpoint :=
  if request.method = .options then none
  else
    match router.find? fun route => HttpCrates.matchesPath route.path request.path with
    | none => none
    | some route => if route.allows request.method then some route.endpoint else none

/-- The answer to a request that no handler gets. -/
def refusal (router : List Route) : Reply :=
  if request.method = .options then .ofStatus 200
  else
    match router.find? fun route => HttpCrates.matchesPath route.path request.path with
    | none => .ofStatus 404
    | some _ => .ofStatus 405

/-- What a router does with a request, as a client of the store. -/
def serve (router : List Route) : Program AuthCall AuthCall.Answer Reply :=
  match endpointOf request router with
  | none => .done (refusal request router)
  | some endpoint => do
      match ← (handle state request draws endpoint).run with
      | .ok reply => pure reply
      | .error error => pure (.ofError error)

end Routers

end Http

end RsConsole
