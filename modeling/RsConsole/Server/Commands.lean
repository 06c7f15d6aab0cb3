import RsConsole.Server.Http
import RsConsole.Server.Webauthn

set_option autoImplicit false

/-! # The command line

`server/src/main.rs`: `serve` makes the state that the routers share, and the three commands of the
operator's machine each run one operation on the store, behind their own gates. What a command finds
outside the tables is its `Host`; logging and the shutdown signal are left out. -/

namespace RsConsole

open Library

/-- `std::net::SocketAddr` -/
inductive SocketAddr where
  | v4 (ip : BitVec 32) (port : BitVec 16)
  | v6 (ip : BitVec 128) (port : BitVec 16) (flowinfo scopeId : BitVec 32)
  deriving DecidableEq

structure ServeArgs where
  publicListen : SocketAddr
  privateListen : SocketAddr
  rpId : String
  browserOrigin : String
  environment : String
  databaseMaxConnections : ℕ

structure BreakGlassArgs where
  enabled : Bool
  operatorUserId : String
  revokeCredential : Uuid
  reason : String
  windowMinutes : ℤ
  confirm : String

structure SeedOperatorArgs where
  enabled : Bool
  operatorUserId : String
  email : String
  displayName : String
  confirm : String

structure RotateAuthEpochArgs where
  enabled : Bool
  reason : String
  confirm : String

inductive Command where
  | serve (args : ServeArgs)
  | breakGlass (args : BreakGlassArgs)
  | seedOperator (args : SeedOperatorArgs)
  | rotateAuthEpoch (args : RotateAuthEpochArgs)

structure Cli where
  databaseUrlFile : String
  command : Command

/-- What `main` fails with: a text (of another crate's error too), or an error of the service. -/
inductive CommandError where
  | text (message : String)
  | auth (error : AuthError)

/-- What a command finds when it runs, and draws. An error of another crate is given by its text. -/
structure Host where
  /-- `std::fs::read_to_string` -/
  readToString : String → Except String String
  /-- `PgAuthStore::connect` -/
  connect : (url : String) → (maxConnections : ℕ) → Except String Unit
  /-- `PgAuthStore::migrate` -/
  migrate : Except String Unit
  /-- `TcpListener::bind` -/
  bind : SocketAddr → Except String Unit
  now : DateTime
  token : SecretToken
  id : Uuid
  handle : Uuid

/-- Code of a command: a program over the store's calls that stops at the first error. -/
abbrev CommandCode (α : Type) : Type := ExceptT CommandError (Program AuthCall AuthCall.Answer) α

/-- `?` on a result of the service or the store. -/
def orExit {α : Type} (x : Auth α) : CommandCode α :=
  ExceptT.mk (x.run.bind fun r => .done (r.mapError .auth))

namespace Cli

def operatorId (text : String) : Except CommandError UserId :=
  (OpaqueId.new text).mapError fun _ => .text "invalid operator user ID"

/-- The capability of a registration window. -/
def recoveryCapability (userId : UserId) (windowMinutes : ℤ) (host : Host) [Crates] : Capability where
  id := host.id
  userId
  purpose := .operatorRecovery
  tokenHash := host.token.hash
  expiresAt := host.now + minutes windowMinutes

section Commands

variable [Crates] (url : String)

def breakGlass (args : BreakGlassArgs) (host : Host) : CommandCode Unit := do
  Fallible.ensure (args.enabled = true ∧ args.confirm = "INVALIDATE OPERATOR AUTH")
    (.text "break-glass requires RS_BREAK_GLASS_ENABLED=true and exact confirmation")
  Fallible.ensure (¬ (trim args.reason).utf8ByteSize < 12)
    (.text "break-glass reason must contain at least 12 characters")
  Fallible.ensure (1 ≤ args.windowMinutes ∧ args.windowMinutes ≤ 15)
    (.text "registration window must be between 1 and 15 minutes")
  let operatorUserId ← Fallible.ofExcept (operatorId args.operatorUserId)
  Fallible.ofExcept ((host.connect url 2).mapError .text)
  orExit (ask (.breakGlass args.revokeCredential
    (recoveryCapability operatorUserId args.windowMinutes host) host.now (trim args.reason)))

variable [WebauthnCrates]

omit [Crates] in
def seedOperator (args : SeedOperatorArgs) (host : Host) : CommandCode Unit := do
  Fallible.ensure (args.enabled = true ∧ args.confirm = "SEED FIRST OPERATOR")
    (.text "seed-operator requires RS_SEED_OPERATOR_ENABLED=true and exact confirmation")
  let operatorUserId ← Fallible.ofExcept (operatorId args.operatorUserId)
  Fallible.ofExcept ((host.connect url 2).mapError .text)
  Fallible.ofExcept (host.migrate.mapError .text)
  let _ ← Fallible.ofExcept
    ((WebauthnEngine.new productionRpId productionOrigin true).mapError .auth)
  orExit (AuthService.seedOperator operatorUserId args.email args.displayName host.now host.handle)

omit [Crates] in
def rotateAuthEpoch (args : RotateAuthEpochArgs) (host : Host) : CommandCode ℕ := do
  Fallible.ensure (args.enabled = true ∧ args.confirm = "ROTATE ALL AUTH EPOCHS")
    (.text "rotate-auth-epoch requires RS_ROTATE_AUTH_EPOCH_ENABLED=true and exact confirmation")
  Fallible.ofExcept ((host.connect url 2).mapError .text)
  let _ ← Fallible.ofExcept
    ((WebauthnEngine.new productionRpId productionOrigin true).mapError .auth)
  orExit (AuthService.rotateAllAuthEpochs host.now args.reason)

def isProduction (environment : String) : Except CommandError Bool :=
  if environment = "production" then .ok true
  else if environment = "development" then .ok false
  else .error (.text "RS_ENVIRONMENT must be production or development")

omit [Crates] in
/-- The state that both routers share, once `serve` listens. -/
def serve (args : ServeArgs) (host : Host) : Except CommandError Http.AppState := do
  let production ← isProduction args.environment
  if args.publicListen = args.privateListen then
    throw (.text "public and private listeners must be distinct")
  (host.connect url args.databaseMaxConnections).mapError .text
  host.migrate.mapError .text
  let webauthn ← (WebauthnEngine.new args.rpId args.browserOrigin production).mapError .auth
  (host.bind args.publicListen).mapError .text
  (host.bind args.privateListen).mapError .text
  pure { config := .default, engine := webauthnEngine webauthn, browserOrigin := args.browserOrigin }

omit [Crates] [WebauthnCrates] in
/-- The URL in the file. -/
def databaseUrl (cli : Cli) (host : Host) : Except CommandError String := do
  let text ← (host.readToString cli.databaseUrlFile).mapError fun error =>
    .text ("failed to read database URL file: " ++ error)
  if trim text = "" then throw (.text "database URL file is empty")
  pure (trim text)

/-- `main`: it gives the shared state when it listens, and nothing when a command is done. -/
def main (cli : Cli) (host : Host) : CommandCode (Option Http.AppState) := do
  let url ← Fallible.ofExcept (databaseUrl cli host)
  match cli.command with
  | .serve args => do
      let state ← Fallible.ofExcept (serve url args host)
      pure (some state)
  | .breakGlass args => do
      breakGlass url args host
      pure none
  | .seedOperator args => do
      seedOperator url args host
      pure none
  | .rotateAuthEpoch args => do
      let _ ← rotateAuthEpoch url args host
      pure none

end Commands

end Cli

end RsConsole
