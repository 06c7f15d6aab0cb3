import RsConsole.Auth.Types
import RsConsole.Library.JsonPointer

set_option autoImplicit false

/-! # The WebAuthn engine

`server/src/webauthn.rs`: the `CeremonyEngine` that is made of `webauthn-rs`. What the crates
`webauthn-rs`, `url` and `serde_json` provide is a parameter (`WebauthnCrates`); a function of theirs
that returns a `Result` gives `none` for an error, since the engine looks at no error. The challenge
that a start draws is fixed by its `seed`. -/

namespace RsConsole

open Library

/-- What `webauthn-rs`, `url` and `serde_json` provide. -/
class WebauthnCrates where
  /-- `url::Url` -/
  Url : Type
  parseUrl : String → Option Url
  path : Url → String
  query : Url → Option String
  fragment : Url → Option String
  WebauthnBuilder : Type
  Webauthn : Type
  /-- `WebauthnBuilder::new` -/
  newBuilder : (rpId : String) → (origin : Url) → Option WebauthnBuilder
  rpName : WebauthnBuilder → String → WebauthnBuilder
  build : WebauthnBuilder → Option Webauthn
  Passkey : Type
  credId : Passkey → List UInt8
  passkeyToValue : Passkey → Option Value
  passkeyFromValue : Value → Option Passkey
  CreationChallenge : Type
  creationToValue : CreationChallenge → Option Value
  PasskeyRegistration : Type
  registrationToValue : PasskeyRegistration → Option Value
  registrationFromValue : Value → Option PasskeyRegistration
  startPasskeyRegistration : Webauthn → (seed : ℕ) → (handle : Uuid) → (email displayName : String) →
    (exclude : Option (List (List UInt8))) → Option (CreationChallenge × PasskeyRegistration)
  RegisterCredential : Type
  registerCredentialFromValue : Value → Option RegisterCredential
  finishPasskeyRegistration : Webauthn → RegisterCredential → PasskeyRegistration → Option Passkey
  RequestChallenge : Type
  requestToValue : RequestChallenge → Option Value
  DiscoverableAuthentication : Type
  authenticationToValue : DiscoverableAuthentication → Option Value
  authenticationFromValue : Value → Option DiscoverableAuthentication
  startDiscoverableAuthentication : Webauthn → (seed : ℕ) →
    Option (RequestChallenge × DiscoverableAuthentication)
  PublicKeyCredential : Type
  publicKeyCredentialFromValue : Value → Option PublicKeyCredential
  identifyDiscoverableAuthentication : Webauthn → PublicKeyCredential → Option (Uuid × List UInt8)
  DiscoverableKey : Type
  /-- `DiscoverableKey::from` -/
  discoverableKey : Passkey → DiscoverableKey
  AuthenticationResult : Type
  resultCredId : AuthenticationResult → List UInt8
  finishDiscoverableAuthentication : Webauthn → PublicKeyCredential → DiscoverableAuthentication →
    List DiscoverableKey → Option AuthenticationResult
  /-- `Passkey::update_credential` -/
  updateCredential : Passkey → AuthenticationResult → Option Passkey

open WebauthnCrates

/-- The value of an option, or the given error: Rust's `ok_or(e)?`. -/
def orError {α : Type} (e : AuthError) : Option α → Except AuthError α
  | some a => .ok a
  | none => .error e

def productionRpId : String := "ricardosaad.com"

def productionOrigin : String := "https://ricardosaad.com"

namespace WebauthnEngine

variable [WebauthnCrates]

/-- `WebauthnEngine::new` -/
def new (rpId origin : String) (production : Bool) : Except AuthError Webauthn := do
  if production = true ∧ (rpId ≠ productionRpId ∨ origin ≠ productionOrigin) then
    throw .invalidInput
  let url ← orError .invalidInput (parseUrl origin)
  if path url ≠ "/" ∨ query url ≠ none ∨ fragment url ≠ none then throw .invalidInput
  let builder ← orError .invalidInput (newBuilder rpId url)
  orError .invalidInput (build (rpName builder "RS Platform"))

/-! ## Registration -/

def storedPasskey (credential : StoredCredential) : Except AuthError Passkey :=
  orError .store (passkeyFromValue credential.publicData)

/-- Where the challenge says what kind of credential it asks for. -/
def selectionPath : List String := ["publicKey", "authenticatorSelection"]

/-- Require a discoverable credential. -/
def requireResidentKey : Value → Option Value
  | .object members => some (.object (Json.insertMember "requireResidentKey" (.bool true)
      (Json.insertMember "residentKey" (.string "required") members)))
  | _ => none

def startRegistration (webauthn : Webauthn) (seed : ℕ) (user : User)
    (credentials : List StoredCredential) : Except AuthError (Value × Value) := do
  let passkeys ← credentials.mapM storedPasskey
  let exclude := passkeys.map credId
  let (challenge, state) ← orError .verification <|
    startPasskeyRegistration webauthn seed user.webauthnHandle user.email user.displayName
      (if exclude = [] then none else some exclude)
  let challenge ← orError .store (creationToValue challenge)
  let challenge ← orError .store (challenge.modify requireResidentKey selectionPath)
  let state ← orError .store (registrationToValue state)
  pure (challenge, state)

def finishRegistration (webauthn : Webauthn) (response state : Value) :
    Except AuthError VerifiedCredential := do
  let response ← orError .invalidInput (registerCredentialFromValue response)
  let state ← orError .invalidState (registrationFromValue state)
  let passkey ← orError .verification (finishPasskeyRegistration webauthn response state)
  let publicData ← orError .store (passkeyToValue passkey)
  pure { credentialId := credId passkey, publicData }

/-! ## Authentication -/

def startAuthentication (webauthn : Webauthn) (seed : ℕ) : Except AuthError (Value × Value) := do
  let (challenge, state) ← orError .verification (startDiscoverableAuthentication webauthn seed)
  let challenge ← orError .store (requestToValue challenge)
  let state ← orError .store (authenticationToValue state)
  pure (challenge, state)

def authenticationUserHandle (webauthn : Webauthn) (response : Value) : Except AuthError Uuid := do
  let response ← orError .invalidInput (publicKeyCredentialFromValue response)
  let identified ← orError .verification (identifyDiscoverableAuthentication webauthn response)
  pure identified.1

def finishAuthentication (webauthn : Webauthn) (response state : Value)
    (credentials : List StoredCredential) : Except AuthError AuthenticationVerification := do
  let response ← orError .invalidInput (publicKeyCredentialFromValue response)
  let state ← orError .invalidState (authenticationFromValue state)
  let passkeys ← credentials.mapM storedPasskey
  let result ← orError .verification <|
    finishDiscoverableAuthentication webauthn response state (passkeys.map discoverableKey)
  let credentialId := resultCredId result
  let passkey ← orError .verification (passkeys.find? fun passkey => credId passkey = credentialId)
  let passkey ← orError .verification (updateCredential passkey result)
  let updatedPublicData ← orError .store (passkeyToValue passkey)
  pure { credentialId, updatedPublicData }

end WebauthnEngine

/-- `impl CeremonyEngine for WebauthnEngine` -/
def webauthnEngine [WebauthnCrates] (webauthn : Webauthn) : CeremonyEngine where
  startRegistration := WebauthnEngine.startRegistration webauthn
  finishRegistration := WebauthnEngine.finishRegistration webauthn
  startAuthentication := WebauthnEngine.startAuthentication webauthn
  authenticationUserHandle := WebauthnEngine.authenticationUserHandle webauthn
  finishAuthentication := WebauthnEngine.finishAuthentication webauthn

end RsConsole
