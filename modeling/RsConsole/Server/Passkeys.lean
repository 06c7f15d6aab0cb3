import RsConsole.Server.Unavailable
import RsConsole.Server.Webauthn

set_option autoImplicit false

/-! # Passkeys and challenges in the database

Between the start and the finish of a ceremony its WebAuthn state lies in `auth_ceremonies`, and the
passkeys lie in `passkey_credentials`, both as JSON. The engine decodes what it is given and does not
ask where it comes from. In a run it is always what the engine wrote: a response is checked against
the challenge that was drawn for the same ceremony, and every stored passkey decodes to the one
whose id stands beside it. -/

namespace RsConsole

open Library Library.Table Database PgAuthStore WebauthnCrates

variable {τ : Type}

/-! ## The engine's functions -/

section Engine

variable [WebauthnCrates]

namespace WebauthnEngine

variable {webauthn : Webauthn} {seed : ℕ} {response state challenge : Value}
  {credentials : List StoredCredential}

end WebauthnEngine

end Engine

/-! ## What operations do with the engine -/

section Asks

variable [Crates] {config : AuthConfig} {engine : CeremonyEngine} {op : Operation}
  {past : AuthExchanges}

end Asks

/-! ## Reading rows -/

theorem StoredCredential.columns_of_tryFrom {row : PasskeyCredential} {credential : StoredCredential}
    (h : StoredCredential.tryFrom row = .ok credential) :
    credential.credentialId = row.credentialId ∧ credential.publicData = row.publicData := by
  obtain ⟨userId, -, h⟩ := except_bind_ok h
  cases h
  exact ⟨rfl, rfl⟩

namespace History

variable [DecidableEq τ] [Crates] {config : AuthConfig} {engine : CeremonyEngine}
  {ops : τ → Operation} {tr : List (AuthEvent τ)} {db : Database} {e e₀ : AuthEvent τ}

/-- An operation asked the call of an event, having been answered by earlier events. -/
theorem asked (h : History config engine ops tr db) (he : e ∈ tr) {c : AuthCall} {a : c.Reply}
    (hc : Succeeded e c a) :
    ∃ past, (ops e.tid).Asks config engine past c ∧ ∀ c a, Answered past c a →
      ∃ e₀, Precedes tr e₀ e ∧ e₀.tid = e.tid ∧ Succeeded e₀ c a := by
  obtain ⟨pool, run⟩ := h
  obtain ⟨past, hasks, hback, -⟩ := run.asks_of_mem he
  have hcall : e.call = c := congrArg Exchange.call hc
  exact ⟨past, hcall ▸ hasks, fun c a ha => hback _ ha⟩

end History

/-! ## Stored passkeys -/

section Stored

variable [WebauthnCrates]

/-- The row holds a passkey, with its id beside it. -/
def Stores (row : PasskeyCredential) : Prop :=
  ∃ passkey, passkeyFromValue row.publicData = some passkey ∧ credId passkey = row.credentialId

def StoresPasskeys (db : Database) : Prop := ∀ row ∈ db.passkeyCredentials, Stores row

/-- Credentials that were read from stored passkeys decode to the passkeys of the rows. -/
theorem StoresPasskeys.decode {db : Database} (h : StoresPasskeys db) {rows : List PasskeyCredential}
    {credentials : List StoredCredential} (hrows : ∀ row ∈ rows, row ∈ db.passkeyCredentials)
    (hread : rows.mapM StoredCredential.tryFrom = .ok credentials) :
    ∃ passkeys, credentials.mapM WebauthnEngine.storedPasskey = .ok passkeys ∧
      passkeys.map credId = rows.map (·.credentialId) := by
  induction rows generalizing credentials with
  | nil =>
      cases hread
      exact ⟨[], rfl, rfl⟩
  | cons row rows ih =>
      rw [List.mapM_cons] at hread
      obtain ⟨credential, hcredential, hread⟩ := except_bind_ok hread
      obtain ⟨rest, hrest, hread⟩ := except_bind_ok hread
      cases hread
      obtain ⟨passkeys, hpasskeys, hids⟩ :=
        ih (fun row' hrow' => hrows row' (List.mem_cons_of_mem row hrow')) hrest
      obtain ⟨-, hdata⟩ := StoredCredential.columns_of_tryFrom hcredential
      obtain ⟨passkey, hpasskey, hid⟩ := h row (hrows row List.mem_cons_self)
      refine ⟨passkey :: passkeys, ?_, ?_⟩
      · rw [List.mapM_cons, WebauthnEngine.storedPasskey, hdata, hpasskey, hpasskeys]
        rfl
      · rw [List.map_cons, List.map_cons, hid, hids]

namespace History

variable [DecidableEq τ] [Crates] {config : AuthConfig} {webauthn : Webauthn}
  {ops : τ → Operation} {tr : List (AuthEvent τ)} {db : Database} {e e₀ : AuthEvent τ}

end History

end Stored

/-! ## Responses and challenges -/

section Bound

variable [WebauthnCrates] [Crates]

namespace History

variable [DecidableEq τ] {config : AuthConfig} {webauthn : Webauthn}
  {ops : τ → Operation} {tr : List (AuthEvent τ)} {db : Database} {e e₀ : AuthEvent τ}

end History

end Bound

/-! ## Failures of the store -/

section Store

variable [WebauthnCrates]

namespace WebauthnEngine

variable {webauthn : Webauthn} {seed : ℕ} {response state : Value}
  {credentials : List StoredCredential}

end WebauthnEngine

section Blames

open Fallible

variable [Crates] {config : AuthConfig} {webauthn : Webauthn}

end Blames

end Store

/-! ## The challenge of a setup -/

section Challenge

variable [WebauthnCrates] [Crates]

end Challenge

section Sample

attribute [local instance] Reference.crates

/-- Crates whose challenge is its seed, whose authenticators answer a challenge with itself, and whose
    passkeys are the answers that made them. -/
abbrev sampleWebauthn : WebauthnCrates where
  Url := String
  parseUrl := some
  path _ := "/"
  query _ := none
  fragment _ := none
  WebauthnBuilder := Unit
  Webauthn := Unit
  newBuilder _ _ := some ()
  rpName builder _ := builder
  build := some
  Passkey := String
  credId passkey := asBytes passkey
  passkeyToValue passkey := some (.string passkey)
  passkeyFromValue
    | .string passkey => some passkey
    | _ => none
  CreationChallenge := String
  creationToValue challenge := some (.object [("publicKey", .object
    [("authenticatorSelection", .object [("userVerification", .string "required")]),
      ("challenge", .string challenge)])])
  PasskeyRegistration := String
  registrationToValue state := some (.string state)
  registrationFromValue
    | .string state => some state
    | _ => none
  startPasskeyRegistration _ seed _ _ _ _ := some (toString seed, toString seed)
  RegisterCredential := String
  registerCredentialFromValue
    | .string answer => some answer
    | _ => none
  finishPasskeyRegistration _ answer state := if answer = state then some answer else none
  RequestChallenge := String
  requestToValue challenge := some (.string challenge)
  DiscoverableAuthentication := String
  authenticationToValue state := some (.string state)
  authenticationFromValue
    | .string state => some state
    | _ => none
  startDiscoverableAuthentication _ seed := some (toString seed, toString seed)
  PublicKeyCredential := String
  publicKeyCredentialFromValue
    | .string answer => some answer
    | _ => none
  identifyDiscoverableAuthentication _ _ := some (1, [])
  DiscoverableKey := String
  discoverableKey passkey := passkey
  AuthenticationResult := String
  resultCredId result := asBytes result
  finishDiscoverableAuthentication _ answer state keys :=
    if answer = state then keys.head? else none
  updateCredential passkey _ := some passkey

attribute [local instance] sampleWebauthn

end Sample
end RsConsole
