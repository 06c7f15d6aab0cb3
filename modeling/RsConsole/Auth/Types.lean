import RsConsole.Library.Program
import RsConsole.Policy.Vpn

set_option autoImplicit false

/-! # Authentication: data types, engine and store interface

The first part of `auth/src/lib.rs`: the values human authentication is about, the `CeremonyEngine`
that verifies WebAuthn messages (code of another crate: a parameter), and the methods of
`AuthStore`. Times are counted in microseconds, the precision that the database keeps. What the
code draws at random is an argument of the model, so that a statement about all arguments is a
statement about all draws. -/

namespace RsConsole

open Library

/-- `uuid::Uuid` -/
abbrev Uuid := BitVec 128

/-- `chrono::DateTime<Utc>`, in microseconds since 1970. -/
abbrev DateTime := ℤ

/-- `chrono::Duration`, in microseconds. -/
abbrev Duration := ℤ

/-- `AuthError` -/
inductive AuthError where
  | invalidInput
  | invalidToken
  | invalidState
  | unauthenticated
  | forbidden
  | verification
  | store
  | conflict
  deriving DecidableEq, Repr

/-! ## Secrets -/

theorem size_toArray_of_length {bytes : List UInt8} (h : bytes.length = 32) :
    bytes.toArray.size = 32 := by
  rw [List.size_toArray, h]

structure SecretHash where
  bytes : Vector UInt8 32
  deriving DecidableEq

namespace SecretHash

def fromSlice (value : List UInt8) : Except AuthError SecretHash :=
  if h : value.length = 32 then .ok ⟨⟨value.toArray, size_toArray_of_length h⟩⟩ else .error .store

def asBytes (hash : SecretHash) : List UInt8 := hash.bytes.toList

theorem asBytes_injective : Function.Injective asBytes := by
  rintro ⟨a⟩ ⟨b⟩ h
  exact congrArg SecretHash.mk (Vector.toList_inj.1 h)

@[simp] theorem length_asBytes (hash : SecretHash) : hash.asBytes.length = 32 :=
  Vector.length_toList

theorem fromSlice_ok {value : List UInt8} {hash : SecretHash} (h : fromSlice value = .ok hash) :
    value = hash.asBytes := by
  unfold fromSlice at h
  split at h
  · cases h
    rfl
  · cases h

end SecretHash

structure SecretToken where
  bytes : Vector UInt8 32
  deriving DecidableEq

def SecretToken.hash [Crates] (token : SecretToken) : SecretHash :=
  ⟨Crates.sha256 token.bytes.toList⟩

/-! ## Users, credentials, ceremonies, capabilities, sessions -/

/-- `Role` -/
inductive Role where
  | user
  | operator
  deriving DecidableEq, Repr

structure User where
  id : UserId
  webauthnHandle : Uuid
  email : String
  displayName : String
  role : Role
  enabled : Bool
  authEpoch : ℤ
  deriving DecidableEq

structure StoredCredential where
  id : Uuid
  userId : UserId
  credentialId : List UInt8
  publicData : Value
  revokedAt : Option DateTime

structure VerifiedCredential where
  credentialId : List UInt8
  publicData : Value

structure AuthenticationVerification where
  credentialId : List UInt8
  updatedPublicData : Value

/-- `CeremonyKind` -/
inductive CeremonyKind where
  | registration
  | authentication
  | operatorBootstrap
  | operatorRecovery
  deriving DecidableEq, Repr

structure Ceremony where
  id : Uuid
  kind : CeremonyKind
  userId : Option UserId
  capabilityHash : Option SecretHash
  state : Value
  expiresAt : DateTime

/-- `CapabilityPurpose` -/
inductive CapabilityPurpose where
  | setup
  | recoverySetup
  | operatorRecovery
  deriving DecidableEq, Repr

structure Capability where
  id : Uuid
  userId : UserId
  purpose : CapabilityPurpose
  tokenHash : SecretHash
  expiresAt : DateTime
  deriving DecidableEq

structure SessionRecord where
  id : Uuid
  userId : UserId
  tokenHash : SecretHash
  csrfHash : SecretHash
  authEpoch : ℤ
  idleExpiresAt : DateTime
  absoluteExpiresAt : DateTime
  deriving DecidableEq

structure SessionGrant where
  token : SecretToken
  csrf : SecretToken
  record : SessionRecord

structure SessionPrincipal where
  sessionId : Uuid
  user : User
  csrfHash : SecretHash
  absoluteExpiresAt : DateTime
  deriving DecidableEq

structure RecoveryRequest where
  id : Uuid
  userId : UserId
  requestedAt : DateTime
  approvedAt : Option DateTime
  deriving DecidableEq

structure AuditEvent where
  eventType : String
  actorUserId : Option UserId
  subjectUserId : Option UserId
  data : Value

/-! ## Texts of audit data -/

/-- `uuid::Uuid` as `serde` writes it: 32 lower-case hexadecimal digits in groups. -/
def uuidText (id : Uuid) : String :=
  let digits := (List.range 32).map (fun i => Json.hexDigit (id.toNat / 16 ^ (31 - i) % 16))
  String.ofList ((digits.take 8) ++ '-' :: ((digits.drop 8).take 4) ++ '-' ::
    ((digits.drop 12).take 4) ++ '-' :: ((digits.drop 16).take 4) ++ '-' :: digits.drop 20)

/-- `CeremonyKind` as `serde` writes it. -/
def ceremonyKindText : CeremonyKind → String
  | .registration => "registration"
  | .authentication => "authentication"
  | .operatorBootstrap => "operator_bootstrap"
  | .operatorRecovery => "operator_recovery"

/-- A `usize` as a JSON number. -/
def usizeNumber (n : ℕ) : Value := .number (.posInt (n % 2 ^ 64) (Nat.mod_lt _ (by decide)))

/-- The characters that `str::trim` removes: Unicode `White_Space`. -/
def isWhitespace (c : Char) : Bool :=
  (9 ≤ c.toNat && c.toNat ≤ 13) || c.toNat = 0x20 || c.toNat = 0x85 || c.toNat = 0xa0
    || c.toNat = 0x1680 || (0x2000 ≤ c.toNat && c.toNat ≤ 0x200a) || c.toNat = 0x2028
    || c.toNat = 0x2029 || c.toNat = 0x202f || c.toNat = 0x205f || c.toNat = 0x3000

/-- `str::trim` -/
def trim (s : String) : String :=
  String.ofList ((s.toList.dropWhile isWhitespace).reverse.dropWhile isWhitespace).reverse

/-! ## The engine -/

/-- `CeremonyEngine`. Starting a ceremony draws a challenge from `seed`. -/
structure CeremonyEngine where
  startRegistration : (seed : ℕ) → User → List StoredCredential → Except AuthError (Value × Value)
  finishRegistration : (response state : Value) → Except AuthError VerifiedCredential
  startAuthentication : (seed : ℕ) → Except AuthError (Value × Value)
  authenticationUserHandle : (response : Value) → Except AuthError Uuid
  finishAuthentication : (response state : Value) → List StoredCredential →
    Except AuthError AuthenticationVerification

/-! ## The store -/

/-- The methods of `AuthStore`. -/
inductive AuthCall where
  | userById (id : UserId)
  | userByHandle (handle : Uuid)
  | credentialsForUser (userId : UserId)
  | operatorWithoutCredential
  | operatorExists
  | operatorRecoveryWindow (now : DateTime)
  | capability (hash : SecretHash) (purpose : CapabilityPurpose) (now : DateTime)
  | insertCapability (capability : Capability)
  | insertUser (user : User) (now : DateTime) (audit : AuditEvent)
  | approveUserWithSetup (user : User) (capability : Capability) (operatorId : UserId)
      (now : DateTime)
  | rotateAllAuthEpochs (now : DateTime) (reason : String)
  | insertCeremony (ceremony : Ceremony)
  | ceremony (id : Uuid) (kind : CeremonyKind) (now : DateTime)
  | completeRegistration (ceremonyId : Uuid) (capabilityHash : Option SecretHash)
      (credential : VerifiedCredential) (now : DateTime) (audit : AuditEvent)
  | completeAuthentication (ceremonyId : Uuid) (verification : AuthenticationVerification)
      (session : SessionRecord) (now : DateTime) (audit : AuditEvent)
  | session (tokenHash : SecretHash) (now idleExpiresAt : DateTime)
  | rotateSessionCsrf (tokenHash csrfHash : SecretHash) (now idleExpiresAt : DateTime)
  | deleteSession (tokenHash : SecretHash)
  | createRecovery (userId : UserId) (now : DateTime)
  | pendingRecoveries
  | approveRecovery (recoveryId : Uuid) (operatorId : UserId) (now : DateTime)
  | issueRecoverySetup (recoveryId : Uuid) (capability : Capability) (operatorId : UserId)
      (now : DateTime)
  | breakGlass (credentialId : Uuid) (capability : Capability) (now : DateTime) (reason : String)

abbrev AuthCall.Reply : AuthCall → Type
  | .userById _ => Option User
  | .userByHandle _ => Option User
  | .credentialsForUser _ => List StoredCredential
  | .operatorWithoutCredential => Option User
  | .operatorExists => Bool
  | .operatorRecoveryWindow _ => Option (User × SecretHash)
  | .capability .. => Option Capability
  | .insertCapability _ => Unit
  | .insertUser .. => Unit
  | .approveUserWithSetup .. => Unit
  | .rotateAllAuthEpochs .. => ℕ
  | .insertCeremony _ => Unit
  | .ceremony .. => Option Ceremony
  | .completeRegistration .. => Unit
  | .completeAuthentication .. => Unit
  | .session .. => Option SessionPrincipal
  | .rotateSessionCsrf .. => Option SessionPrincipal
  | .deleteSession _ => Unit
  | .createRecovery .. => RecoveryRequest
  | .pendingRecoveries => List RecoveryRequest
  | .approveRecovery .. => Unit
  | .issueRecoverySetup .. => Unit
  | .breakGlass .. => Unit

/-- What a call of the store is answered. -/
abbrev AuthCall.Answer (c : AuthCall) : Type := Except AuthError c.Reply

end RsConsole
