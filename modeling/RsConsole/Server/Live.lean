import RsConsole.Library.Abstraction
import RsConsole.Server.Rows

set_option autoImplicit false

/-! # What the store holds

`AuthStore` seen from the service: maps of values, without rows, marks and times of writing. A user
is found by its id, a session and a capability by the hash of their token, a ceremony, a credential
and a recovery by their id; what is consumed, revoked or completed is gone. `LiveStore.Does` says for
every method what it may answer and what it makes of the maps. It is a specification of the trait and
not a translation of code; `store_refines` in the next module connects it to the repository. -/

namespace RsConsole

open Library Library.Table

/-- The user in the next epoch. -/
def User.next (user : User) : User := { user with authEpoch := user.authEpoch + 1 }

/-- A recovery that is not completed. -/
structure OpenRecovery where
  request : RecoveryRequest
  setupIssued : Bool

def OpenRecovery.approved (recovery : OpenRecovery) (now : DateTime) : OpenRecovery :=
  { recovery with request := { recovery.request with approvedAt := some now } }

structure LiveStore where
  users : UserId → Option User
  credentials : Uuid → Option StoredCredential
  capabilities : SecretHash → Option Capability
  ceremonies : Uuid → Option Ceremony
  sessions : SecretHash → Option SessionRecord
  recoveries : Uuid → Option OpenRecovery

namespace LiveStore

variable (s : LiveStore)

/-! ## What the maps say -/

/-- An operator has a passkey. -/
def OperatorRegistered : Prop :=
  ∃ id credential user, s.credentials id = some credential ∧
    s.users credential.userId = some user ∧ user.role = .operator

/-- The capability `hash` opens a recovery window for the operator `user`. -/
def Window (now : DateTime) (user : User) (hash : SecretHash) : Prop :=
  ∃ given, s.capabilities hash = some given ∧ given.purpose = .operatorRecovery ∧
    now < given.expiresAt ∧ s.users given.userId = some user ∧ user.role = .operator ∧
    user.enabled = true

/-- The session of a token, with its user, while it is live. -/
def liveSession (hash : SecretHash) (now : DateTime) : Option (SessionRecord × User) := do
  let record ← s.sessions hash
  let user ← s.users record.userId
  if now < record.idleExpiresAt ∧ now < record.absoluteExpiresAt ∧ user.enabled = true ∧
      record.authEpoch = user.authEpoch then some (record, user) else none

/-! ## Changes -/

def addUser (user : User) : LiveStore :=
  { s with users := Function.update s.users user.id (some user) }

def addCapability (given : Capability) : LiveStore :=
  { s with capabilities := Function.update s.capabilities given.tokenHash (some given) }

def setRecovery (id : Uuid) (recovery : OpenRecovery) : LiveStore :=
  { s with recoveries := Function.update s.recoveries id (some recovery) }

def dropCredential (id : Uuid) : LiveStore :=
  { s with credentials := Function.update s.credentials id none }

/-- The users that `P` selects lose their sessions, capabilities and ceremonies and go on to the next
    epoch; `Q` selects the ceremonies by their user. -/
def invalidate (P : UserId → Prop) [DecidablePred P] (Q : Option UserId → Prop) [DecidablePred Q] :
    LiveStore :=
  { s with
    users := fun id => (s.users id).map fun user =>
      if P user.id then user.next else user
    sessions := fun hash => (s.sessions hash).filter fun record => ¬ P record.userId
    ceremonies := fun id => (s.ceremonies id).filter fun ceremony => ¬ Q ceremony.userId
    capabilities := fun hash => (s.capabilities hash).filter fun given => ¬ P given.userId }

def invalidateUser (userId : UserId) : LiveStore :=
  s.invalidate (fun id => id = userId) (fun id => id = some userId)

/-- Whoever `ceremony` is for gets a passkey: the ceremony and the capability are spent, and the
    recoveries of `subject` whose setup was issued are over. -/
def register (ceremonyId : Uuid) (capabilityHash : Option SecretHash) (credential : StoredCredential)
    (subject : Option UserId) : LiveStore :=
  { s with
    ceremonies := Function.update s.ceremonies ceremonyId none
    capabilities := capabilityHash.elim s.capabilities fun hash =>
      Function.update s.capabilities hash none
    credentials := Function.update s.credentials credential.id (some credential)
    recoveries := fun id => (s.recoveries id).filter fun recovery =>
      ¬ (some recovery.request.userId = subject ∧ recovery.request.approvedAt ≠ none ∧
        recovery.setupIssued = true) }

/-- A login: the ceremony is spent, the passkey's data is renewed and the session begins. -/
def logIn (ceremonyId : Uuid) (verification : AuthenticationVerification) (record : SessionRecord) :
    LiveStore :=
  { s with
    ceremonies := Function.update s.ceremonies ceremonyId none
    credentials := fun id => (s.credentials id).map fun credential =>
      if credential.userId = record.userId ∧ credential.credentialId = verification.credentialId then
        { credential with publicData := verification.updatedPublicData } else credential
    sessions := Function.update s.sessions record.tokenHash (some record) }

/-- The use of a live session: it idles no longer than its absolute expiry. -/
def use (hash : SecretHash) (csrfHash : Option SecretHash) (now idleExpiresAt : DateTime) :
    LiveStore :=
  match s.liveSession hash now with
  | none => s
  | some (record, _) =>
      { s with sessions := Function.update s.sessions hash (some { record with
          csrfHash := csrfHash.getD record.csrfHash
          idleExpiresAt := min idleExpiresAt record.absoluteExpiresAt }) }

/-- What a request learns about the session that it uses. -/
def principal (hash : SecretHash) (csrfHash : Option SecretHash) (now : DateTime) :
    Option SessionPrincipal :=
  (s.liveSession hash now).map fun found =>
    { sessionId := found.1.id
      user := found.2
      csrfHash := csrfHash.getD found.1.csrfHash
      absoluteExpiresAt := found.1.absoluteExpiresAt }

/-! ## The methods -/

/-- **The store's specification**: the method `c` may answer `a` and leave `s'`. -/
def Does : (c : AuthCall) → c.Reply → LiveStore → Prop
  | .userById id, a, s' => a = s.users id ∧ s' = s
  | .userByHandle handle, a, s' =>
      (∀ user, a = some user ↔ s.users user.id = some user ∧ user.webauthnHandle = handle) ∧ s' = s
  | .credentialsForUser userId, a, s' =>
      (a.map (·.id)).Nodup ∧
        (∀ credential, credential ∈ a ↔
          s.credentials credential.id = some credential ∧ credential.userId = userId) ∧ s' = s
  | .operatorWithoutCredential, a, s' =>
      (∀ user, a = some user → s.users user.id = some user ∧ user.role = .operator ∧
          user.enabled = true ∧ ¬ s.OperatorRegistered) ∧
        (a = none → ∀ user, s.users user.id = some user → user.role = .operator →
          user.enabled = true → s.OperatorRegistered) ∧ s' = s
  | .operatorExists, a, s' =>
      (a = true ↔ ∃ user, s.users user.id = some user ∧ user.role = .operator) ∧ s' = s
  | .operatorRecoveryWindow now, a, s' =>
      (∀ user hash, a = some (user, hash) → s.Window now user hash) ∧
        (a = none → ∀ user hash, ¬ s.Window now user hash) ∧ s' = s
  | .capability hash purpose now, a, s' =>
      a = (s.capabilities hash).filter
          (fun given => given.purpose = purpose ∧ now < given.expiresAt) ∧ s' = s
  | .insertCapability given, _, s' =>
      s.capabilities given.tokenHash = none ∧ s' = s.addCapability given
  | .insertUser user _ _, _, s' => s.users user.id = none ∧ s' = s.addUser user
  | .approveUserWithSetup user given _ _, _, s' =>
      s.users user.id = none ∧ s.capabilities given.tokenHash = none ∧
        s' = (s.addUser user).addCapability given
  | .rotateAllAuthEpochs _ _, a, s' =>
      (∃ ids : List UserId, ids.Nodup ∧ ids.length = a ∧
          ∀ id, id ∈ ids ↔ (s.users id).isSome = true) ∧
        s' = s.invalidate (fun _ => True) (fun _ => True)
  | .insertCeremony ceremony, _, s' =>
      s.ceremonies ceremony.id = none ∧
        s' = { s with ceremonies := Function.update s.ceremonies ceremony.id (some ceremony) }
  | .ceremony id kind now, a, s' =>
      a = (s.ceremonies id).filter
          (fun ceremony => ceremony.kind = kind ∧ now < ceremony.expiresAt) ∧ s' = s
  | .completeRegistration ceremonyId capabilityHash verified now audit, _, s' =>
      ∃ ceremony userId id, s.ceremonies ceremonyId = some ceremony ∧ now < ceremony.expiresAt ∧
        ceremony.userId = some userId ∧
        (ceremony.kind = .operatorBootstrap → ¬ s.OperatorRegistered) ∧
        (∀ hash, capabilityHash = some hash → ∃ given, s.capabilities hash = some given ∧
          now < given.expiresAt) ∧
        s.credentials id = none ∧
        (∀ credential, s.credentials credential.id = some credential →
          credential.credentialId ≠ verified.credentialId) ∧
        s' = s.register ceremonyId capabilityHash
          ⟨id, userId, verified.credentialId, verified.publicData, none⟩ audit.subjectUserId
  | .completeAuthentication ceremonyId verification record now _, _, s' =>
      (∃ ceremony, s.ceremonies ceremonyId = some ceremony ∧ ceremony.kind = .authentication ∧
          now < ceremony.expiresAt) ∧
        (∃ credential, s.credentials credential.id = some credential ∧
          credential.userId = record.userId ∧
          credential.credentialId = verification.credentialId) ∧
        s.sessions record.tokenHash = none ∧ s' = s.logIn ceremonyId verification record
  | .session hash now idleExpiresAt, a, s' =>
      a = s.principal hash none now ∧ s' = s.use hash none now idleExpiresAt
  | .rotateSessionCsrf hash csrfHash now idleExpiresAt, a, s' =>
      a = s.principal hash (some csrfHash) now ∧ s' = s.use hash (some csrfHash) now idleExpiresAt
  | .deleteSession hash, _, s' => s' = { s with sessions := Function.update s.sessions hash none }
  | .createRecovery userId now, a, s' =>
      a.userId = userId ∧ a.requestedAt = now ∧ a.approvedAt = none ∧
        (s.users userId).isSome = true ∧
        (∀ recovery, s.recoveries recovery.request.id = some recovery →
          recovery.request.userId = userId → recovery.request.approvedAt ≠ none) ∧
        s.recoveries a.id = none ∧
        s' = s.setRecovery a.id ⟨a, false⟩
  | .pendingRecoveries, a, s' =>
      (a.map (·.id)).Nodup ∧
        (∀ request, request ∈ a ↔
          ∃ recovery, s.recoveries request.id = some recovery ∧ recovery.request = request) ∧ s' = s
  | .approveRecovery recoveryId _ now, _, s' =>
      ∃ recovery, s.recoveries recoveryId = some recovery ∧ recovery.request.approvedAt = none ∧
        s' = (s.setRecovery recoveryId (recovery.approved now)).invalidateUser
          recovery.request.userId
  | .issueRecoverySetup recoveryId given _ _, _, s' =>
      ∃ recovery, s.recoveries recoveryId = some recovery ∧ recovery.request.approvedAt ≠ none ∧
        recovery.setupIssued = false ∧ recovery.request.userId = given.userId ∧
        s.capabilities given.tokenHash = none ∧
        s' = (s.setRecovery recoveryId { recovery with setupIssued := true }).addCapability given
  | .breakGlass credentialId given _ _, _, s' =>
      (∃ credential user, s.credentials credentialId = some credential ∧
          credential.userId = given.userId ∧ s.users given.userId = some user ∧
          user.role = .operator) ∧
        s.capabilities given.tokenHash = none ∧
        s' = ((s.dropCredential credentialId).invalidateUser given.userId).addCapability given

/-- The method may do so, or fail and change nothing. -/
def Effect (c : AuthCall) (s : LiveStore) : c.Answer → LiveStore → Prop
  | .ok a, s' => s.Does c a s'
  | .error _, s' => s' = s

end LiveStore

end RsConsole
