import Mathlib.Logic.Relation
import RsConsole.Server.Repository

set_option autoImplicit false

/-! # How the database changes

What a row can become is fixed by the columns that statements set: marks (`consumed_at`,
`revoked_at`, …) are set once, epochs only grow, and everything that says whose a row is never
changes. `Write` is one statement's change, `Evolves` is what any number of writes keeps, and
`Consistent` says that the tables' keys are keys. Every method of the repository is a sequence of
writes that adds rows to the tables of `AuthCall.inserts` only. -/

namespace RsConsole

open Library Library.Table Relation

namespace Database

/-! ## What a row becomes -/

/-- A mark that is set stays as it is. -/
def Mark {α : Type} (a b : Option α) : Prop := a ≠ none → b = a

theorem Mark.refl {α : Type} (a : Option α) : Mark a a := fun _ => rfl

theorem Mark.trans {α : Type} {a b c : Option α} (h₁ : Mark a b) (h₂ : Mark b c) : Mark a c := by
  intro ha
  have hb := h₁ ha
  rw [← hb] at ha
  exact (h₂ ha).trans hb

theorem Mark.of_none {α : Type} {a b : Option α} (h : a = none) : Mark a b :=
  fun ha => absurd h ha

structure HumanUser.Becomes (u u' : HumanUser) : Prop where
  fixed : u' = { u with authEpoch := u'.authEpoch, updatedAt := u'.updatedAt }
  epoch : u.authEpoch ≤ u'.authEpoch

structure PasskeyCredential.Becomes (c c' : PasskeyCredential) : Prop where
  fixed : c' = { c with
    publicData := c'.publicData, lastUsedAt := c'.lastUsedAt, revokedAt := c'.revokedAt }
  revoked : Mark c.revokedAt c'.revokedAt

structure AuthCapability.Becomes (c c' : AuthCapability) : Prop where
  fixed : c' = { c with consumedAt := c'.consumedAt }
  consumed : Mark c.consumedAt c'.consumedAt

structure AuthCeremony.Becomes (c c' : AuthCeremony) : Prop where
  fixed : c' = { c with consumedAt := c'.consumedAt }
  consumed : Mark c.consumedAt c'.consumedAt

structure AuthSession.Becomes (s s' : AuthSession) : Prop where
  fixed : s' = { s with
    csrfHash := s'.csrfHash, idleExpiresAt := s'.idleExpiresAt, lastSeenAt := s'.lastSeenAt,
    revokedAt := s'.revokedAt }
  revoked : Mark s.revokedAt s'.revokedAt

structure RecoveryRequest.Becomes (r r' : RecoveryRequest) : Prop where
  fixed : r' = { r with
    approvedAt := r'.approvedAt, approvedBy := r'.approvedBy, setupIssuedAt := r'.setupIssuedAt,
    completedAt := r'.completedAt }
  approved : Mark r.approvedAt r'.approvedAt
  approver : r.approvedAt ≠ none → r'.approvedBy = r.approvedBy
  setupIssued : Mark r.setupIssuedAt r'.setupIssuedAt
  completed : Mark r.completedAt r'.completedAt

theorem HumanUser.becomes_refl (u : HumanUser) : u.Becomes u := ⟨rfl, le_rfl⟩

theorem PasskeyCredential.becomes_refl (c : PasskeyCredential) : c.Becomes c := ⟨rfl, .refl _⟩

theorem AuthCapability.becomes_refl (c : AuthCapability) : c.Becomes c := ⟨rfl, .refl _⟩

theorem AuthCeremony.becomes_refl (c : AuthCeremony) : c.Becomes c := ⟨rfl, .refl _⟩

theorem AuthSession.becomes_refl (s : AuthSession) : s.Becomes s := ⟨rfl, .refl _⟩

theorem RecoveryRequest.becomes_refl (r : RecoveryRequest) : r.Becomes r :=
  ⟨rfl, .refl _, fun _ => rfl, .refl _, .refl _⟩

theorem HumanUser.Becomes.trans {a b c : HumanUser} (h₁ : a.Becomes b) (h₂ : b.Becomes c) :
    a.Becomes c := by
  refine ⟨?_, h₁.epoch.trans h₂.epoch⟩
  rw [h₂.fixed, h₁.fixed]

theorem PasskeyCredential.Becomes.trans {a b c : PasskeyCredential} (h₁ : a.Becomes b)
    (h₂ : b.Becomes c) : a.Becomes c := by
  refine ⟨?_, h₁.revoked.trans h₂.revoked⟩
  rw [h₂.fixed, h₁.fixed]

theorem AuthCapability.Becomes.trans {a b c : AuthCapability} (h₁ : a.Becomes b)
    (h₂ : b.Becomes c) : a.Becomes c := by
  refine ⟨?_, h₁.consumed.trans h₂.consumed⟩
  rw [h₂.fixed, h₁.fixed]

theorem AuthCeremony.Becomes.trans {a b c : AuthCeremony} (h₁ : a.Becomes b)
    (h₂ : b.Becomes c) : a.Becomes c := by
  refine ⟨?_, h₁.consumed.trans h₂.consumed⟩
  rw [h₂.fixed, h₁.fixed]

theorem AuthSession.Becomes.trans {a b c : AuthSession} (h₁ : a.Becomes b) (h₂ : b.Becomes c) :
    a.Becomes c := by
  refine ⟨?_, h₁.revoked.trans h₂.revoked⟩
  rw [h₂.fixed, h₁.fixed]

theorem RecoveryRequest.Becomes.trans {a b c : RecoveryRequest} (h₁ : a.Becomes b)
    (h₂ : b.Becomes c) : a.Becomes c := by
  refine ⟨?_, h₁.approved.trans h₂.approved, ?_, h₁.setupIssued.trans h₂.setupIssued,
    h₁.completed.trans h₂.completed⟩
  · rw [h₂.fixed, h₁.fixed]
  · intro ha
    have hb : b.approvedAt ≠ none := by rwa [h₁.approved ha]
    exact (h₂.approver hb).trans (h₁.approver ha)

/-- Every row is kept, with what can become of it, and rows may have been added. -/
structure Evolves (db db' : Database) : Prop where
  humanUsers : Grows HumanUser.Becomes db.humanUsers db'.humanUsers
  passkeyCredentials : Grows PasskeyCredential.Becomes db.passkeyCredentials db'.passkeyCredentials
  authCapabilities : Grows AuthCapability.Becomes db.authCapabilities db'.authCapabilities
  authCeremonies : Grows AuthCeremony.Becomes db.authCeremonies db'.authCeremonies
  authSessions : Grows AuthSession.Becomes db.authSessions db'.authSessions
  recoveryRequests : Grows RecoveryRequest.Becomes db.recoveryRequests db'.recoveryRequests
  authAuditEvents : db.authAuditEvents <+: db'.authAuditEvents

theorem evolves_refl (db : Database) : Evolves db db where
  humanUsers := grows_refl HumanUser.becomes_refl _
  passkeyCredentials := grows_refl PasskeyCredential.becomes_refl _
  authCapabilities := grows_refl AuthCapability.becomes_refl _
  authCeremonies := grows_refl AuthCeremony.becomes_refl _
  authSessions := grows_refl AuthSession.becomes_refl _
  recoveryRequests := grows_refl RecoveryRequest.becomes_refl _
  authAuditEvents := List.prefix_rfl

theorem Evolves.trans {a b c : Database} (h₁ : Evolves a b) (h₂ : Evolves b c) : Evolves a c where
  humanUsers := grows_trans .trans h₁.humanUsers h₂.humanUsers
  passkeyCredentials := grows_trans .trans h₁.passkeyCredentials h₂.passkeyCredentials
  authCapabilities := grows_trans .trans h₁.authCapabilities h₂.authCapabilities
  authCeremonies := grows_trans .trans h₁.authCeremonies h₂.authCeremonies
  authSessions := grows_trans .trans h₁.authSessions h₂.authSessions
  recoveryRequests := grows_trans .trans h₁.recoveryRequests h₂.recoveryRequests
  authAuditEvents := h₁.authAuditEvents.trans h₂.authAuditEvents

/-! ## Keys -/

/-- The primary keys and the unique columns. -/
structure Consistent (db : Database) : Prop where
  userIds : Keyed (·.id) db.humanUsers
  userHandles : Keyed (·.webauthnHandle) db.humanUsers
  userEmails : Keyed (·.email) db.humanUsers
  credentialRowIds : Keyed (·.id) db.passkeyCredentials
  credentialIds : Keyed (·.credentialId) db.passkeyCredentials
  capabilityIds : Keyed (·.id) db.authCapabilities
  capabilityHashes : Keyed (·.tokenHash) db.authCapabilities
  ceremonyIds : Keyed (·.id) db.authCeremonies
  sessionIds : Keyed (·.id) db.authSessions
  sessionHashes : Keyed (·.tokenHash) db.authSessions
  recoveryIds : Keyed (·.id) db.recoveryRequests

theorem consistent_empty : Consistent empty := by
  constructor <;> exact List.nodup_nil

section Keys

variable {db db' : Database} (h : Evolves db db') (hc : Consistent db')

include h hc

theorem Evolves.becomes_of_capabilityHash {a b : AuthCapability} (ha : a ∈ db.authCapabilities)
    (hb : b ∈ db'.authCapabilities) (hhash : b.tokenHash = a.tokenHash) : a.Becomes b :=
  h.authCapabilities.rel_of_key (fun _ _ hab => by rw [hab.fixed]) hc.capabilityHashes ha hb hhash

theorem Evolves.becomes_of_ceremonyId {a b : AuthCeremony} (ha : a ∈ db.authCeremonies)
    (hb : b ∈ db'.authCeremonies) (hid : b.id = a.id) : a.Becomes b :=
  h.authCeremonies.rel_of_key (fun _ _ hab => by rw [hab.fixed]) hc.ceremonyIds ha hb hid

theorem Evolves.becomes_of_credentialRowId {a b : PasskeyCredential}
    (ha : a ∈ db.passkeyCredentials) (hb : b ∈ db'.passkeyCredentials) (hid : b.id = a.id) :
    a.Becomes b :=
  h.passkeyCredentials.rel_of_key (fun _ _ hab => by rw [hab.fixed]) hc.credentialRowIds ha hb hid

theorem Evolves.becomes_of_sessionId {a b : AuthSession} (ha : a ∈ db.authSessions)
    (hb : b ∈ db'.authSessions) (hid : b.id = a.id) : a.Becomes b :=
  h.authSessions.rel_of_key (fun _ _ hab => by rw [hab.fixed]) hc.sessionIds ha hb hid

theorem Evolves.becomes_of_recoveryId {a b : RecoveryRequest} (ha : a ∈ db.recoveryRequests)
    (hb : b ∈ db'.recoveryRequests) (hid : b.id = a.id) : a.Becomes b :=
  h.recoveryRequests.rel_of_key (fun _ _ hab => by rw [hab.fixed]) hc.recoveryIds ha hb hid

end Keys

/-! ## Writes -/

inductive TableName where
  | humanUsers
  | passkeyCredentials
  | authCapabilities
  | authCeremonies
  | authSessions
  | recoveryRequests
  | authAuditEvents
  deriving DecidableEq

def rowCount (db : Database) : TableName → ℕ
  | .humanUsers => db.humanUsers.length
  | .passkeyCredentials => db.passkeyCredentials.length
  | .authCapabilities => db.authCapabilities.length
  | .authCeremonies => db.authCeremonies.length
  | .authSessions => db.authSessions.length
  | .recoveryRequests => db.recoveryRequests.length
  | .authAuditEvents => db.authAuditEvents.length

/-- One statement that updates rows of a table, or adds a row to one of `tables`. -/
inductive Write (tables : List TableName) (db : Database) : Database → Prop
  | updateHumanUsers {p : HumanUser → Bool} {f : HumanUser → HumanUser}
      (h : ∀ u, p u = true → u.Becomes (f u)) :
      Write tables db { db with humanUsers := updateWhere p f db.humanUsers }
  | updatePasskeyCredentials {p : PasskeyCredential → Bool}
      {f : PasskeyCredential → PasskeyCredential} (h : ∀ c, p c = true → c.Becomes (f c)) :
      Write tables db { db with passkeyCredentials := updateWhere p f db.passkeyCredentials }
  | updateAuthCapabilities {p : AuthCapability → Bool} {f : AuthCapability → AuthCapability}
      (h : ∀ c, p c = true → c.Becomes (f c)) :
      Write tables db { db with authCapabilities := updateWhere p f db.authCapabilities }
  | updateAuthCeremonies {p : AuthCeremony → Bool} {f : AuthCeremony → AuthCeremony}
      (h : ∀ c, p c = true → c.Becomes (f c)) :
      Write tables db { db with authCeremonies := updateWhere p f db.authCeremonies }
  | updateAuthSessions {p : AuthSession → Bool} {f : AuthSession → AuthSession}
      (h : ∀ s, p s = true → s.Becomes (f s)) :
      Write tables db { db with authSessions := updateWhere p f db.authSessions }
  | updateRecoveryRequests {p : RecoveryRequest → Bool} {f : RecoveryRequest → RecoveryRequest}
      (h : ∀ r, p r = true → r.Becomes (f r)) :
      Write tables db { db with recoveryRequests := updateWhere p f db.recoveryRequests }
  | insertHumanUser {u : HumanUser} (listed : .humanUsers ∈ tables)
      (fresh : ∀ u' ∈ db.humanUsers,
        u'.id ≠ u.id ∧ u'.webauthnHandle ≠ u.webauthnHandle ∧ u'.email ≠ u.email) :
      Write tables db { db with humanUsers := db.humanUsers ++ [u] }
  | insertPasskeyCredential {c : PasskeyCredential} (listed : .passkeyCredentials ∈ tables)
      (fresh : ∀ c' ∈ db.passkeyCredentials, c'.id ≠ c.id ∧ c'.credentialId ≠ c.credentialId) :
      Write tables db { db with passkeyCredentials := db.passkeyCredentials ++ [c] }
  | insertAuthCapability {c : AuthCapability} (listed : .authCapabilities ∈ tables)
      (fresh : ∀ c' ∈ db.authCapabilities, c'.id ≠ c.id ∧ c'.tokenHash ≠ c.tokenHash) :
      Write tables db { db with authCapabilities := db.authCapabilities ++ [c] }
  | insertAuthCeremony {c : AuthCeremony} (listed : .authCeremonies ∈ tables)
      (fresh : ∀ c' ∈ db.authCeremonies, c'.id ≠ c.id) :
      Write tables db { db with authCeremonies := db.authCeremonies ++ [c] }
  | insertAuthSession {s : AuthSession} (listed : .authSessions ∈ tables)
      (fresh : ∀ s' ∈ db.authSessions, s'.id ≠ s.id ∧ s'.tokenHash ≠ s.tokenHash) :
      Write tables db { db with authSessions := db.authSessions ++ [s] }
  | insertRecoveryRequest {r : RecoveryRequest} (listed : .recoveryRequests ∈ tables)
      (fresh : ∀ r' ∈ db.recoveryRequests, r'.id ≠ r.id) :
      Write tables db { db with recoveryRequests := db.recoveryRequests ++ [r] }
  | insertAuthAuditEvent {e : AuthAuditEvent} (listed : .authAuditEvents ∈ tables) :
      Write tables db { db with authAuditEvents := db.authAuditEvents ++ [e] }

variable {tables : List TableName} {db db' : Database}

theorem Write.evolves (h : Write tables db db') : Evolves db db' := by
  have hrefl := evolves_refl db
  cases h with
  | updateHumanUsers h =>
      exact { hrefl with
        humanUsers := grows_updateWhere HumanUser.becomes_refl (fun u _ => h u) }
  | updatePasskeyCredentials h =>
      exact { hrefl with
        passkeyCredentials := grows_updateWhere PasskeyCredential.becomes_refl (fun c _ => h c) }
  | updateAuthCapabilities h =>
      exact { hrefl with
        authCapabilities := grows_updateWhere AuthCapability.becomes_refl (fun c _ => h c) }
  | updateAuthCeremonies h =>
      exact { hrefl with
        authCeremonies := grows_updateWhere AuthCeremony.becomes_refl (fun c _ => h c) }
  | updateAuthSessions h =>
      exact { hrefl with
        authSessions := grows_updateWhere AuthSession.becomes_refl (fun s _ => h s) }
  | updateRecoveryRequests h =>
      exact { hrefl with
        recoveryRequests := grows_updateWhere RecoveryRequest.becomes_refl (fun r _ => h r) }
  | insertHumanUser => exact { hrefl with humanUsers := grows_append HumanUser.becomes_refl _ _ }
  | insertPasskeyCredential =>
      exact { hrefl with passkeyCredentials := grows_append PasskeyCredential.becomes_refl _ _ }
  | insertAuthCapability =>
      exact { hrefl with authCapabilities := grows_append AuthCapability.becomes_refl _ _ }
  | insertAuthCeremony =>
      exact { hrefl with authCeremonies := grows_append AuthCeremony.becomes_refl _ _ }
  | insertAuthSession =>
      exact { hrefl with authSessions := grows_append AuthSession.becomes_refl _ _ }
  | insertRecoveryRequest =>
      exact { hrefl with recoveryRequests := grows_append RecoveryRequest.becomes_refl _ _ }
  | insertAuthAuditEvent =>
      exact { hrefl with authAuditEvents := List.prefix_append _ _ }

/-- Only a listed table gets a new row. -/
theorem Write.rowCount_eq (h : Write tables db db') {t : TableName} (ht : t ∉ tables) :
    db'.rowCount t = db.rowCount t := by
  cases h with
  | insertHumanUser listed => cases t <;> first | rfl | exact absurd listed ht
  | insertPasskeyCredential listed => cases t <;> first | rfl | exact absurd listed ht
  | insertAuthCapability listed => cases t <;> first | rfl | exact absurd listed ht
  | insertAuthCeremony listed => cases t <;> first | rfl | exact absurd listed ht
  | insertAuthSession listed => cases t <;> first | rfl | exact absurd listed ht
  | insertRecoveryRequest listed => cases t <;> first | rfl | exact absurd listed ht
  | insertAuthAuditEvent listed => cases t <;> first | rfl | exact absurd listed ht
  | _ => cases t <;> first | rfl | exact length_updateWhere _ _ _

theorem Write.consistent (h : Write tables db db') (hc : Consistent db) : Consistent db' := by
  -- an update leaves the keys alone, an insertion brings new ones
  cases h with
  | updateHumanUsers h =>
      exact { hc with
        userIds := keyed_updateWhere (fun u hu => by rw [(h u hu).fixed]) hc.userIds
        userHandles := keyed_updateWhere (fun u hu => by rw [(h u hu).fixed]) hc.userHandles
        userEmails := keyed_updateWhere (fun u hu => by rw [(h u hu).fixed]) hc.userEmails }
  | updatePasskeyCredentials h =>
      exact { hc with
        credentialRowIds :=
          keyed_updateWhere (fun c hp => by rw [(h c hp).fixed]) hc.credentialRowIds
        credentialIds := keyed_updateWhere (fun c hp => by rw [(h c hp).fixed]) hc.credentialIds }
  | updateAuthCapabilities h =>
      exact { hc with
        capabilityIds := keyed_updateWhere (fun c hp => by rw [(h c hp).fixed]) hc.capabilityIds
        capabilityHashes :=
          keyed_updateWhere (fun c hp => by rw [(h c hp).fixed]) hc.capabilityHashes }
  | updateAuthCeremonies h =>
      exact { hc with
        ceremonyIds := keyed_updateWhere (fun c hp => by rw [(h c hp).fixed]) hc.ceremonyIds }
  | updateAuthSessions h =>
      exact { hc with
        sessionIds := keyed_updateWhere (fun s hp => by rw [(h s hp).fixed]) hc.sessionIds
        sessionHashes := keyed_updateWhere (fun s hp => by rw [(h s hp).fixed]) hc.sessionHashes }
  | updateRecoveryRequests h =>
      exact { hc with
        recoveryIds := keyed_updateWhere (fun r hp => by rw [(h r hp).fixed]) hc.recoveryIds }
  | insertHumanUser listed fresh =>
      exact { hc with
        userIds := keyed_append hc.userIds (fun u hu => (fresh u hu).1)
        userHandles := keyed_append hc.userHandles (fun u hu => (fresh u hu).2.1)
        userEmails := keyed_append hc.userEmails (fun u hu => (fresh u hu).2.2) }
  | insertPasskeyCredential listed fresh =>
      exact { hc with
        credentialRowIds := keyed_append hc.credentialRowIds (fun c h => (fresh c h).1)
        credentialIds := keyed_append hc.credentialIds (fun c h => (fresh c h).2) }
  | insertAuthCapability listed fresh =>
      exact { hc with
        capabilityIds := keyed_append hc.capabilityIds (fun c h => (fresh c h).1)
        capabilityHashes := keyed_append hc.capabilityHashes (fun c h => (fresh c h).2) }
  | insertAuthCeremony listed fresh =>
      exact { hc with ceremonyIds := keyed_append hc.ceremonyIds fresh }
  | insertAuthSession listed fresh =>
      exact { hc with
        sessionIds := keyed_append hc.sessionIds (fun s h => (fresh s h).1)
        sessionHashes := keyed_append hc.sessionHashes (fun s h => (fresh s h).2) }
  | insertRecoveryRequest listed fresh =>
      exact { hc with recoveryIds := keyed_append hc.recoveryIds fresh }
  | insertAuthAuditEvent => exact { hc with }

/-- Any number of writes. -/
abbrev Writes (tables : List TableName) : Database → Database → Prop :=
  ReflTransGen (Write tables)

theorem Writes.evolves (h : Writes tables db db') : Evolves db db' := by
  induction h with
  | refl => exact evolves_refl db
  | tail _ hwrite ih => exact ih.trans hwrite.evolves

theorem Writes.rowCount_eq (h : Writes tables db db') {t : TableName} (ht : t ∉ tables) :
    db'.rowCount t = db.rowCount t := by
  induction h with
  | refl => rfl
  | tail _ hwrite ih => exact (hwrite.rowCount_eq ht).trans ih

theorem Writes.consistent (h : Writes tables db db') (hc : Consistent db) : Consistent db' := by
  induction h with
  | refl => exact hc
  | tail _ hwrite ih => exact hwrite.consistent ih

/-! ## Every statement is a write -/

section Statements

variable {now : DateTime} {u : Unit} {n : ℕ}

theorem insertHumanUser_ok {user : HumanUser} (h : insertHumanUser user db = .ok (u, db')) :
    db' = { db with humanUsers := db.humanUsers ++ [user] } ∧ ∀ u ∈ db.humanUsers,
      u.id ≠ user.id ∧ u.webauthnHandle ≠ user.webauthnHandle ∧ u.email ≠ user.email := by
  obtain ⟨rows, hrows, hdb⟩ := except_bind_ok h
  obtain ⟨rfl, -, hfresh, -⟩ := insertRow_ok hrows
  cases hdb
  refine ⟨rfl, fun u hu => ?_⟩
  simpa only [decide_eq_false_iff_not, not_or, ne_comm] using hfresh u hu

theorem insertPasskeyCredential_ok {credential : PasskeyCredential}
    (h : insertPasskeyCredential credential db = .ok (u, db')) :
    db' = { db with passkeyCredentials := db.passkeyCredentials ++ [credential] } ∧
      ∀ c ∈ db.passkeyCredentials,
        c.id ≠ credential.id ∧ c.credentialId ≠ credential.credentialId := by
  obtain ⟨rows, hrows, hdb⟩ := except_bind_ok h
  obtain ⟨rfl, -, hfresh, -⟩ := insertRow_ok hrows
  cases hdb
  refine ⟨rfl, fun c hc => ?_⟩
  simpa only [decide_eq_false_iff_not, not_or, ne_comm] using hfresh c hc

theorem insertAuthCapability_ok {capability : AuthCapability}
    (h : insertAuthCapability capability db = .ok (u, db')) :
    db' = { db with authCapabilities := db.authCapabilities ++ [capability] } ∧
      ∀ c ∈ db.authCapabilities, c.id ≠ capability.id ∧ c.tokenHash ≠ capability.tokenHash := by
  obtain ⟨rows, hrows, hdb⟩ := except_bind_ok h
  obtain ⟨rfl, -, hfresh, -⟩ := insertRow_ok hrows
  cases hdb
  refine ⟨rfl, fun c hc => ?_⟩
  simpa only [decide_eq_false_iff_not, not_or, ne_comm] using hfresh c hc

theorem insertAuthCeremony_ok {ceremony : AuthCeremony}
    (h : insertAuthCeremony ceremony db = .ok (u, db')) :
    db' = { db with authCeremonies := db.authCeremonies ++ [ceremony] } ∧
      ∀ c ∈ db.authCeremonies, c.id ≠ ceremony.id := by
  obtain ⟨rows, hrows, hdb⟩ := except_bind_ok h
  obtain ⟨rfl, -, hfresh, -⟩ := insertRow_ok hrows
  cases hdb
  refine ⟨rfl, fun c hc => ?_⟩
  simpa only [decide_eq_false_iff_not, ne_comm] using hfresh c hc

theorem insertAuthSession_ok {session : AuthSession}
    (h : insertAuthSession session db = .ok (u, db')) :
    db' = { db with authSessions := db.authSessions ++ [session] } ∧
      ∀ s ∈ db.authSessions, s.id ≠ session.id ∧ s.tokenHash ≠ session.tokenHash := by
  obtain ⟨rows, hrows, hdb⟩ := except_bind_ok h
  obtain ⟨rfl, -, hfresh, -⟩ := insertRow_ok hrows
  cases hdb
  refine ⟨rfl, fun s hs => ?_⟩
  simpa only [decide_eq_false_iff_not, not_or, ne_comm] using hfresh s hs

theorem insertRecoveryRequest_ok {request : RecoveryRequest}
    (h : insertRecoveryRequest request db = .ok (u, db')) :
    db' = { db with recoveryRequests := db.recoveryRequests ++ [request] } ∧
      ∀ r ∈ db.recoveryRequests, r.id ≠ request.id := by
  obtain ⟨rows, hrows, hdb⟩ := except_bind_ok h
  obtain ⟨rfl, -, hfresh, -⟩ := insertRow_ok hrows
  cases hdb
  refine ⟨rfl, fun r hr heq => ?_⟩
  have hcollides := hfresh r hr
  rw [decide_eq_false_iff_not, not_or] at hcollides
  exact hcollides.1 heq.symm

theorem insertAuthAuditEvent_ok {event : AuthAuditEvent}
    (h : insertAuthAuditEvent event db = .ok (u, db')) :
    db' = { db with authAuditEvents := db.authAuditEvents ++ [event] } := by
  obtain ⟨rows, hrows, hdb⟩ := except_bind_ok h
  obtain ⟨rfl, -⟩ := insertRow_ok hrows
  cases hdb
  rfl

theorem advanceEpochs_ok {p : HumanUser → Bool} (h : advanceEpochs p now db = .ok (n, db')) :
    db' = { db with
      humanUsers := updateWhere p
        (fun u => { u with authEpoch := u.authEpoch + 1, updatedAt := now }) db.humanUsers } := by
  unfold advanceEpochs at h
  split at h
  · cases h
  · cases h
    rfl

theorem advanceEpochs_write {p : HumanUser → Bool} (h : advanceEpochs p now db = .ok (n, db')) :
    Write tables db db' := by
  rw [advanceEpochs_ok h]
  exact .updateHumanUsers (fun u _ => ⟨rfl, Int.le_of_lt (Int.lt_succ u.authEpoch)⟩)

theorem revokeSessions_write {p : AuthSession → Bool} (h : revokeSessions p now db = .ok (u, db')) :
    Write tables db db' := by
  cases h
  refine .updateAuthSessions (fun s hs => ⟨rfl, .of_none ?_⟩)
  simp only [Bool.and_eq_true, decide_eq_true_eq] at hs
  exact hs.2

theorem consumeCeremonies_write {p : AuthCeremony → Bool}
    (h : consumeCeremonies p now db = .ok (u, db')) : Write tables db db' := by
  cases h
  refine .updateAuthCeremonies (fun c hc => ⟨rfl, .of_none ?_⟩)
  simp only [Bool.and_eq_true, decide_eq_true_eq] at hc
  exact hc.2

theorem consumeCapabilities_write {p : AuthCapability → Bool}
    (h : consumeCapabilities p now db = .ok (u, db')) : Write tables db db' := by
  cases h
  refine .updateAuthCapabilities (fun c hc => ⟨rfl, .of_none ?_⟩)
  simp only [Bool.and_eq_true, decide_eq_true_eq] at hc
  exact hc.2

theorem consumeCeremony_write {id : Uuid} {a : Option (Option String × String)}
    (h : consumeCeremony id now db = .ok (a, db')) : Write tables db db' := by
  cases h
  refine .updateAuthCeremonies (fun c hc => ⟨rfl, .of_none ?_⟩)
  exact (of_decide_eq_true hc).2.1

theorem consumeAuthentication_write {id : Uuid} (h : consumeAuthentication id now db = .ok (n, db')) :
    Write tables db db' := by
  cases h
  refine .updateAuthCeremonies (fun c hc => ⟨rfl, .of_none ?_⟩)
  exact (of_decide_eq_true hc).2.2.1

theorem consumeCapability_write {hash : List UInt8}
    (h : consumeCapability hash now db = .ok (n, db')) : Write tables db db' := by
  cases h
  refine .updateAuthCapabilities (fun c hc => ⟨rfl, .of_none ?_⟩)
  exact (of_decide_eq_true hc).2.1

theorem completeRecoveries_write {userId : Option String}
    (h : completeRecoveries userId now db = .ok (u, db')) : Write tables db db' := by
  cases h
  refine .updateRecoveryRequests
    (fun r hr => ⟨rfl, .refl _, fun _ => rfl, .refl _, .of_none ?_⟩)
  exact (of_decide_eq_true hr).2.2.2

theorem useCredential_ok {userId : String} {credentialId : List UInt8} {publicData : Value}
    (h : useCredential userId credentialId publicData now db = .ok (n, db')) :
    n = (db.passkeyCredentials.filter (fun c => decide (c.userId = userId ∧
        c.credentialId = credentialId ∧ c.revokedAt = none))).length ∧
      db' = { db with
        passkeyCredentials := updateWhere
          (fun c => decide (c.userId = userId ∧ c.credentialId = credentialId ∧ c.revokedAt = none))
          (fun c => { c with publicData, lastUsedAt := some now }) db.passkeyCredentials } := by
  unfold useCredential at h
  simp only at h
  split at h
  · cases h
  · cases h
    exact ⟨rfl, rfl⟩

theorem useCredential_write {userId : String} {credentialId : List UInt8} {publicData : Value}
    (h : useCredential userId credentialId publicData now db = .ok (n, db')) :
    Write tables db db' := by
  rw [(useCredential_ok h).2]
  exact .updatePasskeyCredentials (fun c _ => ⟨rfl, .refl _⟩)

theorem touchSession_write {id : Uuid} {idleExpiresAt : DateTime}
    (h : touchSession id idleExpiresAt now db = .ok (u, db')) : Write tables db db' := by
  cases h
  exact .updateAuthSessions (fun s _ => ⟨rfl, .refl _⟩)

theorem touchSessionCsrf_write {id : Uuid} {csrfHash : List UInt8} {idleExpiresAt : DateTime}
    (h : touchSessionCsrf id csrfHash idleExpiresAt now db = .ok (u, db')) :
    Write tables db db' := by
  unfold touchSessionCsrf at h
  simp only at h
  split at h
  · cases h
    exact .updateAuthSessions (fun s _ => ⟨rfl, .refl _⟩)
  · cases h

theorem approveRequest_ok {id : Uuid} {operatorId : String} {a : Option String}
    (h : approveRequest id operatorId now db = .ok (a, db')) :
    a = ((db.recoveryRequests.filter (fun r => decide (r.id = id ∧ r.Pending))).head?).map
        (·.userId) ∧
      db' = { db with
        recoveryRequests := updateWhere (fun r => decide (r.id = id ∧ r.Pending))
          (fun r => { r with approvedAt := some now, approvedBy := some operatorId })
          db.recoveryRequests } := by
  unfold approveRequest at h
  simp only at h
  split at h
  · cases h
  · cases h
    exact ⟨rfl, rfl⟩

theorem approveRequest_write {id : Uuid} {operatorId : String} {a : Option String}
    (h : approveRequest id operatorId now db = .ok (a, db')) : Write tables db db' := by
  rw [(approveRequest_ok h).2]
  refine .updateRecoveryRequests (fun r hr => ?_)
  have hnone := (of_decide_eq_true hr).2.1
  exact ⟨rfl, .of_none hnone, fun ha => absurd hnone ha, .refl _, .refl _⟩

theorem issueSetup_write {id : Uuid} {userId : String}
    (h : issueSetup id userId now db = .ok (n, db')) : Write tables db db' := by
  cases h
  refine .updateRecoveryRequests
    (fun r hr => ⟨rfl, .refl _, fun _ => rfl, .of_none ?_, .refl _⟩)
  exact (of_decide_eq_true hr).2.2.1

theorem revokeOperatorCredential_write {id : Uuid} {a : Option String}
    (h : revokeOperatorCredential id now db = .ok (a, db')) : Write tables db db' := by
  cases h
  refine .updatePasskeyCredentials (fun c hc => ⟨rfl, .of_none ?_⟩)
  exact (of_decide_eq_true hc).2.1

end Statements

end Database

/-! ## Every method is a sequence of writes -/

open Database

/-- The tables a call may add rows to. -/
def AuthCall.inserts : AuthCall → List TableName
  | .insertCapability _ => [.authCapabilities]
  | .insertUser .. => [.humanUsers, .authAuditEvents]
  | .approveUserWithSetup .. => [.humanUsers, .authCapabilities, .authAuditEvents]
  | .rotateAllAuthEpochs .. => [.authAuditEvents]
  | .insertCeremony _ => [.authCeremonies]
  | .completeRegistration .. => [.passkeyCredentials, .authAuditEvents]
  | .completeAuthentication .. => [.authSessions, .authAuditEvents]
  | .createRecovery .. => [.recoveryRequests]
  | .approveRecovery .. => [.authAuditEvents]
  | .issueRecoverySetup .. => [.authCapabilities, .authAuditEvents]
  | .breakGlass .. => [.authCapabilities, .authAuditEvents]
  | _ => []

namespace Repo

variable {tables : List TableName} {α β : Type}

/-- The code writes rows, and adds them to `tables` only. -/
abbrev OnlyWrites (tables : List TableName) (x : Repo α) : Prop := Tx.Keeps (Writes tables) x

theorem onlyWrites_bind {x : Repo α} {f : α → Repo β} (hx : OnlyWrites tables x)
    (hf : ∀ a, OnlyWrites tables (f a)) : OnlyWrites tables (x >>= f) :=
  Tx.keeps_bind .trans hx hf

theorem onlyWrites_pure (a : α) : OnlyWrites tables (pure a : Repo α) :=
  Tx.keeps_pure (fun _ => .refl) a

theorem onlyWrites_okOr (e : AuthError) (o : Option α) :
    OnlyWrites tables (Tx.okOr e o : Repo α) :=
  Tx.keeps_okOr (fun _ => .refl) e o

theorem onlyWrites_fail (e : AuthError) : OnlyWrites tables (Tx.fail e : Repo α) :=
  onlyWrites_okOr e (none : Option α)

theorem onlyWrites_ensure (p : Prop) [Decidable p] (e : AuthError) :
    OnlyWrites tables (Tx.ensure p e : Repo Unit) :=
  Tx.keeps_ensure (fun _ => .refl) p e

theorem onlyWrites_ofExcept (x : Except AuthError α) :
    OnlyWrites tables (Tx.ofExcept x : Repo α) :=
  Tx.keeps_ofExcept (fun _ => .refl) x

theorem onlyWrites_exec {onError : SqlError → AuthError} {stmt : Statement α}
    (h : ∀ db a db', stmt db = .ok (a, db') → Write tables db db') :
    OnlyWrites tables (Tx.exec .store onError stmt : Repo α) :=
  Tx.keeps_exec (fun _ => .refl) (fun db a db' hstmt => .single (h db a db' hstmt))

theorem onlyWrites_fetch (q : Database → α) : OnlyWrites tables (fetch q) := by
  unfold fetch execute
  refine Tx.keeps_exec (fun _ => .refl) (fun db a db' h => ?_)
  cases h
  exact .refl

theorem onlyWrites_transaction {body : Repo α} (h : OnlyWrites tables body) :
    OnlyWrites tables (transaction body) :=
  Tx.keeps_transaction (fun _ => .refl) h

theorem onlyWrites_insertAudit (listed : .authAuditEvents ∈ tables) (event : AuditEvent)
    (now : DateTime) : OnlyWrites tables (insertAudit event now) := by
  refine onlyWrites_exec (fun db a db' h => ?_)
  rw [insertAuthAuditEvent_ok h]
  exact .insertAuthAuditEvent listed

theorem onlyWrites_insertAuthCapability (listed : .authCapabilities ∈ tables)
    (capability : AuthCapability) :
    OnlyWrites tables (execute (Database.insertAuthCapability capability)) := by
  refine onlyWrites_exec (fun db a db' h => ?_)
  obtain ⟨rfl, hfresh⟩ := insertAuthCapability_ok h
  exact .insertAuthCapability listed hfresh

theorem onlyWrites_insertHumanUser (listed : .humanUsers ∈ tables) (user : HumanUser) :
    OnlyWrites tables (Tx.exec .store constraintConflict (Database.insertHumanUser user)) := by
  refine onlyWrites_exec (fun db a db' h => ?_)
  obtain ⟨rfl, hfresh⟩ := insertHumanUser_ok h
  exact .insertHumanUser listed hfresh

theorem onlyWrites_invalidateUserAuth (userId : String) (now : DateTime) :
    OnlyWrites tables (invalidateUserAuth userId now) :=
  onlyWrites_bind (onlyWrites_exec (fun _ _ _ => advanceEpochs_write)) fun _ =>
    onlyWrites_bind (onlyWrites_exec (fun _ _ _ => revokeSessions_write)) fun _ =>
      onlyWrites_bind (onlyWrites_exec (fun _ _ _ => consumeCeremonies_write)) fun _ =>
        onlyWrites_exec (fun _ _ _ => consumeCapabilities_write)

theorem onlyWrites_useSession {tokenHash : SecretHash} {now : DateTime}
    {touch : AuthSession → Statement Unit}
    {principal : AuthSession × HumanUser → Except AuthError SessionPrincipal}
    (h : ∀ s db u db', touch s db = .ok (u, db') → Write tables db db') :
    OnlyWrites tables (PgAuthStore.useSession tokenHash now touch principal) := by
  refine onlyWrites_bind (onlyWrites_transaction (onlyWrites_bind (onlyWrites_fetch _) ?_))
    (fun _ => onlyWrites_ofExcept _)
  rintro (_ | row)
  · exact onlyWrites_pure _
  · exact onlyWrites_bind (onlyWrites_exec (h row.1)) (fun _ => onlyWrites_pure _)

end Repo

namespace PgAuthStore

open Repo

theorem spentCeremony_writes {tables : List TableName} (spent : Option (Option String × String)) :
    OnlyWrites tables (spentCeremony spent) := by
  rcases spent with _ | ⟨_ | userId, kind⟩
  · exact onlyWrites_fail _
  · exact onlyWrites_fail _
  · exact onlyWrites_pure _

theorem spendCapability_writes {tables : List TableName} (capabilityHash : Option SecretHash)
    (now : DateTime) : OnlyWrites tables (spendCapability capabilityHash now) := by
  cases capabilityHash with
  | none => exact onlyWrites_pure _
  | some hash =>
      exact onlyWrites_bind (onlyWrites_exec (fun _ _ _ => consumeCapability_write))
        (fun _ => onlyWrites_ensure _ _)

theorem checkBootstrap_writes {tables : List TableName} (kind : String) :
    OnlyWrites tables (checkBootstrap kind) := by
  unfold checkBootstrap
  split
  · exact onlyWrites_bind (onlyWrites_fetch _) (fun _ => onlyWrites_ensure _ _)
  · exact onlyWrites_pure _

theorem completeRegistration_writes (env : Env) (ceremonyId : Uuid)
    (capabilityHash : Option SecretHash) (credential : VerifiedCredential) (now : DateTime)
    (audit : AuditEvent) :
    OnlyWrites [.passkeyCredentials, .authAuditEvents]
      (completeRegistration env ceremonyId capabilityHash credential now audit) := by
  refine onlyWrites_transaction (onlyWrites_bind (onlyWrites_fetch _) fun _ => ?_)
  refine onlyWrites_bind (onlyWrites_exec (fun _ _ _ => consumeCeremony_write)) fun spent => ?_
  refine onlyWrites_bind (spentCeremony_writes spent) fun owner => ?_
  refine onlyWrites_bind (checkBootstrap_writes owner.2) fun _ => ?_
  refine onlyWrites_bind (spendCapability_writes capabilityHash now) fun _ => ?_
  refine onlyWrites_bind (onlyWrites_exec fun db a db' h => ?_) fun _ => ?_
  · obtain ⟨rfl, hfresh⟩ := insertPasskeyCredential_ok h
    exact .insertPasskeyCredential List.mem_cons_self hfresh
  · exact onlyWrites_bind (onlyWrites_exec (fun _ _ _ => completeRecoveries_write))
      (fun _ => onlyWrites_insertAudit (by simp) _ _)

theorem completeAuthentication_writes (ceremonyId : Uuid)
    (verification : AuthenticationVerification) (session : SessionRecord) (now : DateTime)
    (audit : AuditEvent) :
    OnlyWrites [.authSessions, .authAuditEvents]
      (completeAuthentication ceremonyId verification session now audit) := by
  refine onlyWrites_transaction ?_
  refine onlyWrites_bind (onlyWrites_exec (fun _ _ _ => consumeAuthentication_write)) fun _ => ?_
  refine onlyWrites_bind (onlyWrites_ensure _ _) fun _ => ?_
  refine onlyWrites_bind (onlyWrites_exec (fun _ _ _ => useCredential_write)) fun _ => ?_
  refine onlyWrites_bind (onlyWrites_ensure _ _) fun _ => ?_
  refine onlyWrites_bind (onlyWrites_exec fun db a db' h => ?_) fun _ => ?_
  · obtain ⟨rfl, hfresh⟩ := insertAuthSession_ok h
    exact .insertAuthSession List.mem_cons_self hfresh
  · exact onlyWrites_insertAudit (by simp) _ _

theorem session_writes {tables : List TableName} (tokenHash : SecretHash)
    (now idleExpiresAt : DateTime) : OnlyWrites tables (session tokenHash now idleExpiresAt) := by
  unfold session
  exact onlyWrites_useSession (fun _ _ _ _ h => touchSession_write h)

theorem rotateSessionCsrf_writes {tables : List TableName} (tokenHash csrfHash : SecretHash)
    (now idleExpiresAt : DateTime) :
    OnlyWrites tables (rotateSessionCsrf tokenHash csrfHash now idleExpiresAt) := by
  unfold rotateSessionCsrf
  exact onlyWrites_useSession (fun _ _ _ _ h => touchSessionCsrf_write h)

theorem deleteSession_writes {tables : List TableName} (env : Env) (tokenHash : SecretHash) :
    OnlyWrites tables (deleteSession env tokenHash) := by
  unfold deleteSession execute
  exact onlyWrites_exec (fun _ _ _ h => revokeSessions_write h)

theorem approveUserWithSetup_writes (env : Env) (user : User) (capability : Capability)
    (operatorId : UserId) (now : DateTime) :
    OnlyWrites [.humanUsers, .authCapabilities, .authAuditEvents]
      (approveUserWithSetup env user capability operatorId now) :=
  onlyWrites_transaction <|
    onlyWrites_bind (onlyWrites_insertHumanUser (by simp) _) fun _ =>
      onlyWrites_bind (onlyWrites_insertAuthCapability (by simp) _) fun _ =>
        onlyWrites_insertAudit (by simp) _ _

theorem rotateAllAuthEpochs_writes (now : DateTime) (reason : String) :
    OnlyWrites [.authAuditEvents] (rotateAllAuthEpochs now reason) :=
  onlyWrites_transaction <|
    onlyWrites_bind (onlyWrites_exec (fun _ _ _ => advanceEpochs_write)) fun _ =>
      onlyWrites_bind (onlyWrites_exec (fun _ _ _ => revokeSessions_write)) fun _ =>
        onlyWrites_bind (onlyWrites_exec (fun _ _ _ => consumeCeremonies_write)) fun _ =>
          onlyWrites_bind (onlyWrites_exec (fun _ _ _ => consumeCapabilities_write)) fun _ =>
            onlyWrites_bind (onlyWrites_insertAudit (by simp) _ _) fun _ => onlyWrites_pure _

theorem approveRecovery_writes (recoveryId : Uuid) (operatorId : UserId) (now : DateTime) :
    OnlyWrites [.authAuditEvents] (approveRecovery recoveryId operatorId now) :=
  onlyWrites_transaction <|
    onlyWrites_bind (onlyWrites_exec (fun _ _ _ => approveRequest_write)) fun _ =>
      onlyWrites_bind (onlyWrites_okOr _ _) fun _ =>
        onlyWrites_bind (onlyWrites_invalidateUserAuth _ _) fun _ =>
          onlyWrites_bind (onlyWrites_ofExcept _) fun _ => onlyWrites_insertAudit (by simp) _ _

theorem issueRecoverySetup_writes (env : Env) (recoveryId : Uuid) (capability : Capability)
    (operatorId : UserId) (now : DateTime) :
    OnlyWrites [.authCapabilities, .authAuditEvents]
      (issueRecoverySetup env recoveryId capability operatorId now) :=
  onlyWrites_transaction <|
    onlyWrites_bind (onlyWrites_exec (fun _ _ _ => issueSetup_write)) fun _ =>
      onlyWrites_bind (onlyWrites_ensure _ _) fun _ =>
        onlyWrites_bind (onlyWrites_insertAuthCapability (by simp) _) fun _ =>
          onlyWrites_insertAudit (by simp) _ _

theorem breakGlass_writes (env : Env) (credentialId : Uuid) (capability : Capability)
    (now : DateTime) (reason : String) :
    OnlyWrites [.authCapabilities, .authAuditEvents]
      (breakGlass env credentialId capability now reason) :=
  onlyWrites_transaction <|
    onlyWrites_bind (onlyWrites_exec (fun _ _ _ => revokeOperatorCredential_write)) fun _ =>
      onlyWrites_bind (onlyWrites_okOr _ _) fun _ =>
        onlyWrites_bind (onlyWrites_ensure _ _) fun _ =>
          onlyWrites_bind (onlyWrites_invalidateUserAuth _ _) fun _ =>
            onlyWrites_bind (onlyWrites_insertAuthCapability (by simp) _) fun _ =>
              onlyWrites_insertAudit (by simp) _ _

theorem method_writes (env : Env) (c : AuthCall) : OnlyWrites c.inserts (method env c) := by
  cases c with
  | userById => exact onlyWrites_bind (onlyWrites_fetch _) (fun _ => onlyWrites_ofExcept _)
  | userByHandle => exact onlyWrites_bind (onlyWrites_fetch _) (fun _ => onlyWrites_ofExcept _)
  | credentialsForUser =>
      exact onlyWrites_bind (onlyWrites_fetch _) (fun _ => onlyWrites_ofExcept _)
  | operatorWithoutCredential =>
      exact onlyWrites_bind (onlyWrites_fetch _) (fun _ => onlyWrites_ofExcept _)
  | operatorExists => exact onlyWrites_fetch _
  | operatorRecoveryWindow =>
      exact onlyWrites_bind (onlyWrites_fetch _) (fun _ => onlyWrites_ofExcept _)
  | capability => exact onlyWrites_bind (onlyWrites_fetch _) (fun _ => onlyWrites_ofExcept _)
  | ceremony => exact onlyWrites_bind (onlyWrites_fetch _) (fun _ => onlyWrites_ofExcept _)
  | pendingRecoveries =>
      exact onlyWrites_bind (onlyWrites_fetch _) (fun _ => onlyWrites_ofExcept _)
  | insertCapability => exact onlyWrites_insertAuthCapability List.mem_cons_self _
  | insertUser =>
      exact onlyWrites_transaction (onlyWrites_bind
        (onlyWrites_insertHumanUser List.mem_cons_self _)
        (fun _ => onlyWrites_insertAudit (by simp [AuthCall.inserts]) _ _))
  | approveUserWithSetup => exact approveUserWithSetup_writes _ _ _ _ _
  | rotateAllAuthEpochs => exact rotateAllAuthEpochs_writes _ _
  | insertCeremony ceremony =>
      refine onlyWrites_exec (fun db a db' h => ?_)
      obtain ⟨rfl, hfresh⟩ := insertAuthCeremony_ok h
      exact .insertAuthCeremony List.mem_cons_self hfresh
  | completeRegistration => exact completeRegistration_writes _ _ _ _ _ _
  | completeAuthentication => exact completeAuthentication_writes _ _ _ _ _
  | session => exact session_writes _ _ _
  | rotateSessionCsrf => exact rotateSessionCsrf_writes _ _ _ _
  | deleteSession => exact deleteSession_writes _ _
  | createRecovery userId now =>
      refine onlyWrites_bind (onlyWrites_exec fun db a db' h => ?_) (fun _ => onlyWrites_pure _)
      obtain ⟨rfl, hfresh⟩ := insertRecoveryRequest_ok h
      exact .insertRecoveryRequest List.mem_cons_self hfresh
  | approveRecovery => exact approveRecovery_writes _ _ _
  | issueRecoverySetup => exact issueRecoverySetup_writes _ _ _ _ _
  | breakGlass => exact breakGlass_writes _ _ _ _ _

/-! ## What a call keeps -/

variable {env : Env} {c : AuthCall} {db db' : Database} {r : c.Answer}

theorem yields_of_perform (h : perform env c db = (r, db')) :
    Tx.Yields (method env c) db r db' := by
  obtain ⟨rfl, rfl⟩ := Prod.mk.inj h
  exact ⟨env.left, (method env c ⟨db, env.left⟩).2.left, rfl⟩

theorem perform_writes (h : perform env c db = (r, db')) : Writes c.inserts db db' :=
  method_writes env c _ _ _ (yields_of_perform h)

/-- **Whatever a call does, it keeps every row and what is fixed about it.** -/
theorem perform_evolves (h : perform env c db = (r, db')) : Evolves db db' :=
  (perform_writes h).evolves

theorem perform_consistent (h : perform env c db = (r, db')) (hc : Database.Consistent db) :
    Database.Consistent db' :=
  (perform_writes h).consistent hc

theorem perform_rowCount (h : perform env c db = (r, db')) {t : TableName} (ht : t ∉ c.inserts) :
    db'.rowCount t = db.rowCount t :=
  (perform_writes h).rowCount_eq ht

end PgAuthStore

end RsConsole
