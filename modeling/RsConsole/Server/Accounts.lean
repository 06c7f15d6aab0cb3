import RsConsole.Library.Journal
import RsConsole.Server.Sessions

set_option autoImplicit false

/-! # The audit log accounts for every change of authority

Eight transactions change what a user may do, and each writes its audit event by hand, with the
subject taken from another place: the ceremony, the row it returned, the capability. `Booked` says
what one transaction has to get right; the log then gives back the numbers of credentials, sessions
and capabilities and the epoch of every user. -/

namespace RsConsole

open Library Library.Table Database PgAuthStore

variable {τ : Type}

/-! ## Accounts -/

/-- The event is of one of these types and has the subject `u`. -/
def concerns (types : List String) (u : String) (event : AuthAuditEvent) : Bool :=
  decide (event.eventType ∈ types) && decide (event.subjectUserId = some u)

/-- The event rotated all epochs. -/
def rotates (event : AuthAuditEvent) : Bool := event.eventType = "auth.epoch_rotated_all"

/-- The events that raise the epoch of `u`. -/
def raises (u : String) (event : AuthAuditEvent) : Bool :=
  concerns ["recovery.approved", "operator.break_glass_opened"] u event || rotates event

/-- No event does both. -/
theorem countP_raises (u : String) (events : List AuthAuditEvent) :
    events.countP (raises u) =
      events.countP (concerns ["recovery.approved", "operator.break_glass_opened"] u) +
        events.countP rotates := by
  induction events with
  | nil => rfl
  | cons event events ih =>
      rw [List.countP_cons, List.countP_cons, List.countP_cons, ih]
      by_cases hrotates : rotates event = true
      · have htype : event.eventType = "auth.epoch_rotated_all" := of_decide_eq_true hrotates
        have hnot : concerns ["recovery.approved", "operator.break_glass_opened"] u event = false := by
          simp [concerns, htype]
        simp only [raises, hrotates, hnot, Bool.false_or, Bool.false_eq_true, if_true, if_false]
        omega
      · simp only [raises, hrotates, Bool.or_false, Bool.false_eq_true, if_false]
        omega

/-- The events that issue a capability. -/
def issues : List String :=
  ["user.approved_with_setup", "recovery.setup_issued", "operator.break_glass_opened"]

namespace Database

def credentialsOf (u : String) (db : Database) : ℕ :=
  db.passkeyCredentials.countP (fun c => decide (c.userId = u))

def revokedCredentialsOf (u : String) (db : Database) : ℕ :=
  db.passkeyCredentials.countP (fun c => decide (c.userId = u) && decide (c.revokedAt ≠ none))

/-- The sessions of `u` that were ever created: rows are never deleted. -/
def sessionsOf (u : String) (db : Database) : ℕ :=
  db.authSessions.countP (fun s => decide (s.userId = u))

/-- The capabilities that were ever issued to `u`. -/
def capabilitiesOf (u : String) (db : Database) : ℕ :=
  db.authCapabilities.countP (fun c => decide (c.userId = u))

/-- The logged events of these types with subject `u`. -/
def eventsFor (types : List String) (u : String) (db : Database) : ℕ :=
  db.authAuditEvents.countP (concerns types u)

end Database

/-- Nothing that the audit log accounts for is different. -/
structure SameAccounts (db db' : Database) : Prop where
  log : db'.authAuditEvents = db.authAuditEvents
  users : db'.humanUsers = db.humanUsers
  credentials : db'.passkeyCredentials = db.passkeyCredentials
  capabilities : db'.authCapabilities = db.authCapabilities
  sessions : db'.authSessions.map (·.userId) = db.authSessions.map (·.userId)

/-- The events `added` account for what changed of `u`. -/
structure Booked (u : String) (db db' : Database) (added : List AuthAuditEvent) : Prop where
  log : db'.authAuditEvents = db.authAuditEvents ++ added
  credentials : db'.credentialsOf u =
    db.credentialsOf u + added.countP (concerns ["passkey.registered"] u)
  sessions : db'.sessionsOf u = db.sessionsOf u + added.countP (concerns ["session.created"] u)
  revoked : db'.revokedCredentialsOf u =
    db.revokedCredentialsOf u + added.countP (concerns ["operator.break_glass_opened"] u)
  capabilities : db'.capabilitiesOf u = db.capabilitiesOf u + added.countP (concerns issues u)
  epochs : ∀ r ∈ db.humanUsers, r.id = u → ∃ r' ∈ db'.humanUsers, r'.id = u ∧
    r'.authEpoch = r.authEpoch + (added.countP (raises u) : ℕ)

theorem sessionsOf_eq {u : String} {db db' : Database}
    (h : db'.authSessions.map (·.userId) = db.authSessions.map (·.userId)) :
    db'.sessionsOf u = db.sessionsOf u := by
  have hcount : ∀ db : Database, db.sessionsOf u =
      (db.authSessions.map (·.userId)).countP (fun id => decide (id = u)) := by
    intro db
    rw [List.countP_map]
    rfl
  rw [hcount, hcount, h]

theorem SameAccounts.booked {db db' : Database} (h : SameAccounts db db') (u : String) :
    Booked u db db' [] where
  log := by rw [h.log, List.append_nil]
  credentials := by simp [credentialsOf, h.credentials]
  sessions := sessionsOf_eq h.sessions
  revoked := by simp [revokedCredentialsOf, h.credentials]
  capabilities := by simp [capabilitiesOf, h.capabilities]
  epochs := fun r hr hid => ⟨r, by rw [h.users]; exact hr, hid, by simp⟩

/-- The call changes what somebody may do. -/
def AuthCall.entitles : AuthCall → Bool
  | .insertCapability _ => true
  | .insertUser .. => true
  | .approveUserWithSetup .. => true
  | .rotateAllAuthEpochs .. => true
  | .completeRegistration .. => true
  | .completeAuthentication .. => true
  | .approveRecovery .. => true
  | .issueRecoverySetup .. => true
  | .breakGlass .. => true
  | _ => false

theorem sameAccounts_of_sessions {db : Database} {p : AuthSession → Bool}
    {f : AuthSession → AuthSession} (hf : ∀ s, (f s).userId = s.userId) :
    SameAccounts db { db with authSessions := updateWhere p f db.authSessions } :=
  ⟨rfl, rfl, rfl, rfl, updateWhere_map (fun s _ => hf s) _⟩

/-- The other calls change nothing that the log accounts for. -/
theorem Commits.sameAccounts {env : Env} {db db' : Database} {c : AuthCall}
    (h : Commits env db c db') (hnot : c.entitles = false) : SameAccounts db db' := by
  cases h with
  | unchanged => exact ⟨rfl, rfl, rfl, rfl, rfl⟩
  | insertCeremony => exact ⟨rfl, rfl, rfl, rfl, rfl⟩
  | createRecovery => exact ⟨rfl, rfl, rfl, rfl, rfl⟩
  | session => exact sameAccounts_of_sessions fun _ => rfl
  | rotateSessionCsrf => exact sameAccounts_of_sessions fun _ => rfl
  | deleteSession => exact sameAccounts_of_sessions fun _ => rfl
  | _ => cases hnot

/-! ## The transactions that change an account -/

/-- What has to be true of the arguments of a call, so that its event names who is concerned. -/
def AuthCall.Attributed (db : Database) : AuthCall → Prop
  | .insertCapability _ => False
  | .insertUser user _ audit => user.authEpoch = 1 ∧ audit.eventType = "operator.seeded"
  | .approveUserWithSetup user issued _ _ => user.authEpoch = 1 ∧ issued.userId = user.id
  | .completeRegistration ceremonyId _ _ _ audit =>
      audit.eventType = "passkey.registered" ∧
        ∀ ceremony ∈ db.authCeremonies, ceremony.id = ceremonyId →
          ceremony.userId = audit.subjectUserId.map (·.value)
  | .completeAuthentication _ _ created _ audit =>
      audit.eventType = "session.created" ∧ audit.subjectUserId = some created.userId
  | _ => True

section

variable {db : Database} {u : String} {now clock : DateTime}

theorem booked_insertUser {user : User} {audit : AuditEvent}
    (htype : audit.eventType = "operator.seeded") :
    Booked u db ({ db with humanUsers := db.humanUsers ++ [user.row now] }.logged (audit.row now))
      [audit.row now] where
  log := rfl
  credentials := by simp [credentialsOf, logged, concerns, AuditEvent.row, htype]
  sessions := by simp [sessionsOf, logged, concerns, AuditEvent.row, htype]
  revoked := by simp [revokedCredentialsOf, logged, concerns, AuditEvent.row, htype]
  capabilities := by simp [capabilitiesOf, logged, concerns, issues, AuditEvent.row, htype]
  epochs := fun r hr hid => ⟨r, List.mem_append_left _ hr, hid,
    by simp [raises, rotates, concerns, AuditEvent.row, htype]⟩

theorem booked_approveUserWithSetup {user : User} {capability : Capability} {operatorId : UserId}
    (hsubject : capability.userId = user.id) :
    Booked u db ({ db with
        humanUsers := db.humanUsers ++ [user.row now]
        authCapabilities := db.authCapabilities ++ [capability.row clock] }.logged
          ((approvedWithSetup user capability operatorId).row now))
      [(approvedWithSetup user capability operatorId).row now] where
  log := rfl
  credentials := by simp [credentialsOf, logged, concerns, AuditEvent.row, approvedWithSetup]
  sessions := by simp [sessionsOf, logged, concerns, AuditEvent.row, approvedWithSetup]
  revoked := by simp [revokedCredentialsOf, logged, concerns, AuditEvent.row, approvedWithSetup]
  capabilities := by
    simp [capabilitiesOf, logged, concerns, issues, AuditEvent.row, approvedWithSetup,
      Capability.row, hsubject]
  epochs := fun r hr hid => ⟨r, List.mem_append_left _ hr, hid,
    by simp [raises, rotates, concerns, AuditEvent.row, approvedWithSetup]⟩

/-- The capability, consumed. -/
def spent (now : DateTime) (c : AuthCapability) : AuthCapability := { c with consumedAt := some now }

/-- The credential after a login. -/
def loggedInWith (publicData : Value) (now : DateTime) (c : PasskeyCredential) : PasskeyCredential :=
  { c with publicData, lastUsedAt := some now }

theorem sessionsOf_logged (event : AuthAuditEvent) :
    (db.logged event).sessionsOf u = db.sessionsOf u := rfl

theorem capabilitiesOf_logged (event : AuthAuditEvent) :
    (db.logged event).capabilitiesOf u = db.capabilitiesOf u := rfl

theorem sessionsOf_invalidated (db : Database) (p : String → Bool) (q : Option String → Bool) :
    (db.invalidated p q now).sessionsOf u = db.sessionsOf u :=
  countP_updateWhere (f := Database.revoked now) (fun _ _ => rfl) _

theorem capabilitiesOf_invalidated (db : Database) (p : String → Bool) (q : Option String → Bool) :
    (db.invalidated p q now).capabilitiesOf u = db.capabilitiesOf u :=
  countP_updateWhere (f := spent now) (fun _ _ => rfl) _

theorem epoch_invalidated (p : String → Bool) (q : Option String → Bool) (now : DateTime)
    {r : HumanUser} (hr : r ∈ db.humanUsers) :
    ∃ r' ∈ (db.invalidated p q now).humanUsers, r'.id = r.id ∧
      r'.authEpoch = r.authEpoch + if p r.id then 1 else 0 :=
  exists_mem_updateWhere hr (fun hp => ⟨rfl, by rw [if_pos hp]; rfl⟩)
    (fun hp => ⟨rfl, by simp [hp]⟩)

theorem booked_rotateAllAuthEpochs {reason : String} {users : ℕ} :
    Booked u db ((db.invalidated (fun _ => true) (fun _ => true) now).logged
        ((epochRotatedAll reason users).row now))
      [(epochRotatedAll reason users).row now] where
  log := rfl
  credentials := by
    simp [credentialsOf, invalidated, logged, concerns, AuditEvent.row, epochRotatedAll]
  sessions := by
    rw [sessionsOf_logged, sessionsOf_invalidated]
    simp [concerns, AuditEvent.row, epochRotatedAll]
  revoked := by
    simp [revokedCredentialsOf, invalidated, logged, concerns, AuditEvent.row, epochRotatedAll]
  capabilities := by
    rw [capabilitiesOf_logged, capabilitiesOf_invalidated]
    simp [concerns, AuditEvent.row, epochRotatedAll]
  epochs := by
    intro r hr hid
    obtain ⟨r', hr', hid', hepoch⟩ := epoch_invalidated (fun _ => true) (fun _ => true) now hr
    refine ⟨r', hr', hid'.trans hid, ?_⟩
    rw [hepoch]
    simp [raises, rotates, concerns, AuditEvent.row, epochRotatedAll]

theorem booked_completeRegistration {ceremonyId : Uuid} {capabilityHash : Option SecretHash}
    {row : PasskeyCredential} {subject : Option String} {audit : AuditEvent}
    (hrow : row.revokedAt = none) (htype : audit.eventType = "passkey.registered")
    (hsubject : audit.subjectUserId.map (·.value) = some row.userId) :
    Booked u db ((db.enrolled ceremonyId capabilityHash row subject now).logged (audit.row now))
      [audit.row now] where
  log := rfl
  credentials := by
    simp [credentialsOf, enrolled, logged, concerns, AuditEvent.row, htype, hsubject]
  sessions := by simp [sessionsOf, enrolled, logged, concerns, AuditEvent.row, htype]
  revoked := by
    simp [revokedCredentialsOf, enrolled, logged, concerns, AuditEvent.row, htype, hrow]
  capabilities := by
    refine (countP_updateWhere (f := spent now) (fun _ _ => rfl) _).trans ?_
    simp [capabilitiesOf, concerns, issues, AuditEvent.row, htype]
  epochs := fun r hr hid => ⟨r, hr, hid,
    by simp [raises, rotates, concerns, AuditEvent.row, htype]⟩

theorem booked_completeAuthentication {ceremonyId : Uuid}
    {verification : AuthenticationVerification} {session : SessionRecord} {audit : AuditEvent}
    (htype : audit.eventType = "session.created")
    (hsubject : audit.subjectUserId = some session.userId) :
    Booked u db ((db.entered ceremonyId verification session now).logged (audit.row now))
      [audit.row now] where
  log := rfl
  credentials := by
    refine (countP_updateWhere (f := loggedInWith _ now) (fun _ _ => rfl) _).trans ?_
    simp [credentialsOf, concerns, AuditEvent.row, htype]
  sessions := by
    simp [sessionsOf, entered, logged, concerns, AuditEvent.row, SessionRecord.row, htype, hsubject]
  revoked := by
    refine (countP_updateWhere (f := loggedInWith _ now) (fun _ _ => rfl) _).trans ?_
    simp [revokedCredentialsOf, concerns, AuditEvent.row, htype]
  capabilities := by
    simp [capabilitiesOf, entered, logged, concerns, issues, AuditEvent.row, htype]
  epochs := fun r hr hid => ⟨r, hr, hid,
    by simp [raises, rotates, concerns, AuditEvent.row, htype]⟩

theorem booked_approveRecovery {recoveryId : Uuid} {operatorId subject : UserId}
    {requests : List Database.RecoveryRequest} :
    Booked u db ((({ db with recoveryRequests := requests } : Database).invalidatedUser subject.value
        now).logged ((recoveryApproved recoveryId operatorId subject).row now))
      [(recoveryApproved recoveryId operatorId subject).row now] where
  log := rfl
  credentials := by
    simp [credentialsOf, invalidatedUser, invalidated, logged, concerns, AuditEvent.row,
      recoveryApproved]
  sessions := by
    rw [sessionsOf_logged, invalidatedUser, sessionsOf_invalidated]
    simp [sessionsOf, concerns, AuditEvent.row, recoveryApproved]
  revoked := by
    simp [revokedCredentialsOf, invalidatedUser, invalidated, logged, concerns, AuditEvent.row,
      recoveryApproved]
  capabilities := by
    rw [capabilitiesOf_logged, invalidatedUser, capabilitiesOf_invalidated]
    simp [capabilitiesOf, concerns, issues, AuditEvent.row, recoveryApproved]
  epochs := by
    intro r hr hid
    obtain ⟨r', hr', hid', hepoch⟩ := epoch_invalidated (fun id => id = subject.value)
      (fun id => id = some subject.value) now hr
    refine ⟨r', hr', hid'.trans hid, ?_⟩
    rw [hepoch, hid]
    by_cases hu : subject.value = u
    · simp [raises, rotates, concerns, AuditEvent.row, recoveryApproved, hu]
    · simp [raises, rotates, concerns, AuditEvent.row, recoveryApproved, hu, Ne.symm hu]

theorem booked_issueRecoverySetup {recoveryId : Uuid} {capability : Capability}
    {operatorId : UserId} {requests : List Database.RecoveryRequest} :
    Booked u db ({ db with
        recoveryRequests := requests
        authCapabilities := db.authCapabilities ++ [capability.row clock] }.logged
          ((setupIssued recoveryId capability operatorId).row now))
      [(setupIssued recoveryId capability operatorId).row now] where
  log := rfl
  credentials := by simp [credentialsOf, logged, concerns, AuditEvent.row, setupIssued]
  sessions := by simp [sessionsOf, logged, concerns, AuditEvent.row, setupIssued]
  revoked := by simp [revokedCredentialsOf, logged, concerns, AuditEvent.row, setupIssued]
  capabilities := by
    simp [capabilitiesOf, logged, concerns, issues, AuditEvent.row, setupIssued, Capability.row]
  epochs := fun r hr hid => ⟨r, hr, hid,
    by simp [raises, rotates, concerns, AuditEvent.row, setupIssued]⟩

/-- A break-glass revokes the one unrevoked credential with its id. -/
theorem booked_breakGlass {credentialId : Uuid} {capability : Capability} {reason : String}
    {c : PasskeyCredential} {operator : HumanUser} (hkeyed : Keyed (·.id) db.passkeyCredentials)
    (hmem : c ∈ db.passkeyCredentials) (hid : c.id = credentialId) (hunrevoked : c.revokedAt = none)
    (howner : c.userId = capability.userId.value) (hoperator : operator ∈ db.humanUsers)
    (huser : operator.id = c.userId) (hrole : operator.role = "operator") :
    Booked u db
      ({ ({ db with
        passkeyCredentials := updateWhere
          (fun c => decide (c.id = credentialId ∧ c.revokedAt = none ∧
            ∃ u ∈ db.humanUsers, u.id = c.userId ∧ u.role = "operator"))
          (fun c => { c with revokedAt := some now }) db.passkeyCredentials } :
            Database).invalidatedUser capability.userId.value now with
        authCapabilities := (db.invalidatedUser capability.userId.value now).authCapabilities ++
          [capability.row clock] }.logged
            ((breakGlassOpened credentialId capability reason).row now))
      [(breakGlassOpened credentialId capability reason).row now] where
  log := rfl
  credentials := by
    refine (countP_updateWhere (f := fun c : PasskeyCredential =>
      { c with revokedAt := some now }) (fun _ _ => rfl) _).trans ?_
    simp [credentialsOf, concerns, AuditEvent.row, breakGlassOpened]
  sessions := by
    refine (sessionsOf_invalidated db (fun id => id = capability.userId.value)
      (fun id => id = some capability.userId.value)).trans ?_
    simp [concerns, AuditEvent.row, breakGlassOpened]
  revoked := by
    refine (hkeyed.countP_updateWhere_one hmem (fun r hr => ?_) (by simp [hunrevoked])).trans ?_
    · rw [decide_eq_true_eq]
      -- ids are unique, so the `WHERE` picks the named credential and no other
      constructor
      · rintro ⟨hr', -⟩
        exact hkeyed.eq_of_mem hr hmem (hr'.trans hid.symm)
      · rintro rfl
        exact ⟨hid, hunrevoked, operator, hoperator, huser, hrole⟩
    · simp [revokedCredentialsOf, concerns, AuditEvent.row, breakGlassOpened, howner]
  capabilities := by
    rw [capabilitiesOf_logged]
    refine (List.countP_append ..).trans (congrArg₂ (· + ·)
      (capabilitiesOf_invalidated db (fun id => id = capability.userId.value) _) ?_)
    simp [concerns, issues, AuditEvent.row, breakGlassOpened, Capability.row]
  epochs := by
    intro r hr hid
    obtain ⟨r', hr', hid', hepoch⟩ := epoch_invalidated (fun id => id = capability.userId.value)
      (fun id => id = some capability.userId.value) now hr
    refine ⟨r', hr', hid'.trans hid, ?_⟩
    rw [hepoch, hid]
    by_cases hu : capability.userId.value = u
    · simp [raises, rotates, concerns, AuditEvent.row, breakGlassOpened, hu]
    · simp [raises, rotates, concerns, AuditEvent.row, breakGlassOpened, hu, Ne.symm hu]

end

namespace Commits

variable {env : Env} {db db' : Database} {c : AuthCall}

/-- **What a commit changes, its event accounts for.** -/
theorem booked (h : Commits env db c db') (hc : c.Attributed db)
    (hkeyed : Keyed (·.id) db.passkeyCredentials) (u : String) : ∃ added, Booked u db db' added := by
  by_cases hnot : c.entitles = false
  · exact ⟨[], (h.sameAccounts hnot).booked u⟩
  cases h with
  | insertCapability => exact hc.elim
  | insertUser => exact ⟨_, booked_insertUser hc.2⟩
  | approveUserWithSetup => exact ⟨_, booked_approveUserWithSetup hc.2⟩
  | rotateAllAuthEpochs => exact ⟨_, booked_rotateAllAuthEpochs⟩
  | completeRegistration ceremonyId hash credential now audit ceremony userId mem id live owner =>
      exact ⟨_, booked_completeRegistration rfl hc.1 ((hc.2 ceremony mem id).symm.trans owner)⟩
  | completeAuthentication => exact ⟨_, booked_completeAuthentication hc.1 hc.2⟩
  | approveRecovery => exact ⟨_, booked_approveRecovery⟩
  | issueRecoverySetup => exact ⟨_, booked_issueRecoverySetup⟩
  | breakGlass credentialId capability now reason c u mem id unrevoked owner user userId role =>
      exact ⟨_, booked_breakGlass hkeyed mem id unrevoked owner user userId role⟩
  | unchanged c reads => cases c <;> simp [AuthCall.reads, AuthCall.entitles] at reads hnot
  | _ => exact absurd rfl hnot

/-- A new user has the epoch 1. -/
theorem newUser (h : Commits env db c db') (hc : c.Attributed db) {r : HumanUser}
    (hr : r ∈ db'.humanUsers) (hnew : ∀ r' ∈ db.humanUsers, r'.id ≠ r.id) : r.authEpoch = 1 := by
  rcases h.humanUsers_cases with ⟨user, now, audit, rfl, hrows⟩ |
    ⟨user, capability, operatorId, now, rfl, hrows⟩ | ⟨-, p, now, hrows⟩
  · rw [hrows, List.mem_append, List.mem_singleton] at hr
    rcases hr with hr | rfl
    · exact absurd rfl (hnew r hr)
    · exact hc.1
  · rw [hrows, List.mem_append, List.mem_singleton] at hr
    rcases hr with hr | rfl
    · exact absurd rfl (hnew r hr)
    · exact hc.1
  · rw [hrows] at hr
    obtain ⟨r', hr', rfl⟩ := mem_updateWhere.1 hr
    refine absurd ?_ (hnew r' hr')
    split <;> rfl

end Commits

/-! ## Whose events raise an epoch

A recovery is requested for a user who exists, and a break-glass revokes the credential of one; so no
event raises the epoch of a user before there is one. -/

/-- Recoveries, and the events that raise a user's epoch, belong to users. -/
structure RaisesUsers (db : Database) : Prop where
  requests : ∀ r ∈ db.recoveryRequests, db.hasUser r.userId = true
  events : ∀ event ∈ db.authAuditEvents, ∀ u,
    concerns ["recovery.approved", "operator.break_glass_opened"] u event = true →
    db.hasUser u = true

theorem hasUser_iff {db : Database} {id : String} :
    db.hasUser id = true ↔ ∃ u ∈ db.humanUsers, u.id = id := by
  simp [hasUser]

theorem Database.Evolves.hasUser {db db' : Database} (h : Evolves db db') {id : String}
    (hid : db.hasUser id = true) : db'.hasUser id = true := by
  obtain ⟨u, hu, rfl⟩ := hasUser_iff.1 hid
  obtain ⟨u', hu', hbecomes⟩ := h.humanUsers.exists_of_mem hu
  exact hasUser_iff.2 ⟨u', hu', by rw [hbecomes.fixed]⟩

namespace Commits

variable {env : Env} {db db' : Database} {c : AuthCall}

theorem recoveryRequests_cases (h : Commits env db c db') :
    ∀ r' ∈ db'.recoveryRequests, (∃ r ∈ db.recoveryRequests, r.userId = r'.userId) ∨
      db.hasUser r'.userId = true := by
  intro r' hr'
  have hupdated : ∀ (p : Database.RecoveryRequest → Bool) f,
      r' ∈ updateWhere p f db.recoveryRequests → (∀ r, (f r).userId = r.userId) →
      ∃ r ∈ db.recoveryRequests, r.userId = r'.userId := by
    intro p f hmem hf
    obtain ⟨r, hr, rfl⟩ := mem_updateWhere.1 hmem
    refine ⟨r, hr, ?_⟩
    split
    · exact (hf r).symm
    · rfl
  cases h with
  | completeRegistration => exact Or.inl (hupdated _ _ hr' (fun _ => rfl))
  | approveRecovery => exact Or.inl (hupdated _ _ hr' (fun _ => rfl))
  | issueRecoverySetup => exact Or.inl (hupdated _ _ hr' (fun _ => rfl))
  | createRecovery userId now owner =>
      rcases List.mem_append.1 hr' with hr' | hr'
      · exact Or.inl ⟨r', hr', rfl⟩
      · cases List.mem_singleton.1 hr'
        exact Or.inr owner
  | _ => exact Or.inl ⟨r', hr', rfl⟩

theorem raising_cases (h : Commits env db c db') (hc : c.Attributed db) (hdb : RaisesUsers db) :
    ∀ event ∈ db'.authAuditEvents, ∀ u,
      concerns ["recovery.approved", "operator.break_glass_opened"] u event = true →
      event ∈ db.authAuditEvents ∨ db.hasUser u = true := by
  intro event hevent u hu
  have hlogged : ∀ added, event ∈ db.authAuditEvents ++ [added] →
      (concerns ["recovery.approved", "operator.break_glass_opened"] u added = true →
        db.hasUser u = true) →
      event ∈ db.authAuditEvents ∨ db.hasUser u = true := by
    intro added hmem hadded
    rcases List.mem_append.1 hmem with hmem | hmem
    · exact Or.inl hmem
    · rw [List.mem_singleton.1 hmem] at hu
      exact Or.inr (hadded hu)
  cases h with
  | insertUser => exact hlogged _ hevent (by simp [concerns, AuditEvent.row, hc.2])
  | approveUserWithSetup =>
      exact hlogged _ hevent (by simp [concerns, AuditEvent.row, approvedWithSetup])
  | rotateAllAuthEpochs =>
      exact hlogged _ hevent (by simp [concerns, AuditEvent.row, epochRotatedAll])
  | completeRegistration => exact hlogged _ hevent (by simp [concerns, AuditEvent.row, hc.1])
  | completeAuthentication => exact hlogged _ hevent (by simp [concerns, AuditEvent.row, hc.1])
  | issueRecoverySetup => exact hlogged _ hevent (by simp [concerns, AuditEvent.row, setupIssued])
  -- the two statements that write a raising event; what they name has to be a user's id
  | approveRecovery recoveryId operatorId now r subject mem id pending owner =>
      refine hlogged _ hevent fun hu => ?_
      simp only [concerns, AuditEvent.row, recoveryApproved, Option.map_some, Option.some.injEq,
        Bool.and_eq_true, decide_eq_true_eq] at hu
      rw [← hu.2, ← owner]
      exact hdb.requests r mem
  | breakGlass credentialId capability now reason c operator mem id unrevoked owner user userId =>
      refine hlogged _ hevent fun hu => hasUser_iff.2 ⟨operator, user, ?_⟩
      simp only [concerns, AuditEvent.row, breakGlassOpened, Option.map_some, Option.some.injEq,
        Bool.and_eq_true, decide_eq_true_eq] at hu
      rw [← hu.2, ← owner, userId]
  | _ => exact Or.inl hevent

theorem raisesUsers (h : Commits env db c db') (hc : c.Attributed db) (hevolves : Evolves db db')
    (hdb : RaisesUsers db) : RaisesUsers db' where
  requests := by
    intro r' hr'
    rcases h.recoveryRequests_cases r' hr' with ⟨r, hr, huser⟩ | huser
    · rw [← huser]
      exact hevolves.hasUser (hdb.requests r hr)
    · exact hevolves.hasUser huser
  events := by
    intro event hevent u hu
    rcases h.raising_cases hc hdb event hevent u hu with hold | huser
    · exact hevolves.hasUser (hdb.events event hold u hu)
    · exact hevolves.hasUser huser

end Commits

end RsConsole
