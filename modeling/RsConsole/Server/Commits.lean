import RsConsole.Server.Runs

set_option autoImplicit false

/-! # What a call commits

`Commits` says once what every call of the store can change: the database after it, as a function of
the one before, under the conditions that its statements check. A call that succeeds commits; a call
that fails leaves the database as it was, except that `session` and `rotate_session_csrf` decode the
rows they found after their commit. What a run keeps of sessions, recoveries and the audit log is
proved from `Commits` alone. -/

namespace RsConsole

open Library Library.Table Database

/-- The calls that may succeed and change nothing. -/
def AuthCall.reads : AuthCall → Bool
  | .userById _ => true
  | .userByHandle _ => true
  | .credentialsForUser _ => true
  | .operatorWithoutCredential => true
  | .operatorExists => true
  | .operatorRecoveryWindow _ => true
  | .capability .. => true
  | .ceremony .. => true
  | .session .. => true
  | .rotateSessionCsrf .. => true
  | .pendingRecoveries => true
  | _ => false

namespace Database

/-- The database with another audit event. -/
def logged (event : AuthAuditEvent) (db : Database) : Database :=
  { db with authAuditEvents := db.authAuditEvents ++ [event] }

/-- The user with the next epoch. -/
def advanced (now : DateTime) (u : HumanUser) : HumanUser :=
  { u with authEpoch := u.authEpoch + 1, updatedAt := now }

/-- The four updates of an invalidation: on the rows of the users that `p` selects, and on the
    ceremonies whose user `q` selects. -/
def invalidated (p : String → Bool) (q : Option String → Bool) (now : DateTime) (db : Database) :
    Database :=
  { db with
    humanUsers := updateWhere (fun u => p u.id) (advanced now) db.humanUsers
    authSessions := updateWhere (fun s => p s.userId && decide (s.revokedAt = none))
      (fun s => { s with revokedAt := some now }) db.authSessions
    authCeremonies := updateWhere (fun c => q c.userId && decide (c.consumedAt = none))
      (fun c => { c with consumedAt := some now }) db.authCeremonies
    authCapabilities := updateWhere (fun c => p c.userId && decide (c.consumedAt = none))
      (fun c => { c with consumedAt := some now }) db.authCapabilities }

/-- `invalidated` for one user. -/
def invalidatedUser (userId : String) (now : DateTime) (db : Database) : Database :=
  db.invalidated (fun id => id = userId) (fun id => id = some userId) now

/-- A registration: it spends its ceremony and its capability, adds the credential, and closes the
    recoveries of `subject` whose setup was issued. -/
def enrolled (ceremonyId : Uuid) (capabilityHash : Option SecretHash) (row : PasskeyCredential)
    (subject : Option String) (now : DateTime) (db : Database) : Database :=
  { db with
    authCeremonies := updateWhere (fun c => decide (c.id = ceremonyId ∧ c.Live now))
      (fun c => { c with consumedAt := some now }) db.authCeremonies
    authCapabilities := updateWhere
      (fun c => decide (some c.tokenHash = capabilityHash.map (·.asBytes) ∧ c.Live now))
      (fun c => { c with consumedAt := some now }) db.authCapabilities
    passkeyCredentials := db.passkeyCredentials ++ [row]
    recoveryRequests := updateWhere
      (fun r => decide (some r.userId = subject ∧ r.approvedAt ≠ none ∧ r.setupIssuedAt ≠ none ∧
        r.completedAt = none))
      (fun r => { r with completedAt := some now }) db.recoveryRequests }

/-- A login: it spends its ceremony, updates the credential and adds the session. -/
def entered (ceremonyId : Uuid) (verification : AuthenticationVerification)
    (session : SessionRecord) (now : DateTime) (db : Database) : Database :=
  { db with
    authCeremonies := updateWhere
      (fun c => decide (c.id = ceremonyId ∧ c.kind = "authentication" ∧ c.Live now))
      (fun c => { c with consumedAt := some now }) db.authCeremonies
    passkeyCredentials := updateWhere
      (fun c => decide (c.userId = session.userId.value ∧
        c.credentialId = verification.credentialId ∧ c.revokedAt = none))
      (fun c => { c with publicData := verification.updatedPublicData, lastUsedAt := some now })
      db.passkeyCredentials
    authSessions := db.authSessions ++ [session.row now] }

/-- The use of a session: its idle expiry is set, clamped to its absolute expiry. -/
def used (s : AuthSession) (csrfHash : Option SecretHash) (idleExpiresAt now : DateTime)
    (db : Database) : Database :=
  { db with
    authSessions := updateWhere (fun s' => decide (s'.id = s.id))
      (fun s' => { s' with
        csrfHash := (csrfHash.map (·.asBytes)).getD s'.csrfHash
        idleExpiresAt := min idleExpiresAt s.absoluteExpiresAt
        lastSeenAt := now }) db.authSessions }

end Database

/-! ## Audit events of the store -/

/-- The audit event of an approved user. -/
def approvedWithSetup (user : User) (capability : Capability) (operatorId : UserId) : AuditEvent where
  eventType := "user.approved_with_setup"
  actorUserId := some operatorId
  subjectUserId := some user.id
  data := .object [("capability_id", .string (uuidText capability.id))]

/-- The audit event of a rotation. -/
def epochRotatedAll (reason : String) (users : ℕ) : AuditEvent where
  eventType := "auth.epoch_rotated_all"
  actorUserId := none
  subjectUserId := none
  data := .object [("reason", .string reason), ("users", usizeNumber users)]

/-- The audit event of an approved recovery. -/
def recoveryApproved (recoveryId : Uuid) (operatorId subject : UserId) : AuditEvent where
  eventType := "recovery.approved"
  actorUserId := some operatorId
  subjectUserId := some subject
  data := .object [("recovery_id", .string (uuidText recoveryId))]

/-- The audit event of an issued setup. -/
def setupIssued (recoveryId : Uuid) (capability : Capability) (operatorId : UserId) : AuditEvent where
  eventType := "recovery.setup_issued"
  actorUserId := some operatorId
  subjectUserId := some capability.userId
  data := .object [("recovery_id", .string (uuidText recoveryId))]

/-- The audit event of a break-glass. -/
def breakGlassOpened (credentialId : Uuid) (capability : Capability) (reason : String) :
    AuditEvent where
  eventType := "operator.break_glass_opened"
  actorUserId := none
  subjectUserId := some capability.userId
  data := .object [("credential_id", .string (uuidText credentialId)), ("reason", .string reason)]

/-! ## Commits -/

/-- **What a call commits**, and what its statements had checked. -/
inductive Commits (env : Env) (db : Database) : AuthCall → Database → Prop
  | unchanged (c : AuthCall) (reads : c.reads = true) : Commits env db c db
  | insertCapability (capability : Capability) :
      Commits env db (.insertCapability capability)
        { db with authCapabilities := db.authCapabilities ++ [capability.row env.clock] }
  | insertUser (user : User) (now : DateTime) (audit : AuditEvent)
      (absent : ∀ u ∈ db.humanUsers, u.id ≠ user.id.value) :
      Commits env db (.insertUser user now audit)
        ({ db with humanUsers := db.humanUsers ++ [user.row now] }.logged (audit.row now))
  | approveUserWithSetup (user : User) (capability : Capability) (operatorId : UserId)
      (now : DateTime) (absent : ∀ u ∈ db.humanUsers, u.id ≠ user.id.value) :
      Commits env db (.approveUserWithSetup user capability operatorId now)
        ({ db with
          humanUsers := db.humanUsers ++ [user.row now]
          authCapabilities := db.authCapabilities ++ [capability.row env.clock] }.logged
            ((approvedWithSetup user capability operatorId).row now))
  | rotateAllAuthEpochs (now : DateTime) (reason : String) (users : ℕ) :
      Commits env db (.rotateAllAuthEpochs now reason)
        ((db.invalidated (fun _ => true) (fun _ => true) now).logged
          ((epochRotatedAll reason users).row now))
  | insertCeremony (ceremony : Ceremony) :
      Commits env db (.insertCeremony ceremony)
        { db with authCeremonies := db.authCeremonies ++ [ceremony.row env.clock] }
  | completeRegistration (ceremonyId : Uuid) (capabilityHash : Option SecretHash)
      (credential : VerifiedCredential) (now : DateTime) (audit : AuditEvent)
      (ceremony : AuthCeremony) (userId : String) (mem : ceremony ∈ db.authCeremonies)
      (id : ceremony.id = ceremonyId) (live : ceremony.Live now)
      (owner : ceremony.userId = some userId)
      (bootstrap : ceremony.kind = "operator_bootstrap" → db.operatorCredentials = []) :
      Commits env db (.completeRegistration ceremonyId capabilityHash credential now audit)
        ((db.enrolled ceremonyId capabilityHash (credential.row env.fresh userId now)
          (audit.subjectUserId.map (·.value)) now).logged (audit.row now))
  | completeAuthentication (ceremonyId : Uuid) (verification : AuthenticationVerification)
      (session : SessionRecord) (now : DateTime) (audit : AuditEvent) (ceremony : AuthCeremony)
      (c : PasskeyCredential) (mem : ceremony ∈ db.authCeremonies) (id : ceremony.id = ceremonyId)
      (kind : ceremony.kind = "authentication") (live : ceremony.Live now)
      (credential : c ∈ db.passkeyCredentials) (owner : c.userId = session.userId.value)
      (credentialId : c.credentialId = verification.credentialId) (unrevoked : c.revokedAt = none) :
      Commits env db (.completeAuthentication ceremonyId verification session now audit)
        ((db.entered ceremonyId verification session now).logged (audit.row now))
  | session (hash : SecretHash) (now idleExpiresAt : DateTime) (s : AuthSession) (u : HumanUser)
      (mem : s ∈ db.authSessions) (user : u ∈ db.humanUsers)
      (found : SessionFound hash.asBytes now s u) :
      Commits env db (.session hash now idleExpiresAt) (db.used s none idleExpiresAt now)
  | rotateSessionCsrf (hash csrfHash : SecretHash) (now idleExpiresAt : DateTime) (s : AuthSession)
      (u : HumanUser) (mem : s ∈ db.authSessions) (user : u ∈ db.humanUsers)
      (found : SessionFound hash.asBytes now s u) :
      Commits env db (.rotateSessionCsrf hash csrfHash now idleExpiresAt)
        (db.used s (some csrfHash) idleExpiresAt now)
  | deleteSession (hash : SecretHash) :
      Commits env db (.deleteSession hash)
        { db with
          authSessions := updateWhere
            (fun s => decide (s.tokenHash = hash.asBytes) && decide (s.revokedAt = none))
            (fun s => { s with revokedAt := some env.clock }) db.authSessions }
  | createRecovery (userId : UserId) (now : DateTime) (owner : db.hasUser userId.value = true)
      (none : ∀ r ∈ db.recoveryRequests, r.userId = userId.value → ¬ r.Pending) :
      Commits env db (.createRecovery userId now)
        { db with
          recoveryRequests := db.recoveryRequests ++
            [{ id := env.fresh, userId := userId.value, requestedAt := now }] }
  | approveRecovery (recoveryId : Uuid) (operatorId : UserId) (now : DateTime)
      (r : Database.RecoveryRequest) (subject : UserId) (mem : r ∈ db.recoveryRequests)
      (id : r.id = recoveryId) (pending : r.Pending) (owner : r.userId = subject.value) :
      Commits env db (.approveRecovery recoveryId operatorId now)
        ((({ db with
          recoveryRequests := updateWhere (fun r => decide (r.id = recoveryId ∧ r.Pending))
            (fun r => { r with approvedAt := some now, approvedBy := some operatorId.value })
            db.recoveryRequests } : Database).invalidatedUser subject.value now).logged
              ((recoveryApproved recoveryId operatorId subject).row now))
  | issueRecoverySetup (recoveryId : Uuid) (capability : Capability) (operatorId : UserId)
      (now : DateTime) (r : Database.RecoveryRequest) (mem : r ∈ db.recoveryRequests)
      (id : r.id = recoveryId) (approved : r.approvedAt ≠ none) (notIssued : r.setupIssuedAt = none)
      (notCompleted : r.completedAt = none) (owner : r.userId = capability.userId.value) :
      Commits env db (.issueRecoverySetup recoveryId capability operatorId now)
        ({ db with
          recoveryRequests := updateWhere
            (fun r => decide (r.id = recoveryId ∧ r.approvedAt ≠ none ∧ r.setupIssuedAt = none ∧
              r.completedAt = none ∧ r.userId = capability.userId.value))
            (fun r => { r with setupIssuedAt := some now }) db.recoveryRequests
          authCapabilities := db.authCapabilities ++ [capability.row env.clock] }.logged
            ((setupIssued recoveryId capability operatorId).row now))
  | breakGlass (credentialId : Uuid) (capability : Capability) (now : DateTime) (reason : String)
      (c : PasskeyCredential) (u : HumanUser) (mem : c ∈ db.passkeyCredentials)
      (id : c.id = credentialId) (unrevoked : c.revokedAt = none)
      (owner : c.userId = capability.userId.value) (user : u ∈ db.humanUsers)
      (userId : u.id = c.userId) (role : u.role = "operator") :
      Commits env db (.breakGlass credentialId capability now reason)
        ({ ({ db with
          passkeyCredentials := updateWhere
            (fun c => decide (c.id = credentialId ∧ c.revokedAt = none ∧
              ∃ u ∈ db.humanUsers, u.id = c.userId ∧ u.role = "operator"))
            (fun c => { c with revokedAt := some now }) db.passkeyCredentials } :
              Database).invalidatedUser capability.userId.value now with
          authCapabilities := (db.invalidatedUser capability.userId.value now).authCapabilities ++
            [capability.row env.clock] }.logged
              ((breakGlassOpened credentialId capability reason).row now))

namespace PgAuthStore

open Repo

variable {env : Env} {db db' : Database} {now : DateTime} {u : Unit}

theorem insertAudit_ok {event : AuditEvent}
    (h : Tx.Yields (insertAudit event now) db (.ok u) db') : db' = db.logged (event.row now) :=
  insertAuthAuditEvent_ok (yields_execute_ok h)

theorem invalidateUserAuth_commits {userId : String}
    (h : Tx.Yields (invalidateUserAuth userId now) db (.ok u) db') :
    db' = db.invalidatedUser userId now := by
  obtain ⟨n, db₁, h₁, h⟩ := Tx.yields_bind_ok h
  obtain ⟨_, db₂, h₂, h⟩ := Tx.yields_bind_ok h
  obtain ⟨_, db₃, h₃, h₄⟩ := Tx.yields_bind_ok h
  cases advanceEpochs_ok (yields_execute_ok h₁)
  cases yields_execute_ok h₂
  cases yields_execute_ok h₃
  cases yields_execute_ok h₄
  rfl

theorem insertUser_commits {user : User} {audit : AuditEvent}
    (h : perform env (.insertUser user now audit) db = (.ok (), db')) :
    Commits env db (.insertUser user now audit) db' := by
  obtain ⟨_, db₁, hinsert, haudit⟩ :=
    Tx.yields_bind_ok (Tx.yields_transaction_ok (yields_of_perform h))
  obtain ⟨rfl, hfresh⟩ := insertHumanUser_ok (Tx.yields_exec_ok hinsert)
  cases insertAudit_ok haudit
  exact .insertUser user now audit (fun u hu => (hfresh u hu).1)

theorem approveUserWithSetup_commits {user : User} {capability : Capability} {operatorId : UserId}
    (h : perform env (.approveUserWithSetup user capability operatorId now) db = (.ok (), db')) :
    Commits env db (.approveUserWithSetup user capability operatorId now) db' := by
  obtain ⟨_, db₁, hinsert, hbody⟩ :=
    Tx.yields_bind_ok (Tx.yields_transaction_ok (yields_of_perform h))
  obtain ⟨_, db₂, hcapability, haudit⟩ := Tx.yields_bind_ok hbody
  obtain ⟨rfl, hfresh⟩ := insertHumanUser_ok (Tx.yields_exec_ok hinsert)
  cases (insertAuthCapability_ok (yields_execute_ok hcapability)).1
  cases insertAudit_ok haudit
  exact .approveUserWithSetup user capability operatorId now (fun u hu => (hfresh u hu).1)

theorem rotateAllAuthEpochs_commits {reason : String} {n : ℕ}
    (h : perform env (.rotateAllAuthEpochs now reason) db = (.ok n, db')) :
    Commits env db (.rotateAllAuthEpochs now reason) db' := by
  obtain ⟨users, db₁, h₁, h⟩ := Tx.yields_bind_ok (Tx.yields_transaction_ok (yields_of_perform h))
  obtain ⟨_, db₂, h₂, h⟩ := Tx.yields_bind_ok h
  obtain ⟨_, db₃, h₃, h⟩ := Tx.yields_bind_ok h
  obtain ⟨_, db₄, h₄, h⟩ := Tx.yields_bind_ok h
  obtain ⟨_, db₅, haudit, hpure⟩ := Tx.yields_bind_ok h
  cases advanceEpochs_ok (yields_execute_ok h₁)
  cases yields_execute_ok h₂
  cases yields_execute_ok h₃
  cases yields_execute_ok h₄
  obtain ⟨-, rfl⟩ := Tx.yields_pure hpure
  cases insertAudit_ok haudit
  exact .rotateAllAuthEpochs now reason users

theorem spendCapability_commits {capabilityHash : Option SecretHash}
    (h : Tx.Yields (spendCapability capabilityHash now) db (.ok u) db') :
    db' = { db with
      authCapabilities := updateWhere
        (fun c => decide (some c.tokenHash = capabilityHash.map (·.asBytes) ∧ c.Live now))
        (fun c => { c with consumedAt := some now }) db.authCapabilities } := by
  cases capabilityHash with
  | none =>
      obtain ⟨-, rfl⟩ := Tx.yields_pure h
      simp [updateWhere]
  | some hash =>
      obtain ⟨n, db₁, hconsume, hensure⟩ := Tx.yields_bind_ok h
      obtain ⟨-, rfl⟩ := Tx.yields_ensure hensure
      cases yields_execute_ok hconsume
      simp only [Option.map_some, Option.some.injEq]

theorem completeRegistration_commits {ceremonyId : Uuid} {capabilityHash : Option SecretHash}
    {credential : VerifiedCredential} {audit : AuditEvent}
    (h : perform env (.completeRegistration ceremonyId capabilityHash credential now audit) db =
      (.ok (), db')) :
    Commits env db (.completeRegistration ceremonyId capabilityHash credential now audit) db' := by
  obtain ⟨_, db₀, hlock, hbody⟩ :=
    Tx.yields_bind_ok (Tx.yields_transaction_ok (yields_of_perform h))
  obtain ⟨spent, db₁, hconsume, hbody⟩ := Tx.yields_bind_ok hbody
  obtain ⟨⟨userId, kind⟩, db₂, hspent, hbody⟩ := Tx.yields_bind_ok hbody
  obtain ⟨_, db₃, hcheck, hbody⟩ := Tx.yields_bind_ok hbody
  obtain ⟨_, db₄, hspend, hbody⟩ := Tx.yields_bind_ok hbody
  obtain ⟨_, db₅, hinsert, hbody⟩ := Tx.yields_bind_ok hbody
  obtain ⟨_, db₆, hcomplete, haudit⟩ := Tx.yields_bind_ok hbody
  obtain ⟨-, rfl⟩ := yields_fetch_ok hlock
  obtain ⟨rfl, rfl⟩ := spentCeremony_ok hspent
  obtain ⟨hbootstrap, rfl⟩ := checkBootstrap_ok hcheck
  obtain ⟨-, ceremony, hmem, hid, hlive, howner, -⟩ :=
    consumeCeremony_ok (yields_execute_ok hconsume)
  obtain ⟨howner, rfl⟩ := Prod.mk.inj howner
  cases (Prod.mk.inj (Except.ok.inj (yields_execute_ok hconsume))).2
  cases spendCapability_commits hspend
  cases (insertPasskeyCredential_ok (Tx.yields_exec_ok hinsert)).1
  cases yields_execute_ok hcomplete
  cases insertAudit_ok haudit
  exact .completeRegistration ceremonyId capabilityHash credential now audit ceremony userId hmem hid
    hlive howner.symm hbootstrap

theorem completeAuthentication_commits {ceremonyId : Uuid}
    {verification : AuthenticationVerification} {session : SessionRecord} {audit : AuditEvent}
    (h : perform env (.completeAuthentication ceremonyId verification session now audit) db =
      (.ok (), db')) :
    Commits env db (.completeAuthentication ceremonyId verification session now audit) db' := by
  obtain ⟨consumed, db₁, hconsume, hbody⟩ :=
    Tx.yields_bind_ok (Tx.yields_transaction_ok (yields_of_perform h))
  obtain ⟨_, db₂, hone, hbody⟩ := Tx.yields_bind_ok hbody
  obtain ⟨used, db₃, huse, hbody⟩ := Tx.yields_bind_ok hbody
  obtain ⟨_, db₄, hused, hbody⟩ := Tx.yields_bind_ok hbody
  obtain ⟨_, db₅, hinsert, haudit⟩ := Tx.yields_bind_ok hbody
  obtain ⟨rfl, rfl⟩ := Tx.yields_ensure hone
  obtain ⟨rfl, rfl⟩ := Tx.yields_ensure hused
  obtain ⟨-, ceremony, hmem, hid, hkind, hlive, -⟩ :=
    consumeAuthentication_ok (yields_execute_ok hconsume)
  cases (Prod.mk.inj (Except.ok.inj (yields_execute_ok hconsume))).2
  obtain ⟨hcount, hdb₃⟩ := useCredential_ok (yields_execute_ok huse)
  obtain ⟨c, hc⟩ := List.length_eq_one_iff.1 hcount.symm
  have hcredential := List.mem_singleton_self c
  rw [← hc, List.mem_filter, decide_eq_true_eq] at hcredential
  obtain ⟨hcredential, howner, hcredentialId, hunrevoked⟩ := hcredential
  cases hdb₃
  cases (insertAuthSession_ok (yields_execute_ok hinsert)).1
  cases insertAudit_ok haudit
  exact .completeAuthentication ceremonyId verification session now audit ceremony c hmem hid hkind
    hlive hcredential howner hcredentialId hunrevoked

theorem deleteSession_commits {tokenHash : SecretHash}
    (h : perform env (.deleteSession tokenHash) db = (.ok (), db')) :
    Commits env db (.deleteSession tokenHash) db' := by
  have hdelete : Tx.Yields (deleteSession env tokenHash) db _ db' := yields_of_perform h
  unfold deleteSession at hdelete
  cases yields_execute_ok hdelete
  exact .deleteSession tokenHash

/-- The constraints that a new request has passed. -/
theorem insertRecoveryRequest_guard {request : Database.RecoveryRequest}
    (h : insertRecoveryRequest request db = .ok (u, db')) :
    db.hasUser request.userId = true ∧ ∀ r ∈ db.recoveryRequests, r.userId = request.userId →
      request.Pending → ¬ r.Pending := by
  obtain ⟨rows, hrows, hdb⟩ := except_bind_ok h
  obtain ⟨-, -, hfresh, hreferences⟩ := insertRow_ok hrows
  refine ⟨(Bool.and_eq_true_iff.1 hreferences).1, fun r hr huser hpending hr' => ?_⟩
  have hcollides := hfresh r hr
  rw [decide_eq_false_iff_not, not_or] at hcollides
  exact hcollides.2 ⟨hpending, hr', huser.symm⟩

theorem createRecovery_commits {userId : UserId} {r : RecoveryRequest}
    (h : perform env (.createRecovery userId now) db = (.ok r, db')) :
    Commits env db (.createRecovery userId now) db' := by
  obtain ⟨_, db₁, hinsert, hpure⟩ := Tx.yields_bind_ok (yields_of_perform h)
  obtain ⟨-, rfl⟩ := Tx.yields_pure hpure
  obtain ⟨howner, hnone⟩ := insertRecoveryRequest_guard (Tx.yields_exec_ok hinsert)
  cases (insertRecoveryRequest_ok (Tx.yields_exec_ok hinsert)).1
  exact .createRecovery userId now howner (fun r hr huser => hnone r hr huser ⟨rfl, rfl⟩)

theorem approveRecovery_commits {recoveryId : Uuid} {operatorId : UserId}
    (h : perform env (.approveRecovery recoveryId operatorId now) db = (.ok (), db')) :
    Commits env db (.approveRecovery recoveryId operatorId now) db' := by
  obtain ⟨approved, db₁, happrove, h⟩ :=
    Tx.yields_bind_ok (Tx.yields_transaction_ok (yields_of_perform h))
  obtain ⟨userId, db₂, huser, h⟩ := Tx.yields_bind_ok h
  obtain ⟨_, db₃, hinvalidate, h⟩ := Tx.yields_bind_ok h
  obtain ⟨subject, db₄, hparse, haudit⟩ := Tx.yields_bind_ok h
  obtain ⟨rfl, rfl⟩ := Tx.yields_okOr huser
  obtain ⟨hsubject, rfl⟩ := Tx.yields_ofExcept hparse
  obtain ⟨hfound, hdb₁⟩ := approveRequest_ok (yields_execute_ok happrove)
  obtain ⟨r, hr, rfl⟩ := Option.map_eq_some_iff.1 hfound.symm
  have hmem := List.mem_of_head? hr
  rw [List.mem_filter, decide_eq_true_eq] at hmem
  have howner := parseUserId_ok hsubject.symm
  cases hdb₁
  cases invalidateUserAuth_commits hinvalidate
  cases insertAudit_ok haudit
  rw [howner]
  exact .approveRecovery recoveryId operatorId now r subject hmem.1 hmem.2.1 hmem.2.2 howner

theorem issueRecoverySetup_commits {recoveryId : Uuid} {capability : Capability}
    {operatorId : UserId}
    (h : perform env (.issueRecoverySetup recoveryId capability operatorId now) db =
      (.ok (), db')) :
    Commits env db (.issueRecoverySetup recoveryId capability operatorId now) db' := by
  obtain ⟨issued, db₁, hissue, h⟩ :=
    Tx.yields_bind_ok (Tx.yields_transaction_ok (yields_of_perform h))
  obtain ⟨_, db₂, hone, h⟩ := Tx.yields_bind_ok h
  obtain ⟨_, db₃, hcapability, haudit⟩ := Tx.yields_bind_ok h
  obtain ⟨rfl, rfl⟩ := Tx.yields_ensure hone
  obtain ⟨hcount, hdb₁⟩ := Prod.mk.inj (Except.ok.inj (yields_execute_ok hissue))
  obtain ⟨r, hr⟩ := List.length_eq_one_iff.1 hcount
  have hmem := List.mem_singleton_self r
  rw [← hr, List.mem_filter, decide_eq_true_eq] at hmem
  obtain ⟨hmem, hid, happroved, hnotIssued, hnotCompleted, howner⟩ := hmem
  cases hdb₁
  cases (insertAuthCapability_ok (yields_execute_ok hcapability)).1
  cases insertAudit_ok haudit
  exact .issueRecoverySetup recoveryId capability operatorId now r hmem hid happroved hnotIssued
    hnotCompleted howner

theorem breakGlass_commits {credentialId : Uuid} {capability : Capability} {reason : String}
    (h : perform env (.breakGlass credentialId capability now reason) db = (.ok (), db')) :
    Commits env db (.breakGlass credentialId capability now reason) db' := by
  obtain ⟨revoked, db₁, hrevoke, h⟩ :=
    Tx.yields_bind_ok (Tx.yields_transaction_ok (yields_of_perform h))
  obtain ⟨userId, db₂, huser, h⟩ := Tx.yields_bind_ok h
  obtain ⟨_, db₃, hensure, h⟩ := Tx.yields_bind_ok h
  obtain ⟨_, db₄, hinvalidate, h⟩ := Tx.yields_bind_ok h
  obtain ⟨_, db₅, hcapability, haudit⟩ := Tx.yields_bind_ok h
  obtain ⟨rfl, rfl⟩ := Tx.yields_okOr huser
  obtain ⟨rfl, rfl⟩ := Tx.yields_ensure hensure
  obtain ⟨hfound, hdb₁⟩ := Prod.mk.inj (Except.ok.inj (yields_execute_ok hrevoke))
  obtain ⟨c, hc, howner⟩ := Option.map_eq_some_iff.1 hfound
  have hmem := List.mem_of_head? hc
  rw [List.mem_filter, decide_eq_true_eq] at hmem
  obtain ⟨hmem, hid, hunrevoked, user, hu, huserId, hrole⟩ := hmem
  cases hdb₁
  cases invalidateUserAuth_commits hinvalidate
  cases (insertAuthCapability_ok (yields_execute_ok hcapability)).1
  cases insertAudit_ok haudit
  exact .breakGlass credentialId capability now reason c user hmem hid hunrevoked howner hu huserId
    hrole

/-- A session that was found is touched, also when its row does not decode. -/
theorem useSession_cases {tokenHash : SecretHash} {touch : AuthSession → Statement Unit}
    {principal : AuthSession × HumanUser → Except AuthError SessionPrincipal}
    {r : Except AuthError (Option SessionPrincipal)}
    (h : Tx.Yields (useSession tokenHash now touch principal) db r db') :
    (db' = db ∧ ∀ p, r ≠ .ok (some p)) ∨ ∃ s ∈ db.authSessions, ∃ u ∈ db.humanUsers,
      SessionFound tokenHash.asBytes now s u ∧ touch s db = .ok ((), db') ∧
        r = (principal (s, u)).map some := by
  -- the rows are decoded after the commit, so a failed decoding has touched the session
  rcases Tx.yields_bind h with ⟨e, rfl, htransaction⟩ | ⟨found, db₁, htransaction, hdecode⟩
  · exact Or.inl ⟨Tx.yields_transaction_error htransaction, by simp⟩
  · obtain ⟨rfl, rfl⟩ := Tx.yields_ofExcept hdecode
    obtain ⟨found, db₂, hfetch, hrest⟩ := Tx.yields_bind_ok (Tx.yields_transaction_ok htransaction)
    obtain ⟨rfl, rfl⟩ := yields_fetch_ok hfetch
    cases hsession : Database.session tokenHash.asBytes now db₂ with
    | none =>
        rw [hsession] at hrest
        obtain ⟨hfound, rfl⟩ := Tx.yields_pure hrest
        cases hfound
        exact Or.inl ⟨rfl, by simp [transpose]⟩
    | some row =>
        rw [hsession] at hrest
        obtain ⟨⟨⟩, db₃, htouch, hpure⟩ := Tx.yields_bind_ok hrest
        obtain ⟨hfound, rfl⟩ := Tx.yields_pure hpure
        cases hfound
        have hmem := List.mem_of_head? hsession
        rw [mem_join, decide_eq_true_eq] at hmem
        exact Or.inr ⟨row.1, hmem.1, row.2, hmem.2.1, hmem.2.2, yields_execute_ok htouch, rfl⟩

theorem session_cases {tokenHash : SecretHash} {idleExpiresAt : DateTime}
    {r : Except AuthError (Option SessionPrincipal)}
    (h : perform env (.session tokenHash now idleExpiresAt) db = (r, db')) :
    (db' = db ∧ ∀ p, r ≠ .ok (some p)) ∨ ∃ s ∈ db.authSessions, ∃ u ∈ db.humanUsers,
      SessionFound tokenHash.asBytes now s u ∧ db' = db.used s none idleExpiresAt now ∧
        r = (sessionPrincipal (s, u)).map some := by
  have hsession : Tx.Yields (session tokenHash now idleExpiresAt) db _ db' := yields_of_perform h
  unfold session at hsession
  rcases useSession_cases hsession with hsame | ⟨s, hs, u, hu, hfound, htouch, hr⟩
  · exact Or.inl hsame
  · cases htouch
    exact Or.inr ⟨s, hs, u, hu, hfound, rfl, hr⟩

theorem rotateSessionCsrf_cases {tokenHash csrfHash : SecretHash} {idleExpiresAt : DateTime}
    {r : Except AuthError (Option SessionPrincipal)}
    (h : perform env (.rotateSessionCsrf tokenHash csrfHash now idleExpiresAt) db = (r, db')) :
    (db' = db ∧ ∀ p, r ≠ .ok (some p)) ∨ ∃ s ∈ db.authSessions, ∃ u ∈ db.humanUsers,
      SessionFound tokenHash.asBytes now s u ∧ db' = db.used s (some csrfHash) idleExpiresAt now ∧
        r = (rotatedPrincipal csrfHash (s, u)).map some := by
  have hrotate : Tx.Yields (rotateSessionCsrf tokenHash csrfHash now idleExpiresAt) db _ db' :=
    yields_of_perform h
  unfold rotateSessionCsrf at hrotate
  rcases useSession_cases hrotate with hsame | ⟨s, hs, u, hu, hfound, htouch, hr⟩
  · exact Or.inl hsame
  · simp only [touchSessionCsrf, SecretHash.length_asBytes, if_true] at htouch
    cases htouch
    exact Or.inr ⟨s, hs, u, hu, hfound, rfl, hr⟩

theorem session_commits {tokenHash : SecretHash} {idleExpiresAt : DateTime}
    {r : Except AuthError (Option SessionPrincipal)}
    (h : perform env (.session tokenHash now idleExpiresAt) db = (r, db')) :
    db' = db ∨ Commits env db (.session tokenHash now idleExpiresAt) db' := by
  rcases session_cases h with ⟨hsame, -⟩ | ⟨s, hs, u, hu, hfound, rfl, -⟩
  · exact Or.inl hsame
  · exact Or.inr (.session tokenHash now idleExpiresAt s u hs hu hfound)

theorem rotateSessionCsrf_commits {tokenHash csrfHash : SecretHash} {idleExpiresAt : DateTime}
    {r : Except AuthError (Option SessionPrincipal)}
    (h : perform env (.rotateSessionCsrf tokenHash csrfHash now idleExpiresAt) db = (r, db')) :
    db' = db ∨ Commits env db (.rotateSessionCsrf tokenHash csrfHash now idleExpiresAt) db' := by
  rcases rotateSessionCsrf_cases h with ⟨hsame, -⟩ | ⟨s, hs, u, hu, hfound, rfl, -⟩
  · exact Or.inl hsame
  · exact Or.inr (.rotateSessionCsrf tokenHash csrfHash now idleExpiresAt s u hs hu hfound)

/-! ## Every call -/

theorem yields_execute_error {α : Type} {stmt : Statement α} {e : AuthError}
    (h : Tx.Yields (execute stmt) db (.error e) db') : db' = db :=
  Tx.yields_exec_error h

/-- A query changes nothing, whatever it is answered. -/
theorem query_unchanged {α β : Type} {q : Database → α} {f : α → Except AuthError β}
    {r : Except AuthError β}
    (h : Tx.Yields (do let rows ← fetch q; Tx.ofExcept (f rows) : Repo β) db r db') :
    db' = db := by
  rcases Tx.yields_bind h with ⟨e, -, hfetch⟩ | ⟨rows, db₁, hfetch, hdecode⟩
  · exact yields_execute_error hfetch
  · obtain ⟨-, rfl⟩ := yields_fetch_ok hfetch
    exact (Tx.yields_ofExcept hdecode).2

/-- A query commits nothing. -/
theorem commits_of_unchanged {c : AuthCall} (reads : c.reads = true) (h : db' = db) :
    Commits env db c db' := by
  rw [h]
  exact .unchanged c reads

/-- **A call that succeeds commits.** -/
theorem perform_ok {c : AuthCall} {a : c.Reply} (h : perform env c db = (.ok a, db')) :
    Commits env db c db' := by
  have hyields := yields_of_perform h
  cases c with
  | userById => exact commits_of_unchanged rfl (query_unchanged hyields)
  | userByHandle => exact commits_of_unchanged rfl (query_unchanged hyields)
  | credentialsForUser => exact commits_of_unchanged rfl (query_unchanged hyields)
  | operatorWithoutCredential => exact commits_of_unchanged rfl (query_unchanged hyields)
  | operatorExists => exact commits_of_unchanged rfl (yields_fetch_ok hyields).2
  | operatorRecoveryWindow => exact commits_of_unchanged rfl (query_unchanged hyields)
  | capability => exact commits_of_unchanged rfl (query_unchanged hyields)
  | ceremony => exact commits_of_unchanged rfl (query_unchanged hyields)
  | pendingRecoveries => exact commits_of_unchanged rfl (query_unchanged hyields)
  | session => exact (session_commits h).elim (commits_of_unchanged rfl) id
  | rotateSessionCsrf => exact (rotateSessionCsrf_commits h).elim (commits_of_unchanged rfl) id
  | insertCapability capability =>
      cases (insertAuthCapability_ok (yields_execute_ok hyields)).1
      exact .insertCapability capability
  | insertUser => exact insertUser_commits h
  | approveUserWithSetup => exact approveUserWithSetup_commits h
  | rotateAllAuthEpochs => exact rotateAllAuthEpochs_commits h
  | insertCeremony ceremony =>
      cases insertCeremony_committed h
      exact .insertCeremony ceremony
  | completeRegistration => exact completeRegistration_commits h
  | completeAuthentication => exact completeAuthentication_commits h
  | deleteSession => exact deleteSession_commits h
  | createRecovery => exact createRecovery_commits h
  | approveRecovery => exact approveRecovery_commits h
  | issueRecoverySetup => exact issueRecoverySetup_commits h
  | breakGlass => exact breakGlass_commits h

/-- **A call that fails leaves the database as it was**, unless it fails to decode the session that
    it used. -/
theorem perform_error {c : AuthCall} {e : AuthError} (h : perform env c db = (.error e, db')) :
    db' = db ∨ c.reads = true ∧ Commits env db c db' := by
  have hyields := yields_of_perform h
  cases c with
  | userById => exact Or.inl (query_unchanged hyields)
  | userByHandle => exact Or.inl (query_unchanged hyields)
  | credentialsForUser => exact Or.inl (query_unchanged hyields)
  | operatorWithoutCredential => exact Or.inl (query_unchanged hyields)
  | operatorExists =>
      unfold method operatorExists fetch at hyields
      exact Or.inl (yields_execute_error hyields)
  | operatorRecoveryWindow => exact Or.inl (query_unchanged hyields)
  | capability => exact Or.inl (query_unchanged hyields)
  | ceremony => exact Or.inl (query_unchanged hyields)
  | pendingRecoveries => exact Or.inl (query_unchanged hyields)
  -- these two decode what they have committed
  | session => exact (session_commits h).imp_right (fun h => ⟨rfl, h⟩)
  | rotateSessionCsrf => exact (rotateSessionCsrf_commits h).imp_right (fun h => ⟨rfl, h⟩)
  | insertCapability => exact Or.inl (yields_execute_error hyields)
  | insertUser => exact Or.inl (Tx.yields_transaction_error hyields)
  | approveUserWithSetup => exact Or.inl (Tx.yields_transaction_error hyields)
  | rotateAllAuthEpochs => exact Or.inl (Tx.yields_transaction_error hyields)
  | insertCeremony => exact Or.inl (insertCeremony_failed h)
  | completeRegistration => exact Or.inl (completeRegistration_failed h)
  | completeAuthentication => exact Or.inl (completeAuthentication_failed h)
  | deleteSession =>
      unfold method deleteSession at hyields
      exact Or.inl (yields_execute_error hyields)
  | createRecovery =>
      rcases Tx.yields_bind hyields with ⟨e', -, hinsert⟩ | ⟨a, db₁, -, hpure⟩
      · exact Or.inl (Tx.yields_exec_error hinsert)
      · cases (Tx.yields_pure hpure).1
  | approveRecovery => exact Or.inl (Tx.yields_transaction_error hyields)
  | issueRecoverySetup => exact Or.inl (Tx.yields_transaction_error hyields)
  | breakGlass => exact Or.inl (Tx.yields_transaction_error hyields)

/-- Whatever it is answered, a call commits or leaves the database as it was. -/
theorem perform_cases {c : AuthCall} {r : c.Answer} (h : perform env c db = (r, db')) :
    db' = db ∨ Commits env db c db' := by
  cases r with
  | error e => exact (perform_error h).imp_right And.right
  | ok a => exact Or.inr (perform_ok h)

end PgAuthStore

/-! ## What commits do to the users -/

namespace Commits

variable {env : Env} {db db' : Database} {c : AuthCall}

/-- Users are added by the two calls that insert one; the other calls advance some epochs at most. -/
theorem humanUsers_cases (h : Commits env db c db') :
    (∃ user now audit, c = .insertUser user now audit ∧
      db'.humanUsers = db.humanUsers ++ [user.row now]) ∨
    (∃ user capability operatorId now, c = .approveUserWithSetup user capability operatorId now ∧
      db'.humanUsers = db.humanUsers ++ [user.row now]) ∨
    (.humanUsers ∉ c.inserts ∧
      ∃ p now, db'.humanUsers = updateWhere p (advanced now) db.humanUsers) := by
  have hsame : db.humanUsers = updateWhere (fun _ => false) (advanced 0) db.humanUsers := by simp
  cases h with
  | insertUser user now audit => exact Or.inl ⟨user, now, audit, rfl, rfl⟩
  | approveUserWithSetup user capability operatorId now =>
      exact Or.inr (Or.inl ⟨user, capability, operatorId, now, rfl, rfl⟩)
  | rotateAllAuthEpochs => exact Or.inr (Or.inr ⟨by simp [AuthCall.inserts], _, _, rfl⟩)
  | approveRecovery => exact Or.inr (Or.inr ⟨by simp [AuthCall.inserts], _, _, rfl⟩)
  | breakGlass => exact Or.inr (Or.inr ⟨by simp [AuthCall.inserts], _, _, rfl⟩)
  | unchanged c reads =>
      refine Or.inr (Or.inr ⟨?_, _, _, hsame⟩)
      cases c <;> simp [AuthCall.inserts, AuthCall.reads] at reads ⊢
  | _ => exact Or.inr (Or.inr ⟨by simp [AuthCall.inserts], _, _, hsame⟩)

end Commits

/-! ## Commits in a run -/

variable {τ : Type}

theorem Failed.not_succeeded {e : AuthEvent τ} {c c' : AuthCall} {a : c'.Reply} (h : Failed e c) :
    ¬ Succeeded e c' a := by
  obtain ⟨error, h⟩ := h
  intro hc
  obtain ⟨rfl, hresp⟩ := Exchange.mk.inj (h.symm.trans hc)
  cases eq_of_heq hresp

/-- A call that was answered with `Ok`, by the name of the call. -/
theorem succeeded_of_call {e : AuthEvent τ} {c : AuthCall} {a : e.call.Reply} (h : Succeeded e e.call a)
    (hc : e.call = c) : ∃ a, Succeeded e c a := by
  subst hc
  exact ⟨a, h⟩

/-- What an event did to the database. -/
inductive Outcome (e : AuthEvent τ) : Prop
  | ok (env : Env) (a : e.call.Reply) (answered : Succeeded e e.call a)
      (commits : Commits env e.pre e.call e.post)
  | failed (answered : Failed e e.call) (same : e.post = e.pre)
  | undecoded (env : Env) (answered : Failed e e.call) (reads : e.call.reads = true)
      (commits : Commits env e.pre e.call e.post)

namespace StoreRun

variable [DecidableEq τ] {out : τ → Type} {start : (t : τ) → Program AuthCall AuthCall.Answer (out t)}
  {tr : List (AuthEvent τ)} {db : Database} {e : AuthEvent τ}

theorem committed (h : StoreRun start tr db) (he : e ∈ tr) {c : AuthCall} {a : c.Reply}
    (hc : Succeeded e c a) : ∃ env, Commits env e.pre c e.post := by
  obtain ⟨env, hperform⟩ := h.succeeded he hc
  exact ⟨env, PgAuthStore.perform_ok hperform⟩

theorem outcome (h : StoreRun start tr db) (he : e ∈ tr) : Outcome e := by
  rcases History.succeeded_or_failed (rfl : e.call = e.call) with ⟨a, hc⟩ | hc
  · obtain ⟨env, hcommits⟩ := h.committed he hc
    exact .ok env a hc hcommits
  · obtain ⟨env, error, hperform⟩ := h.failed he hc
    rcases PgAuthStore.perform_error hperform with hsame | ⟨hreads, hcommits⟩
    · exact .failed hc hsame
    · exact .undecoded env hc hreads hcommits

/-- An event changes nothing, or commits its call; only a call that reads may do so and still be
    answered with an error. -/
theorem commits_answered (h : StoreRun start tr db) (he : e ∈ tr) :
    e.post = e.pre ∨ ∃ env, Commits env e.pre e.call e.post ∧
      ∀ c, e.call = c → c.reads = false → ∃ a, Succeeded e c a := by
  cases h.outcome he with
  | ok env a answered commits =>
      exact Or.inr ⟨env, commits, fun c hcall _ => succeeded_of_call answered hcall⟩
  | failed answered same => exact Or.inl same
  | undecoded env answered reads commits =>
      refine Or.inr ⟨env, commits, fun c hcall hwrites => ?_⟩
      rw [hcall, hwrites] at reads
      cases reads

/-- Whatever it is answered, an event commits its call or changes nothing. -/
theorem commits_event (h : StoreRun start tr db) (he : e ∈ tr) :
    e.post = e.pre ∨ ∃ env, Commits env e.pre e.call e.post := by
  obtain ⟨env, hperform⟩ := h.performed he
  exact (PgAuthStore.perform_cases hperform).imp_right (fun hcommits => ⟨env, hcommits⟩)

end StoreRun

section

variable [DecidableEq τ] [Crates] {config : AuthConfig} {engine : CeremonyEngine}
  {ops : τ → Operation} {tr : List (AuthEvent τ)} {db : Database} {e : AuthEvent τ}

namespace History

/-- A user is added by a successful call that inserts one. -/
theorem users_event (h : History config engine ops tr db) (he : e ∈ tr) :
    (∃ user now audit, Succeeded e (.insertUser user now audit) () ∧
      e.post.humanUsers = e.pre.humanUsers ++ [user.row now]) ∨
    (∃ user capability operatorId now,
      Succeeded e (.approveUserWithSetup user capability operatorId now) () ∧
      e.post.humanUsers = e.pre.humanUsers ++ [user.row now]) ∨
    ((∀ c (a : c.Reply), Succeeded e c a → .humanUsers ∉ c.inserts) ∧
      ∃ p now, e.post.humanUsers = updateWhere p (advanced now) e.pre.humanUsers) := by
  cases h.storeRun.outcome he with
  | ok env a answered commits =>
      rcases commits.humanUsers_cases with ⟨user, now, audit, hcall, hpost⟩ |
        ⟨user, capability, operatorId, now, hcall, hpost⟩ | ⟨hnot, hpost⟩
      · obtain ⟨⟨⟩, hc⟩ := succeeded_of_call answered hcall
        exact Or.inl ⟨user, now, audit, hc, hpost⟩
      · obtain ⟨⟨⟩, hc⟩ := succeeded_of_call answered hcall
        exact Or.inr (Or.inl ⟨user, capability, operatorId, now, hc, hpost⟩)
      · refine Or.inr (Or.inr ⟨fun c a hc => ?_, hpost⟩)
        rwa [← show e.call = c from congrArg Exchange.call hc]
  | failed answered same =>
      refine Or.inr (Or.inr ⟨fun c a hc => (answered.not_succeeded hc).elim, fun _ => false, 0, ?_⟩)
      rw [same, updateWhere_false]
  | undecoded env answered reads commits =>
      refine Or.inr (Or.inr ⟨fun c a hc => (answered.not_succeeded hc).elim, ?_⟩)
      -- what does not decode is read, and a call that reads inserts no user
      rcases commits.humanUsers_cases with ⟨user, now, audit, hcall, -⟩ |
        ⟨user, capability, operatorId, now, hcall, -⟩ | ⟨-, hpost⟩
      · rw [hcall] at reads
        cases reads
      · rw [hcall] at reads
        cases reads
      · exact hpost

/-- An operation passed the arguments of a call because of what it had been answered by earlier
    events. -/
theorem passed (h : History config engine ops tr db) (he : e ∈ tr) {c : AuthCall} {a : c.Reply}
    (hc : Succeeded e c a) :
    ∃ past, Passes config (ops e.tid) past c ∧ ∀ c a, Answered past c a →
      ∃ e₀, Precedes tr e₀ e ∧ e₀.tid = e.tid ∧ Succeeded e₀ c a := by
  have hcall : e.call = c := congrArg Exchange.call hc
  rw [← hcall]
  obtain ⟨pool, run⟩ := h
  obtain ⟨past, hasks, hback, -⟩ := run.asks_of_mem he
  exact ⟨past, passes_of_asks hasks, fun c a ha => hback _ ha⟩

end History

end

end RsConsole
