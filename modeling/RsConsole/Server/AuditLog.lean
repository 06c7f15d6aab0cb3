import Mathlib.Algebra.Ring.Int.Defs
import RsConsole.Server.Accounts

set_option autoImplicit false

/-! # The audit log of a run

Every call that commits books what it changes (`Commits.booked`), given that its arguments name who
is concerned; that they do follows from what the operations pass. So along every run the log grows
and accounts for the numbers of credentials, sessions and capabilities of every user and for their
epoch. An operation changes one of these in its last call only, so one that fails changes none. -/

namespace RsConsole

open Library Library.Table Database PgAuthStore

variable {τ : Type}

/-! ## Operations that fail -/

/-- The exchange did not change what somebody may do. -/
def Harmless (x : Exchange AuthCall AuthCall.Answer) : Prop :=
  x.resp.isOk = true → x.call.entitles = false

theorem failsWithin_ask (c : AuthCall) : Fallible.FailsWithin Harmless (ask c) :=
  Fallible.failsWithin_await fun _ hok => nomatch hok

theorem returnsWithin_ask {c : AuthCall} (h : c.entitles = false) :
    Fallible.ReturnsWithin Harmless (ask c) :=
  Fallible.returnsWithin_await fun _ _ => h

theorem within_ask {c : AuthCall} (h : c.entitles = false) : Fallible.Within Harmless (ask c) :=
  ⟨failsWithin_ask c, returnsWithin_ask h⟩

namespace AuthService

open Fallible

variable [Crates] {config : AuthConfig} {engine : CeremonyEngine}

theorem failsWithin_startSetupRegistration {token : SecretToken} {purpose : CapabilityPurpose}
    {now : DateTime} {seed : ℕ} {id : Uuid} :
    FailsWithin Harmless (startSetupRegistration config engine token purpose now seed id) := by
  refine failsWithin_bind (within_ask rfl) fun found => ?_
  refine failsWithin_bind (within_okOr _ _) fun capability => ?_
  refine failsWithin_bind (within_ask rfl) fun found => ?_
  refine failsWithin_bind (within_okOr _ _) fun user => ?_
  refine failsWithin_bind (within_ask rfl) fun credentials => ?_
  refine failsWithin_bind (within_ofExcept _) fun started => ?_
  exact failsWithin_bind_pure _ (failsWithin_ask _)

omit [Crates] in
theorem within_bootstrapCandidate (now : DateTime) :
    Within Harmless (bootstrapCandidate now) where
  fails := by
    refine failsWithin_bind (within_ask rfl) fun window => ?_
    cases window with
    | some found => exact failsWithin_pure _
    | none =>
        refine failsWithin_bind (within_ask rfl) fun found => ?_
        exact failsWithin_bind_pure _ (failsWithin_okOr _ _)
  returns := by
    refine returnsWithin_bind (returnsWithin_ask rfl) fun window => ?_
    cases window with
    | some found => exact returnsWithin_pure _
    | none =>
        refine returnsWithin_bind (returnsWithin_ask rfl) fun found => ?_
        exact returnsWithin_bind (returnsWithin_okOr _ _) fun user => returnsWithin_pure _

omit [Crates] in
theorem failsWithin_startOperatorBootstrap {now : DateTime} {seed : ℕ} {id : Uuid} :
    FailsWithin Harmless (startOperatorBootstrap config engine now seed id) := by
  refine failsWithin_bind (within_bootstrapCandidate now) fun candidate => ?_
  refine failsWithin_bind (within_ofExcept _) fun started => ?_
  exact failsWithin_bind_pure _ (failsWithin_ask _)

omit [Crates] in
theorem failsWithin_finishRegistration {ceremonyId : Uuid} {kind : CeremonyKind}
    {response : Value} {now : DateTime} :
    FailsWithin Harmless (finishRegistration engine ceremonyId kind response now) := by
  refine failsWithin_bind (within_ask rfl) fun found => ?_
  refine failsWithin_bind (within_okOr _ _) fun ceremony => ?_
  refine failsWithin_bind (within_ofExcept _) fun credential => ?_
  refine failsWithin_bind (within_okOr _ _) fun userId => ?_
  exact failsWithin_ask _

theorem failsWithin_finishAuthentication {ceremonyId : Uuid} {response : Value} {now : DateTime}
    {token csrf : SecretToken} {id : Uuid} :
    FailsWithin Harmless
      (finishAuthentication config engine ceremonyId response now token csrf id) := by
  refine failsWithin_bind (within_ask rfl) fun found => ?_
  refine failsWithin_bind (within_okOr _ _) fun ceremony => ?_
  refine failsWithin_bind (within_ofExcept _) fun handle => ?_
  refine failsWithin_bind (within_ask rfl) fun found => ?_
  refine failsWithin_bind (within_okOr _ _) fun user => ?_
  refine failsWithin_bind (within_ask rfl) fun credentials => ?_
  refine failsWithin_bind (within_ofExcept _) fun verified => ?_
  exact failsWithin_bind_pure _ (failsWithin_ask _)

theorem failsWithin_approveUserAndIssueSetup {operatorId userId : UserId}
    {email displayName : String} {now : DateTime} {token : SecretToken} {handle id : Uuid} :
    FailsWithin Harmless (approveUserAndIssueSetup config operatorId userId email displayName now
      token handle id) := by
  refine failsWithin_bind (within_ensure _ _) fun _ => ?_
  refine failsWithin_bind (within_ask rfl) fun found => ?_
  refine failsWithin_bind (within_ensure _ _) fun _ => ?_
  exact failsWithin_bind_pure _ (failsWithin_ask _)

omit [Crates] in
theorem failsWithin_seedOperator {userId : UserId} {email displayName : String} {now : DateTime}
    {handle : Uuid} :
    FailsWithin Harmless (seedOperator userId email displayName now handle) := by
  refine failsWithin_bind (within_ensure _ _) fun _ => ?_
  refine failsWithin_bind (within_ask rfl) fun found => ?_
  refine failsWithin_bind (within_ensure _ _) fun _ => ?_
  refine failsWithin_bind (within_ask rfl) fun taken => ?_
  refine failsWithin_bind (within_ensure _ _) fun _ => ?_
  exact failsWithin_ask _

/-- **An operation that fails had changed nothing that the log accounts for.** -/
theorem failsWithin_code (op : Operation) : FailsWithin Harmless (op.code config engine) := by
  cases op with
  | startSetupRegistration => exact failsWithin_startSetupRegistration
  | startOperatorBootstrap => exact failsWithin_startOperatorBootstrap
  | finishRegistration => exact failsWithin_finishRegistration
  | startAuthentication =>
      refine failsWithin_bind (within_ofExcept _) fun _ => ?_
      exact failsWithin_bind_pure _ (failsWithin_ask _)
  | finishAuthentication => exact failsWithin_finishAuthentication
  | authenticateSession =>
      refine failsWithin_bind (within_ask rfl) fun found => ?_
      refine failsWithin_bind (within_okOr _ _) fun principal => ?_
      exact failsWithin_bind_pure _ (failsWithin_ensure _ _)
  | issueSessionCsrf =>
      refine failsWithin_bind (within_ask rfl) fun found => ?_
      exact failsWithin_bind_pure _ (failsWithin_okOr _ _)
  | logout => exact failsWithin_ask _
  | requestRecovery => exact failsWithin_ask _
  | pendingRecoveries => exact failsWithin_ask _
  | approveRecovery => exact failsWithin_ask _
  | issueRecoverySetup => exact failsWithin_bind_pure _ (failsWithin_ask _)
  | approveUserAndIssueSetup => exact failsWithin_approveUserAndIssueSetup
  | seedOperator => exact failsWithin_seedOperator
  | rotateAllAuthEpochs =>
      refine failsWithin_bind (within_ensure _ _) fun _ => ?_
      exact failsWithin_ask _
  | breakGlass => exact failsWithin_ask _

end AuthService

/-! ## What an event books -/

/-- The event created the user `u`. -/
def CreatesUser (e : AuthEvent τ) (u : String) : Prop :=
  e.pre.hasUser u = false ∧ e.post.hasUser u = true

namespace History

variable [DecidableEq τ] [Crates] {config : AuthConfig} {engine : CeremonyEngine}
  {ops : τ → Operation} {tr : List (AuthEvent τ)} {db : Database} {e e₀ : AuthEvent τ}

/-- What the operations pass to a call names who is concerned. -/
theorem attributed (h : History config engine ops tr db) (he : e ∈ tr) :
    e.call.Attributed e.pre := by
  obtain ⟨pool, run⟩ := id h
  obtain ⟨past, hasks, hback, -⟩ := run.asks_of_mem he
  obtain ⟨hexplained, hpasses⟩ := justified_of_asks hasks
  generalize e.call = c at hexplained hpasses
  cases c with
  | insertCapability => exact hexplained
  | insertUser => exact ⟨hpasses.authEpoch, hpasses.eventType⟩
  | approveUserWithSetup => exact ⟨hpasses.2.1, hpasses.2.2⟩
  | completeAuthentication =>
      obtain ⟨⟨_, _, _, _, _, _, user, _, -, -, -, rfl, rfl⟩⟩ := hexplained
      exact ⟨rfl, rfl⟩
  | completeRegistration =>
      obtain ⟨⟨asked, kind, response, read, userId, -, found, rfl, -, howner, rfl⟩⟩ := hexplained
      refine ⟨rfl, fun ceremony hceremony hid => ?_⟩
      -- the ceremony that was read is the one that is spent
      obtain ⟨e₁, hprec, -, hc₁⟩ := hback _ found
      obtain ⟨env₁, hperform₁⟩ := h.succeeded hprec.left_mem hc₁
      obtain ⟨row, hrow, -, -, -, hdecodes⟩ := ceremony_found hperform₁
      have hbecomes : row.Becomes ceremony :=
        ((h.evolves_event hprec.left_mem).trans (h.evolves_between hprec)).becomes_of_ceremonyId
          (h.consistent_pre he) hrow hceremony (hid.trans hdecodes.id.symm)
      rw [hbecomes.fixed]
      exact hdecodes.userId.trans (congrArg (Option.map (·.value)) howner)
  | _ => trivial

/-- **What an event changes, the log accounts for.** -/
theorem booked (h : History config engine ops tr db) (he : e ∈ tr) (u : String) :
    ∃ added, Booked u e.pre e.post added := by
  rcases h.storeRun.commits_event he with hsame | ⟨env, hcommits⟩
  · rw [hsame]
    exact ⟨[], SameAccounts.booked ⟨rfl, rfl, rfl, rfl, rfl⟩ u⟩
  · exact hcommits.booked (h.attributed he) (h.consistent_pre he).credentialRowIds u

theorem raisesUsers (h : History config engine ops tr db) : RaisesUsers db := by
  refine h.induct (P := fun _ db => RaisesUsers db) ⟨?_, ?_⟩ ?_
  · exact fun r hr => nomatch hr
  · exact fun event hevent => nomatch hevent
  · intro e tr _ hpost ih
    have he : e ∈ e :: tr := List.mem_cons_self
    rcases hpost.storeRun.commits_event he with hsame | ⟨env, hcommits⟩
    · rw [hsame]
      exact ih
    · exact hcommits.raisesUsers (hpost.attributed he) (hpost.evolves_event he) ih

theorem raisesUsers_pre (h : History config engine ops tr db) (he : e ∈ tr) :
    RaisesUsers e.pre := by
  obtain ⟨newer, older, rfl⟩ := List.append_of_mem he
  exact h.older.raisesUsers

/-! ## The accounts of a run -/

/-- An amount that every event books is the number of its entries in the log. -/
theorem accounted (h : History config engine ops tr db) {p : AuthAuditEvent → Bool}
    {amount : Database → ℕ} (hempty : amount Database.empty = 0)
    (hevent : ∀ e ∈ tr, ∃ added, e.post.authAuditEvents = e.pre.authAuditEvents ++ added ∧
      amount e.post = amount e.pre + added.countP p) :
    amount db = db.authAuditEvents.countP p := by
  have hposts : Posts (·.authAuditEvents) p (fun db n => amount db = n) Database.empty db := by
    obtain ⟨pool, run⟩ := h
    refine run.rel_of_init (Posts.refl _ _ _) .trans fun e he => ?_
    obtain ⟨added, hlog, hamount⟩ := hevent e he
    refine ⟨added, hlog, fun n hn => hamount.trans ?_⟩
    rw [Nat.cast_id]
    exact congrArg (· + added.countP p) hn
  have hsince := hposts.since hempty
  rwa [zero_add, Nat.cast_id] at hsince

/-- Since any event the epoch of a user grew by the events that raise it. -/
theorem epoch_since (h : History config engine ops tr db) (he : e ∈ tr) {r : HumanUser}
    (hr : r ∈ e.post.humanUsers) :
    ∃ r' ∈ db.humanUsers, r'.id = r.id ∧ r'.authEpoch = r.authEpoch +
      (((db.authAuditEvents.drop e.post.authAuditEvents.length).countP (raises r.id) : ℕ) : ℤ) := by
  have hposts : Posts (·.authAuditEvents) (raises r.id)
      (fun db n => ∃ r' ∈ db.humanUsers, r'.id = r.id ∧ r'.authEpoch = n) e.post db := by
    obtain ⟨pool, run⟩ := id h
    refine run.rel_of_mem (Posts.refl _ _ _) .trans (fun e he => ?_) he
    obtain ⟨added, hbooked⟩ := h.booked he r.id
    refine ⟨added, hbooked.log, ?_⟩
    rintro n ⟨r', hr', hid, rfl⟩
    exact hbooked.epochs r' hr' hid
  exact hposts.since ⟨r, hr, rfl, rfl⟩

/-- No event of an operation that failed changed what the log accounts for. -/
theorem sameAccounts_of_fails (h : History config engine ops tr db) (he : e ∈ tr)
    {error : AuthError}
    (hfails : Fallible.Fails ((ops e.tid).code config engine) (exchanges tr e.tid) error) :
    SameAccounts e.pre e.post := by
  have hsame : e.post = e.pre → SameAccounts e.pre e.post := by
    intro hsame
    rw [hsame]
    exact ⟨rfl, rfl, rfl, rfl, rfl⟩
  have hharmless : Harmless e.exchange :=
    AuthService.failsWithin_code _ _ _ hfails _ (mem_exchanges_of_mem he)
  rcases succeeded_or_failed (rfl : e.call = e.call) with ⟨a, hc⟩ | hc
  · rcases h.storeRun.commits_event he with hpost | ⟨env, hcommits⟩
    · exact hsame hpost
    · refine hcommits.sameAccounts (hharmless ?_)
      rw [hc]
      rfl
  · exact hsame (h.failed_unchanged he hc)

/-- Every user was created by an event. -/
theorem exists_createsUser (h : History config engine ops tr db) {r : HumanUser}
    (hr : r ∈ db.humanUsers) : ∃ e ∈ tr, CreatesUser e r.id := by
  obtain ⟨pool, run⟩ := h
  obtain ⟨e, he, hpre, hpost⟩ :=
    run.origin (F := fun db => db.hasUser r.id = true) Bool.false_ne_true (hasUser_iff.2 ⟨r, hr, rfl⟩)
  exact ⟨e, he, Bool.eq_false_iff.2 hpre, hpost⟩

/-- A user starts with the epoch 1, and no event that raises it. -/
theorem created (h : History config engine ops tr db) (he : e ∈ tr) {u : String}
    (hcreates : CreatesUser e u) :
    (∃ r ∈ e.post.humanUsers, r.id = u ∧ r.authEpoch = 1) ∧
      ∀ event ∈ e.post.authAuditEvents,
        concerns ["recovery.approved", "operator.break_glass_opened"] u event = false := by
  obtain ⟨hpre, hpost⟩ := hcreates
  obtain ⟨r, hr, rfl⟩ := hasUser_iff.1 hpost
  have hdb := h.raisesUsers_pre he
  rcases h.storeRun.commits_event he with hsame | ⟨env, hcommits⟩
  · rw [hsame, hpre] at hpost
    cases hpost
  · have hattributed := h.attributed he
    refine ⟨⟨r, hr, rfl, hcommits.newUser hattributed hr fun r' hr' hid => ?_⟩, ?_⟩
    · rw [hasUser_iff.2 ⟨r', hr', hid⟩] at hpre
      cases hpre
    · intro event hevent
      -- a raising event names a user who is there, and this one was not
      rw [Bool.eq_false_iff]
      intro hraises
      have huser : e.pre.hasUser r.id = true := by
        rcases hcommits.raising_cases hattributed hdb event hevent r.id hraises with hold | huser
        · exact hdb.events event hold r.id hraises
        · exact huser
      rw [huser] at hpre
      cases hpre

/-- **The epoch of a user**, given back by the log. -/
theorem epoch_eq (h : History config engine ops tr db) {r : HumanUser} (hr : r ∈ db.humanUsers)
    (he : e ∈ tr) (hcreates : CreatesUser e r.id) :
    r.authEpoch = 1 +
      (db.eventsFor ["recovery.approved", "operator.break_glass_opened"] r.id : ℤ) +
      ((db.authAuditEvents.drop e.post.authAuditEvents.length).countP rotates : ℕ) := by
  obtain ⟨⟨r₀, hr₀, hid₀, hone⟩, hnone⟩ := h.created he hcreates
  obtain ⟨r', hr', hid', hepoch⟩ := h.epoch_since he hr₀
  obtain rfl : r' = r := h.consistent.userIds.eq_of_mem hr' hr (hid'.trans hid₀)
  have hlog : db.authAuditEvents =
      e.post.authAuditEvents ++ db.authAuditEvents.drop e.post.authAuditEvents.length :=
    (List.prefix_iff_eq_append.1 (h.evolves_end he).authAuditEvents).symm
  have hevents : db.eventsFor ["recovery.approved", "operator.break_glass_opened"] r'.id =
      (db.authAuditEvents.drop e.post.authAuditEvents.length).countP
        (concerns ["recovery.approved", "operator.break_glass_opened"] r'.id) := by
    rw [eventsFor]
    conv_lhs => rw [hlog]
    rw [List.countP_append, List.countP_eq_zero.2 (fun event hevent => ?_), Nat.zero_add]
    rw [hnone event hevent]
    exact Bool.false_ne_true
  rw [hepoch, hone, hid₀, hevents, countP_raises, Nat.cast_add, add_assoc]

end History

/-- **The audit log accounts for every change of authority.** -/
theorem audit_log_accounts [DecidableEq τ] [Crates] {config : AuthConfig}
    {engine : CeremonyEngine} {ops : τ → Operation} {tr : List (AuthEvent τ)} {db : Database}
    (h : History config engine ops tr db) :
    (∀ e ∈ tr, e.pre.authAuditEvents <+: e.post.authAuditEvents ∧
      e.post.authAuditEvents <+: db.authAuditEvents) ∧
    (∀ u, db.credentialsOf u = db.eventsFor ["passkey.registered"] u ∧
      db.sessionsOf u = db.eventsFor ["session.created"] u ∧
      db.revokedCredentialsOf u = db.eventsFor ["operator.break_glass_opened"] u ∧
      db.capabilitiesOf u = db.eventsFor ["user.approved_with_setup", "recovery.setup_issued",
        "operator.break_glass_opened"] u) ∧
    (∀ r ∈ db.humanUsers, (∃ e ∈ tr, CreatesUser e r.id) ∧
      ∀ e ∈ tr, CreatesUser e r.id → r.authEpoch = 1 +
        (db.eventsFor ["recovery.approved", "operator.break_glass_opened"] r.id : ℤ) +
        ((db.authAuditEvents.drop e.post.authAuditEvents.length).countP rotates : ℕ)) ∧
    ∀ t error, Fallible.Fails ((ops t).code config engine) (exchanges tr t) error →
      ∀ e ∈ tr, e.tid = t → SameAccounts e.pre e.post := by
  refine ⟨fun e he => ⟨(h.evolves_event he).authAuditEvents, (h.evolves_end he).authAuditEvents⟩,
    fun u => ⟨?_, ?_, ?_, ?_⟩, ?_, ?_⟩
  · refine h.accounted rfl fun e he => ?_
    obtain ⟨added, hbooked⟩ := h.booked he u
    exact ⟨added, hbooked.log, hbooked.credentials⟩
  · refine h.accounted rfl fun e he => ?_
    obtain ⟨added, hbooked⟩ := h.booked he u
    exact ⟨added, hbooked.log, hbooked.sessions⟩
  · refine h.accounted rfl fun e he => ?_
    obtain ⟨added, hbooked⟩ := h.booked he u
    exact ⟨added, hbooked.log, hbooked.revoked⟩
  · refine h.accounted rfl fun e he => ?_
    obtain ⟨added, hbooked⟩ := h.booked he u
    exact ⟨added, hbooked.log, hbooked.capabilities⟩
  · exact fun r hr => ⟨h.exists_createsUser hr, fun e he => h.epoch_eq hr he⟩
  · rintro t error hfails e he rfl
    exact h.sameAccounts_of_fails he hfails

section Sample

attribute [local instance] Reference.crates

/-- The log of a run with two logins and an approved recovery tells how many sessions were created. -/
theorem audit_log_accounts_sample :
    (sampleRun sampleLogins sampleLoginSchedule).state.sessionsOf "operator" = 2 := by
  have haccounts := audit_log_accounts (sampleRun_history sampleLogins sampleLoginSchedule)
  rw [(haccounts.2.1 "operator").2.1]
  decide +kernel

end Sample

end RsConsole
