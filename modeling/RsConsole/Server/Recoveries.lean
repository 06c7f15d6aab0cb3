import RsConsole.Server.Commits
import RsConsole.Server.Invalidation

set_option autoImplicit false

/-! # Recovery requests

A request is approved, its setup is issued, and a registration of its user completes it. Each of the
three steps sets marks that were not set and requires those of the step before, so a request only
moves forward (`recoveries_move_forward`). The three steps of one request are not tied to one
capability, however: a registration completes all issued requests of its user and spends the
capability of one. -/

namespace RsConsole

open Library Library.Table Database

variable {τ : Type}

namespace Database

/-! ## The stages of a request -/

/-- One step of a request. -/
inductive RecoveryRequest.Advances (r : RecoveryRequest) : RecoveryRequest → Prop
  | approve (operatorId : String) (now : DateTime) (pending : r.Pending) :
      Advances r { r with approvedAt := some now, approvedBy := some operatorId }
  | issue (now : DateTime) (approved : r.approvedAt ≠ none) (notIssued : r.setupIssuedAt = none)
      (notCompleted : r.completedAt = none) : Advances r { r with setupIssuedAt := some now }
  | complete (now : DateTime) (issued : r.setupIssuedAt ≠ none)
      (notCompleted : r.completedAt = none) : Advances r { r with completedAt := some now }

/-- How far a request has come: requested, approved, setup issued, completed. -/
def RecoveryRequest.stage (r : RecoveryRequest) : ℕ :=
  if r.completedAt ≠ none then 3
  else if r.setupIssuedAt ≠ none then 2
  else if r.approvedAt ≠ none then 1
  else 0

/-- The marks of a request are set in order. -/
structure RecoveryRequest.Staged (r : RecoveryRequest) : Prop where
  issued : r.completedAt ≠ none → r.setupIssuedAt ≠ none
  approved : r.setupIssuedAt ≠ none → r.approvedAt ≠ none
  approver : r.approvedAt ≠ none ↔ r.approvedBy ≠ none

namespace RecoveryRequest

variable {r r' : RecoveryRequest}

theorem Advances.staged (h : r.Advances r') (hr : r.Staged) : r'.Staged := by
  cases h with
  | approve operatorId now pending => exact ⟨hr.issued, by simp, by simp⟩
  | issue now approved => exact ⟨by simp, fun _ => approved, hr.approver⟩
  | complete now issued => exact ⟨fun _ => issued, hr.approved, hr.approver⟩

/-- A step leads to the next stage. -/
theorem Advances.stage_eq (h : r.Advances r') (hr : r.Staged) : r'.stage = r.stage + 1 := by
  cases h with
  | approve operatorId now pending =>
      have hissued : r.setupIssuedAt = none := by
        by_contra hissued
        exact hr.approved hissued pending.1
      simp [stage, hissued, pending.1, pending.2]
  | issue now approved notIssued notCompleted => simp [stage, approved, notIssued, notCompleted]
  | complete now issued notCompleted => simp [stage, issued, notCompleted]

theorem Advances.id_eq (h : r.Advances r') : r'.id = r.id := by
  cases h <;> rfl

/-- After a step a request is approved or completed. -/
theorem Advances.not_pending (h : r.Advances r') : ¬ r'.Pending := by
  rintro ⟨happroved, hcompleted⟩
  cases h with
  | approve => cases happroved
  | issue now approved => exact approved happroved
  | complete => cases hcompleted

end RecoveryRequest

end Database

/-! ## What commits do to the requests -/

namespace Commits

variable {env : Env} {db db' : Database} {c : AuthCall}

/-- A request is added by `create_recovery`, for a user without a pending one; other calls let
    requests advance at most. -/
theorem recoveries_cases (h : Commits env db c db') :
    (∃ id userId now, db'.recoveryRequests = db.recoveryRequests ++
        [{ id := id, userId := userId, requestedAt := now }] ∧
      ∀ r ∈ db.recoveryRequests, r.userId = userId → ¬ r.Pending) ∨
    ∃ p f, db'.recoveryRequests = updateWhere p f db.recoveryRequests ∧
      ∀ r, p r = true → r.Advances (f r) := by
  cases h with
  | createRecovery userId now owner none =>
      exact Or.inl ⟨env.fresh, userId.value, now, rfl, none⟩
  | approveRecovery recoveryId operatorId now =>
      refine Or.inr ⟨_, _, rfl, fun r hr => ?_⟩
      exact .approve operatorId.value now (of_decide_eq_true hr).2
  | issueRecoverySetup recoveryId capability operatorId now =>
      refine Or.inr ⟨_, _, rfl, fun r hr => ?_⟩
      obtain ⟨-, happroved, hnotIssued, hnotCompleted, -⟩ := of_decide_eq_true hr
      exact .issue now happroved hnotIssued hnotCompleted
  | completeRegistration ceremonyId capabilityHash credential now =>
      refine Or.inr ⟨_, _, rfl, fun r hr => ?_⟩
      obtain ⟨-, -, hissued, hnotCompleted⟩ := of_decide_eq_true hr
      exact .complete now hissued hnotCompleted
  | _ =>
      refine Or.inr ⟨fun _ => false, id, (updateWhere_false _ _).symm, fun r hr => ?_⟩
      cases hr

theorem approveRecovery_marks {recoveryId : Uuid} {operatorId : UserId} {now : DateTime}
    (h : Commits env db (.approveRecovery recoveryId operatorId now) db') :
    (∃ r ∈ db.recoveryRequests, r.id = recoveryId ∧ r.approvedAt = none) ∧
      ∃ r ∈ db'.recoveryRequests, r.id = recoveryId ∧ r.approvedAt ≠ none := by
  cases h with
  | unchanged _ reads => cases reads
  | approveRecovery _ _ _ r subject mem id pending owner =>
      refine ⟨⟨r, mem, id, pending.1⟩, _, mem_updateWhere.2 ⟨r, mem, rfl⟩, ?_⟩
      simp [id, pending]

theorem issueRecoverySetup_marks {recoveryId : Uuid} {capability : Capability}
    {operatorId : UserId} {now : DateTime}
    (h : Commits env db (.issueRecoverySetup recoveryId capability operatorId now) db') :
    (∃ r ∈ db.recoveryRequests, r.id = recoveryId ∧ r.setupIssuedAt = none ∧
      r.userId = capability.userId.value) ∧
    (∃ r ∈ db'.recoveryRequests, r.id = recoveryId ∧ r.setupIssuedAt ≠ none) ∧
      db'.authCapabilities = db.authCapabilities ++ [capability.row env.clock] := by
  cases h with
  | unchanged _ reads => cases reads
  | issueRecoverySetup _ _ _ _ r mem id approved notIssued notCompleted owner =>
      refine ⟨⟨r, mem, id, notIssued, owner⟩, ⟨_, mem_updateWhere.2 ⟨r, mem, rfl⟩, ?_⟩, rfl⟩
      simp [id, approved, notIssued, notCompleted, owner]

/-- A request is completed by a registration for its user. -/
theorem completed_by (h : Commits env db c db') (hc : Database.Consistent db)
    {r r' : Database.RecoveryRequest} (hr : r ∈ db.recoveryRequests) (hnone : r.completedAt = none)
    (hr' : r' ∈ db'.recoveryRequests) (hid : r'.id = r.id) (hdone : r'.completedAt ≠ none) :
    ∃ ceremonyId capabilityHash credential now audit,
      c = .completeRegistration ceremonyId capabilityHash credential now audit ∧
      audit.subjectUserId.map (·.value) = some r.userId := by
  -- any other update leaves `completed_at` alone
  have hother : ∀ (p : Database.RecoveryRequest → Bool) f,
      (∀ r : Database.RecoveryRequest, (f r).id = r.id ∧ (f r).completedAt = r.completedAt) →
      r' ∉ updateWhere p f db.recoveryRequests := by
    intro p f hf hmem
    obtain ⟨r₀, hr₀, rfl⟩ := mem_updateWhere.1 hmem
    by_cases hp : p r₀ = true
    · rw [if_pos hp] at hid hdone
      obtain rfl : r₀ = r := hc.recoveryIds.eq_of_mem hr₀ hr ((hf r₀).1.symm.trans hid)
      exact hdone ((hf r₀).2.trans hnone)
    · rw [if_neg hp] at hid hdone
      obtain rfl : r₀ = r := hc.recoveryIds.eq_of_mem hr₀ hr hid
      exact hdone hnone
  cases h with
  | createRecovery =>
      rcases List.mem_append.1 hr' with hr' | hr'
      · obtain rfl : r' = r := hc.recoveryIds.eq_of_mem hr' hr hid
        exact absurd hnone hdone
      · obtain rfl := List.mem_singleton.1 hr'
        exact absurd rfl hdone
  | approveRecovery => exact absurd hr' (hother _ _ (fun _ => ⟨rfl, rfl⟩))
  | issueRecoverySetup => exact absurd hr' (hother _ _ (fun _ => ⟨rfl, rfl⟩))
  | completeRegistration ceremonyId capabilityHash credential now audit =>
      refine ⟨ceremonyId, capabilityHash, credential, now, audit, rfl, ?_⟩
      obtain ⟨r₀, hr₀, heq⟩ := mem_updateWhere.1 hr'
      split at heq
      · next hp =>
          obtain rfl : r₀ = r := by
            refine hc.recoveryIds.eq_of_mem hr₀ hr ?_
            rw [← hid, heq]
          exact (of_decide_eq_true hp).1.symm
      · subst heq
        obtain rfl : r' = r := hc.recoveryIds.eq_of_mem hr₀ hr hid
        exact absurd hnone hdone
  | _ =>
      obtain rfl : r' = r := hc.recoveryIds.eq_of_mem hr' hr hid
      exact absurd hnone hdone

end Commits

namespace StoreRun

variable [DecidableEq τ] {out : τ → Type} {start : (t : τ) → Program AuthCall AuthCall.Answer (out t)}
  {tr : List (AuthEvent τ)} {db : Database} {e e₁ e₂ : AuthEvent τ}

/-- What an event does to the requests. -/
theorem recoveries_event (h : StoreRun start tr db) (he : e ∈ tr) :
    (∃ id userId now, e.post.recoveryRequests = e.pre.recoveryRequests ++
        [{ id := id, userId := userId, requestedAt := now }] ∧
      ∀ r ∈ e.pre.recoveryRequests, r.userId = userId → ¬ r.Pending) ∨
    ∃ p f, e.post.recoveryRequests = updateWhere p f e.pre.recoveryRequests ∧
      ∀ r, p r = true → r.Advances (f r) := by
  rcases h.commits_event he with hsame | ⟨env, hcommits⟩
  · refine Or.inr ⟨fun _ => false, id, ?_, fun r hr => ?_⟩
    · rw [hsame, updateWhere_false]
    · cases hr
  · exact hcommits.recoveries_cases

theorem recoveries_staged (h : StoreRun start tr db) : ∀ r ∈ db.recoveryRequests, r.Staged := by
  refine h.induct (P := fun _ db => ∀ r ∈ db.recoveryRequests, r.Staged)
    (fun r hr => nomatch hr) ?_
  intro e tr _ hpost ih r' hr'
  rcases hpost.recoveries_event List.mem_cons_self with ⟨id, userId, now, hrows, -⟩ |
    ⟨p, f, hrows, hadvances⟩
  · rw [hrows, List.mem_append, List.mem_singleton] at hr'
    rcases hr' with hr' | rfl
    · exact ih r' hr'
    · exact ⟨by simp, by simp, by simp⟩
  · rw [hrows] at hr'
    obtain ⟨r, hr, rfl⟩ := mem_updateWhere.1 hr'
    by_cases hp : p r = true
    · rw [if_pos hp]
      exact (hadvances r hp).staged (ih r hr)
    · rw [if_neg hp]
      exact ih r hr

/-- What an event makes of a request. -/
theorem advances_event (h : StoreRun start tr db) (he : e ∈ tr) {r : Database.RecoveryRequest}
    (hr : r ∈ e.pre.recoveryRequests) :
    ∃ r' ∈ e.post.recoveryRequests, r'.id = r.id ∧ (r' = r ∨ r.Advances r') := by
  rcases h.recoveries_event he with ⟨id, userId, now, hrows, -⟩ | ⟨p, f, hrows, hadvances⟩
  · refine ⟨r, ?_, rfl, Or.inl rfl⟩
    rw [hrows]
    exact List.mem_append_left _ hr
  · refine ⟨if p r then f r else r, ?_, ?_⟩
    · rw [hrows]
      exact mem_updateWhere.2 ⟨r, hr, rfl⟩
    · by_cases hp : p r = true
      · rw [if_pos hp]
        exact ⟨(hadvances r hp).id_eq, Or.inr (hadvances r hp)⟩
      · rw [if_neg hp]
        exact ⟨rfl, Or.inl rfl⟩

/-- A request that an event added is at the first stage. -/
theorem requested_event (h : StoreRun start tr db) (he : e ∈ tr) {r' : Database.RecoveryRequest}
    (hr' : r' ∈ e.post.recoveryRequests) (hnew : ∀ r ∈ e.pre.recoveryRequests, r.id ≠ r'.id) :
    r'.stage = 0 := by
  rcases h.recoveries_event he with ⟨id, userId, now, hrows, -⟩ | ⟨p, f, hrows, hadvances⟩
  · rw [hrows, List.mem_append, List.mem_singleton] at hr'
    rcases hr' with hr' | rfl
    · exact absurd rfl (hnew r' hr')
    · simp [RecoveryRequest.stage]
  · rw [hrows] at hr'
    obtain ⟨r, hr, rfl⟩ := mem_updateWhere.1 hr'
    refine absurd ?_ (hnew r hr)
    by_cases hp : p r = true
    · rw [if_pos hp]
      exact (hadvances r hp).id_eq.symm
    · rw [if_neg hp]

/-- A user has at most one pending request. -/
theorem pending_le_one (h : StoreRun start tr db) (u : String) :
    db.recoveryRequests.countP (fun r => r.userId = u ∧ r.Pending) ≤ 1 := by
  refine h.induct (P := fun _ db =>
    db.recoveryRequests.countP (fun r => r.userId = u ∧ r.Pending) ≤ 1) (Nat.zero_le 1) ?_
  intro e tr _ hpost ih
  rcases hpost.recoveries_event List.mem_cons_self with ⟨id, userId, now, hrows, hnone⟩ |
    ⟨p, f, hrows, hadvances⟩
  · rw [hrows, List.countP_append]
    by_cases hu : userId = u
    · -- the user of the new request had no pending one
      have hzero : e.pre.recoveryRequests.countP (fun r => r.userId = u ∧ r.Pending) = 0 := by
        rw [List.countP_eq_zero]
        intro r hr hboth
        obtain ⟨huser, hpending⟩ := of_decide_eq_true hboth
        exact hnone r hr (huser.trans hu.symm) hpending
      rw [hzero, Nat.zero_add]
      exact List.countP_le_length
    · simpa [hu] using ih
  · rw [hrows]
    refine (countP_updateWhere_le (fun r hp hboth => ?_) _).trans ih
    exact absurd (of_decide_eq_true hboth).2 (hadvances r hp).not_pending

/-- A call that sets a mark of request `id`, which nothing clears, succeeds once. -/
theorem marked_once (h : StoreRun start tr db) (id : Uuid)
    (mark : Database.RecoveryRequest → Option DateTime) {p : AuthEvent τ → Bool}
    (hkeeps : ∀ a b : Database.RecoveryRequest, a.Becomes b → Mark (mark a) (mark b))
    (hmarks : ∀ e ∈ tr, p e = true →
      (∃ r ∈ e.pre.recoveryRequests, r.id = id ∧ mark r = none) ∧
        ∃ r ∈ e.post.recoveryRequests, r.id = id ∧ mark r ≠ none) :
    (tr.filter p).length ≤ 1 := by
  refine length_filter_le_one (fun e₁ e₂ hprec h₁ => ?_)
  rw [Bool.eq_false_iff]
  intro h₂
  obtain ⟨-, r₁, hr₁, hid₁, hmarked⟩ := hmarks e₁ hprec.left_mem h₁
  obtain ⟨⟨r₂, hr₂, hid₂, hnone⟩, -⟩ := hmarks e₂ hprec.right_mem h₂
  have hbecomes : r₁.Becomes r₂ := (h.evolves_between hprec).becomes_of_recoveryId
    (h.consistent_pre hprec.right_mem) hr₁ hr₂ (hid₂.trans hid₁.symm)
  rw [hkeeps r₁ r₂ hbecomes hmarked] at hnone
  exact hmarked hnone

end StoreRun

/-! ## Forward only -/

/-- The event approved the recovery `id`. -/
def approvesRecovery (id : Uuid) (e : AuthEvent τ) : Bool :=
  match e.exchange with
  | ⟨.approveRecovery recoveryId _ _, .ok _⟩ => recoveryId = id
  | _ => false

/-- The event issued a setup for the recovery `id`. -/
def issuesRecoverySetup (id : Uuid) (e : AuthEvent τ) : Bool :=
  match e.exchange with
  | ⟨.issueRecoverySetup recoveryId _ _ _, .ok _⟩ => recoveryId = id
  | _ => false

theorem approvesRecovery_cases {id : Uuid} {e : AuthEvent τ} (h : approvesRecovery id e = true) :
    ∃ operatorId now, Succeeded e (.approveRecovery id operatorId now) () := by
  unfold approvesRecovery at h
  split at h
  · next recoveryId operatorId now a he =>
      cases of_decide_eq_true h
      exact ⟨operatorId, now, he⟩
  · cases h

theorem issuesRecoverySetup_cases {id : Uuid} {e : AuthEvent τ}
    (h : issuesRecoverySetup id e = true) :
    ∃ capability operatorId now,
      Succeeded e (.issueRecoverySetup id capability operatorId now) () := by
  unfold issuesRecoverySetup at h
  split at h
  · next recoveryId capability operatorId now a he =>
      cases of_decide_eq_true h
      exact ⟨capability, operatorId, now, he⟩
  · cases h

/-- **Recovery requests only move forward**, whatever calls of the store are made. -/
theorem recoveries_move_forward [DecidableEq τ] {out : τ → Type}
    {start : (t : τ) → Program AuthCall AuthCall.Answer (out t)} {tr : List (AuthEvent τ)}
    {db : Database} (h : StoreRun start tr db) :
    (∀ r ∈ db.recoveryRequests, r.Staged) ∧
    (∀ e ∈ tr, ∀ r ∈ e.pre.recoveryRequests, ∃ r' ∈ e.post.recoveryRequests, r'.id = r.id ∧
      (r' = r ∨ r.Advances r' ∧ r'.stage = r.stage + 1)) ∧
    (∀ e ∈ tr, ∀ r' ∈ e.post.recoveryRequests,
      (∀ r ∈ e.pre.recoveryRequests, r.id ≠ r'.id) → r'.stage = 0) ∧
    (∀ e ∈ tr, ∀ r ∈ e.post.recoveryRequests, ∃ r' ∈ db.recoveryRequests, r'.id = r.id ∧
      r'.userId = r.userId ∧ Mark r.approvedAt r'.approvedAt ∧ Mark r.approvedBy r'.approvedBy ∧
      Mark r.setupIssuedAt r'.setupIssuedAt ∧ Mark r.completedAt r'.completedAt) ∧
    (∀ id, (tr.filter (approvesRecovery id)).length ≤ 1 ∧
      (tr.filter (issuesRecoverySetup id)).length ≤ 1) ∧
    (∀ e ∈ tr, ∀ id capability operatorId now,
      Succeeded e (.issueRecoverySetup id capability operatorId now) () →
      (∃ r ∈ e.pre.recoveryRequests, r.id = id ∧ r.userId = capability.userId.value) ∧
        ∃ clock, e.post.authCapabilities = e.pre.authCapabilities ++ [capability.row clock]) ∧
    ∀ u, (db.recoveryRequests.filter (fun r => r.userId = u ∧ r.Pending)).length ≤ 1 := by
  have hstaged : ∀ e ∈ tr, ∀ r ∈ e.post.recoveryRequests, r.Staged := by
    intro e he
    obtain ⟨newer, older, rfl⟩ := List.append_of_mem he
    exact h.upto.recoveries_staged
  refine ⟨h.recoveries_staged, ?_, fun e he r' hr' => h.requested_event he hr', ?_, ?_, ?_, ?_⟩
  · intro e he r hr
    obtain ⟨newer, older, rfl⟩ := List.append_of_mem he
    obtain ⟨r', hr', hid, hsame | hadvances⟩ := h.advances_event he hr
    · exact ⟨r', hr', hid, Or.inl hsame⟩
    · exact ⟨r', hr', hid, Or.inr ⟨hadvances, hadvances.stage_eq (h.older.recoveries_staged r hr)⟩⟩
  · intro e he r hr
    obtain ⟨r', hr', hbecomes⟩ := (h.evolves_end he).recoveryRequests.exists_of_mem hr
    refine ⟨r', hr', by rw [hbecomes.fixed], by rw [hbecomes.fixed], hbecomes.approved, ?_,
      hbecomes.setupIssued, hbecomes.completed⟩
    -- an approver is set with the approval or never, so a request that has one is past it
    exact fun happrover => hbecomes.approver ((hstaged e he r hr).approver.2 happrover)
  · refine fun id => ⟨?_, ?_⟩
    · -- both dates are set once, so the event that sets one is the only one of its kind
      refine h.marked_once id (·.approvedAt) (fun _ _ hab => hab.approved) ?_
      intro e he hp
      obtain ⟨operatorId, now, hc⟩ := approvesRecovery_cases hp
      obtain ⟨env, hcommits⟩ := h.committed he hc
      exact hcommits.approveRecovery_marks
    · refine h.marked_once id (·.setupIssuedAt) (fun _ _ hab => hab.setupIssued) ?_
      intro e he hp
      obtain ⟨capability, operatorId, now, hc⟩ := issuesRecoverySetup_cases hp
      obtain ⟨env, hcommits⟩ := h.committed he hc
      obtain ⟨⟨r, hr, hid, hnone, -⟩, hafter, -⟩ := hcommits.issueRecoverySetup_marks
      exact ⟨⟨r, hr, hid, hnone⟩, hafter⟩
  · intro e he id capability operatorId now hc
    obtain ⟨env, hcommits⟩ := h.committed he hc
    obtain ⟨⟨r, hr, hid, -, howner⟩, -, hadded⟩ := hcommits.issueRecoverySetup_marks
    exact ⟨⟨r, hr, hid, howner⟩, env.clock, hadded⟩
  · intro u
    rw [← List.countP_eq_length_filter]
    exact h.pending_le_one u

section Sample

attribute [local instance] Reference.crates

/-- Both setups of the operator, whose second recovery is requested after the first one was approved,
    are issued before either is used. -/
def sampleRecoveries : List Operation :=
  [.seedOperator sampleOperator "operator@example.com" "Operator" 0 1,
    .requestRecovery sampleOperator 1,
    .approveRecovery 40 sampleOperator 2,
    .requestRecovery sampleOperator 3,
    .approveRecovery 41 sampleOperator 4,
    .issueRecoverySetup 40 sampleOperator sampleOperator 5 (sampleToken 5) 50,
    .issueRecoverySetup 41 sampleOperator sampleOperator 6 (sampleToken 6) 51,
    .startSetupRegistration (sampleToken 5) .recoverySetup 7 0 10,
    .finishRegistration 10 .registration (.string "a") 8,
    .startSetupRegistration (sampleToken 6) .recoverySetup 9 0 11,
    .finishRegistration 11 .registration (.string "b") 10]

def sampleRecoverySchedule : List (ℕ × Uuid) :=
  [(0, 0), (0, 0), (0, 0), (1, 40), (2, 0), (3, 41), (4, 0), (5, 0), (6, 0), (7, 0), (7, 0),
    (7, 0), (7, 0), (8, 0), (8, 30), (9, 0), (9, 0), (9, 0), (9, 0), (10, 0), (10, 31)]

/-- Recovery 41 is approved and issued, each once. -/
theorem recoveries_move_forward_sample :
    ((sampleRun sampleRecoveries sampleRecoverySchedule).trace.filter
        (approvesRecovery 41)).length = 1 ∧
      ((sampleRun sampleRecoveries sampleRecoverySchedule).trace.filter
        (issuesRecoverySetup 41)).length = 1 := by
  have hle := (recoveries_move_forward
    (sampleRun_history sampleRecoveries sampleRecoverySchedule).storeRun).2.2.2.2.1 41
  have hge : 1 ≤ ((sampleRun sampleRecoveries sampleRecoverySchedule).trace.filter
        (approvesRecovery 41)).length ∧
      1 ≤ ((sampleRun sampleRecoveries sampleRecoverySchedule).trace.filter
        (issuesRecoverySetup 41)).length := by decide +kernel
  exact ⟨le_antisymm hle.1 hge.1, le_antisymm hle.2 hge.2⟩

end Sample

/-! ## The capability of a completed request -/

/-- The event completed the recovery `id`. -/
def CompletesRecovery (id : Uuid) (e : AuthEvent τ) : Prop :=
  ∃ r ∈ e.pre.recoveryRequests, ∃ r' ∈ e.post.recoveryRequests, r.id = id ∧ r'.id = id ∧
    r.completedAt = none ∧ r'.completedAt ≠ none

/-- The event accepted a capability: it registered a credential with it. -/
def accepts (hash : SecretHash) (e : AuthEvent τ) : Bool :=
  match e.exchange with
  | ⟨.completeRegistration _ (some named) _ _ _, .ok _⟩ => named = hash
  | _ => false

theorem accepts_cases {hash : SecretHash} {e : AuthEvent τ} (h : accepts hash e = true) :
    ∃ ceremonyId credential now audit,
      Succeeded e (.completeRegistration ceremonyId (some hash) credential now audit) () := by
  unfold accepts at h
  split at h
  · next ceremonyId named credential now audit a he =>
      cases of_decide_eq_true h
      exact ⟨ceremonyId, credential, now, audit, he⟩
  · cases h

/-- A capability is accepted once. -/
theorem StoreRun.not_accepts_twice [DecidableEq τ] {out : τ → Type}
    {start : (t : τ) → Program AuthCall AuthCall.Answer (out t)} {tr : List (AuthEvent τ)}
    {db : Database} (h : StoreRun start tr db) {e₁ e₂ : AuthEvent τ} (hprec : Precedes tr e₁ e₂)
    {hash : SecretHash} (h₁ : accepts hash e₁ = true) : accepts hash e₂ = false := by
  rw [Bool.eq_false_iff]
  intro h₂
  obtain ⟨_, _, _, _, hc₁⟩ := accepts_cases h₁
  obtain ⟨_, _, _, _, hc₂⟩ := accepts_cases h₂
  obtain ⟨env₁, hperform₁⟩ := h.succeeded hprec.left_mem hc₁
  obtain ⟨env₂, hperform₂⟩ := h.succeeded hprec.right_mem hc₂
  obtain ⟨_, _, _, hreg₁⟩ := PgAuthStore.completeRegistration_committed hperform₁
  obtain ⟨_, _, _, hreg₂⟩ := PgAuthStore.completeRegistration_committed hperform₂
  obtain ⟨c₁, -, htoken₁, -, b, hb, hbecomes, hspent⟩ := hreg₁.spentCapability hash rfl
  obtain ⟨c₂, hmem₂, htoken₂, hlive, -⟩ := hreg₂.spentCapability hash rfl
  have hlater : b.Becomes c₂ := (h.evolves_between hprec).becomes_of_capabilityHash
    (h.consistent_pre hprec.right_mem) hb hmem₂ (by rw [htoken₂, hbecomes.fixed, ← htoken₁])
  have hconsumed := hlater.consumed hspent
  rw [hlive.1] at hconsumed
  exact hspent hconsumed.symm

theorem accepts_of_succeeded {e : AuthEvent τ} {ceremonyId : Uuid} {hash : SecretHash}
    {credential : VerifiedCredential} {now : DateTime} {audit : AuditEvent}
    (h : Succeeded e (.completeRegistration ceremonyId (some hash) credential now audit) ()) :
    accepts hash e = true := by
  unfold accepts
  rw [h]
  exact decide_eq_true rfl

/-- A request is completed by a successful registration for its user. -/
theorem StoreRun.completed_by [DecidableEq τ] {out : τ → Type}
    {start : (t : τ) → Program AuthCall AuthCall.Answer (out t)} {tr : List (AuthEvent τ)}
    {db : Database} (h : StoreRun start tr db) {e : AuthEvent τ} (he : e ∈ tr)
    {r r' : Database.RecoveryRequest} (hr : r ∈ e.pre.recoveryRequests)
    (hnone : r.completedAt = none) (hr' : r' ∈ e.post.recoveryRequests) (hid : r'.id = r.id)
    (hdone : r'.completedAt ≠ none) :
    ∃ ceremonyId capabilityHash credential now audit,
      Succeeded e (.completeRegistration ceremonyId capabilityHash credential now audit) () ∧
      audit.subjectUserId.map (·.value) = some r.userId := by
  have hkeys := h.consistent_pre he
  rcases h.commits_answered he with hsame | ⟨env, hcommits, hanswered⟩
  · rw [hsame] at hr'
    obtain rfl : r' = r := hkeys.recoveryIds.eq_of_mem hr' hr hid
    exact absurd hnone hdone
  · obtain ⟨ceremonyId, capabilityHash, credential, now, audit, hcall, hsubject⟩ :=
      hcommits.completed_by hkeys hr hnone hr' hid hdone
    obtain ⟨⟨⟩, hc⟩ := hanswered _ hcall rfl
    exact ⟨ceremonyId, capabilityHash, credential, now, audit, hc, hsubject⟩

/-- **The capability of a completed request is accepted afterwards only if another one was spent
    to complete it.** -/
theorem completed_recovery_capability [DecidableEq τ] {out : τ → Type}
    {start : (t : τ) → Program AuthCall AuthCall.Answer (out t)} {tr : List (AuthEvent τ)}
    {db : Database} (h : StoreRun start tr db) {e₀ e₁ e₂ : AuthEvent τ} {recoveryId : Uuid}
    {capability : Capability} {operatorId : UserId} {issuedAt : DateTime} (he₀ : e₀ ∈ tr)
    (hissued : Succeeded e₀ (.issueRecoverySetup recoveryId capability operatorId issuedAt) ())
    (hcompletes : CompletesRecovery recoveryId e₁) (hprec : Precedes tr e₁ e₂)
    (haccepts : accepts capability.tokenHash e₂ = true) :
    ∃ ceremonyId capabilityHash credential now audit,
      Succeeded e₁ (.completeRegistration ceremonyId capabilityHash credential now audit) () ∧
      audit.subjectUserId = some capability.userId ∧ capabilityHash ≠ some capability.tokenHash := by
  obtain ⟨r, hr, r', hr', hid, hid', hnone, hdone⟩ := hcompletes
  obtain ⟨ceremonyId, capabilityHash, credential, now, audit, hc, hsubject⟩ :=
    h.completed_by hprec.left_mem hr hnone hr' (hid'.trans hid.symm) hdone
  refine ⟨ceremonyId, capabilityHash, credential, now, audit, hc, ?_, ?_⟩
  · -- the request has one user, whichever event came first
    obtain ⟨env, hcommits⟩ := h.committed he₀ hissued
    obtain ⟨⟨r₀, hr₀, hid₀, -, howner⟩, -, -⟩ := hcommits.issueRecoverySetup_marks
    obtain ⟨a, ha, hbecomes₀⟩ := (h.evolves_from he₀).recoveryRequests.exists_of_mem hr₀
    obtain ⟨b, hb, hbecomes⟩ := (h.evolves_from hprec.left_mem).recoveryRequests.exists_of_mem hr
    obtain rfl : a = b := by
      refine h.consistent.recoveryIds.eq_of_mem ha hb ?_
      rw [hbecomes₀.fixed, hbecomes.fixed]
      exact hid₀.trans hid.symm
    have huser : r.userId = capability.userId.value := by
      rw [← howner, show r.userId = a.userId by rw [hbecomes.fixed]]
      rw [hbecomes₀.fixed]
    rw [huser] at hsubject
    obtain ⟨subject, hsome, hvalue⟩ := Option.map_eq_some_iff.1 hsubject
    rw [hsome, OpaqueId.value_injective hvalue]
  · -- the registration would have consumed the capability, and `e₂` still accepts it
    rintro rfl
    have honce := h.not_accepts_twice hprec (accepts_of_succeeded hc)
    rw [haccepts] at honce
    cases honce

section Sample

attribute [local instance] Reference.crates

/-- The event issued the capability `hash` for the recovery `id`. -/
def issuesWith (id : Uuid) (hash : SecretHash) (e : AuthEvent τ) : Bool :=
  match e.exchange with
  | ⟨.issueRecoverySetup recoveryId capability _ _, .ok _⟩ =>
      recoveryId = id ∧ capability.tokenHash = hash
  | _ => false

theorem issuesWith_cases {id : Uuid} {hash : SecretHash} {e : AuthEvent τ}
    (h : issuesWith id hash e = true) :
    ∃ capability operatorId now, capability.tokenHash = hash ∧
      Succeeded e (.issueRecoverySetup id capability operatorId now) () := by
  unfold issuesWith at h
  split at h
  · next recoveryId capability operatorId now a he =>
      obtain ⟨rfl, hhash⟩ := of_decide_eq_true h
      exact ⟨capability, operatorId, now, hhash, he⟩
  · cases h

/-- The registration with the first setup completes recovery 41, whose own setup is accepted after
    that. -/
theorem sampleRecoveries_events :
    ∃ e₀ e₁ e₂ capability operatorId now,
      e₀ ∈ (sampleRun sampleRecoveries sampleRecoverySchedule).trace ∧
      Succeeded e₀ (.issueRecoverySetup 41 capability operatorId now) () ∧
      CompletesRecovery 41 e₁ ∧
      Precedes (sampleRun sampleRecoveries sampleRecoverySchedule).trace e₁ e₂ ∧
      accepts capability.tokenHash e₂ = true := by
  have hrun : hasChain [accepts (sampleToken 6).hash,
      fun e => e.pre.recoveryRequests.any (fun r => r.id = 41 ∧ r.completedAt = none) ∧
        e.post.recoveryRequests.any (fun r => r.id = 41 ∧ r.completedAt ≠ none),
      issuesWith 41 (sampleToken 6).hash]
      (sampleRun sampleRecoveries sampleRecoverySchedule).trace = true := by decide +kernel
  obtain ⟨es, hchain, hall⟩ := exists_chain hrun
  obtain ⟨e₂, es₂, h₂, hall₂, rfl⟩ := List.forall₂_cons_left_iff.1 hall
  obtain ⟨e₁, es₁, h₁, hall₁, rfl⟩ := List.forall₂_cons_left_iff.1 hall₂
  obtain ⟨e₀, es₀, h₀, hall₀, rfl⟩ := List.forall₂_cons_left_iff.1 hall₁
  simp only [List.pairwise_cons, List.mem_cons, forall_eq_or_imp] at hchain
  obtain ⟨⟨h₁₂, -⟩, ⟨h₀₁, -⟩, -⟩ := hchain
  obtain ⟨hbefore, hafter⟩ := of_decide_eq_true h₁
  obtain ⟨r, hr, hopen⟩ := List.any_eq_true.1 hbefore
  obtain ⟨r', hr', hdone⟩ := List.any_eq_true.1 hafter
  obtain ⟨hid, hnone⟩ := of_decide_eq_true hopen
  obtain ⟨hid', hcompleted⟩ := of_decide_eq_true hdone
  obtain ⟨capability, operatorId, now, hhash, hissued⟩ := issuesWith_cases h₀
  refine ⟨e₀, e₁, e₂, capability, operatorId, now, h₀₁.left_mem, hissued,
    ⟨r, hr, r', hr', hid, hid', hnone, hcompleted⟩, h₁₂, ?_⟩
  rw [hhash]
  exact h₂

/-- The registration that completes recovery 41 spends another capability than the issued one. -/
theorem completed_recovery_capability_sample :
    ∃ (e₀ e₁ : AuthEvent ℕ) (capability : Capability) (operatorId : UserId) (issuedAt : DateTime)
      (ceremonyId : Uuid) (capabilityHash : Option SecretHash) (credential : VerifiedCredential)
      (now : DateTime) (audit : AuditEvent),
      e₁ ∈ (sampleRun sampleRecoveries sampleRecoverySchedule).trace ∧ CompletesRecovery 41 e₁ ∧
      Succeeded e₀ (.issueRecoverySetup 41 capability operatorId issuedAt) () ∧
      Succeeded e₁ (.completeRegistration ceremonyId capabilityHash credential now audit) () ∧
      capabilityHash ≠ some capability.tokenHash := by
  obtain ⟨e₀, e₁, e₂, capability, operatorId, issuedAt, he₀, hissued, hcompletes, hprec, haccepts⟩ :=
    sampleRecoveries_events
  obtain ⟨ceremonyId, capabilityHash, credential, now, audit, hc, -, hother⟩ :=
    completed_recovery_capability (sampleRun_history _ _).storeRun he₀ hissued hcompletes hprec
      haccepts
  exact ⟨e₀, e₁, capability, operatorId, issuedAt, ceremonyId, capabilityHash, credential, now,
    audit, hprec.left_mem, hcompletes, hissued, hc, hother⟩

/-- So a recovery can be completed while its own capability is still accepted. -/
theorem capability_accepted_after_completion :
    History .default sampleEngine (sampleOperations sampleRecoveries)
        (sampleRun sampleRecoveries sampleRecoverySchedule).trace
        (sampleRun sampleRecoveries sampleRecoverySchedule).state ∧
      ∃ e₀ e₁ e₂ recoveryId capability operatorId now,
        e₀ ∈ (sampleRun sampleRecoveries sampleRecoverySchedule).trace ∧
        Succeeded e₀ (.issueRecoverySetup recoveryId capability operatorId now) () ∧
        CompletesRecovery recoveryId e₁ ∧
        Precedes (sampleRun sampleRecoveries sampleRecoverySchedule).trace e₁ e₂ ∧
        accepts capability.tokenHash e₂ = true := by
  obtain ⟨e₀, e₁, e₂, capability, operatorId, now, h⟩ := sampleRecoveries_events
  exact ⟨sampleRun_history _ _, e₀, e₁, e₂, 41, capability, operatorId, now, h⟩

end Sample

end RsConsole
