import RsConsole.Server.Commits
import RsConsole.Server.Invalidation

set_option autoImplicit false

/-! # The seeded operator

`seed_operator` asks whether an operator exists in one transaction and inserts its own in another,
and no constraint of `human_users` limits the operators. So two seeds can both be told that there is
none. Every operator is inserted by a seed and stays one, hence the number of operators is the number
of completed seeds; it exceeds one exactly when two of them raced. -/

namespace RsConsole

open Library Library.Table Database PgAuthStore

variable {τ : Type}

/-- The event inserted a user by itself, which only `seed_operator` does. -/
def seeds (e : AuthEvent τ) : Bool :=
  match e.exchange with
  | ⟨.insertUser _ _ _, .ok _⟩ => true
  | _ => false

theorem seeds_cases {e : AuthEvent τ} (h : seeds e = true) :
    ∃ user now audit, Succeeded e (.insertUser user now audit) () := by
  unfold seeds at h
  split at h
  · next user now audit a he => exact ⟨user, now, audit, he⟩
  · cases h

theorem seeds_of_succeeded {e : AuthEvent τ} {user : User} {now : DateTime} {audit : AuditEvent}
    (h : Succeeded e (.insertUser user now audit) ()) : seeds e = true := by
  unfold seeds
  rw [h]

/-- One seed asked whether an operator exists before another one inserted its, and inserted its own
    after that. -/
def SeedsRaced (tr : List (AuthEvent τ)) : Prop :=
  ∃ check first second, Precedes tr check first ∧ Precedes tr first second ∧
    check.tid = second.tid ∧ check.call = .operatorExists ∧ seeds first = true ∧
    seeds second = true

namespace History

variable [DecidableEq τ] [Crates] {config : AuthConfig} {engine : CeremonyEngine}
  {ops : τ → Operation} {tr : List (AuthEvent τ)} {db : Database} {e e₁ e₂ : AuthEvent τ}

/-- A completed seed adds one operator, any other event adds none. -/
theorem operators_event (h : History config engine ops tr db) (he : e ∈ tr) :
    e.post.humanUsers.countP (·.role = "operator") =
      e.pre.humanUsers.countP (·.role = "operator") + if seeds e then 1 else 0 := by
  rcases h.users_event he with ⟨user, now, audit, hc, hpost⟩ |
    ⟨user, capability, operatorId, now, hc, hpost⟩ | ⟨hnot, p, now, hpost⟩
  · obtain ⟨past, hseeds, -⟩ := h.passed he hc
    rw [hpost, List.countP_append, seeds_of_succeeded hc]
    simp [User.row, hseeds.role, roleName]
  · obtain ⟨past, ⟨hrole, -⟩, -⟩ := h.passed he hc
    have hseeds : seeds e = false := by
      rw [Bool.eq_false_iff]
      intro hseeds
      obtain ⟨_, _, _, hc'⟩ := seeds_cases hseeds
      cases hc.unique hc'
    rw [hpost, List.countP_append, hseeds]
    simp [User.row, hrole, roleName]
  · have hseeds : seeds e = false := by
      rw [Bool.eq_false_iff]
      intro hseeds
      obtain ⟨_, _, _, hc⟩ := seeds_cases hseeds
      exact hnot _ _ hc (by simp [AuthCall.inserts])
    rw [hpost, countP_updateWhere (f := advanced now) (fun _ _ => rfl), hseeds]
    rfl

/-- **The operators are the completed seeds.** -/
theorem operators_eq_seeds (h : History config engine ops tr db) :
    db.humanUsers.countP (·.role = "operator") = tr.countP seeds := by
  refine h.induct (P := fun tr db => db.humanUsers.countP (·.role = "operator") = tr.countP seeds)
    rfl ?_
  intro e tr _ hpost ih
  rw [hpost.operators_event List.mem_cons_self, ih, List.countP_cons]

/-- After a seed, `operator_exists` is not answered with `false`. -/
theorem not_refused_after (h : History config engine ops tr db) (hprec : Precedes tr e₁ e₂)
    (hseeds : seeds e₁ = true) : ¬ Succeeded e₂ .operatorExists false := by
  intro hc
  obtain ⟨env, hperform⟩ := h.succeeded hprec.right_mem hc
  have hnone : Database.operatorExists e₂.pre = false :=
    (Repo.yields_fetch_ok (yields_of_perform hperform)).1.symm
  have hsome : 0 < e₁.post.humanUsers.countP (·.role = "operator") := by
    rw [h.operators_event hprec.left_mem, hseeds]
    exact Nat.succ_pos _
  obtain ⟨row, hrow, hrole⟩ := List.countP_pos_iff.1 hsome
  obtain ⟨row', hrow', hbecomes⟩ := (h.evolves_between hprec).humanUsers.exists_of_mem hrow
  have hrole' : row'.role = "operator" := by
    rw [hbecomes.fixed]
    exact of_decide_eq_true hrole
  exact List.any_eq_false.1 hnone row' hrow' (decide_eq_true hrole')

end History

/-- **There is at most one operator exactly when no two seeds raced.** -/
theorem single_operator_iff [DecidableEq τ] [Crates] {config : AuthConfig}
    {engine : CeremonyEngine} {ops : τ → Operation} {tr : List (AuthEvent τ)} {db : Database}
    (h : History config engine ops tr db) :
    (db.humanUsers.filter (·.role = "operator")).length ≤ 1 ↔ ¬ SeedsRaced tr := by
  rw [← List.countP_eq_length_filter, h.operators_eq_seeds, List.countP_eq_length_filter]
  constructor
  · rintro hle ⟨check, first, second, -, hprec, -, -, hfirst, hsecond⟩
    have htwo : [second, first].Sublist (tr.filter seeds) := by
      have hfilter := hprec.filter seeds
      simpa [hfirst, hsecond] using hfilter
    exact absurd (htwo.length_le.trans hle) (by simp)
  · intro hraced
    refine length_filter_le_one (fun first second hprec hfirst => ?_)
    rw [Bool.eq_false_iff]
    intro hsecond
    obtain ⟨user, now, audit, hc⟩ := seeds_cases hsecond
    -- the second seeding saw no operator, so it looked before the first one committed
    obtain ⟨past, hpast, hback⟩ := h.passed hprec.right_mem hc
    obtain ⟨check, hcheck, htid, hnone⟩ := hback _ _ hpast.none
    rcases precedes_total hcheck.left_mem hprec.left_mem with rfl | hbefore | hafter
    · obtain ⟨_, _, _, hseeds⟩ := seeds_cases hfirst
      cases hseeds.unique hnone
    · exact hraced ⟨check, first, second, hbefore, hprec, htid, congrArg Exchange.call hnone,
        hfirst, hsecond⟩
    · exact h.not_refused_after hafter hfirst hnone

section Sample

attribute [local instance] Reference.crates

/-- Two seeds of different users. -/
def sampleSeeds : List Operation :=
  [.seedOperator sampleOperator "operator@example.com" "Operator" 0 1,
    .seedOperator sampleColleague "alice@example.com" "Alice" 0 2]

/-- One after the other, the second one is refused. -/
theorem single_operator_iff_sample :
    ¬ SeedsRaced (sampleRun sampleSeeds [(0, 0), (0, 0), (0, 0), (1, 0), (1, 0)]).trace :=
  (single_operator_iff (sampleRun_history _ _)).1 (by decide +kernel)

/-- Call by call, both insert an operator. -/
theorem two_operators :
    History .default sampleEngine (sampleOperations sampleSeeds)
        (sampleRun sampleSeeds [(0, 0), (1, 0), (0, 0), (1, 0), (0, 0), (1, 0)]).trace
        (sampleRun sampleSeeds [(0, 0), (1, 0), (0, 0), (1, 0), (0, 0), (1, 0)]).state ∧
      ((sampleRun sampleSeeds [(0, 0), (1, 0), (0, 0), (1, 0), (0, 0), (1, 0)]).state.humanUsers.filter
        (·.role = "operator")).length = 2 :=
  ⟨sampleRun_history _ _, by decide +kernel⟩

end Sample

end RsConsole
