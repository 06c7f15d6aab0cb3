import Mathlib.Data.List.Forall2
import RsConsole.Library.Program

set_option autoImplicit false

/-! # Interleaved runs of programs

The clients are indexed by `τ`; client `t` runs `start t`. A run performs one call of one client at
a time, in any order, and keeps what happened as a trace of `Event`s, **newest first**. Every event
carries the object's state before and after it, so a property of a run is a property of the events
of its trace and of their order (`Precedes`).

The rules: `Run.asks` (an event's call is one its client's program can ask, after the responses the
trace records), `Run.performed` (an event is a performed call), `Run.invariant`,
`Run.rel_of_precedes` (a preorder kept by every call relates the states of a run in order) and
`Run.origin` (what holds later and not at the start was brought about by an earlier event). -/

namespace RsConsole.Library

variable {τ C σ : Type} {R : C → Type}

/-- One call of client `tid`, its response and the object's state before and after. -/
structure Event (τ C : Type) (R : C → Type) (σ : Type) where
  tid : τ
  call : C
  resp : R call
  pre : σ
  post : σ

def Event.exchange (e : Event τ C R σ) : Exchange C R := ⟨e.call, e.resp⟩

section Runs

variable [DecidableEq τ] {out : τ → Type} (effect : (c : C) → σ → R c → σ → Prop) (init : σ)
  (start : (t : τ) → Program C R (out t))

/-- The runs of the clients `start` over an object that starts in `init` and whose calls have the
    given effect: trace, current state, and what every client has left to do. -/
inductive Run : List (Event τ C R σ) → σ → ((t : τ) → Program C R (out t)) → Prop
  | init : Run [] init start
  | step {tr : List (Event τ C R σ)} {s s' : σ} {pool : (t : τ) → Program C R (out t)} {t : τ}
      {c : C} {next : R c → Program C R (out t)} {r : R c} (run : Run tr s pool)
      (ready : pool t = .call c next) (perform : effect c s r s') :
      Run (⟨t, c, r, s, s'⟩ :: tr) s' (Function.update pool t (next r))

end Runs

/-- The exchanges of client `t` in a trace, oldest first. -/
def exchanges [DecidableEq τ] (tr : List (Event τ C R σ)) (t : τ) : List (Exchange C R) :=
  ((tr.filter (fun e => e.tid = t)).map Event.exchange).reverse

/-- `e₁` stands before `e₂` in the trace (which has its newest event first). -/
def Precedes (tr : List (Event τ C R σ)) (e₁ e₂ : Event τ C R σ) : Prop :=
  [e₂, e₁].Sublist tr

/-! ## Traces -/

theorem exchanges_cons_self [DecidableEq τ] (e : Event τ C R σ) (tr : List (Event τ C R σ)) :
    exchanges (e :: tr) e.tid = exchanges tr e.tid ++ [e.exchange] := by
  simp [exchanges]

theorem exchanges_cons_ne [DecidableEq τ] {e : Event τ C R σ} {t : τ} (h : e.tid ≠ t)
    (tr : List (Event τ C R σ)) : exchanges (e :: tr) t = exchanges tr t := by
  simp [exchanges, h]

theorem exchanges_append [DecidableEq τ] (newer older : List (Event τ C R σ)) (t : τ) :
    exchanges (newer ++ older) t = exchanges older t ++ exchanges newer t := by
  simp [exchanges]

/-- What a client had exchanged before an event it has exchanged after it. -/
theorem exchanges_subset [DecidableEq τ] (newer older : List (Event τ C R σ)) (e : Event τ C R σ)
    (t : τ) : exchanges older t ⊆ exchanges (newer ++ e :: older) t := by
  rw [← List.singleton_append, ← List.append_assoc, exchanges_append]
  exact List.subset_append_left _ _

theorem mem_exchanges [DecidableEq τ] {tr : List (Event τ C R σ)} {t : τ} {x : Exchange C R}
    (h : x ∈ exchanges tr t) : ∃ e ∈ tr, e.tid = t ∧ e.exchange = x := by
  simp only [exchanges, List.mem_reverse, List.mem_map, List.mem_filter, decide_eq_true_eq] at h
  obtain ⟨e, ⟨he, ht⟩, hx⟩ := h
  exact ⟨e, he, ht, hx⟩

theorem mem_exchanges_of_mem [DecidableEq τ] {tr : List (Event τ C R σ)} {e : Event τ C R σ}
    (h : e ∈ tr) : e.exchange ∈ exchanges tr e.tid := by
  simp only [exchanges, List.mem_reverse, List.mem_map, List.mem_filter, decide_eq_true_eq]
  exact ⟨e, ⟨h, rfl⟩, rfl⟩

theorem precedes_cons {e₁ e₂ e : Event τ C R σ} {tr : List (Event τ C R σ)}
    (h : Precedes tr e₁ e₂) : Precedes (e :: tr) e₁ e₂ :=
  h.cons _

theorem precedes_head {e₁ e : Event τ C R σ} {tr : List (Event τ C R σ)} (h : e₁ ∈ tr) :
    Precedes (e :: tr) e₁ e :=
  (List.singleton_sublist.2 h).cons_cons _

theorem precedes_cons_iff {e₁ e₂ e : Event τ C R σ} {tr : List (Event τ C R σ)} :
    Precedes (e :: tr) e₁ e₂ ↔ Precedes tr e₁ e₂ ∨ (e₂ = e ∧ e₁ ∈ tr) := by
  constructor
  · intro h
    cases h with
    | cons _ h => exact Or.inl h
    | cons_cons _ h => exact Or.inr ⟨rfl, List.singleton_sublist.1 h⟩
  · rintro (h | ⟨rfl, h⟩)
    · exact precedes_cons h
    · exact precedes_head h

/-- An event that precedes another is in the trace before it. -/
theorem precedes_iff_split {tr : List (Event τ C R σ)} {e₁ e₂ : Event τ C R σ} :
    Precedes tr e₁ e₂ ↔ ∃ newer older, tr = newer ++ e₂ :: older ∧ e₁ ∈ older := by
  induction tr with
  | nil => simp [Precedes]
  | cons e tr ih =>
      rw [precedes_cons_iff, ih]
      constructor
      · rintro (⟨newer, older, rfl, h⟩ | ⟨rfl, h⟩)
        · exact ⟨e :: newer, older, rfl, h⟩
        · exact ⟨[], tr, rfl, h⟩
      · rintro ⟨newer, older, heq, h⟩
        cases newer with
        | nil =>
            obtain ⟨rfl, rfl⟩ := List.cons.inj heq
            exact Or.inr ⟨rfl, h⟩
        | cons x newer =>
            obtain ⟨rfl, rfl⟩ := List.cons.inj heq
            exact Or.inl ⟨newer, older, rfl, h⟩

theorem precedes_of_mem_newer {newer older : List (Event τ C R σ)} {e₁ e₂ : Event τ C R σ}
    (h : e₂ ∈ newer) : Precedes (newer ++ e₁ :: older) e₁ e₂ := by
  obtain ⟨before, after, rfl⟩ := List.append_of_mem h
  exact precedes_iff_split.2 ⟨before, after ++ e₁ :: older, by simp, by simp⟩

theorem Precedes.left_mem {tr : List (Event τ C R σ)} {e₁ e₂ : Event τ C R σ}
    (h : Precedes tr e₁ e₂) : e₁ ∈ tr :=
  h.subset (by simp)

theorem Precedes.right_mem {tr : List (Event τ C R σ)} {e₁ e₂ : Event τ C R σ}
    (h : Precedes tr e₁ e₂) : e₂ ∈ tr :=
  h.subset (by simp)

/-- Two positions of a trace hold the same event or one of them precedes the other. -/
theorem precedes_total {tr : List (Event τ C R σ)} {e₁ e₂ : Event τ C R σ} (h₁ : e₁ ∈ tr)
    (h₂ : e₂ ∈ tr) : e₁ = e₂ ∨ Precedes tr e₁ e₂ ∨ Precedes tr e₂ e₁ := by
  induction tr with
  | nil => simp at h₁
  | cons e tr ih =>
      rcases List.mem_cons.1 h₁ with rfl | h₁'
      · rcases List.mem_cons.1 h₂ with rfl | h₂'
        · exact Or.inl rfl
        · exact Or.inr (Or.inr (precedes_head h₂'))
      · rcases List.mem_cons.1 h₂ with rfl | h₂'
        · exact Or.inr (Or.inl (precedes_head h₁'))
        · exact (ih h₁' h₂').imp id (Or.imp precedes_cons precedes_cons)

/-- Events of which none is preceded by another one happen at most once. -/
theorem length_filter_le_one {tr : List (Event τ C R σ)} {p : Event τ C R σ → Bool}
    (h : ∀ e₁ e₂, Precedes tr e₁ e₂ → p e₁ = true → p e₂ = false) :
    (tr.filter p).length ≤ 1 := by
  match hl : tr.filter p with
  | [] => exact Nat.zero_le _
  | [_] => exact Nat.le_refl _
  | e₂ :: e₁ :: rest =>
      have hsub : [e₂, e₁].Sublist (tr.filter p) := by
        rw [hl]
        exact .cons_cons _ (.cons_cons _ (List.nil_sublist _))
      have h₁ := (List.mem_filter.1 (hsub.subset (by simp : e₁ ∈ [e₂, e₁]))).2
      have h₂ := (List.mem_filter.1 (hsub.subset (by simp : e₂ ∈ [e₂, e₁]))).2
      rw [h e₁ e₂ (hsub.trans List.filter_sublist) h₁] at h₂
      cases h₂

/-- The trace has events that satisfy the tests one after another, the newest first. -/
def hasChain : List (Event τ C R σ → Bool) → List (Event τ C R σ) → Bool
  | [], _ => true
  | _ :: _, [] => false
  | p :: ps, e :: tr => (p e && hasChain ps tr) || hasChain (p :: ps) tr

theorem exists_sublist_of_hasChain {ps : List (Event τ C R σ → Bool)} {tr : List (Event τ C R σ)}
    (h : hasChain ps tr = true) :
    ∃ es : List (Event τ C R σ), es.Sublist tr ∧ List.Forall₂ (fun p e => p e = true) ps es := by
  induction tr generalizing ps with
  | nil =>
      cases ps with
      | nil => exact ⟨[], List.Sublist.refl _, .nil⟩
      | cons p ps => cases h
  | cons e tr ih =>
      cases ps with
      | nil => exact ⟨[], List.nil_sublist _, .nil⟩
      | cons p ps =>
          simp only [hasChain, Bool.or_eq_true, Bool.and_eq_true] at h
          rcases h with ⟨hp, h⟩ | h
          · obtain ⟨es, hsub, hall⟩ := ih h
            exact ⟨e :: es, hsub.cons_cons e, .cons hp hall⟩
          · obtain ⟨es, hsub, hall⟩ := ih h
            exact ⟨es, hsub.cons e, hall⟩

theorem hasChain_of_sublist {ps : List (Event τ C R σ → Bool)} {es tr : List (Event τ C R σ)}
    (h : es.Sublist tr) (hall : List.Forall₂ (fun p e => p e = true) ps es) :
    hasChain ps tr = true := by
  induction h generalizing ps with
  | slnil =>
      cases hall
      rfl
  | cons e _ ih =>
      cases ps with
      | nil => rfl
      | cons p ps => simp [hasChain, ih hall]
  | cons_cons e _ ih =>
      cases hall with
      | cons hp hall => simp [hasChain, hp, ih hall]

theorem precedes_of_sublist {es tr : List (Event τ C R σ)} (h : es.Sublist tr) :
    es.Pairwise (fun e₂ e₁ => Precedes tr e₁ e₂) :=
  List.pairwise_iff_forall_sublist.2 fun hpair => hpair.trans h

/-- `exists_sublist_of_hasChain` for the order of the events. -/
theorem exists_chain {ps : List (Event τ C R σ → Bool)} {tr : List (Event τ C R σ)}
    (h : hasChain ps tr = true) :
    ∃ es : List (Event τ C R σ), es.Pairwise (fun e₂ e₁ => Precedes tr e₁ e₂) ∧
      List.Forall₂ (fun p e => p e = true) ps es := by
  obtain ⟨es, hsub, hall⟩ := exists_sublist_of_hasChain h
  exact ⟨es, precedes_of_sublist hsub, hall⟩

/-- `exists_chain` for two events. -/
theorem exists_precedes {p q : Event τ C R σ → Bool} {tr : List (Event τ C R σ)}
    (h : hasChain [q, p] tr = true) :
    ∃ e₁ e₂, Precedes tr e₁ e₂ ∧ p e₁ = true ∧ q e₂ = true := by
  obtain ⟨es, hchain, hall⟩ := exists_chain h
  obtain ⟨e₂, es₂, hq, hall₂, rfl⟩ := List.forall₂_cons_left_iff.1 hall
  obtain ⟨e₁, es₁, hp, -, rfl⟩ := List.forall₂_cons_left_iff.1 hall₂
  exact ⟨e₁, e₂, (List.pairwise_cons.1 hchain).1 e₁ List.mem_cons_self, hp, hq⟩

theorem exists_split_of_sublist {es tr : List (Event τ C R σ)} {e : Event τ C R σ}
    (h : (e :: es).Sublist tr) : ∃ newer older, tr = newer ++ e :: older ∧ es.Sublist older := by
  obtain ⟨front, back, rfl, hmem, hsub⟩ := List.cons_sublist_iff.1 h
  obtain ⟨before, after, rfl⟩ := List.append_of_mem hmem
  exact ⟨before, after ++ back, by simp, hsub.trans (List.sublist_append_right after back)⟩

theorem cons_sublist_append {es newer older : List (Event τ C R σ)} {e : Event τ C R σ}
    (h : es.Sublist older) : (e :: es).Sublist (newer ++ e :: older) :=
  (h.cons_cons e).trans (List.sublist_append_right newer (e :: older))

/-- What precedes the newest occurrence of an event is older than that occurrence. -/
theorem precedes_append_of_notMem {newer older : List (Event τ C R σ)} {e₀ e : Event τ C R σ}
    (hnew : e ∉ newer) (h : Precedes (newer ++ e :: older) e₀ e) : e₀ ∈ older := by
  induction newer with
  | nil =>
      rcases precedes_cons_iff.1 h with h | ⟨-, h⟩
      · exact h.left_mem
      · exact h
  | cons x newer ih =>
      rw [List.mem_cons, not_or] at hnew
      rcases precedes_cons_iff.1 h with h | ⟨h, -⟩
      · exact ih hnew.2 h
      · exact absurd h hnew.1

/-! ## Rules for runs -/

section Rules

variable [DecidableEq τ] {out : τ → Type} {effect : (c : C) → σ → R c → σ → Prop} {init : σ}
  {start : (t : τ) → Program C R (out t)} {tr : List (Event τ C R σ)} {s : σ}
  {pool : (t : τ) → Program C R (out t)}

namespace Run

/-- What every client has left is what its program leaves after its own exchanges. -/
theorem after (run : Run effect init start tr s pool) (t : τ) :
    Program.After (start t) (exchanges tr t) (pool t) := by
  induction run with
  | init => exact .nil _
  | @step tr s s' pool t' c next r run ready perform ih =>
      by_cases ht : t' = t
      · subst ht
        rw [ready] at ih
        rw [exchanges_cons_self ⟨t', c, r, s, s'⟩, Function.update_self]
        exact ih.snoc r
      · rw [exchanges_cons_ne (e := ⟨t', c, r, s, s'⟩) ht,
          Function.update_of_ne (fun h => ht h.symm)]
        exact ih

/-- Every older part of a trace is the trace of a run, which ended where the next event began. -/
theorem older {newer older : List (Event τ C R σ)} {e : Event τ C R σ}
    (run : Run effect init start (newer ++ e :: older) s pool) :
    ∃ pool', Run effect init start older e.pre pool' := by
  induction newer generalizing s pool with
  | nil =>
      cases run with
      | step run ready perform => exact ⟨_, run⟩
  | cons x newer ih =>
      cases run with
      | step run ready perform => exact ih run

/-- A trace up to one of its events is the trace of a run, which ended after that event. -/
theorem upto {newer older : List (Event τ C R σ)} {e : Event τ C R σ}
    (run : Run effect init start (newer ++ e :: older) s pool) :
    ∃ pool', Run effect init start (e :: older) e.post pool' := by
  induction newer generalizing s pool with
  | nil =>
      cases run with
      | step run ready perform => exact ⟨_, .step run ready perform⟩
  | cons x newer ih =>
      cases run with
      | step run ready perform => exact ih run

/-- **An event's call is one its client's program can ask**, after the exchanges recorded before
    it. -/
theorem asks {newer older : List (Event τ C R σ)} {e : Event τ C R σ}
    (run : Run effect init start (newer ++ e :: older) s pool) :
    Program.Asks (start e.tid) (exchanges older e.tid) e.call := by
  induction newer generalizing s pool with
  | nil =>
      cases run with
      | @step _ _ _ pool t c next r run ready perform =>
          refine ⟨next, ?_⟩
          have h := run.after t
          rwa [ready] at h
  | cons x newer ih =>
      cases run with
      | step run ready perform => exact ih run

/-- A client that asks at most once has exchanged nothing but its one event. -/
theorem exchanges_of_once {newer older : List (Event τ C R σ)} {e : Event τ C R σ}
    (run : Run effect init start (newer ++ e :: older) s pool)
    (honce : ∀ past c, Program.Asks (start e.tid) past c → past = []) :
    exchanges (newer ++ e :: older) e.tid = [e.exchange] := by
  induction newer generalizing s pool with
  | nil =>
      rw [List.nil_append, exchanges_cons_self, honce _ _ run.asks]
      rfl
  | cons x newer ih =>
      have hfirst : Run effect init start ([] ++ x :: (newer ++ e :: older)) s pool := run
      have hasks := hfirst.asks
      cases run with
      | step run ready perform =>
          -- a later event of the client would have been asked after an exchange
          have hsingle := ih run
          rw [List.cons_append, exchanges_cons_ne, hsingle]
          rintro rfl
          cases hsingle.symm.trans (honce _ _ hasks)

theorem performed (run : Run effect init start tr s pool) {e : Event τ C R σ} (he : e ∈ tr) :
    effect e.call e.pre e.resp e.post := by
  induction run with
  | init => simp at he
  | step run ready perform ih =>
      rcases List.mem_cons.1 he with rfl | he
      · exact perform
      · exact ih he

/-- The first event of a run starts where the run does. -/
theorem pre_of_first (run : Run effect init start tr s pool) {e : Event τ C R σ} (he : e ∈ tr)
    (hfirst : ∀ e₁, ¬ Precedes tr e₁ e) : e.pre = init := by
  obtain ⟨newer, older, rfl⟩ := List.append_of_mem he
  obtain ⟨pool', run'⟩ := run.older
  cases older with
  | nil =>
      cases run' with
      | init => rfl
  | cons x older =>
      exact absurd (precedes_iff_split.2 ⟨newer, x :: older, rfl, List.mem_cons_self⟩) (hfirst x)

section Rel

variable {rel : σ → σ → Prop} (hrefl : ∀ a, rel a a)
  (htrans : ∀ {a b c}, rel a b → rel b c → rel a c)

include hrefl htrans in
theorem rel_of_mem (run : Run effect init start tr s pool) (hevent : ∀ e ∈ tr, rel e.pre e.post)
    {e : Event τ C R σ} (he : e ∈ tr) : rel e.post s := by
  induction run with
  | init => simp at he
  | step run ready perform ih =>
      rcases List.mem_cons.1 he with rfl | he
      · exact hrefl _
      · exact htrans (ih (fun e he => hevent e (List.mem_cons_of_mem _ he)) he)
          (hevent _ List.mem_cons_self)

include hrefl htrans in
theorem rel_of_init (run : Run effect init start tr s pool) (hevent : ∀ e ∈ tr, rel e.pre e.post) :
    rel init s := by
  induction run with
  | init => exact hrefl _
  | step run ready perform ih =>
      exact htrans (ih fun e he => hevent e (List.mem_cons_of_mem _ he))
        (hevent _ List.mem_cons_self)

include hrefl htrans in
/-- A preorder that every event keeps relates the state after an event to the state before every
    later one. -/
theorem rel_of_precedes (run : Run effect init start tr s pool)
    (hevent : ∀ e ∈ tr, rel e.pre e.post) {e₁ e₂ : Event τ C R σ} (h : Precedes tr e₁ e₂) :
    rel e₁.post e₂.pre := by
  obtain ⟨newer, older, rfl, hmem⟩ := precedes_iff_split.1 h
  obtain ⟨pool', run'⟩ := run.older
  refine rel_of_mem hrefl htrans run' (fun e he => hevent e ?_) hmem
  exact List.mem_append_right _ (List.mem_cons_of_mem _ he)

end Rel

/-- A run is a run of an object that may do more. -/
theorem mono {effect' : (c : C) → σ → R c → σ → Prop}
    (h : ∀ c a r b, effect c a r b → effect' c a r b) (run : Run effect init start tr s pool) :
    Run effect' init start tr s pool := by
  induction run with
  | init => exact .init
  | step run ready perform ih => exact .step ih ready (h _ _ _ _ perform)

/-- What holds at the start and is kept by every call holds at the end of every run. -/
theorem invariant {P : σ → Prop} (hinit : P init)
    (hstep : ∀ {c a r b}, effect c a r b → P a → P b) (run : Run effect init start tr s pool) :
    P s := by
  induction run with
  | init => exact hinit
  | step run ready perform ih => exact hstep perform ih

/-- What holds at the end of a run and not at its start was brought about by one of its events. -/
theorem origin {F : σ → Prop} (hinit : ¬ F init) (run : Run effect init start tr s pool)
    (hs : F s) : ∃ e ∈ tr, ¬ F e.pre ∧ F e.post := by
  induction run with
  | init => exact absurd hs hinit
  | @step tr a b pool t c next r run ready perform ih =>
      by_cases ha : F a
      · obtain ⟨e, he, h⟩ := ih ha
        exact ⟨e, List.mem_cons_of_mem _ he, h⟩
      · exact ⟨⟨t, c, r, a, b⟩, List.mem_cons_self, ha, hs⟩

/-- `Run.origin` for the part of a run after an event. -/
theorem origin_after {F : σ → Prop} {newer older : List (Event τ C R σ)} {e₁ : Event τ C R σ}
    (run : Run effect init start (newer ++ e₁ :: older) s pool) (hnot : ¬ F e₁.post) (hs : F s) :
    ∃ e ∈ newer, ¬ F e.pre ∧ F e.post := by
  induction newer generalizing s pool with
  | nil =>
      cases run with
      | step run ready perform => exact absurd hs hnot
  | cons x newer ih =>
      cases run with
      | @step _ a b pool t c next r run ready perform =>
          by_cases ha : F a
          · obtain ⟨e, he, h⟩ := ih run ha
            exact ⟨e, List.mem_cons_of_mem _ he, h⟩
          · exact ⟨⟨t, c, r, a, s⟩, List.mem_cons_self, ha, hs⟩

/-- `Run.origin` for what holds before an event: it was brought about by a preceding one. -/
theorem origin_precedes {F : σ → Prop} (hinit : ¬ F init)
    (run : Run effect init start tr s pool) {e : Event τ C R σ} (he : e ∈ tr) (hs : F e.pre) :
    ∃ e₀, Precedes tr e₀ e ∧ ¬ F e₀.pre ∧ F e₀.post := by
  obtain ⟨newer, older, rfl⟩ := List.append_of_mem he
  obtain ⟨pool', run'⟩ := run.older
  obtain ⟨e₀, he₀, h⟩ := run'.origin hinit hs
  exact ⟨e₀, precedes_iff_split.2 ⟨newer, older, rfl, he₀⟩, h⟩

/-- `Run.asks` with the earlier exchanges as events: what the program had been told when it asked
    `e.call` is what the preceding events of the same client record. -/
theorem asks_of_mem (run : Run effect init start tr s pool) {e : Event τ C R σ} (he : e ∈ tr) :
    ∃ past, Program.Asks (start e.tid) past e.call ∧
      (∀ x ∈ past, ∃ e₀, Precedes tr e₀ e ∧ e₀.tid = e.tid ∧ e₀.exchange = x) ∧
      ∀ e₀, Precedes tr e₀ e → e₀.tid = e.tid → e₀.exchange ∈ past := by
  obtain ⟨newer, older, rfl, hnew⟩ := List.eq_append_cons_of_mem he
  refine ⟨exchanges older e.tid, run.asks, ?_, ?_⟩
  · intro x hx
    obtain ⟨e₀, hmem, htid, hx⟩ := mem_exchanges hx
    exact ⟨e₀, precedes_iff_split.2 ⟨newer, older, rfl, hmem⟩, htid, hx⟩
  · intro e₀ hprec htid
    rw [← htid]
    exact mem_exchanges_of_mem (precedes_append_of_notMem hnew hprec)

/-- A client that relays `bad` has failed with it exactly when one of its calls was answered so. -/
theorem fails_iff {ε : Type} {A : C → Type} {out : τ → Type} {bad : ε}
    {effect : (c : C) → σ → Except ε (A c) → σ → Prop}
    {start : (t : τ) → Program C (fun c => Except ε (A c)) (Except ε (out t))}
    {tr : List (Event τ C (fun c => Except ε (A c)) σ)}
    {pool : (t : τ) → Program C (fun c => Except ε (A c)) (Except ε (out t))}
    (run : Run effect init start tr s pool) {t : τ} (hrelays : Fallible.RelaysRun bad (start t)) :
    Program.Returns (start t) (exchanges tr t) (.error bad) ↔
      ∃ e ∈ tr, e.tid = t ∧ e.resp = .error bad := by
  constructor
  · intro hreturns
    obtain ⟨c, hc⟩ := (hrelays.answered_iff hreturns).2 rfl
    obtain ⟨e, he, htid, hexchange⟩ := mem_exchanges hc
    refine ⟨e, he, htid, ?_⟩
    obtain ⟨tid, call, resp, pre, post⟩ := e
    obtain ⟨rfl, hresp⟩ := Exchange.mk.inj hexchange
    exact eq_of_heq hresp
  · rintro ⟨e, he, rfl, hresp⟩
    have hmem := mem_exchanges_of_mem he
    have hafter := run.after e.tid
    rw [(hrelays.answered_iff hafter).1 ⟨e.call, ?_⟩] at hafter
    · exact hafter
    · rw [← hresp]
      exact hmem

end Run

end Rules

/-! ## Executable schedules -/

section Play

variable [DecidableEq τ] {η : Type} {out : τ → Type}
  (perform : η → (c : C) → σ → R c × σ) (init : σ) (start : (t : τ) → Program C R (out t))

/-- The effect of an executable object whose calls also depend on an environment `η`. -/
def effectOf (c : C) (s : σ) (r : R c) (s' : σ) : Prop :=
  ∃ env, perform env c s = (r, s')

/-- Trace, state and clients of a run. -/
structure Config (τ C : Type) (R : C → Type) (σ : Type) (out : τ → Type) where
  trace : List (Event τ C R σ)
  state : σ
  pool : (t : τ) → Program C R (out t)

/-- Let client `t` perform its next call in environment `env`; a finished client does nothing. -/
def Config.move (cfg : Config τ C R σ out) (t : τ) (env : η) : Config τ C R σ out :=
  match cfg.pool t with
  | .done _ => cfg
  | .call c next =>
      let result := perform env c cfg.state
      ⟨⟨t, c, result.1, cfg.state, result.2⟩ :: cfg.trace, result.2,
        Function.update cfg.pool t (next result.1)⟩

/-- Let the clients move in the order of a schedule. -/
def play (schedule : List (τ × η)) : Config τ C R σ out :=
  schedule.foldl (fun cfg m => cfg.move perform m.1 m.2) ⟨[], init, start⟩

theorem Config.move_run {cfg : Config τ C R σ out}
    (h : Run (effectOf perform) init start cfg.trace cfg.state cfg.pool) (t : τ) (env : η) :
    Run (effectOf perform) init start (cfg.move perform t env).trace
      (cfg.move perform t env).state (cfg.move perform t env).pool := by
  unfold Config.move
  split
  · exact h
  · next c next hc => exact .step h hc ⟨env, rfl⟩

/-- What a move adds is the call that the client was to make, performed in the state it met. -/
theorem Config.mem_move {cfg : Config τ C R σ out} {t : τ} {env : η} {e : Event τ C R σ}
    (he : e ∈ (cfg.move perform t env).trace) :
    e ∈ cfg.trace ∨ e.pre = cfg.state ∧ perform env e.call e.pre = (e.resp, e.post) ∧
      ∃ next, cfg.pool t = .call e.call next := by
  unfold Config.move at he
  split at he
  · exact Or.inl he
  · next c next hc =>
    rcases List.mem_cons.1 he with rfl | he
    · exact Or.inr ⟨rfl, rfl, next, hc⟩
    · exact Or.inl he

/-- A schedule plays a run. -/
theorem play_run (schedule : List (τ × η)) :
    Run (effectOf perform) init start (play perform init start schedule).trace
      (play perform init start schedule).state (play perform init start schedule).pool := by
  unfold play
  generalize hcfg : (⟨[], init, start⟩ : Config τ C R σ out) = cfg
  have h : Run (effectOf perform) init start cfg.trace cfg.state cfg.pool := by
    subst hcfg
    exact .init
  clear hcfg
  induction schedule generalizing cfg with
  | nil => exact h
  | cons m rest ih => exact ih _ (Config.move_run perform init start h m.1 m.2)

end Play

end RsConsole.Library
