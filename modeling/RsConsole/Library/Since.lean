import RsConsole.Library.Interleaving

set_option autoImplicit false

/-! # What events set and reset

Much of what a system keeps is set by some events and reset by others: a lock, a lease, a grant. Then
whether it holds can be read off the trace: some event has set it, and none has reset it since.
`Since sets resets tr` says so, and `Run.holds_iff_since` is the rule: a predicate of the state for
which every single event either sets it, or keeps it and does not reset it, holds exactly then. -/

namespace RsConsole.Library

variable {τ C σ : Type} {R : C → Type}

section Traces

variable {sets resets : Event τ C R σ → Prop} {tr : List (Event τ C R σ)} {e : Event τ C R σ}

/-- An event of the trace sets, and no event after it resets. -/
def Since (sets resets : Event τ C R σ → Prop) (tr : List (Event τ C R σ)) : Prop :=
  ∃ newer e older, tr = newer ++ e :: older ∧ sets e ∧ ∀ e' ∈ newer, ¬ resets e'

theorem not_since_nil : ¬ Since sets resets [] := by
  rintro ⟨newer, e, older, htrace, -⟩
  exact List.append_ne_nil_of_right_ne_nil newer (List.cons_ne_nil e older) htrace.symm

theorem since_cons : Since sets resets (e :: tr) ↔ sets e ∨ (¬ resets e ∧ Since sets resets tr) := by
  constructor
  · rintro ⟨newer, e₁, older, htrace, hsets, hquiet⟩
    cases newer with
    | nil =>
        obtain ⟨rfl, rfl⟩ := List.cons.inj htrace
        exact Or.inl hsets
    | cons x newer =>
        obtain ⟨rfl, rfl⟩ := List.cons.inj htrace
        exact Or.inr ⟨hquiet e List.mem_cons_self, newer, e₁, older, rfl, hsets,
          fun e' he' => hquiet e' (List.mem_cons_of_mem e he')⟩
  · rintro (hsets | ⟨hkeeps, newer, e₁, older, rfl, hsets, hquiet⟩)
    · exact ⟨[], e, tr, rfl, hsets, fun e' he' => absurd he' List.not_mem_nil⟩
    · refine ⟨e :: newer, e₁, older, rfl, hsets, fun e' he' => ?_⟩
      rcases List.mem_cons.1 he' with rfl | he'
      · exact hkeeps
      · exact hquiet e' he'

/-- What was set at some time was set by an event of the trace. -/
theorem Since.exists_sets (h : Since sets resets tr) : ∃ e ∈ tr, sets e := by
  obtain ⟨newer, e, older, rfl, hsets, -⟩ := h
  exact ⟨e, List.mem_append_right _ List.mem_cons_self, hsets⟩

/-- What nothing resets. -/
theorem since_iff_exists (h : ∀ e ∈ tr, ¬ resets e) : Since sets resets tr ↔ ∃ e ∈ tr, sets e := by
  refine ⟨Since.exists_sets, ?_⟩
  rintro ⟨e, he, hsets⟩
  obtain ⟨newer, older, rfl⟩ := List.append_of_mem he
  exact ⟨newer, e, older, rfl, hsets, fun e' he' => h e' (List.mem_append_left _ he')⟩

end Traces

variable [DecidableEq τ] {out : τ → Type} {effect : (c : C) → σ → R c → σ → Prop} {init : σ}
  {start : (t : τ) → Program C R (out t)} {tr : List (Event τ C R σ)} {s : σ}
  {pool : (t : τ) → Program C R (out t)}

/-- **What holds has been set, and not reset since.** -/
theorem Run.holds_iff_since {F : σ → Prop} {sets resets : Event τ C R σ → Prop} (hinit : ¬ F init)
    (run : Run effect init start tr s pool)
    (hstep : ∀ e ∈ tr, F e.post ↔ sets e ∨ (¬ resets e ∧ F e.pre)) :
    F s ↔ Since sets resets tr := by
  induction run with
  | init => exact iff_of_false hinit not_since_nil
  | step run ready perform ih =>
      have hbefore := ih fun e he => hstep e (List.mem_cons_of_mem _ he)
      rw [since_cons, ← hbefore]
      exact hstep _ List.mem_cons_self

end RsConsole.Library
