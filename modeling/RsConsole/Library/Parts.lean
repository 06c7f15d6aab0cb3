import RsConsole.Library.Interleaving

set_option autoImplicit false

/-! # Objects with independent parts

A `Part` of an object is what some of its calls read and change and the others leave alone. Clients
that ask only calls on the part are served as if the other clients were not there: a run can be
restricted to them (`Run.restrict`), and a run of a deterministic object is fixed by the order of
its clients (`Run.deterministic`). So in two runs that serve these clients in the same order they
get the same answers, whatever the others do (`Part.same_outcome`). -/

namespace RsConsole.Library

variable {τ C σ υ : Type} {R : C → Type} [DecidableEq τ] {out : τ → Type}
  {perform : (c : C) → σ → R c × σ} {init : σ} {start : (t : τ) → Program C R (out t)}

/-- The runs of an object without an environment. -/
abbrev SoleRun (perform : (c : C) → σ → R c × σ) (init : σ)
    (start : (t : τ) → Program C R (out t)) : List (Event τ C R σ) → σ →
      ((t : τ) → Program C R (out t)) → Prop :=
  Run (effectOf fun (_ : Unit) => perform) init start

/-- **The order of the clients fixes a run.** -/
theorem Run.deterministic {tr tr' : List (Event τ C R σ)} {s s' : σ}
    {pool pool' : (t : τ) → Program C R (out t)} (run : SoleRun perform init start tr s pool)
    (run' : SoleRun perform init start tr' s' pool')
    (h : tr.map Event.tid = tr'.map Event.tid) : tr = tr' ∧ s = s' ∧ pool = pool' := by
  induction run generalizing tr' s' pool' with
  | init =>
      cases run' with
      | init => exact ⟨rfl, rfl, rfl⟩
      | step => cases h
  | @step older before after pool t c next r run ready performed ih =>
      cases run' with
      | init => cases h
      | @step older' before' after' pool' t' c' next' r' run' ready' performed' =>
          obtain ⟨htid, hrest⟩ := List.cons.inj h
          obtain ⟨rfl, rfl, rfl⟩ := ih run' hrest
          obtain rfl : t = t' := htid
          obtain ⟨rfl, hnext⟩ := Program.call.inj (ready.symm.trans ready')
          obtain rfl := eq_of_heq hnext
          obtain ⟨_, hresult⟩ := performed
          obtain ⟨_, hresult'⟩ := performed'
          cases hresult.symm.trans hresult'
          exact ⟨rfl, rfl, rfl⟩

/-- The calls `own` read and change what `view` shows, and the other calls do not change it. -/
structure Part (perform : (c : C) → σ → R c × σ) (own : C → Prop) (view : σ → υ) : Prop where
  reads : ∀ {c s s'}, own c → view s = view s' → (perform c s).1 = (perform c s').1
  changes : ∀ {c s s'}, own c → view s = view s' →
    view (perform c s).2 = view (perform c s').2
  keeps : ∀ {c s}, ¬ own c → view (perform c s).2 = view s

section Restrict

variable {own : C → Prop} {view : σ → υ} {mine : τ → Prop} [DecidablePred mine]

/-- **The clients of a part are served as if they were alone.** -/
theorem Run.restrict (part : Part perform own view)
    (hmine : ∀ t past c, Program.Asks (start t) past c → (own c ↔ mine t))
    {tr : List (Event τ C R σ)} {s : σ} {pool : (t : τ) → Program C R (out t)}
    (run : SoleRun perform init start tr s pool) :
    ∃ tr' s' pool', SoleRun perform init start tr' s' pool' ∧
      tr'.map Event.tid = (tr.map Event.tid).filter (fun t => mine t) ∧ view s' = view s ∧
      ∀ t, mine t → pool' t = pool t ∧ exchanges tr' t = exchanges tr t := by
  induction run with
  | init => exact ⟨[], init, start, .init, rfl, rfl, fun t _ => ⟨rfl, rfl⟩⟩
  | @step tr before after pool t c next r run ready performed ih =>
      obtain ⟨tr', s', pool', run', htids, hview, hsame⟩ := ih
      have hresult : perform c before = (r, after) := performed.choose_spec
      have hasks : Program.Asks (start t) (exchanges tr t) c := ⟨next, ready ▸ run.after t⟩
      have howner := hmine t _ c hasks
      by_cases ht : mine t
      · have hown := howner.2 ht
        have hready' : pool' t = .call c next := (hsame t ht).1.trans ready
        have hresp : (perform c s').1 = r := by
          rw [part.reads hown hview, hresult]
        have hafter : view (perform c s').2 = view after := by
          rw [part.changes hown hview, hresult]
        refine ⟨_, _, _, run'.step hready' ⟨(), Prod.ext hresp rfl⟩, ?_, hafter, fun u hu => ?_⟩
        · rw [List.map_cons, List.map_cons, List.filter_cons_of_pos (by simpa using ht), htids]
        · by_cases htu : t = u
          · subst htu
            rw [Function.update_self, Function.update_self]
            refine ⟨rfl, ?_⟩
            exact (exchanges_cons_self ⟨t, c, r, s', (perform c s').2⟩ tr').trans
              ((congrArg (· ++ _) (hsame t ht).2).trans
                (exchanges_cons_self ⟨t, c, r, before, after⟩ tr).symm)
          · rw [Function.update_of_ne (Ne.symm htu), Function.update_of_ne (Ne.symm htu),
              exchanges_cons_ne htu, exchanges_cons_ne htu]
            exact hsame u hu
      · -- the call of another client does not touch the part
        have hother : ¬ own c := fun hown => ht (howner.1 hown)
        have hafter : view after = view before := by
          have hkeeps := part.keeps (s := before) hother
          rwa [hresult] at hkeeps
        refine ⟨tr', s', pool', run', ?_, hview.trans hafter.symm, fun u hu => ?_⟩
        · rw [List.map_cons, List.filter_cons_of_neg (by simpa using ht), htids]
        · have htu : t ≠ u := fun heq => ht (heq ▸ hu)
          rw [Function.update_of_ne htu.symm, exchanges_cons_ne htu]
          exact hsame u hu

/-- **Other clients do not matter.** Two runs that serve the clients of a part in the same order
    show the same part and have given these clients the same answers. -/
theorem Part.same_outcome (part : Part perform own view)
    (hmine : ∀ t past c, Program.Asks (start t) past c → (own c ↔ mine t))
    {tr₁ tr₂ : List (Event τ C R σ)} {s₁ s₂ : σ} {pool₁ pool₂ : (t : τ) → Program C R (out t)}
    (run₁ : SoleRun perform init start tr₁ s₁ pool₁)
    (run₂ : SoleRun perform init start tr₂ s₂ pool₂)
    (h : (tr₁.map Event.tid).filter (fun t => mine t) =
      (tr₂.map Event.tid).filter (fun t => mine t)) :
    view s₁ = view s₂ ∧
      ∀ t, mine t → pool₁ t = pool₂ t ∧ exchanges tr₁ t = exchanges tr₂ t := by
  obtain ⟨tr₁', s₁', pool₁', run₁', htids₁, hview₁, hsame₁⟩ := run₁.restrict part hmine
  obtain ⟨tr₂', s₂', pool₂', run₂', htids₂, hview₂, hsame₂⟩ := run₂.restrict part hmine
  obtain ⟨rfl, rfl, rfl⟩ := run₁'.deterministic run₂' (htids₁.trans (h.trans htids₂.symm))
  refine ⟨hview₁.symm.trans hview₂, fun t ht => ⟨?_, ?_⟩⟩
  · exact (hsame₁ t ht).1.symm.trans (hsame₂ t ht).1
  · exact (hsame₁ t ht).2.symm.trans (hsame₂ t ht).2

end Restrict

end RsConsole.Library
