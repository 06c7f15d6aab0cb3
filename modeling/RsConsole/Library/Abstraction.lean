import Mathlib.Logic.Function.Basic
import RsConsole.Library.Interleaving
import RsConsole.Library.Table

set_option autoImplicit false

/-! # Refinement: runs of an abstract object, tables as maps

Two rules for a design with two levels. `Run.simulate` is forward simulation: when every call of the
concrete object is one of the abstract object, up to a relation of their states, the runs of any
clients over the first are runs over the second, with the same calls and answers.

`Represents Enc key rows m` says that the table `rows` holds the map `m`: a row that encodes a value
stands for the entry of that value under its key, and a row that encodes none, such as one that is
marked as gone, stands for nothing. The rules say what the statements that change a table make of
the map: an inserted row adds an entry (`append`), an update that marks rows removes entries
(`retire`), any other update rewrites them (`change`), and a query finds what is there (`found`). -/

namespace RsConsole.Library

/-! ## Runs -/

section Runs

variable {τ C σ σ' : Type} {R : C → Type}

/-- The same call of the same client with the same answer, between related states. -/
structure Event.Mirrors (rel : σ → σ' → Prop) (e : Event τ C R σ) (e' : Event τ C R σ') : Prop where
  tid : e'.tid = e.tid
  exchange : e'.exchange = e.exchange
  pre : rel e.pre e'.pre
  post : rel e.post e'.post

variable [DecidableEq τ] {out : τ → Type} {effect : (c : C) → σ → R c → σ → Prop}
  {effect' : (c : C) → σ' → R c → σ' → Prop} {init : σ} {init' : σ'}
  {start : (t : τ) → Program C R (out t)} {tr : List (Event τ C R σ)} {s : σ}
  {pool : (t : τ) → Program C R (out t)} {rel : σ → σ' → Prop}

/-- **Forward simulation.** -/
theorem Run.simulate (hinit : rel init init')
    (hstep : ∀ c a r b, effect c a r b → ∀ a', rel a a' → ∃ b', effect' c a' r b' ∧ rel b b')
    (run : Run effect init start tr s pool) :
    ∃ tr' s', Run effect' init' start tr' s' pool ∧ rel s s' ∧
      List.Forall₂ (Event.Mirrors rel) tr tr' := by
  induction run with
  | init => exact ⟨[], init', .init, hinit, .nil⟩
  | @step tr a b pool t c next r run ready perform ih =>
      obtain ⟨tr', a', run', hrel, hmirrors⟩ := ih
      obtain ⟨b', heffect, hrel'⟩ := hstep c a r b perform a' hrel
      exact ⟨⟨t, c, r, a', b'⟩ :: tr', b', .step run' ready heffect, hrel',
        .cons ⟨rfl, rfl, hrel, hrel'⟩ hmirrors⟩

end Runs

/-! ## Tables -/

namespace Table

variable {ρ ν κ : Type} {Enc : ν → ρ → Prop} {key : ν → κ} {rows : List ρ} {m : κ → Option ν}

/-- The table holds the map. -/
def Represents (Enc : ν → ρ → Prop) (key : ν → κ) (rows : List ρ) (m : κ → Option ν) : Prop :=
  ∀ k v, m k = some v ↔ key v = k ∧ ∃ r ∈ rows, Enc v r

/-- A table with a key holds a map. -/
theorem exists_represents {κ' : Type} (Enc : ν → ρ → Prop) (key : ν → κ) (write : κ → κ')
    {column : ρ → κ'} (hkeyed : Keyed column rows)
    (hcolumn : ∀ v r, Enc v r → column r = write (key v))
    (honly : ∀ v v' r, Enc v r → Enc v' r → v = v') : ∃ m, Represents Enc key rows m := by
  have hentry : ∀ k, ∃ o : Option ν, ∀ v, o = some v ↔ key v = k ∧ ∃ r ∈ rows, Enc v r := by
    intro k
    by_cases hk : ∃ v, key v = k ∧ ∃ r ∈ rows, Enc v r
    · obtain ⟨v, hkey, r, hr, henc⟩ := hk
      refine ⟨some v, fun v' => ⟨?_, ?_⟩⟩
      · rintro ⟨⟩
        exact ⟨hkey, r, hr, henc⟩
      · rintro ⟨hkey', r', hr', henc'⟩
        have hcolumns := (hcolumn v r henc).trans
          ((congrArg write (hkey.trans hkey'.symm)).trans (hcolumn v' r' henc').symm)
        rw [← hkeyed.eq_of_mem hr hr' hcolumns] at henc'
        exact congrArg some (honly v v' r henc henc')
    · exact ⟨none, fun v => ⟨fun hnone => absurd hnone.symm (Option.some_ne_none v),
        fun hv => absurd ⟨v, hv⟩ hk⟩⟩
  choose m hm using hentry
  exact ⟨m, hm⟩

/-- A table holds one map. -/
theorem Represents.unique {m' : κ → Option ν} (h : Represents Enc key rows m)
    (h' : Represents Enc key rows m') : m = m' := by
  funext k
  refine Option.ext fun v => ?_
  rw [h k v, h' k v]

theorem represents_nil : Represents Enc key [] fun _ => none := by
  refine fun k v => iff_of_false (Option.some_ne_none v).symm ?_
  rintro ⟨-, r, hr, -⟩
  exact List.not_mem_nil hr

/-- `Keyed.length_filter_one` for the rows themselves. -/
theorem Keyed.filter_eq {column : ρ → κ} (h : Keyed column rows) {p : ρ → Bool} {r : ρ}
    (hr : r ∈ rows) (hp : ∀ r' ∈ rows, p r' = true ↔ r' = r) : rows.filter p = [r] := by
  obtain ⟨x, hx⟩ := List.length_eq_one_iff.1 (h.length_filter_one hr hp)
  have hmem : r ∈ rows.filter p := List.mem_filter.2 ⟨hr, (hp r hr).2 rfl⟩
  rw [hx, List.mem_singleton] at hmem
  rw [hx, hmem]

variable (key) in
/-- An entry of a map that gets a new one. -/
theorem update_eq_some_iff [DecidableEq κ] {v w : ν} (hnew : m (key w) = none) :
    Function.update m (key w) (some w) (key v) = some v ↔ w = v ∨ m (key v) = some v := by
  by_cases hkey : key v = key w
  · rw [hkey, Function.update_self, hnew]
    simp
  · rw [Function.update_of_ne hkey]
    refine ⟨Or.inr, fun h => h.resolve_left ?_⟩
    rintro rfl
    exact hkey rfl

/-- A row is an entry. -/
theorem Represents.entry (h : Represents Enc key rows m) {v : ν} {r : ρ} (hr : r ∈ rows)
    (henc : Enc v r) : m (key v) = some v :=
  (h (key v) v).2 ⟨rfl, r, hr, henc⟩

theorem Represents.key_of_entry (h : Represents Enc key rows m) {k : κ} {v : ν} (hv : m k = some v) :
    key v = k := ((h k v).1 hv).1

/-- Without an entry there is no row. -/
theorem Represents.no_row (h : Represents Enc key rows m) {k : κ} (hk : m k = none) {v : ν} {r : ρ}
    (hr : r ∈ rows) (henc : Enc v r) : key v ≠ k := by
  rintro rfl
  rw [h.entry hr henc] at hk
  cases hk

theorem Represents.fresh (h : Represents Enc key rows m) {k : κ}
    (hnew : ∀ r ∈ rows, ∀ v, Enc v r → key v ≠ k) : m k = none := by
  cases hk : m k with
  | none => rfl
  | some v =>
      obtain ⟨hkey, r, hr, henc⟩ := (h k v).1 hk
      exact absurd hkey (hnew r hr v henc)

/-- An inserted row. -/
theorem Represents.append [DecidableEq κ] (h : Represents Enc key rows m) {v : ν} {r : ρ}
    (henc : Enc v r) (honly : ∀ v', Enc v' r → v' = v) (hnew : m (key v) = none) :
    Represents Enc key (rows ++ [r]) (Function.update m (key v) (some v)) := by
  intro k v'
  by_cases hk : k = key v
  · subst hk
    rw [Function.update_self, Option.some.injEq]
    constructor
    · rintro rfl
      exact ⟨rfl, r, List.mem_append_right rows (List.mem_singleton_self r), henc⟩
    · rintro ⟨hkey, r', hr', henc'⟩
      rcases List.mem_append.1 hr' with hr' | hr'
      · exact absurd hkey (h.no_row hnew hr' henc')
      · rw [List.mem_singleton.1 hr'] at henc'
        exact (honly v' henc').symm
  · rw [Function.update_of_ne hk, h k v']
    refine and_congr_right fun hkey => ⟨?_, ?_⟩
    · rintro ⟨r', hr', henc'⟩
      exact ⟨r', List.mem_append_left [r] hr', henc'⟩
    · rintro ⟨r', hr', henc'⟩
      rcases List.mem_append.1 hr' with hr' | hr'
      · exact ⟨r', hr', henc'⟩
      · rw [List.mem_singleton.1 hr'] at henc'
        exact absurd (hkey.symm.trans (congrArg key (honly v' henc'))) hk

section Update

variable {p : ρ → Bool} {f : ρ → ρ} {P : ν → Prop} [DecidablePred P]

/-- An update after which the selected rows stand for nothing. -/
theorem Represents.retire (h : Represents Enc key rows m)
    (hp : ∀ v, ∀ r ∈ rows, Enc v r → (p r = true ↔ P v))
    (hf : ∀ r ∈ rows, p r = true → ∀ v, ¬ Enc v (f r)) :
    Represents Enc key (updateWhere p f rows) fun k => (m k).filter (fun v => ¬ P v) := by
  intro k v
  rw [Option.filter_eq_some_iff, h k v, decide_eq_true_eq, and_assoc]
  refine and_congr_right fun hkey => ⟨?_, ?_⟩
  · rintro ⟨⟨r, hr, henc⟩, hnot⟩
    refine ⟨r, mem_updateWhere.2 ⟨r, hr, ?_⟩, henc⟩
    rw [if_neg fun hsel => hnot ((hp v r hr henc).1 hsel)]
  · rintro ⟨r', hr', henc⟩
    obtain ⟨r, hr, rfl⟩ := mem_updateWhere.1 hr'
    by_cases hsel : p r = true
    · rw [if_pos hsel] at henc
      exact absurd henc (hf r hr hsel v)
    · rw [if_neg hsel] at henc
      exact ⟨⟨r, hr, henc⟩, fun hP => hsel ((hp v r hr henc).2 hP)⟩

/-- An update of the entries. -/
theorem Represents.change {g : ν → ν} (h : Represents Enc key rows m)
    (hp : ∀ v, ∀ r ∈ rows, Enc v r → (p r = true ↔ P v)) (hkey : ∀ v, P v → key (g v) = key v)
    (hf : ∀ v, ∀ r ∈ rows, p r = true → Enc v r → Enc (g v) (f r))
    (hback : ∀ v', ∀ r ∈ rows, p r = true → Enc v' (f r) → ∃ v, Enc v r ∧ g v = v') :
    Represents Enc key (updateWhere p f rows) fun k => (m k).map fun v => if P v then g v else v := by
  intro k v'
  rw [Option.map_eq_some_iff]
  constructor
  · rintro ⟨v, hv, rfl⟩
    obtain ⟨hk, r, hr, henc⟩ := (h k v).1 hv
    by_cases hP : P v
    · have hsel := (hp v r hr henc).2 hP
      rw [if_pos hP]
      refine ⟨(hkey v hP).trans hk, f r, mem_updateWhere.2 ⟨r, hr, ?_⟩, hf v r hr hsel henc⟩
      rw [if_pos hsel]
    · rw [if_neg hP]
      refine ⟨hk, r, mem_updateWhere.2 ⟨r, hr, ?_⟩, henc⟩
      rw [if_neg fun hsel => hP ((hp v r hr henc).1 hsel)]
  · rintro ⟨hk, r', hr', henc⟩
    obtain ⟨r, hr, rfl⟩ := mem_updateWhere.1 hr'
    by_cases hsel : p r = true
    · rw [if_pos hsel] at henc
      obtain ⟨v, hold, rfl⟩ := hback v' r hr hsel henc
      have hP := (hp v r hr hold).1 hsel
      refine ⟨v, (h k v).2 ⟨(hkey v hP).symm.trans hk, r, hr, hold⟩, ?_⟩
      rw [if_pos hP]
    · rw [if_neg hsel] at henc
      refine ⟨v', (h k v').2 ⟨hk, r, hr, henc⟩, ?_⟩
      rw [if_neg fun hP => hsel ((hp v' r hr henc).2 hP)]

section Key

variable [DecidableEq κ] {k : κ}

omit [DecidablePred P] in
/-- An update that removes the entry of a key. -/
theorem Represents.erase (h : Represents Enc key rows m)
    (hp : ∀ v, ∀ r ∈ rows, Enc v r → (p r = true ↔ key v = k))
    (hf : ∀ r ∈ rows, p r = true → ∀ v, ¬ Enc v (f r)) :
    Represents Enc key (updateWhere p f rows) (Function.update m k none) := by
  have herased : (fun j => (m j).filter fun v => ¬ key v = k) = Function.update m k none := by
    funext j
    by_cases hj : j = k
    · subst hj
      rw [Function.update_self]
      refine Option.filter_eq_none_iff.2 fun v hv => ?_
      rw [decide_eq_true_eq, not_not]
      exact h.key_of_entry hv
    · rw [Function.update_of_ne hj]
      cases hm : m j with
      | none => rfl
      | some v =>
          rw [Option.filter_some, if_pos]
          refine decide_eq_true ?_
          rintro rfl
          exact hj (h.key_of_entry hm).symm
  rw [← herased]
  exact h.retire hp hf

omit [DecidablePred P] in
/-- An update that replaces the entry of a key. -/
theorem Represents.set {v w : ν} (h : Represents Enc key rows m) (hv : m k = some v)
    (hkey : key w = k) (hp : ∀ v', ∀ r ∈ rows, Enc v' r → (p r = true ↔ key v' = k))
    (hf : ∀ r ∈ rows, p r = true → Enc v r → ∀ v', Enc v' (f r) ↔ v' = w)
    (hback : ∀ v', ∀ r ∈ rows, p r = true → Enc v' (f r) → ∃ v, Enc v r) :
    Represents Enc key (updateWhere p f rows) (Function.update m k (some w)) := by
  have honly : ∀ v', ∀ r ∈ rows, p r = true → Enc v' r → v' = v := by
    intro v' r hr hsel henc
    have hentry := h.entry hr henc
    rw [(hp v' r hr henc).1 hsel, hv] at hentry
    exact (Option.some.inj hentry).symm
  have hset : (fun j => (m j).map fun v' => if key v' = k then w else v') =
      Function.update m k (some w) := by
    funext j
    by_cases hj : j = k
    · subst hj
      rw [Function.update_self, hv, Option.map_some, if_pos (h.key_of_entry hv)]
    · rw [Function.update_of_ne hj]
      cases hm : m j with
      | none => rfl
      | some v' =>
          rw [Option.map_some, if_neg]
          rintro rfl
          exact hj (h.key_of_entry hm).symm
  rw [← hset]
  refine h.change hp (fun v' hv' => hkey.trans hv'.symm) (fun v' r hr hsel henc => ?_)
    fun v' r hr hsel henc => ?_
  · rw [honly v' r hr hsel henc] at henc
    exact (hf r hr hsel henc w).2 rfl
  · obtain ⟨v₀, hold⟩ := hback v' r hr hsel henc
    have hrow := honly v₀ r hr hsel hold
    rw [hrow] at hold
    exact ⟨v, hold, ((hf r hr hsel hold v').1 henc).symm⟩

end Key

end Update

/-- What a query by key finds. -/
theorem Represents.found {P : ν → Prop} [DecidablePred P] (h : Represents Enc key rows m) {k : κ}
    {found : Option ν} (hsome : ∀ v, found = some v → key v = k ∧ P v ∧ ∃ r ∈ rows, Enc v r)
    (hnone : found = none → ∀ v, ∀ r ∈ rows, Enc v r → key v = k → ¬ P v) :
    found = (m k).filter (fun v => P v) := by
  cases found with
  | some v =>
      obtain ⟨hkey, hP, hrow⟩ := hsome v rfl
      rw [(h k v).2 ⟨hkey, hrow⟩, Option.filter_some, if_pos (decide_eq_true hP)]
  | none =>
      cases hk : m k with
      | none => rfl
      | some v =>
          obtain ⟨hkey, r, hr, henc⟩ := (h k v).1 hk
          rw [Option.filter_some, if_neg fun hP =>
            hnone rfl v r hr henc hkey (of_decide_eq_true hP)]

end Table

end RsConsole.Library
