import Mathlib.Data.List.Basic

set_option autoImplicit false

/-! # Tables that hold the last write

A log, newest entry first, has entries that write a value under a key (`writes`). `lastWrite` is the
value last written under a key. A table follows the log when every row shows the value last written
under its key; it does so along any run in which each step either leaves a row's value as it was and
writes nothing under its key, or makes it show what it writes (`Follows.step`). -/

namespace RsConsole.Library

variable {ε κ β ρ γ : Type} [DecidableEq κ] (writes : ε → Option (κ × β))

/-- The value that the entry writes under `k`. -/
def writeTo (k : κ) (e : ε) : Option β := ((writes e).filter (·.1 = k)).map (·.2)

/-- The value last written under `k`. -/
def lastWrite (k : κ) (log : List ε) : Option β := log.findSome? (writeTo writes k)

variable {writes} {e : ε} {log : List ε} {k : κ} {v : β}

@[simp] theorem writeTo_eq_some : writeTo writes k e = some v ↔ writes e = some (k, v) := by
  simp only [writeTo, Option.map_eq_some_iff, Option.filter_eq_some_iff, decide_eq_true_eq]
  constructor
  · rintro ⟨⟨k', v'⟩, ⟨hw, rfl⟩, rfl⟩
    exact hw
  · intro hw
    exact ⟨(k, v), ⟨hw, rfl⟩, rfl⟩

theorem writeTo_eq_none : writeTo writes k e = none ↔ ∀ v, writes e ≠ some (k, v) := by
  simp only [Option.eq_none_iff_forall_ne_some, ne_eq, writeTo_eq_some]

theorem lastWrite_cons_self (h : writes e = some (k, v)) :
    lastWrite writes k (e :: log) = some v := by
  have hwrite : writeTo writes k e = some v := writeTo_eq_some.2 h
  simp [lastWrite, hwrite]

theorem lastWrite_cons_ne (h : ∀ v, writes e ≠ some (k, v)) :
    lastWrite writes k (e :: log) = lastWrite writes k log := by
  have hnone : writeTo writes k e = none := writeTo_eq_none.2 h
  simp [lastWrite, hnone]

/-- The value last written is written by an entry after which no entry writes under its key. -/
theorem lastWrite_eq_some : lastWrite writes k log = some v ↔
    ∃ newer e older, log = newer ++ e :: older ∧ writes e = some (k, v) ∧
      ∀ e' ∈ newer, ∀ v', writes e' ≠ some (k, v') := by
  simp only [lastWrite, List.findSome?_eq_some_iff, writeTo_eq_some, writeTo_eq_none]

/-! ## Tables -/

variable (writes)

/-- Every row shows the value last written under its key. -/
def Follows (key : ρ → κ) (shows : ρ → β → Prop) (log : List ε) (rows : List ρ) : Prop :=
  ∀ r ∈ rows, ∃ v, lastWrite writes (key r) log = some v ∧ shows r v

variable {writes}

theorem follows_nil (key : ρ → κ) (shows : ρ → β → Prop) (log : List ε) :
    Follows writes key shows log [] :=
  fun _ hr => nomatch hr

/-- A row shows what a step wrote under its key, or what a row showed before a step that wrote
    nothing there. -/
theorem Follows.step {key : ρ → κ} {shows : ρ → β → Prop} {rows rows' : List ρ}
    (h : Follows writes key shows log rows)
    (hstep : ∀ r' ∈ rows', (∃ v, writes e = some (key r', v) ∧ shows r' v) ∨
      (∀ v, writes e ≠ some (key r', v)) ∧
        ∃ r ∈ rows, key r = key r' ∧ ∀ v, shows r v → shows r' v) :
    Follows writes key shows (e :: log) rows' := by
  intro r' hr'
  rcases hstep r' hr' with ⟨v, hw, hshows⟩ | ⟨hne, r, hr, hkey, hsame⟩
  · exact ⟨v, lastWrite_cons_self hw, hshows⟩
  · obtain ⟨v, hlast, hshows⟩ := h r hr
    refine ⟨v, ?_, hsame v hshows⟩
    rw [lastWrite_cons_ne hne, ← hkey]
    exact hlast

/-! ## Values that are written once -/

variable (writes)

/-- No two entries write values with the same fingerprint. -/
def WritesOnce (fingerprint : β → γ) (log : List ε) : Prop :=
  log.Pairwise (fun e e' => ∀ k v k' v', writes e = some (k, v) → writes e' = some (k', v') →
    fingerprint v ≠ fingerprint v')

variable {writes}

/-- Where values are written once, a value that is the last under some key is the last under the key
    it was written to: nothing was written there afterwards. -/
theorem WritesOnce.last_of_written {fingerprint : β → γ} {newer older : List ε} {k' : κ}
    (honce : WritesOnce writes fingerprint (newer ++ e :: older)) (hw : writes e = some (k', v))
    (hlast : lastWrite writes k (newer ++ e :: older) = some v) :
    k = k' ∧ ∀ e' ∈ newer, ∀ v', writes e' ≠ some (k', v') := by
  obtain ⟨newer', e₀, older', hsplit, hw₀, hnone⟩ := lastWrite_eq_some.1 hlast
  -- the entry that wrote the value last stands after `e`, or at its place, or before it
  rcases List.append_eq_append_iff.1 hsplit with ⟨between, rfl, htail⟩ | ⟨between, rfl, htail⟩
  · cases between with
    | nil =>
        obtain ⟨rfl, rfl⟩ := List.cons.inj htail
        obtain rfl : k = k' := (Prod.mk.inj (Option.some.inj (hw₀.symm.trans hw))).1
        exact ⟨rfl, by simpa using hnone⟩
    | cons x between =>
        obtain ⟨rfl, rfl⟩ := List.cons.inj htail
        have hpair := (List.pairwise_append.1 honce).2.1
        exact absurd rfl ((List.pairwise_cons.1 hpair).1 e₀ (by simp) _ _ _ _ hw hw₀)
  · cases between with
    | nil =>
        obtain ⟨rfl, rfl⟩ := List.cons.inj htail
        obtain rfl : k = k' := (Prod.mk.inj (Option.some.inj (hw₀.symm.trans hw))).1
        exact ⟨rfl, by simpa using hnone⟩
    | cons x between =>
        obtain ⟨rfl, -⟩ := List.cons.inj htail
        have hcross := (List.pairwise_append.1 honce).2.2
        exact absurd rfl (hcross e₀ (by simp) e (by simp) _ _ _ _ hw₀ hw)

end RsConsole.Library
