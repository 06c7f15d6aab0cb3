import Mathlib.Data.List.Count
import Mathlib.Data.Nat.Cast.Basic

set_option autoImplicit false

/-! # Journals

A system keeps an append-only log of entries. A quantity of the system is accounted for by the log
when it grows by exactly the entries of some kind. `Posts log p reads` relates two states between
which that was so: `reads a n` says that the quantity is `n` in state `a`, and `p` selects the
entries that count. It is a preorder, so what every step posts, every run posts
(`Posts.refl`, `Posts.trans`), and the log alone gives the quantity back (`Posts.since`). -/

namespace RsConsole.Library

variable {σ ε N : Type} [AddMonoidWithOne N] {log : σ → List ε} {p : ε → Bool}
  {reads : σ → N → Prop} {a b c : σ}

/-- Between the two states the log was extended, and the quantity grew by its new entries that `p`
    selects. -/
def Posts (log : σ → List ε) (p : ε → Bool) (reads : σ → N → Prop) (a b : σ) : Prop :=
  ∃ added, log b = log a ++ added ∧ ∀ n, reads a n → reads b (n + (added.countP p : ℕ))

theorem Posts.refl (log : σ → List ε) (p : ε → Bool) (reads : σ → N → Prop) (a : σ) :
    Posts log p reads a a :=
  ⟨[], (List.append_nil _).symm, fun n hn => by simpa using hn⟩

theorem Posts.trans (h₁ : Posts log p reads a b) (h₂ : Posts log p reads b c) :
    Posts log p reads a c := by
  obtain ⟨added, hlog, hreads⟩ := h₁
  obtain ⟨added', hlog', hreads'⟩ := h₂
  refine ⟨added ++ added', ?_, fun n hn => ?_⟩
  · rw [hlog', hlog, List.append_assoc]
  · rw [List.countP_append, Nat.cast_add, ← add_assoc]
    exact hreads' _ (hreads n hn)

/-- **The quantity is what it was, and the selected entries logged since.** -/
theorem Posts.since (h : Posts log p reads a b) {n : N} (hn : reads a n) :
    reads b (n + (((log b).drop (log a).length).countP p : ℕ)) := by
  obtain ⟨added, hlog, hreads⟩ := h
  rw [hlog, List.drop_left]
  exact hreads n hn

end RsConsole.Library
