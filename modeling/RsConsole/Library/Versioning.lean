import Mathlib.Logic.Relation
import Mathlib.Order.Basic

set_option autoImplicit false

/-! # Versioned state

A state machine numbers its content when every step either keeps both or moves on to a larger
version with a different content. Then, along any run, the version tells whether the content is
still the same. -/

namespace RsConsole.Library

open Relation

variable {σ ν κ : Type} [PartialOrder ν]

/-- Every step keeps version and content, or raises the version and changes the content. -/
def Versions (step : σ → σ → Prop) (version : σ → ν) (content : σ → κ) : Prop :=
  ∀ ⦃a b⦄, step a b → (version b = version a ∧ content b = content a) ∨
    (version a < version b ∧ content b ≠ content a)

namespace Versions

variable {step : σ → σ → Prop} {version : σ → ν} {content : σ → κ} {a b : σ}

theorem version_mono (h : Versions step version content) (run : ReflTransGen step a b) :
    version a ≤ version b := by
  induction run with
  | refl => exact le_rfl
  | tail _ hstep ih =>
      rcases h hstep with ⟨heq, -⟩ | ⟨hlt, -⟩
      · exact ih.trans heq.ge
      · exact ih.trans hlt.le

/-- Content that keeps its version is the same content, whatever happened in between. -/
theorem content_eq (h : Versions step version content) (run : ReflTransGen step a b)
    (hversion : version b = version a) : content b = content a := by
  induction run with
  | refl => rfl
  | tail hrun hstep ih =>
      rcases h hstep with ⟨heq, hcontent⟩ | ⟨hlt, -⟩
      · rw [hcontent, ih (heq ▸ hversion)]
      · exact absurd hversion ((h.version_mono hrun).trans_lt hlt).ne'

/-- Content that differs later has a larger version there. -/
theorem version_lt (h : Versions step version content) (run : ReflTransGen step a b)
    (hcontent : content b ≠ content a) : version a < version b :=
  (h.version_mono run).lt_of_ne (fun heq => hcontent (h.content_eq run heq.symm))

end Versions

end RsConsole.Library
