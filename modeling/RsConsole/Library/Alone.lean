import RsConsole.Library.Interleaving

set_option autoImplicit false

/-! # Programs that run alone

`Program.Ensures effect Q p a`: when `p` runs from the state `a` and nobody else makes a call, it ends
with `Q`, whichever of the possible answers it gets. It is computed from the program, as a weakest
precondition is, and has a rule for every way of building a program; `Run.ensures` connects it to
runs. `Fallible.Succeeds` is the same for programs that may fail, and says that they do not.
`Program.alone` computes such a run. -/

namespace RsConsole.Library

variable {C : Type} {R : C → Type} {σ α β : Type}

namespace Program

variable {effect : (c : C) → σ → R c → σ → Prop} {Q : α → σ → Prop}

def Ensures (effect : (c : C) → σ → R c → σ → Prop) (Q : α → σ → Prop) : Program C R α → σ → Prop
  | .done x, a => Q x a
  | .call c next, a => ∀ r b, effect c a r b → (next r).Ensures effect Q b

theorem Ensures.mono {Q' : α → σ → Prop} (hmono : ∀ x a, Q x a → Q' x a) {p : Program C R α}
    {a : σ} (h : p.Ensures effect Q a) : p.Ensures effect Q' a := by
  induction p generalizing a with
  | done x => exact hmono x a h
  | call c next ih =>
      intro r b heffect
      exact ih r (h r b heffect)

theorem ensures_bind {Q' : β → σ → Prop} {p : Program C R α} {f : α → Program C R β} {a : σ}
    (h : p.Ensures effect (fun x b => (f x).Ensures effect Q' b) a) :
    (p.bind f).Ensures effect Q' a := by
  induction p generalizing a with
  | done x => exact h
  | call c next ih =>
      intro r b heffect
      exact ih r (h r b heffect)

end Program

/-- **What a client ensures alone holds when only it moves**: of what it has left, at every state. -/
theorem Run.ensures {τ : Type} [DecidableEq τ] {out : τ → Type}
    {effect : (c : C) → σ → R c → σ → Prop} {start : (t : τ) → Program C R (out t)}
    {tr : List (Event τ C R σ)} {a b : σ} {pool : (t : τ) → Program C R (out t)} {t : τ}
    {Q : out t → σ → Prop} (run : Run effect a start tr b pool) (h : (start t).Ensures effect Q a)
    (halone : ∀ e ∈ tr, e.tid = t) : (pool t).Ensures effect Q b := by
  induction run with
  | init => exact h
  | @step tr s s' pool t' c next r run ready perform ih =>
      obtain rfl : t' = t := halone _ List.mem_cons_self
      have hbefore := ih fun e he => halone e (List.mem_cons_of_mem _ he)
      rw [ready] at hbefore
      rw [Function.update_self]
      exact hbefore r s' perform

/-- The program, with its calls performed in the given environments as long as they pass a test. -/
def Program.alone {η : Type} (perform : η → (c : C) → σ → R c × σ) (test : η → C → σ → Bool) :
    Program C R α → σ → List η → Option α
  | .done x, _, _ => some x
  | .call _ _, _, [] => none
  | .call c next, a, env :: envs =>
      if test env c a then (next (perform env c a).1).alone perform test (perform env c a).2 envs
      else none

/-- What a program gives alone is where a run can end in which only its client moves. -/
theorem Run.of_alone {τ η : Type} [DecidableEq τ] {out : τ → Type}
    {effect : (c : C) → σ → R c → σ → Prop} {perform : η → (c : C) → σ → R c × σ}
    {test : η → C → σ → Bool} {start : (t : τ) → Program C R (out t)}
    (htest : ∀ env c a, test env c a = true → effect c a (perform env c a).1 (perform env c a).2)
    {tr : List (Event τ C R σ)} {init a : σ} {pool : (t : τ) → Program C R (out t)} {t : τ}
    {envs : List η} {x : out t} (run : Run effect init start tr a pool)
    (halone : (pool t).alone perform test a envs = some x) :
    ∃ tr' b pool', Run effect init start tr' b pool' ∧ pool' t = .done x := by
  generalize hp : pool t = p at halone
  induction p generalizing tr a pool envs with
  | done y =>
      obtain rfl : y = x := Option.some.inj halone
      exact ⟨tr, a, pool, run, hp⟩
  | call c next ih =>
      cases envs with
      | nil => cases halone
      | cons env envs =>
          unfold Program.alone at halone
          split at halone
          · next hpassed =>
            exact ih _ (run.step hp (htest env c a hpassed)) (Function.update_self ..) halone
          · cases halone

/-! ## Programs that may fail -/

namespace Fallible

variable {ε : Type} {effect : (c : C) → σ → R c → σ → Prop} {Q : α → σ → Prop} {a : σ}

/-- Alone from `a`, `x` succeeds, with `Q`. -/
def Succeeds (effect : (c : C) → σ → R c → σ → Prop) (Q : α → σ → Prop)
    (x : ExceptT ε (Program C R) α) (a : σ) : Prop :=
  x.run.Ensures effect (fun r b => ∃ v, r = .ok v ∧ Q v b) a

theorem Succeeds.ensures {x : ExceptT ε (Program C R) α} (h : Succeeds effect Q x a) :
    x.run.Ensures effect (fun r b => ∃ v, r = .ok v ∧ Q v b) a :=
  h

theorem succeeds_pure {v : α} (h : Q v a) :
    Succeeds effect Q (pure v : ExceptT ε (Program C R) α) a :=
  ⟨v, rfl, h⟩

theorem succeeds_bind {Q' : β → σ → Prop} {x : ExceptT ε (Program C R) α}
    {f : α → ExceptT ε (Program C R) β}
    (h : Succeeds effect (fun v b => Succeeds effect Q' (f v) b) x a) :
    Succeeds effect Q' (x >>= f) a := by
  refine Program.ensures_bind (Program.Ensures.mono ?_ h)
  rintro _ b ⟨v, rfl, hv⟩
  exact hv

theorem succeeds_okOr {e : ε} {o : Option α} {v : α} (ho : o = some v) (h : Q v a) :
    Succeeds effect Q (okOr e o : ExceptT ε (Program C R) α) a := by
  rw [ho]
  exact succeeds_pure h

theorem succeeds_ensure {p : Prop} [Decidable p] {e : ε} {Q : Unit → σ → Prop} (hp : p)
    (h : Q () a) : Succeeds effect Q (ensure p e : ExceptT ε (Program C R) Unit) a := by
  rw [ensure, if_pos hp]
  exact succeeds_pure h

theorem succeeds_ofExcept {x : Except ε α} {v : α} (hx : x = .ok v) (h : Q v a) :
    Succeeds effect Q (ofExcept x : ExceptT ε (Program C R) α) a :=
  ⟨v, hx, h⟩

theorem succeeds_await {A : C → Type} {effect : (c : C) → σ → Except ε (A c) → σ → Prop} {c : C}
    {Q : A c → σ → Prop} (h : ∀ r b, effect c a r b → ∃ v, r = .ok v ∧ Q v b) :
    Succeeds effect Q (await (A := A) c) a := h

end Fallible

end RsConsole.Library
