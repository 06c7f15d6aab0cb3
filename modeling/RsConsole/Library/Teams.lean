import RsConsole.Library.Interleaving

set_option autoImplicit false

/-! # Clients that are teams

A client may do its work by running other programs one after another, the later ones chosen by what
the earlier ones returned. `Delegated team p` says that the members of `team` ask, one call of one
member at a time, exactly what `p` asks. A run of clients that delegate to teams is then a run of the
members of all teams, with the same events (`Run.split`): what is proved of the members in any order
holds of the clients. -/

namespace RsConsole.Library

variable {τ κ C σ α : Type} {R : C → Type}

namespace Program

variable {β γ : Type}

theorem bind_assoc (p : Program C R α) (f : α → Program C R β) (g : β → Program C R γ) :
    (p.bind f).bind g = p.bind fun a => (f a).bind g := by
  induction p with
  | done a => rfl
  | call c next ih => exact congrArg (Program.call c) (funext fun r => ih r)

end Program

theorem Fallible.bind_assoc {ε β γ : Type} (x : ExceptT ε (Program C R) α)
    (f : α → ExceptT ε (Program C R) β) (g : β → ExceptT ε (Program C R) γ) :
    x >>= f >>= g = x >>= fun a => f a >>= g := by
  change Program.bind (Program.bind x.run (ExceptT.bindCont f)) (ExceptT.bindCont g) =
    Program.bind x.run (ExceptT.bindCont fun a => f a >>= g)
  rw [Program.bind_assoc]
  refine congrArg (Program.bind x.run) (funext fun r => ?_)
  cases r with
  | ok a => rfl
  | error e => rfl

/-! ## Teams -/

section Delegated

variable [DecidableEq κ] {out : κ → Type}

/-- Whatever it is answered, the program asks what some member of the team is about to ask. -/
inductive Delegated : ((k : κ) → Program C R (out k)) → Program C R α → Prop
  | done (team : (k : κ) → Program C R (out k)) (a : α) : Delegated team (.done a)
  | call {team : (k : κ) → Program C R (out k)} (k : κ) {c : C} {ahead : R c → Program C R (out k)}
      {next : R c → Program C R α} (ready : team k = .call c ahead)
      (rest : ∀ r, Delegated (Function.update team k (ahead r)) (next r)) :
      Delegated team (.call c next)

/-- **A member does a part**, and the team the rest when that member has finished. -/
theorem Delegated.bind {team : (k : κ) → Program C R (out k)} (k : κ) {p : Program C R (out k)}
    {f : out k → Program C R α} (hmember : team k = p)
    (hrest : ∀ a, Delegated (Function.update team k (.done a)) (f a)) : Delegated team (p.bind f) := by
  induction p generalizing team with
  | done a =>
      have hteam : Function.update team k (.done a) = team := by
        rw [← hmember]
        exact Function.update_eq_self k team
      rw [← hteam]
      exact hrest a
  | call c next ih =>
      refine .call k hmember fun r => ih r (Function.update_self ..) fun a => ?_
      rw [Function.update_idem]
      exact hrest a

/-- What follows asks nothing. -/
theorem Delegated.andThen {team : (k : κ) → Program C R (out k)} {p : Program C R α} {β : Type}
    {f : α → Program C R β} (h : Delegated team p) (hf : ∀ a, ∃ b, f a = .done b) :
    Delegated team (p.bind f) := by
  induction h with
  | done team a =>
      obtain ⟨b, hb⟩ := hf a
      change Delegated team (f a)
      rw [hb]
      exact .done team b
  | call k ready rest ih => exact .call k ready ih

/-- A member does all of it. -/
theorem Delegated.member {team : (k : κ) → Program C R (out k)} (k : κ) {p : Program C R (out k)}
    {f : out k → α} (hmember : team k = p) : Delegated team (p.bind fun a => .done (f a)) :=
  Delegated.bind k hmember fun a => .done _ (f a)

end Delegated

/-! ### Code that stops at the first error -/

namespace Fallible

variable [DecidableEq κ] {out : κ → Type} {ε β : Type}

/-- The code delegates to the team. -/
abbrev DelegatedBy (team : (k : κ) → Program C R (out k)) (x : ExceptT ε (Program C R) α) : Prop :=
  Delegated team x.run

theorem delegated_pure (team : (k : κ) → Program C R (out k)) (a : α) :
    DelegatedBy team (pure a : ExceptT ε (Program C R) α) := .done team _

theorem delegated_throw (team : (k : κ) → Program C R (out k)) (e : ε) :
    DelegatedBy team (throw e : ExceptT ε (Program C R) α) := .done team _

/-- What follows a result that was computed. -/
theorem delegated_ofExcept {team : (k : κ) → Program C R (out k)} {x : Except ε α}
    {f : α → ExceptT ε (Program C R) β} (h : ∀ a, x = .ok a → DelegatedBy team (f a)) :
    DelegatedBy team (ofExcept x >>= f) := by
  cases x with
  | ok a => exact h a rfl
  | error e => exact .done team _

theorem delegated_okOr {team : (k : κ) → Program C R (out k)} {e : ε} {o : Option α}
    {f : α → ExceptT ε (Program C R) β} (h : ∀ a, o = some a → DelegatedBy team (f a)) :
    DelegatedBy team (okOr e o >>= f) := by
  cases o with
  | some a => exact h a rfl
  | none => exact .done team _

theorem delegated_ensure {team : (k : κ) → Program C R (out k)} {p : Prop} [Decidable p] {e : ε}
    {f : Unit → ExceptT ε (Program C R) β} (h : p → DelegatedBy team (f ())) :
    DelegatedBy team (ensure p e >>= f) := by
  rw [ensure]
  split
  · next hp => exact h hp
  · exact .done team _

theorem delegated_map {team : (k : κ) → Program C R (out k)} {x : ExceptT ε (Program C R) α}
    (h : DelegatedBy team x) (f : α → β) : DelegatedBy team (x >>= fun a => pure (f a)) := by
  refine Delegated.andThen (f := ExceptT.bindCont fun a => pure (f a)) h fun r => ?_
  cases r with
  | ok a => exact ⟨_, rfl⟩
  | error e => exact ⟨_, rfl⟩

/-- A member does the first part. -/
theorem delegated_bind {out : κ → Type} {team : (k : κ) → Program C R (Except ε (out k))} (k : κ)
    {x : ExceptT ε (Program C R) (out k)} {f : out k → ExceptT ε (Program C R) β}
    (hmember : team k = x.run)
    (hrest : ∀ a, DelegatedBy (Function.update team k (.done (.ok a))) (f a)) :
    DelegatedBy team (x >>= f) := by
  refine Delegated.bind (f := ExceptT.bindCont f) k hmember fun r => ?_
  cases r with
  | ok a => exact hrest a
  | error e => exact .done _ _

/-- A member does a part that may fail. -/
theorem delegated_attempt {out : κ → Type} {team : (k : κ) → Program C R (Except ε (out k))} (k : κ)
    {x : ExceptT ε (Program C R) (out k)} {f : Except ε (out k) → ExceptT ε (Program C R) β}
    (hmember : team k = x.run)
    (hrest : ∀ r, DelegatedBy (Function.update team k (.done r)) (f r)) :
    DelegatedBy team (attempt x >>= f) := by
  change Delegated team (Program.bind (Program.bind x.run fun r => .done (.ok r)) (ExceptT.bindCont f))
  rw [Program.bind_assoc]
  exact Delegated.bind k hmember hrest

end Fallible

/-! ## Runs -/

/-- The event, by the client that its own client works for. -/
def Event.forClient {τ' : Type} (f : τ → τ') (e : Event τ C R σ) : Event τ' C R σ :=
  ⟨f e.tid, e.call, e.resp, e.pre, e.post⟩

section Split

variable [DecidableEq τ] [DecidableEq κ] {out : τ → Type} {out' : τ → κ → Type}
  {effect : (c : C) → σ → R c → σ → Prop} {init : σ} {start : (t : τ) → Program C R (out t)}
  {team : (t : τ) → (k : κ) → Program C R (out' t k)} {tr : List (Event τ C R σ)} {s : σ}
  {pool : (t : τ) → Program C R (out t)}

omit [DecidableEq τ] in
theorem update_own [DecidableEq (τ × κ)] (pool : (m : τ × κ) → Program C R (out' m.1 m.2)) (t : τ)
    (k : κ) (p : Program C R (out' t k)) :
    (fun k' => Function.update pool (t, k) p (t, k')) =
      Function.update (fun k' => pool (t, k')) k p := by
  funext k'
  by_cases hk : k' = k
  · subst hk
    rw [Function.update_self, Function.update_self]
  · rw [Function.update_of_ne hk, Function.update_of_ne fun heq => hk (congrArg Prod.snd heq)]

omit [DecidableEq τ] [DecidableEq κ] in
theorem update_other [DecidableEq (τ × κ)] {pool : (m : τ × κ) → Program C R (out' m.1 m.2)}
    {t u : τ} (hu : u ≠ t) (k : κ) (p : Program C R (out' t k)) :
    (fun k' => Function.update pool (t, k) p (u, k')) = fun k' => pool (u, k') := by
  funext k'
  exact Function.update_of_ne (fun heq => hu (congrArg Prod.fst heq)) _ _

/-- **A run of clients that delegate to teams is a run of the teams' members**, with the same
    calls, answers and states. -/
theorem Run.split (hdelegated : ∀ t, Delegated (team t) (start t))
    (run : Run effect init start tr s pool) :
    ∃ tr' pool', Run effect init (fun m : τ × κ => team m.1 m.2) tr' s pool' ∧
      tr'.map (Event.forClient Prod.fst) = tr ∧
      ∀ t, Delegated (fun k => pool' (t, k)) (pool t) := by
  induction run with
  | init => exact ⟨[], _, .init, rfl, hdelegated⟩
  | @step tr s s' pool t c next r run ready performed ih =>
      obtain ⟨tr', pool', run', htrace, hpool⟩ := ih
      have hdelegates := hpool t
      rw [ready] at hdelegates
      cases hdelegates with
      | call k hready hrest =>
          refine ⟨⟨(t, k), c, r, s, s'⟩ :: tr', _, run'.step hready performed, ?_, fun u => ?_⟩
          · rw [List.map_cons, htrace]
            rfl
          · by_cases hu : u = t
            · subst hu
              rw [Function.update_self]
              rw [update_own]
              exact hrest r
            · rw [Function.update_of_ne hu, update_other hu]
              exact hpool u

end Split

end RsConsole.Library
