import Mathlib.Logic.Function.Basic
import Mathlib.Data.List.Basic

set_option autoImplicit false

/-! # Programs over an atomic object, and their interleavings

A `Program` is a client of a shared object: it asks a call, receives a response and continues. The
object performs every call atomically; between two calls of one client any number of calls of
other clients may be performed. `Run` is the set of all such interleavings, kept as a trace of
`Event`s with the newest event first.

Two kinds of reasoning are separated. What one client can ask, and what it has been told before,
is a property of its program alone (`Asks`, `Returns`, with a rule for every way of building a
program). What the object does is a property of single calls, lifted to traces by the rules of
`Run` (`Run.invariant`, `Run.rel_of_precedes`, `Run.origin`). `Run.asks` connects the two. -/

namespace RsConsole.Library

/-- A client that asks calls `c : C`, is answered in `R c` and finishes with an `α`. -/
inductive Program (C : Type) (R : C → Type) (α : Type) where
  | done (a : α)
  | call (c : C) (next : R c → Program C R α)

/-- One call with its response. -/
structure Exchange (C : Type) (R : C → Type) where
  call : C
  resp : R call

namespace Program

variable {C : Type} {R : C → Type} {α β : Type}

def bind : Program C R α → (α → Program C R β) → Program C R β
  | .done a, f => f a
  | .call c next, f => .call c (fun r => (next r).bind f)

instance : Monad (Program C R) where
  pure := .done
  bind := .bind

/-- Run a program alone, every call performed at once. -/
def run {σ : Type} (perform : (c : C) → σ → R c × σ) : Program C R α → σ → α × σ
  | .done a, s => (a, s)
  | .call c next, s => (next (perform c s).1).run perform (perform c s).2

theorem run_bind {σ : Type} (perform : (c : C) → σ → R c × σ) (p : Program C R α)
    (f : α → Program C R β) (s : σ) :
    (p.bind f).run perform s = (f (p.run perform s).1).run perform (p.run perform s).2 := by
  induction p generalizing s with
  | done a => rfl
  | call c next ih => exact ih _ _

/-! ## What a program can ask and return -/

/-- `After p past q`: having exchanged `past` (oldest first), `p` continues as `q`. -/
inductive After : Program C R α → List (Exchange C R) → Program C R α → Prop
  | nil (p : Program C R α) : After p [] p
  | cons {c : C} {next : R c → Program C R α} {r : R c} {past : List (Exchange C R)}
      {q : Program C R α} (rest : After (next r) past q) : After (.call c next) (⟨c, r⟩ :: past) q

/-- Having exchanged `past`, the program asks `c`. -/
def Asks (p : Program C R α) (past : List (Exchange C R)) (c : C) : Prop :=
  ∃ next, After p past (.call c next)

/-- Having exchanged `past`, the program finishes with `a`. -/
def Returns (p : Program C R α) (past : List (Exchange C R)) (a : α) : Prop :=
  After p past (.done a)

theorem After.snoc {p : Program C R α} {past : List (Exchange C R)} {c : C}
    {next : R c → Program C R α} (h : After p past (.call c next)) (r : R c) :
    After p (past ++ [⟨c, r⟩]) (next r) := by
  generalize hq : Program.call c next = q at h
  induction h with
  | nil p => subst hq; exact .cons (.nil _)
  | cons rest ih => exact .cons (ih hq)

/-- What has been exchanged was asked. -/
theorem asked_of_after {p q : Program C R α} {past : List (Exchange C R)} (h : After p past q)
    {y : Exchange C R} (hy : y ∈ past) : ∃ before, Asks p before y.call := by
  induction h with
  | nil p => cases hy
  | @cons c next r past q rest ih =>
      rcases List.mem_cons.1 hy with rfl | hy
      · exact ⟨[], next, .nil _⟩
      · obtain ⟨before, next', hafter⟩ := ih hy
        exact ⟨⟨c, r⟩ :: before, next', .cons hafter⟩

theorem after_done {a : α} {past : List (Exchange C R)} {q : Program C R α} :
    After (.done a) past q ↔ past = [] ∧ q = .done a := by
  constructor
  · intro h
    cases h with
    | nil => exact ⟨rfl, rfl⟩
  · rintro ⟨rfl, rfl⟩
    exact .nil _

theorem after_call {c : C} {next : R c → Program C R α} {past : List (Exchange C R)}
    {q : Program C R α} :
    After (.call c next) past q ↔
      (past = [] ∧ q = .call c next) ∨ ∃ r rest, past = ⟨c, r⟩ :: rest ∧ After (next r) rest q := by
  constructor
  · intro h
    cases h with
    | nil => exact Or.inl ⟨rfl, rfl⟩
    | cons rest => exact Or.inr ⟨_, _, rfl, rest⟩
  · rintro (⟨rfl, rfl⟩ | ⟨r, rest, rfl, h⟩)
    · exact .nil _
    · exact .cons h

@[simp] theorem asks_done (a : α) (past : List (Exchange C R)) (c : C) :
    Asks (.done a) past c ↔ False := by
  simp [Asks, after_done]

@[simp] theorem returns_done (a b : α) (past : List (Exchange C R)) :
    Returns (.done a) past b ↔ past = [] ∧ b = a := by
  simp [Returns, after_done]

theorem asks_call (c c' : C) (next : R c → Program C R α) (past : List (Exchange C R)) :
    Asks (.call c next) past c' ↔
      (past = [] ∧ c' = c) ∨ ∃ r rest, past = ⟨c, r⟩ :: rest ∧ Asks (next r) rest c' := by
  constructor
  · rintro ⟨k, h⟩
    rcases after_call.1 h with ⟨rfl, hk⟩ | ⟨r, rest, rfl, hk⟩
    · injection hk with hc
      exact Or.inl ⟨rfl, hc⟩
    · exact Or.inr ⟨r, rest, rfl, k, hk⟩
  · rintro (⟨rfl, rfl⟩ | ⟨r, rest, rfl, k, hk⟩)
    · exact ⟨_, .nil _⟩
    · exact ⟨k, .cons hk⟩

theorem returns_call (c : C) (next : R c → Program C R α) (past : List (Exchange C R)) (a : α) :
    Returns (.call c next) past a ↔
      ∃ r rest, past = ⟨c, r⟩ :: rest ∧ Returns (next r) rest a := by
  simp [Returns, after_call]

theorem asks_bind (p : Program C R α) (f : α → Program C R β) (past : List (Exchange C R))
    (c : C) :
    Asks (p.bind f) past c ↔ Asks p past c ∨
      ∃ before after a, past = before ++ after ∧ Returns p before a ∧ Asks (f a) after c := by
  induction p generalizing past with
  | done a => simp [bind, Asks, Returns, after_done]
  | call d next ih =>
      simp only [bind, asks_call, returns_call, ih]
      constructor
      · rintro (h | ⟨r, rest, rfl, h | ⟨before, after, a, rfl, ha, hc⟩⟩)
        · exact Or.inl (Or.inl h)
        · exact Or.inl (Or.inr ⟨r, rest, rfl, h⟩)
        · exact Or.inr ⟨_, after, a, rfl, ⟨r, before, rfl, ha⟩, hc⟩
      · rintro ((h | ⟨r, rest, rfl, h⟩) | ⟨_, after, a, rfl, ⟨r, before, rfl, ha⟩, hc⟩)
        · exact Or.inl h
        · exact Or.inr ⟨r, rest, rfl, Or.inl h⟩
        · exact Or.inr ⟨r, _, rfl, Or.inr ⟨before, after, a, rfl, ha, hc⟩⟩

theorem returns_bind (p : Program C R α) (f : α → Program C R β) (past : List (Exchange C R))
    (b : β) :
    Returns (p.bind f) past b ↔
      ∃ before after a, past = before ++ after ∧ Returns p before a ∧ Returns (f a) after b := by
  induction p generalizing past with
  | done a => simp [bind, Returns, after_done]
  | call d next ih =>
      simp only [bind, returns_call, ih]
      constructor
      · rintro ⟨r, rest, rfl, before, after, a, rfl, ha, hb⟩
        exact ⟨_, after, a, rfl, ⟨r, before, rfl, ha⟩, hb⟩
      · rintro ⟨_, after, a, rfl, ⟨r, before, rfl, ha⟩, hb⟩
        exact ⟨r, _, rfl, before, after, a, rfl, ha, hb⟩

end Program

/-! ## Programs that may fail

Service code stops at the first error, so its programs are `ExceptT ε (Program C R)`. Each
building block has one rule for what it asks and one for what it returns on success. -/

namespace Fallible

variable {C : Type} {ε : Type}

/-- Ask one call whose responses are `Except ε`. -/
def await {A : C → Type} (c : C) : ExceptT ε (Program C (fun c => Except ε (A c))) (A c) :=
  ExceptT.mk (.call c .done)

/-- Ask one call whose responses are `Except δ`, with its errors converted. -/
def awaitMap {δ : Type} {A : C → Type} (f : δ → ε) (c : C) :
    ExceptT ε (Program C (fun c => Except δ (A c))) (A c) :=
  ExceptT.mk (.call c (fun r => .done (r.mapError f)))

variable {R : C → Type} {α β : Type}

/-- The value of an option, or the given error: Rust's `ok_or(e)?`. -/
def okOr (e : ε) (o : Option α) : ExceptT ε (Program C R) α :=
  match o with
  | some a => pure a
  | none => throw e

/-- Stop with the given error unless the condition holds. -/
def ensure (p : Prop) [Decidable p] (e : ε) : ExceptT ε (Program C R) Unit :=
  if p then pure () else throw e

/-- A result computed without the shared object: Rust's `?` on a plain `Result`. -/
def ofExcept (x : Except ε α) : ExceptT ε (Program C R) α :=
  ExceptT.mk (.done x)

/-- Having exchanged `past`, the program asks `c`. -/
def Asks (x : ExceptT ε (Program C R) α) (past : List (Exchange C R)) (c : C) : Prop :=
  Program.Asks x.run past c

/-- Having exchanged `past`, the program succeeds with `a`. -/
def Returns (x : ExceptT ε (Program C R) α) (past : List (Exchange C R)) (a : α) : Prop :=
  Program.Returns x.run past (.ok a)

@[simp] theorem asks_pure (a : α) (past : List (Exchange C R)) (c : C) :
    Asks (pure a : ExceptT ε (Program C R) α) past c ↔ False :=
  Program.asks_done _ _ _

@[simp] theorem returns_pure (a b : α) (past : List (Exchange C R)) :
    Returns (pure a : ExceptT ε (Program C R) α) past b ↔ past = [] ∧ b = a := by
  have h := Program.returns_done (C := C) (R := R) (Except.ok a : Except ε α) (.ok b) past
  rw [Except.ok.injEq] at h
  exact h

@[simp] theorem asks_throw (e : ε) (past : List (Exchange C R)) (c : C) :
    Asks (throw e : ExceptT ε (Program C R) α) past c ↔ False :=
  Program.asks_done _ _ _

@[simp] theorem returns_throw (e : ε) (past : List (Exchange C R)) (b : α) :
    Returns (throw e : ExceptT ε (Program C R) α) past b ↔ False := by
  have h := Program.returns_done (C := C) (R := R) (Except.error e : Except ε α) (.ok b) past
  simp only [reduceCtorEq, and_false] at h
  exact h

@[simp] theorem asks_bind (x : ExceptT ε (Program C R) α) (f : α → ExceptT ε (Program C R) β)
    (past : List (Exchange C R)) (c : C) :
    Asks (x >>= f) past c ↔ Asks x past c ∨
      ∃ before after a, past = before ++ after ∧ Returns x before a ∧ Asks (f a) after c := by
  refine (Program.asks_bind x.run _ past c).trans (or_congr Iff.rfl ?_)
  constructor
  · rintro ⟨before, after, e | a, rfl, ha, hc⟩
    · exact ((Program.asks_done _ _ _).1 hc).elim
    · exact ⟨before, after, a, rfl, ha, hc⟩
  · rintro ⟨before, after, a, rfl, ha, hc⟩
    exact ⟨before, after, .ok a, rfl, ha, hc⟩

@[simp] theorem returns_bind (x : ExceptT ε (Program C R) α)
    (f : α → ExceptT ε (Program C R) β) (past : List (Exchange C R)) (b : β) :
    Returns (x >>= f) past b ↔
      ∃ before after a, past = before ++ after ∧ Returns x before a ∧ Returns (f a) after b := by
  refine (Program.returns_bind x.run _ past (Except.ok b)).trans ?_
  constructor
  · rintro ⟨before, after, e | a, rfl, ha, hc⟩
    · have hthrow := (returns_throw (ε := ε) (α := β) e after b).1 hc
      exact hthrow.elim
    · exact ⟨before, after, a, rfl, ha, hc⟩
  · rintro ⟨before, after, a, rfl, ha, hc⟩
    exact ⟨before, after, .ok a, rfl, ha, hc⟩

@[simp] theorem asks_await {A : C → Type} (c c' : C)
    (past : List (Exchange C (fun c => Except ε (A c)))) :
    Asks (await (A := A) c) past c' ↔ past = [] ∧ c' = c := by
  refine (Program.asks_call c c' _ past).trans ?_
  simp

@[simp] theorem returns_await {A : C → Type} (c : C)
    (past : List (Exchange C (fun c => Except ε (A c)))) (a : A c) :
    Returns (await (A := A) c) past a ↔ past = [⟨c, Except.ok a⟩] := by
  refine (Program.returns_call c _ past _).trans ?_
  simp only [Program.returns_done]
  constructor
  · rintro ⟨r, rest, rfl, rfl, rfl⟩
    rfl
  · rintro rfl
    exact ⟨_, _, rfl, rfl, rfl⟩

@[simp] theorem asks_awaitMap {δ : Type} {A : C → Type} (f : δ → ε) (c c' : C)
    (past : List (Exchange C (fun c => Except δ (A c)))) :
    Asks (awaitMap (A := A) f c) past c' ↔ past = [] ∧ c' = c := by
  refine (Program.asks_call c c' _ past).trans ?_
  simp

@[simp] theorem returns_awaitMap {δ : Type} {A : C → Type} (f : δ → ε) (c : C)
    (past : List (Exchange C (fun c => Except δ (A c)))) (a : A c) :
    Returns (awaitMap (A := A) f c) past a ↔ past = [⟨c, Except.ok a⟩] := by
  refine (Program.returns_call c _ past _).trans ?_
  simp only [Program.returns_done]
  constructor
  · rintro ⟨r, rest, rfl, rfl, h⟩
    cases r with
    | error e => cases h
    | ok b =>
        cases h
        rfl
  · rintro rfl
    exact ⟨_, _, rfl, rfl, rfl⟩

@[simp] theorem asks_okOr (e : ε) (o : Option α) (past : List (Exchange C R)) (c : C) :
    Asks (okOr e o : ExceptT ε (Program C R) α) past c ↔ False := by
  cases o with
  | none => exact asks_throw e past c
  | some a => exact asks_pure a past c

@[simp] theorem returns_okOr (e : ε) (o : Option α) (past : List (Exchange C R)) (a : α) :
    Returns (okOr e o : ExceptT ε (Program C R) α) past a ↔ past = [] ∧ o = some a := by
  cases o with
  | none => simp [okOr]
  | some b => simp [okOr, eq_comm]

@[simp] theorem asks_ensure (p : Prop) [Decidable p] (e : ε) (past : List (Exchange C R))
    (c : C) : Asks (ensure p e : ExceptT ε (Program C R) Unit) past c ↔ False := by
  unfold ensure
  split <;> simp

@[simp] theorem returns_ensure (p : Prop) [Decidable p] (e : ε) (past : List (Exchange C R))
    (u : Unit) : Returns (ensure p e : ExceptT ε (Program C R) Unit) past u ↔ past = [] ∧ p := by
  unfold ensure
  split <;> simp_all

@[simp] theorem asks_ofExcept (x : Except ε α) (past : List (Exchange C R)) (c : C) :
    Asks (ofExcept x : ExceptT ε (Program C R) α) past c ↔ False :=
  Program.asks_done _ _ _

@[simp] theorem returns_ofExcept (x : Except ε α) (past : List (Exchange C R)) (a : α) :
    Returns (ofExcept x : ExceptT ε (Program C R) α) past a ↔ past = [] ∧ x = .ok a := by
  have h := Program.returns_done (C := C) (R := R) x (.ok a) past
  rw [eq_comm (a := Except.ok a)] at h
  exact h

/-! ### Failing -/

/-- Having exchanged `past`, the program fails with `e`. -/
def Fails (x : ExceptT ε (Program C R) α) (past : List (Exchange C R)) (e : ε) : Prop :=
  Program.Returns x.run past (.error e)

@[simp] theorem fails_pure (a : α) (past : List (Exchange C R)) (e : ε) :
    Fails (pure a : ExceptT ε (Program C R) α) past e ↔ False := by
  have h := Program.returns_done (C := C) (R := R) (Except.ok a : Except ε α) (.error e) past
  simp only [reduceCtorEq, and_false] at h
  exact h

@[simp] theorem fails_throw (e e' : ε) (past : List (Exchange C R)) :
    Fails (throw e : ExceptT ε (Program C R) α) past e' ↔ past = [] ∧ e' = e := by
  have h := Program.returns_done (C := C) (R := R) (Except.error e : Except ε α) (.error e') past
  rw [Except.error.injEq] at h
  exact h

@[simp] theorem fails_bind (x : ExceptT ε (Program C R) α) (f : α → ExceptT ε (Program C R) β)
    (past : List (Exchange C R)) (e : ε) :
    Fails (x >>= f) past e ↔ Fails x past e ∨
      ∃ before after a, past = before ++ after ∧ Returns x before a ∧ Fails (f a) after e := by
  refine (Program.returns_bind x.run _ past (Except.error e)).trans ?_
  constructor
  · rintro ⟨before, after, e' | a, rfl, ha, hc⟩
    · have hthrow := (fails_throw (α := β) e' e after).1 hc
      rw [hthrow.1, List.append_nil, hthrow.2]
      exact Or.inl ha
    · exact Or.inr ⟨before, after, a, rfl, ha, hc⟩
  · rintro (h | ⟨before, after, a, rfl, ha, hc⟩)
    · exact ⟨past, [], .error e, (List.append_nil _).symm, h, (fails_throw e e []).2 ⟨rfl, rfl⟩⟩
    · exact ⟨before, after, .ok a, rfl, ha, hc⟩

@[simp] theorem fails_await {A : C → Type} (c : C)
    (past : List (Exchange C (fun c => Except ε (A c)))) (e : ε) :
    Fails (await (A := A) c) past e ↔ past = [⟨c, Except.error e⟩] := by
  refine (Program.returns_call c _ past _).trans ?_
  simp only [Program.returns_done]
  constructor
  · rintro ⟨r, rest, rfl, rfl, rfl⟩
    rfl
  · rintro rfl
    exact ⟨_, _, rfl, rfl, rfl⟩

@[simp] theorem fails_okOr (e e' : ε) (o : Option α) (past : List (Exchange C R)) :
    Fails (okOr e o : ExceptT ε (Program C R) α) past e' ↔ past = [] ∧ o = none ∧ e' = e := by
  cases o with
  | none => simp [okOr]
  | some a => simp [okOr]

@[simp] theorem fails_ensure (p : Prop) [Decidable p] (e e' : ε) (past : List (Exchange C R)) :
    Fails (ensure p e : ExceptT ε (Program C R) Unit) past e' ↔ past = [] ∧ ¬ p ∧ e' = e := by
  unfold ensure
  split <;> simp_all

@[simp] theorem fails_ofExcept (x : Except ε α) (past : List (Exchange C R)) (e : ε) :
    Fails (ofExcept x : ExceptT ε (Program C R) α) past e ↔ past = [] ∧ x = .error e := by
  have h := Program.returns_done (C := C) (R := R) x (.error e) past
  rw [eq_comm (a := Except.error e)] at h
  exact h

/-! ### Going on after a failure -/

/-- Run `x` and go on with its result, also when it failed. -/
def attempt (x : ExceptT ε (Program C R) α) : ExceptT ε (Program C R) (Except ε α) :=
  ExceptT.lift x.run

theorem asks_attempt (x : ExceptT ε (Program C R) α) (past : List (Exchange C R)) (c : C) :
    Asks (attempt x) past c ↔ Asks x past c := by
  refine (Program.asks_bind x.run _ past c).trans ?_
  simp [Asks]

theorem returns_attempt (x : ExceptT ε (Program C R) α) (past : List (Exchange C R))
    (r : Except ε α) : Returns (attempt x) past r ↔ Program.Returns x.run past r := by
  refine (Program.returns_bind x.run _ past _).trans ?_
  constructor
  · rintro ⟨before, after, a, rfl, ha, hb⟩
    obtain ⟨rfl, hr⟩ := (Program.returns_done _ _ _).1 hb
    cases hr
    rwa [List.append_nil]
  · intro h
    exact ⟨past, [], r, (List.append_nil _).symm, h, (Program.returns_done _ _ _).2 ⟨rfl, rfl⟩⟩

/-! ### What had been exchanged before a failure

`FailsWithin ok x`: whenever `x` fails, all that it had exchanged is `ok`. A sequence that fails in
its second part had finished its first, hence `ReturnsWithin`. -/

section Within

variable {ok : Exchange C R → Prop}

def FailsWithin (ok : Exchange C R → Prop) (x : ExceptT ε (Program C R) α) : Prop :=
  ∀ past e, Fails x past e → ∀ y ∈ past, ok y

def ReturnsWithin (ok : Exchange C R → Prop) (x : ExceptT ε (Program C R) α) : Prop :=
  ∀ past a, Returns x past a → ∀ y ∈ past, ok y

theorem failsWithin_pure (a : α) : FailsWithin ok (pure a : ExceptT ε (Program C R) α) :=
  fun past e h => ((fails_pure a past e).1 h).elim

theorem failsWithin_okOr (e : ε) (o : Option α) :
    FailsWithin ok (okOr e o : ExceptT ε (Program C R) α) := by
  intro past e' h y hy
  obtain ⟨rfl, -⟩ := (fails_okOr e e' o past).1 h
  cases hy

theorem failsWithin_ensure (p : Prop) [Decidable p] (e : ε) :
    FailsWithin ok (ensure p e : ExceptT ε (Program C R) Unit) := by
  intro past e' h y hy
  obtain ⟨rfl, -⟩ := (fails_ensure p e e' past).1 h
  cases hy

theorem failsWithin_ofExcept (x : Except ε α) :
    FailsWithin ok (ofExcept x : ExceptT ε (Program C R) α) := by
  intro past e h y hy
  obtain ⟨rfl, -⟩ := (fails_ofExcept x past e).1 h
  cases hy

theorem returnsWithin_pure (a : α) : ReturnsWithin ok (pure a : ExceptT ε (Program C R) α) := by
  intro past b h y hy
  obtain ⟨rfl, -⟩ := (returns_pure a b past).1 h
  cases hy

theorem returnsWithin_okOr (e : ε) (o : Option α) :
    ReturnsWithin ok (okOr e o : ExceptT ε (Program C R) α) := by
  intro past a h y hy
  obtain ⟨rfl, -⟩ := (returns_okOr e o past a).1 h
  cases hy

theorem returnsWithin_ensure (p : Prop) [Decidable p] (e : ε) :
    ReturnsWithin ok (ensure p e : ExceptT ε (Program C R) Unit) := by
  intro past u h y hy
  obtain ⟨rfl, -⟩ := (returns_ensure p e past u).1 h
  cases hy

theorem returnsWithin_ofExcept (x : Except ε α) :
    ReturnsWithin ok (ofExcept x : ExceptT ε (Program C R) α) := by
  intro past a h y hy
  obtain ⟨rfl, -⟩ := (returns_ofExcept x past a).1 h
  cases hy

/-- All that `x` has exchanged when it finishes is `ok`. -/
structure Within (ok : Exchange C R → Prop) (x : ExceptT ε (Program C R) α) : Prop where
  fails : FailsWithin ok x
  returns : ReturnsWithin ok x

theorem within_okOr (e : ε) (o : Option α) :
    Within ok (okOr e o : ExceptT ε (Program C R) α) :=
  ⟨failsWithin_okOr e o, returnsWithin_okOr e o⟩

theorem within_ensure (p : Prop) [Decidable p] (e : ε) :
    Within ok (ensure p e : ExceptT ε (Program C R) Unit) :=
  ⟨failsWithin_ensure p e, returnsWithin_ensure p e⟩

theorem within_ofExcept (x : Except ε α) :
    Within ok (ofExcept x : ExceptT ε (Program C R) α) :=
  ⟨failsWithin_ofExcept x, returnsWithin_ofExcept x⟩

theorem failsWithin_bind {x : ExceptT ε (Program C R) α} {f : α → ExceptT ε (Program C R) β}
    (hx : Within ok x) (hf : ∀ a, FailsWithin ok (f a)) : FailsWithin ok (x >>= f) := by
  intro past e h y hy
  rcases (fails_bind x f past e).1 h with h | ⟨before, after, a, rfl, ha, h⟩
  · exact hx.fails past e h y hy
  · rcases List.mem_append.1 hy with hy | hy
    · exact hx.returns before a ha y hy
    · exact hf a after e h y hy

theorem returnsWithin_bind {x : ExceptT ε (Program C R) α} {f : α → ExceptT ε (Program C R) β}
    (hx : ReturnsWithin ok x) (hf : ∀ a, ReturnsWithin ok (f a)) : ReturnsWithin ok (x >>= f) := by
  intro past b h y hy
  obtain ⟨before, after, a, rfl, ha, hb⟩ := (returns_bind x f past b).1 h
  rcases List.mem_append.1 hy with hy | hy
  · exact hx before a ha y hy
  · exact hf a after b hb y hy

/-- After a last call nothing can fail. -/
theorem failsWithin_bind_pure {x : ExceptT ε (Program C R) α} (g : α → β)
    (hx : FailsWithin ok x) : FailsWithin ok (x >>= fun a => pure (g a)) := by
  intro past e h y hy
  rcases (fails_bind x _ past e).1 h with h | ⟨before, after, a, rfl, ha, h⟩
  · exact hx past e h y hy
  · exact ((fails_pure _ _ _).1 h).elim

theorem failsWithin_await {A : C → Type} {ok : Exchange C (fun c => Except ε (A c)) → Prop} {c : C}
    (h : ∀ e, ok ⟨c, .error e⟩) : FailsWithin ok (await (A := A) c) := by
  intro past e hfails y hy
  cases (fails_await c past e).1 hfails
  cases List.mem_singleton.1 hy
  exact h e

theorem returnsWithin_await {A : C → Type} {ok : Exchange C (fun c => Except ε (A c)) → Prop}
    {c : C} (h : ∀ a, ok ⟨c, .ok a⟩) : ReturnsWithin ok (await (A := A) c) := by
  intro past a hreturns y hy
  cases (returns_await c past a).1 hreturns
  cases List.mem_singleton.1 hy
  exact h a

end Within

/-! ### What a program may ask -/

/-- Whatever it is answered, `x` asks only calls that satisfy `P`. -/
def AsksOnly (P : C → Prop) (x : ExceptT ε (Program C R) α) : Prop :=
  ∀ past c, Asks x past c → P c

section AsksOnly

variable {P : C → Prop}

theorem asksOnly_pure (a : α) : AsksOnly P (pure a : ExceptT ε (Program C R) α) :=
  fun past c h => ((asks_pure a past c).1 h).elim

theorem asksOnly_throw (e : ε) : AsksOnly P (throw e : ExceptT ε (Program C R) α) :=
  fun past c h => ((asks_throw e past c).1 h).elim

theorem asksOnly_okOr (e : ε) (o : Option α) :
    AsksOnly P (okOr e o : ExceptT ε (Program C R) α) :=
  fun past c h => ((asks_okOr e o past c).1 h).elim

theorem asksOnly_ensure (p : Prop) [Decidable p] (e : ε) :
    AsksOnly P (ensure p e : ExceptT ε (Program C R) Unit) :=
  fun past c h => ((asks_ensure p e past c).1 h).elim

theorem asksOnly_bind {x : ExceptT ε (Program C R) α} {f : α → ExceptT ε (Program C R) β}
    (hx : AsksOnly P x) (hf : ∀ a, AsksOnly P (f a)) : AsksOnly P (x >>= f) := by
  intro past c h
  rcases (asks_bind x f past c).1 h with h | ⟨before, after, a, -, -, h⟩
  · exact hx past c h
  · exact hf a after c h

theorem asksOnly_await {A : C → Type} {c : C} (h : P c) : AsksOnly P (await (ε := ε) (A := A) c) := by
  intro past c' hasks
  obtain ⟨-, rfl⟩ := (asks_await c c' past).1 hasks
  exact h

/-- What has been exchanged was asked. -/
theorem asksOnly_awaitMap {δ : Type} {A : C → Type} (f : δ → ε) {c : C} (h : P c) :
    AsksOnly P (awaitMap (A := A) f c) := by
  intro past c' hasks
  rw [asks_awaitMap] at hasks
  rw [hasks.2]
  exact h

theorem asksOnly_ofExcept (x : Except ε α) :
    AsksOnly P (ofExcept x : ExceptT ε (Program C R) α) :=
  fun past c h => absurd h (by simp)

/-- What follows a value that is not there is not asked. -/
theorem asksOnly_bind_ofExcept {x : Except ε α} {f : α → ExceptT ε (Program C R) β}
    (hf : ∀ a, x = .ok a → AsksOnly P (f a)) : AsksOnly P (ofExcept x >>= f) := by
  intro past c h
  rcases (asks_bind _ f past c).1 h with h | ⟨before, after, a, -, hreturns, h⟩
  · exact asksOnly_ofExcept x past c h
  · exact hf a ((returns_ofExcept x before a).1 hreturns).2 after c h

theorem asksOnly_attempt {x : ExceptT ε (Program C R) α} (hx : AsksOnly P x) :
    AsksOnly P (attempt x) :=
  fun past c h => hx past c ((asks_attempt x past c).1 h)

theorem AsksOnly.of_mem {x : ExceptT ε (Program C R) α} (h : AsksOnly P x)
    {past : List (Exchange C R)} {q : Program C R (Except ε α)} (hafter : Program.After x.run past q)
    {y : Exchange C R} (hy : y ∈ past) : P y.call := by
  obtain ⟨before, hasks⟩ := Program.asked_of_after hafter hy
  exact h before y.call hasks

end AsksOnly

/-! ### Failing with an error of the object

`Relays bad x`: an error answer ends `x` with that error, and `x` has no other way to fail with
`bad`. So it fails with `bad` exactly when it has been answered `bad`. -/

section Relays

variable {A : C → Type}

/-- `Relays` for the program. -/
def RelaysRun (bad : ε) : Program C (fun c => Except ε (A c)) (Except ε α) → Prop
  | .done r => r ≠ .error bad
  | .call _ next =>
      (∀ e, next (.error e) = .done (.error e)) ∧ ∀ a, RelaysRun bad (next (.ok a))

def Relays (bad : ε) (x : ExceptT ε (Program C (fun c => Except ε (A c))) α) : Prop :=
  RelaysRun bad x.run

variable {bad : ε}

theorem relays_pure (a : α) :
    Relays bad (pure a : ExceptT ε (Program C (fun c => Except ε (A c))) α) := nofun

theorem relays_throw {e : ε} (h : e ≠ bad) :
    Relays bad (throw e : ExceptT ε (Program C (fun c => Except ε (A c))) α) :=
  fun heq => h (Except.error.inj heq)

theorem relays_okOr {e : ε} (h : e ≠ bad) (o : Option α) :
    Relays bad (okOr e o : ExceptT ε (Program C (fun c => Except ε (A c))) α) := by
  cases o with
  | none => exact relays_throw h
  | some a => exact relays_pure a

theorem relays_ensure {e : ε} (h : e ≠ bad) (p : Prop) [Decidable p] :
    Relays bad (ensure p e : ExceptT ε (Program C (fun c => Except ε (A c))) Unit) := by
  unfold ensure
  split
  · exact relays_pure ()
  · exact relays_throw h

theorem relays_ofExcept {x : Except ε α} (h : x ≠ .error bad) :
    Relays bad (ofExcept x : ExceptT ε (Program C (fun c => Except ε (A c))) α) := h

theorem relays_await (c : C) : Relays bad (await (ε := ε) (A := A) c) :=
  ⟨fun _ => rfl, fun _ => nofun⟩

theorem relays_bind {x : ExceptT ε (Program C (fun c => Except ε (A c))) α}
    {f : α → ExceptT ε (Program C (fun c => Except ε (A c))) β} (hx : Relays bad x)
    (hf : ∀ a, Relays bad (f a)) : Relays bad (x >>= f) := by
  unfold Relays at hx
  change RelaysRun bad (Program.bind x.run _)
  generalize x.run = p at hx
  induction p with
  | done r =>
      cases r with
      | error e => exact fun heq => hx (congrArg Except.error (Except.error.inj heq))
      | ok a => exact hf a
  | call c next ih =>
      refine ⟨fun e => ?_, fun a => ih _ (hx.2 a)⟩
      change (next (.error e)).bind _ = _
      rw [hx.1 e]
      rfl

/-- **Having been answered `bad`, the program has failed with it**, and not otherwise. -/
theorem RelaysRun.answered_iff {p q : Program C (fun c => Except ε (A c)) (Except ε α)}
    {past : List (Exchange C (fun c => Except ε (A c)))} (h : RelaysRun bad p)
    (hafter : Program.After p past q) :
    (∃ c, (⟨c, .error bad⟩ : Exchange C (fun c => Except ε (A c))) ∈ past) ↔
      q = .done (.error bad) := by
  induction hafter with
  | nil p =>
      constructor
      · rintro ⟨c, hc⟩
        cases hc
      · rintro rfl
        exact absurd rfl h
  | @cons c next r past q rest ih =>
      cases r with
      | error e =>
          rw [h.1 e] at rest
          obtain ⟨rfl, rfl⟩ := Program.after_done.1 rest
          constructor
          · rintro ⟨c', hc'⟩
            cases List.mem_singleton.1 hc'
            rfl
          · intro heq
            cases heq
            exact ⟨c, List.mem_cons_self⟩
      | ok a =>
          rw [← ih (h.2 a)]
          constructor
          · rintro ⟨c', hc'⟩
            rcases List.mem_cons.1 hc' with heq | hc'
            · cases heq
            · exact ⟨c', hc'⟩
          · rintro ⟨c', hc'⟩
            exact ⟨c', List.mem_cons_of_mem _ hc'⟩

end Relays

/-! ### Failing with an error of the object, given its answers

`Blames bad ok x`: if all that it exchanged is `ok`, then `x` fails with `bad` only when it has been
answered `bad`. Unlike `Relays`, this may depend on what the object answers. -/

section Blames

variable {A : C → Type}

variable {bad : ε} {ok : Exchange C (fun c => Except ε (A c)) → Prop}

end Blames

/-! ### Running alone -/

section Exec

variable {σ : Type} (perform : (c : C) → σ → R c × σ)

/-- Run a program alone, every call performed at once. -/
def exec (x : ExceptT ε (Program C R) α) (s : σ) : Except ε α × σ :=
  x.run.run perform s

theorem exec_attempt (x : ExceptT ε (Program C R) α) (s : σ) :
    exec perform (attempt x) s = (.ok (exec perform x s).1, (exec perform x s).2) :=
  Program.run_bind perform x.run _ s

theorem exec_awaitMap {δ : Type} {A : C → Type} (f : δ → ε)
    (perform : (c : C) → σ → Except δ (A c) × σ) (c : C) (s : σ) :
    exec perform (awaitMap f c) s = ((perform c s).1.mapError f, (perform c s).2) := rfl

theorem exec_bind (x : ExceptT ε (Program C R) α) (f : α → ExceptT ε (Program C R) β) (s : σ) :
    exec perform (x >>= f) s = match exec perform x s with
      | (.ok a, s') => exec perform (f a) s'
      | (.error e, s') => (.error e, s') := by
  have h := Program.run_bind perform x.run
    (fun r => match r with
      | .ok a => (f a).run
      | .error e => .done (.error e)) s
  refine Eq.trans ?_ (h.trans ?_)
  · rfl
  · unfold exec
    rcases Program.run perform x.run s with ⟨e | a, s'⟩ <;> rfl

variable {perform} {s s' : σ}

theorem exec_bind_ok {x : ExceptT ε (Program C R) α} {a : α}
    (h : exec perform x s = (.ok a, s')) (f : α → ExceptT ε (Program C R) β) :
    exec perform (x >>= f) s = exec perform (f a) s' := by
  rw [exec_bind, h]

theorem exec_bind_error {x : ExceptT ε (Program C R) α} {e : ε}
    (h : exec perform x s = (.error e, s')) (f : α → ExceptT ε (Program C R) β) :
    exec perform (x >>= f) s = (.error e, s') := by
  rw [exec_bind, h]

theorem exec_okOr_some (e : ε) {o : Option α} {a : α} (h : o = some a) :
    exec perform (okOr e o) s = (.ok a, s) := by
  rw [h]
  rfl

theorem exec_okOr_none (e : ε) {o : Option α} (h : o = none) :
    exec perform (okOr e o) s = (.error e, s) := by
  rw [h]
  rfl

theorem exec_ensure_true {p : Prop} [Decidable p] (e : ε) (h : p) :
    exec perform (ensure p e) s = (.ok (), s) := by
  rw [ensure, if_pos h]
  rfl

theorem exec_ensure_false {p : Prop} [Decidable p] (e : ε) (h : ¬ p) :
    exec perform (ensure p e) s = (.error e, s) := by
  rw [ensure, if_neg h]
  rfl

end Exec

end Fallible

end RsConsole.Library
