import Mathlib.Data.Option.Basic
import Mathlib.Logic.Basic

set_option autoImplicit false

/-! # Transactions over a database state

A statement is a function `σ → Except δ (α × σ)`: on an error it has no effect. `Tx ε σ α` is code
that executes statements on a connection. The connection may be lost at any round trip (`Conn.left`
counts the ones that still succeed), and every error ends the code that met it.

`transaction body` begins, executes `body` and commits; when `body` or the commit fails, the
transaction is dropped and the database rolls it back.

`Yields x s r s'` says that `x` can take the state `s` to `s'` with result `r`, for some point at
which the connection is lost (or none). The rules below decompose it, and `Keeps` is the invariant
rule: a preorder that every statement keeps is kept by every composition of them. `FailsAs e x` says
that `x` has no other error than `e`, and `Lasts x Q s` what `x` comes to when the connection is not
lost. -/

namespace RsConsole.Library

/-- A sequence of two steps succeeds when both do. -/
theorem except_bind_ok {ε α β : Type} {x : Except ε α} {f : α → Except ε β} {b : β}
    (h : (x >>= f) = .ok b) : ∃ a, x = .ok a ∧ f a = .ok b := by
  cases x with
  | error e => cases h
  | ok a => exact ⟨a, rfl, h⟩

/-- A sequence of two steps fails when one of them does. -/
theorem except_bind_error {ε α β : Type} {x : Except ε α} {f : α → Except ε β} {e : ε}
    (h : (x >>= f) = .error e) : x = .error e ∨ ∃ a, x = .ok a ∧ f a = .error e := by
  cases x with
  | error e' =>
      cases h
      exact Or.inl rfl
  | ok a => exact Or.inr ⟨a, rfl, h⟩

/-- A database state and the number of round trips that still succeed (`none`: all). -/
structure Conn (σ : Type) where
  state : σ
  left : Option Nat

/-- Code on a connection that fails with `ε`. -/
def Tx (ε σ α : Type) : Type := Conn σ → Except ε α × Conn σ

namespace Tx

variable {ε σ α β δ : Type}

instance : Monad (Tx ε σ) where
  pure a := fun c => (.ok a, c)
  bind x f := fun c =>
    match x c with
    | (.ok a, c') => f a c'
    | (.error e, c') => (.error e, c')

/-- Return early with an error. -/
def fail (e : ε) : Tx ε σ α := fun c => (.error e, c)

/-- The value of an option, or the given error: Rust's `ok_or(e)?`. -/
def okOr (e : ε) : Option α → Tx ε σ α
  | some a => pure a
  | none => fail e

/-- Stop with the given error unless the condition holds. -/
def ensure (p : Prop) [Decidable p] (e : ε) : Tx ε σ Unit :=
  if p then pure () else fail e

/-- A result computed without the database. -/
def ofExcept (x : Except ε α) : Tx ε σ α := fun c => (x, c)

/-- One round trip to the database, unless the connection is lost. -/
def roundTrip (lost : ε) : Tx ε σ Unit := fun c =>
  match c.left with
  | some 0 => (.error lost, c)
  | left => (.ok (), { c with left := left.map (· - 1) })

/-- Execute a statement; `onError` maps the database's error. -/
def exec (lost : ε) (onError : δ → ε) (stmt : σ → Except δ (α × σ)) : Tx ε σ α := do
  roundTrip lost
  fun c =>
    match stmt c.state with
    | .ok (a, s) => (.ok a, { c with state := s })
    | .error d => (.error (onError d), c)

/-- Undo the effect of code that fails. -/
def rollback (x : Tx ε σ α) : Tx ε σ α := fun c =>
  match x c with
  | (.ok a, c') => (.ok a, c')
  | (.error e, c') => (.error e, { c' with state := c.state })

/-- Begin, execute the body, commit; roll back on any error. -/
def transaction (lost : ε) (body : Tx ε σ α) : Tx ε σ α := do
  roundTrip lost
  rollback do
    let a ← body
    roundTrip lost
    pure a

/-- `x` can take the state `s` to `s'` with result `r`. -/
def Yields (x : Tx ε σ α) (s : σ) (r : Except ε α) (s' : σ) : Prop :=
  ∃ left left', x ⟨s, left⟩ = (r, ⟨s', left'⟩)

/-! ## Decomposition rules -/

theorem result_inj {r₀ r : Except ε α} {c : Conn σ} {s' : σ} {left' : Option Nat}
    (h : (r₀, c) = (r, ⟨s', left'⟩)) : r = r₀ ∧ s' = c.state := by
  cases h
  exact ⟨rfl, rfl⟩

theorem yields_pure {a : α} {s s' : σ} {r : Except ε α} (h : Yields (pure a) s r s') :
    r = .ok a ∧ s' = s := by
  obtain ⟨left, left', h⟩ := h
  exact result_inj h

theorem yields_fail {e : ε} {s s' : σ} {r : Except ε α} (h : Yields (fail e) s r s') :
    r = .error e ∧ s' = s := by
  obtain ⟨left, left', h⟩ := h
  exact result_inj h

theorem yields_ofExcept {x : Except ε α} {s s' : σ} {r : Except ε α}
    (h : Yields (ofExcept x) s r s') : r = x ∧ s' = s := by
  obtain ⟨left, left', h⟩ := h
  exact result_inj h

/-- A sequence fails in its first part, or goes on to its second. -/
theorem yields_bind {x : Tx ε σ α} {f : α → Tx ε σ β} {s s' : σ} {r : Except ε β}
    (h : Yields (x >>= f) s r s') :
    (∃ e, r = .error e ∧ Yields x s (.error e) s') ∨
      ∃ a s₁, Yields x s (.ok a) s₁ ∧ Yields (f a) s₁ r s' := by
  obtain ⟨left, left', h⟩ := h
  change (match x ⟨s, left⟩ with
    | (.ok a, c') => f a c'
    | (.error e, c') => (.error e, c')) = _ at h
  rcases hx : x ⟨s, left⟩ with ⟨e | a, c⟩
  · rw [hx] at h
    obtain ⟨rfl, rfl⟩ := Prod.mk.inj h
    exact Or.inl ⟨e, rfl, left, left', hx⟩
  · rw [hx] at h
    exact Or.inr ⟨a, c.state, ⟨left, c.left, hx⟩, c.left, left', h⟩

theorem yields_bind_ok {x : Tx ε σ α} {f : α → Tx ε σ β} {s s' : σ} {b : β}
    (h : Yields (x >>= f) s (.ok b) s') :
    ∃ a s₁, Yields x s (.ok a) s₁ ∧ Yields (f a) s₁ (.ok b) s' := by
  rcases yields_bind h with ⟨e, h, -⟩ | h
  · cases h
  · exact h

theorem yields_okOr {e : ε} {o : Option α} {s s' : σ} {a : α}
    (h : Yields (okOr e o) s (.ok a) s') : o = some a ∧ s' = s := by
  cases o with
  | none => cases (yields_fail h).1
  | some b =>
      obtain ⟨hb, rfl⟩ := yields_pure h
      cases hb
      exact ⟨rfl, rfl⟩

theorem yields_ensure {p : Prop} [Decidable p] {e : ε} {s s' : σ} {u : Unit}
    (h : Yields (ensure p e) s (.ok u) s') : p ∧ s' = s := by
  unfold ensure at h
  split at h
  · next hp => exact ⟨hp, (yields_pure h).2⟩
  · cases (yields_fail h).1

theorem yields_roundTrip {lost : ε} {s s' : σ} {r : Except ε Unit}
    (h : Yields (roundTrip lost) s r s') : (r = .error lost ∨ r = .ok ()) ∧ s' = s := by
  obtain ⟨left, left', h⟩ := h
  unfold roundTrip at h
  split at h
  · exact ⟨Or.inl (result_inj h).1, (result_inj h).2⟩
  · exact ⟨Or.inr (result_inj h).1, (result_inj h).2⟩

/-- A statement is performed, or it fails and has no effect. -/
theorem yields_exec {lost : ε} {onError : δ → ε} {stmt : σ → Except δ (α × σ)} {s s' : σ}
    {r : Except ε α} (h : Yields (exec lost onError stmt) s r s') :
    (∃ a, r = .ok a ∧ stmt s = .ok (a, s')) ∨
      (s' = s ∧ (r = .error lost ∨ ∃ d, stmt s = .error d ∧ r = .error (onError d))) := by
  unfold exec at h
  rcases yields_bind h with ⟨e, hr, hround⟩ | ⟨u, s₁, hround, left, left', hstmt⟩
  · obtain ⟨he | he, rfl⟩ := yields_roundTrip hround
    · cases he
      exact Or.inr ⟨rfl, Or.inl hr⟩
    · cases he
  · obtain ⟨-, rfl⟩ := yields_roundTrip hround
    rcases hs : stmt s₁ with d | ⟨a, s₂⟩
    · simp only [hs] at hstmt
      obtain ⟨rfl, rfl⟩ := result_inj hstmt
      exact Or.inr ⟨rfl, Or.inr ⟨d, rfl, rfl⟩⟩
    · simp only [hs] at hstmt
      obtain ⟨rfl, rfl⟩ := result_inj hstmt
      exact Or.inl ⟨a, rfl, rfl⟩

theorem yields_exec_ok {lost : ε} {onError : δ → ε} {stmt : σ → Except δ (α × σ)} {s s' : σ}
    {a : α} (h : Yields (exec lost onError stmt) s (.ok a) s') : stmt s = .ok (a, s') := by
  rcases yields_exec h with ⟨b, hb, h⟩ | ⟨-, h | ⟨d, -, h⟩⟩
  · cases hb
    exact h
  · cases h
  · cases h

theorem yields_exec_error {lost : ε} {onError : δ → ε} {stmt : σ → Except δ (α × σ)} {s s' : σ}
    {e : ε} (h : Yields (exec lost onError stmt) s (.error e) s') : s' = s := by
  rcases yields_exec h with ⟨b, hb, -⟩ | ⟨h, -⟩
  · cases hb
  · exact h

theorem yields_rollback {x : Tx ε σ α} {s s' : σ} {r : Except ε α}
    (h : Yields (rollback x) s r s') :
    (∃ a, r = .ok a ∧ Yields x s (.ok a) s') ∨
      ∃ e s₁, r = .error e ∧ s' = s ∧ Yields x s (.error e) s₁ := by
  obtain ⟨left, left', h⟩ := h
  unfold rollback at h
  rcases hx : x ⟨s, left⟩ with ⟨e | a, c⟩
  · simp only [hx] at h
    obtain ⟨rfl, rfl⟩ := result_inj h
    exact Or.inr ⟨e, c.state, rfl, rfl, left, c.left, hx⟩
  · simp only [hx] at h
    obtain ⟨rfl, rfl⟩ := result_inj h
    exact Or.inl ⟨a, rfl, left, c.left, hx⟩

/-- **A committed transaction performed its body.** -/
theorem yields_transaction_ok {lost : ε} {body : Tx ε σ α} {s s' : σ} {a : α}
    (h : Yields (transaction lost body) s (.ok a) s') : Yields body s (.ok a) s' := by
  unfold transaction at h
  obtain ⟨u, s₁, hbegin, hrun⟩ := yields_bind_ok h
  obtain ⟨-, rfl⟩ := yields_roundTrip hbegin
  rcases yields_rollback hrun with ⟨b, hb, hall⟩ | ⟨e, s₂, he, -⟩
  · cases hb
    obtain ⟨b, s₂, hbody, hrest⟩ := yields_bind_ok hall
    obtain ⟨u, s₃, hcommit, hpure⟩ := yields_bind_ok hrest
    obtain ⟨-, rfl⟩ := yields_roundTrip hcommit
    obtain ⟨hb, rfl⟩ := yields_pure hpure
    cases hb
    exact hbody
  · cases he

/-- **A failed transaction has no effect**, whatever its body had executed before it failed. -/
theorem yields_transaction_error {lost : ε} {body : Tx ε σ α} {s s' : σ} {e : ε}
    (h : Yields (transaction lost body) s (.error e) s') : s' = s := by
  unfold transaction at h
  rcases yields_bind h with ⟨e', -, hbegin⟩ | ⟨u, s₁, hbegin, hrun⟩
  · exact (yields_roundTrip hbegin).2
  · obtain ⟨-, rfl⟩ := yields_roundTrip hbegin
    rcases yields_rollback hrun with ⟨b, hb, -⟩ | ⟨e', s₂, -, hs, -⟩
    · cases hb
    · exact hs

/-! ## On a connection that lasts -/

theorem bind_of_ok {x : Tx ε σ α} {c c' : Conn σ} {a : α} (h : x c = (.ok a, c'))
    (f : α → Tx ε σ β) : (x >>= f) c = f a c' := by
  change (match x c with
    | (.ok a, c') => f a c'
    | (.error e, c') => (.error e, c')) = _
  rw [h]

theorem bind_of_error {x : Tx ε σ α} {c c' : Conn σ} {e : ε} (h : x c = (.error e, c'))
    (f : α → Tx ε σ β) : (x >>= f) c = (.error e, c') := by
  change (match x c with
    | (.ok a, c') => f a c'
    | (.error e, c') => (.error e, c')) = _
  rw [h]

theorem roundTrip_none (lost : ε) (s : σ) : roundTrip lost ⟨s, none⟩ = (.ok (), ⟨s, none⟩) := rfl

theorem exec_of_ok {lost : ε} {onError : δ → ε} {stmt : σ → Except δ (α × σ)} {s s' : σ} {a : α}
    (h : stmt s = .ok (a, s')) : exec lost onError stmt ⟨s, none⟩ = (.ok a, ⟨s', none⟩) := by
  refine (bind_of_ok (roundTrip_none lost s) _).trans ?_
  simp only [h]

theorem exec_of_error {lost : ε} {onError : δ → ε} {stmt : σ → Except δ (α × σ)} {s : σ} {d : δ}
    (h : stmt s = .error d) : exec lost onError stmt ⟨s, none⟩ = (.error (onError d), ⟨s, none⟩) := by
  refine (bind_of_ok (roundTrip_none lost s) _).trans ?_
  simp only [h]

theorem transaction_of_ok {lost : ε} {body : Tx ε σ α} {s s' : σ} {a : α}
    (h : body ⟨s, none⟩ = (.ok a, ⟨s', none⟩)) :
    transaction lost body ⟨s, none⟩ = (.ok a, ⟨s', none⟩) := by
  have hall : (do
      let a ← body
      roundTrip lost
      pure a : Tx ε σ α) ⟨s, none⟩ = (.ok a, ⟨s', none⟩) :=
    (bind_of_ok h _).trans rfl
  refine (bind_of_ok (roundTrip_none lost s) _).trans ?_
  unfold rollback
  rw [hall]

theorem transaction_of_error {lost : ε} {body : Tx ε σ α} {s s' : σ} {e : ε}
    (h : body ⟨s, none⟩ = (.error e, ⟨s', none⟩)) :
    transaction lost body ⟨s, none⟩ = (.error e, ⟨s, none⟩) := by
  have hall : (do
      let a ← body
      roundTrip lost
      pure a : Tx ε σ α) ⟨s, none⟩ = (.error e, ⟨s', none⟩) :=
    bind_of_error h _
  refine (bind_of_ok (roundTrip_none lost s) _).trans ?_
  unfold rollback
  rw [hall]

/-! ### What code comes to

`Lasts x Q s`: on a connection that lasts, `x` comes from the state `s` to a result and a state that
satisfy `Q`. The rules follow the code from its first statement. -/

def Lasts (x : Tx ε σ α) (Q : Except ε α → σ → Prop) (s : σ) : Prop :=
  ∃ r s', x ⟨s, none⟩ = (r, ⟨s', none⟩) ∧ Q r s'

/-- `Q` after `f`, or at once after an error. -/
def OrError (f : α → σ → Prop) (Q : ε → σ → Prop) : Except ε α → σ → Prop
  | .ok a, s => f a s
  | .error e, s => Q e s

section Lasts

variable {Q : Except ε α → σ → Prop} {s : σ}

theorem lasts_pure {a : α} (h : Q (.ok a) s) : Lasts (pure a) Q s := ⟨_, s, rfl, h⟩

theorem lasts_fail {e : ε} (h : Q (.error e) s) : Lasts (fail e) Q s := ⟨_, s, rfl, h⟩

theorem lasts_ofExcept {x : Except ε α} (h : Q x s) : Lasts (ofExcept x) Q s := ⟨x, s, rfl, h⟩

theorem lasts_okOr {e : ε} {o : Option α} (hsome : ∀ a, o = some a → Q (.ok a) s)
    (hnone : o = none → Q (.error e) s) : Lasts (okOr e o) Q s := by
  cases o with
  | none => exact lasts_fail (hnone rfl)
  | some a => exact lasts_pure (hsome a rfl)

theorem lasts_ensure {p : Prop} [Decidable p] {e : ε} {Q : Except ε Unit → σ → Prop}
    (htrue : p → Q (.ok ()) s) (hfalse : ¬ p → Q (.error e) s) : Lasts (ensure p e) Q s := by
  unfold ensure
  split
  · next hp => exact lasts_pure (htrue hp)
  · next hp => exact lasts_fail (hfalse hp)

theorem lasts_bind {x : Tx ε σ β} {f : β → Tx ε σ α}
    (h : Lasts x (OrError (fun b => Lasts (f b) Q) (fun e => Q (.error e))) s) :
    Lasts (x >>= f) Q s := by
  obtain ⟨r, s', hx, hr⟩ := h
  cases r with
  | error e => exact ⟨_, s', bind_of_error hx f, hr⟩
  | ok b =>
      obtain ⟨r', s'', hf, hq⟩ := hr
      exact ⟨r', s'', (bind_of_ok hx f).trans hf, hq⟩

theorem lasts_exec {lost : ε} {onError : δ → ε} {stmt : σ → Except δ (α × σ)}
    (hok : ∀ a s', stmt s = .ok (a, s') → Q (.ok a) s')
    (herror : ∀ d, stmt s = .error d → Q (.error (onError d)) s) :
    Lasts (exec lost onError stmt) Q s := by
  cases hstmt : stmt s with
  | ok out => exact ⟨_, out.2, exec_of_ok hstmt, hok out.1 out.2 hstmt⟩
  | error d => exact ⟨_, s, exec_of_error hstmt, herror d hstmt⟩

theorem lasts_exec_of_ok {lost : ε} {onError : δ → ε} {stmt : σ → Except δ (α × σ)} {a : α} {s' : σ}
    (h : stmt s = .ok (a, s')) (hq : Q (.ok a) s') : Lasts (exec lost onError stmt) Q s :=
  ⟨_, s', exec_of_ok h, hq⟩

theorem lasts_exec_of_error {lost : ε} {onError : δ → ε} {stmt : σ → Except δ (α × σ)} {d : δ}
    (h : stmt s = .error d) (hq : Q (.error (onError d)) s) : Lasts (exec lost onError stmt) Q s :=
  ⟨_, s, exec_of_error h, hq⟩

/-- A failed transaction ends in the state it began in. -/
theorem lasts_transaction {lost : ε} {body : Tx ε σ α}
    (h : Lasts body (OrError (fun a => Q (.ok a)) (fun e _ => Q (.error e) s)) s) :
    Lasts (transaction lost body) Q s := by
  obtain ⟨r, s', hbody, hr⟩ := h
  cases r with
  | ok a => exact ⟨_, s', transaction_of_ok hbody, hr⟩
  | error e => exact ⟨_, s, transaction_of_error hbody, hr⟩

end Lasts

/-! ## Preorders that every statement keeps -/

/-- Whatever the code does, it relates the state before it to the state after it. -/
def Keeps (rel : σ → σ → Prop) (x : Tx ε σ α) : Prop :=
  ∀ s r s', Yields x s r s' → rel s s'

section Keeps

variable {rel : σ → σ → Prop} (hrefl : ∀ s, rel s s)
  (htrans : ∀ {a b c}, rel a b → rel b c → rel a c)

include hrefl in
theorem keeps_pure (a : α) : Keeps rel (pure a : Tx ε σ α) := by
  intro s r s' h
  rw [(yields_pure h).2]
  exact hrefl s

include hrefl in
theorem keeps_okOr (e : ε) (o : Option α) : Keeps rel (okOr e o : Tx ε σ α) := by
  cases o with
  | none =>
      intro s r s' h
      rw [(yields_fail h).2]
      exact hrefl s
  | some a => exact keeps_pure hrefl a

include hrefl in
theorem keeps_ensure (p : Prop) [Decidable p] (e : ε) : Keeps rel (ensure p e : Tx ε σ Unit) := by
  unfold ensure
  split
  · exact keeps_pure hrefl ()
  · intro s r s' h
    rw [(yields_fail h).2]
    exact hrefl s

include hrefl in
theorem keeps_ofExcept (x : Except ε α) : Keeps rel (ofExcept x : Tx ε σ α) := by
  intro s r s' h
  rw [(yields_ofExcept h).2]
  exact hrefl s

include htrans in
theorem keeps_bind {x : Tx ε σ α} {f : α → Tx ε σ β} (hx : Keeps rel x)
    (hf : ∀ a, Keeps rel (f a)) : Keeps rel (x >>= f) := by
  intro s r s' h
  rcases yields_bind h with ⟨e, -, h⟩ | ⟨a, s₁, h₁, h₂⟩
  · exact hx _ _ _ h
  · exact htrans (hx _ _ _ h₁) (hf a _ _ _ h₂)

include hrefl in
theorem keeps_exec {lost : ε} {onError : δ → ε} {stmt : σ → Except δ (α × σ)}
    (hstmt : ∀ s a s', stmt s = .ok (a, s') → rel s s') :
    Keeps rel (exec lost onError stmt) := by
  intro s r s' h
  rcases yields_exec h with ⟨a, -, h⟩ | ⟨rfl, -⟩
  · exact hstmt _ _ _ h
  · exact hrefl _

include hrefl in
theorem keeps_transaction {lost : ε} {body : Tx ε σ α} (hbody : Keeps rel body) :
    Keeps rel (transaction lost body) := by
  intro s r s' h
  cases r with
  | error e =>
      rw [yields_transaction_error h]
      exact hrefl s
  | ok a => exact hbody _ _ _ (yields_transaction_ok h)

end Keeps

/-! ## Code with one error -/

/-- The only error of the code is `e`. -/
def FailsAs (e : ε) (x : Tx ε σ α) : Prop :=
  ∀ s e' s', Yields x s (.error e') s' → e' = e

section FailsAs

variable {e : ε}

theorem failsAs_pure (a : α) : FailsAs e (pure a : Tx ε σ α) := by
  intro s e' s' h
  cases (yields_pure h).1

theorem failsAs_ofExcept {x : Except ε α} (h : ∀ e', x = .error e' → e' = e) :
    FailsAs e (ofExcept x : Tx ε σ α) := by
  intro s e' s' hyields
  exact h e' (yields_ofExcept hyields).1.symm

theorem failsAs_bind {x : Tx ε σ α} {f : α → Tx ε σ β} (hx : FailsAs e x)
    (hf : ∀ a, FailsAs e (f a)) : FailsAs e (x >>= f) := by
  intro s e' s' h
  rcases yields_bind h with ⟨e₀, he, h⟩ | ⟨a, s₁, -, h⟩
  · cases he
    exact hx _ _ _ h
  · exact hf a _ _ _ h

theorem failsAs_exec {onError : δ → ε} {stmt : σ → Except δ (α × σ)} (h : ∀ d, onError d = e) :
    FailsAs e (exec e onError stmt) := by
  intro s e' s' hyields
  rcases yields_exec hyields with ⟨a, ha, -⟩ | ⟨-, hlost | ⟨d, -, hd⟩⟩
  · cases ha
  · cases hlost
    rfl
  · cases hd
    exact h d

theorem failsAs_transaction {body : Tx ε σ α} (hbody : FailsAs e body) :
    FailsAs e (transaction e body) := by
  have hround : FailsAs e (roundTrip e : Tx ε σ Unit) := by
    intro s e' s' h
    rcases (yields_roundTrip h).1 with hlost | hok
    · cases hlost
      rfl
    · cases hok
  have hcommitted : FailsAs e (body >>= fun a => roundTrip e >>= fun _ => pure a) :=
    failsAs_bind hbody fun a => failsAs_bind hround fun _ => failsAs_pure a
  refine failsAs_bind hround fun _ s e' s' h => ?_
  rcases yields_rollback h with ⟨a, ha, -⟩ | ⟨e₀, s₁, he, -, h⟩
  · cases ha
  · cases he
    exact hcommitted _ _ _ h

end FailsAs

end Tx

end RsConsole.Library
