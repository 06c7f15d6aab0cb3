import RsConsole.Library.Interleaving

set_option autoImplicit false

/-! # Transactions that interleave statement by statement

A database server under READ COMMITTED with one advisory lock. A statement sees what is committed
when it is executed, and the writes of its own transaction; it yields an answer and a change, which
is added to the transaction's pending writes. The lock is held until the transaction ends. A commit
applies the pending writes to what is committed then; a rollback drops them. A connection can be
lost at any call, also at a commit that took effect, and the server may end the transaction of a
lost connection.

There are no row locks: a statement that has to wait for a row, or for a key that another
transaction has inserted, is one that is executed when the wait is over.

The rules are about transactions that have not ended (`Open`): what one has pending was built by
its statements (`pending_built`), and it holds the lock since it took it (`holder_of_locked`). What
is committed changes only when a transaction commits (`Effect.committed_cases`). -/

namespace RsConsole.Library

/-- What a client asks on its connection; `K` are the statements. -/
inductive Request (K : Type) where
  | begin
  | lock
  | execute (k : K)
  | commit
  | rollback

namespace Request

variable {K : Type}

/-- The request ends the transaction. -/
def ends : Request K → Bool
  | commit => true
  | rollback => true
  | _ => false

abbrev Reply (A : K → Type) : Request K → Type
  | execute k => A k
  | _ => Unit

end Request

namespace Isolation

variable {τ K σ ε δ : Type} {A : K → Type}

/-- A request of the client `client`. -/
structure Call (τ K : Type) where
  client : τ
  request : Request K

abbrev Answer (ε : Type) (A : K → Type) (c : Call τ K) : Type := Except ε (c.request.Reply A)

/-- What is committed, what every client's transaction has pending, and who holds the lock. -/
structure Server (τ σ : Type) where
  committed : σ
  pending : τ → σ → σ
  holder : Option τ

/-- No transaction is open. -/
def Server.idle (committed : σ) : Server τ σ := ⟨committed, fun _ => id, none⟩

/-- What the statements of client `t` see. -/
def Server.view (s : Server τ σ) (t : τ) : σ := s.pending t s.committed

section

variable [DecidableEq τ]

/-- The transaction of client `t` has ended. -/
def Server.ended (s : Server τ σ) (t : τ) (committed : σ) : Server τ σ where
  committed
  pending := Function.update s.pending t id
  holder := if s.holder = some t then none else s.holder

/-- Client `t` executed a statement that makes the change `delta`. -/
def Server.executed (s : Server τ σ) (t : τ) (delta : σ → σ) : Server τ σ :=
  { s with pending := Function.update s.pending t (delta ∘ s.pending t) }

variable (run : (k : K) → σ → Except δ (A k × (σ → σ))) (onError : K → δ → ε) (lost : ε)

/-- What the server may do with a call. -/
inductive Effect : (c : Call τ K) → Server τ σ → Answer ε A c → Server τ σ → Prop
  | begin (t : τ) (s : Server τ σ) : Effect ⟨t, .begin⟩ s (.ok ()) s
  | lock (t : τ) (s : Server τ σ) (free : s.holder = none ∨ s.holder = some t) :
      Effect ⟨t, .lock⟩ s (.ok ()) { s with holder := some t }
  | execute (t : τ) (k : K) (s : Server τ σ) (a : A k) (delta : σ → σ)
      (result : run k (s.view t) = .ok (a, delta)) :
      Effect ⟨t, .execute k⟩ s (.ok a) (s.executed t delta)
  | refused (t : τ) (k : K) (s : Server τ σ) (d : δ) (result : run k (s.view t) = .error d) :
      Effect ⟨t, .execute k⟩ s (.error (onError k d)) s
  | commit (t : τ) (s : Server τ σ) : Effect ⟨t, .commit⟩ s (.ok ()) (s.ended t (s.view t))
  | unconfirmed (t : τ) (s : Server τ σ) :
      Effect ⟨t, .commit⟩ s (.error lost) (s.ended t (s.view t))
  | rollback (t : τ) (s : Server τ σ) : Effect ⟨t, .rollback⟩ s (.ok ()) (s.ended t s.committed)
  | lost (c : Call τ K) (s : Server τ σ) : Effect c s (.error lost) s
  | dropped (c : Call τ K) (s : Server τ σ) :
      Effect c s (.error lost) (s.ended c.client s.committed)

/-- A server that loses a connection only where a client would have to wait for the lock. -/
def serve (t : τ) : (r : Request K) → Server τ σ → Except ε (r.Reply A) × Server τ σ
  | .begin, s => (.ok (), s)
  | .lock, s =>
      if s.holder = none ∨ s.holder = some t then (.ok (), { s with holder := some t })
      else (.error lost, s)
  | .execute k, s =>
      match run k (s.view t) with
      | .ok (a, delta) => (.ok a, s.executed t delta)
      | .error d => (.error (onError k d), s)
  | .commit, s => (.ok (), s.ended t (s.view t))
  | .rollback, s => (.ok (), s.ended t s.committed)

def perform (c : Call τ K) (s : Server τ σ) : Answer ε A c × Server τ σ :=
  serve run onError lost c.client c.request s

theorem effect_perform (c : Call τ K) (s : Server τ σ) :
    Effect run onError lost c s (perform run onError lost c s).1 (perform run onError lost c s).2 := by
  obtain ⟨t, request⟩ := c
  cases request with
  | begin => exact .begin t s
  | lock =>
      simp only [perform, serve]
      split
      · next hfree => exact .lock t s hfree
      · exact .lost ⟨t, .lock⟩ s
  | execute k =>
      simp only [perform, serve]
      split
      · next a delta hresult => exact .execute t k s a delta hresult
      · next d hresult => exact .refused t k s d hresult
  | commit => exact .commit t s
  | rollback => exact .rollback t s

end

/-! ## Transactions as programs -/

/-- Ask a request on the connection of client `t`. -/
def ask (t : τ) (r : Request K) :
    ExceptT ε (Program (Call τ K) (Answer ε A)) (r.Reply A) :=
  Fallible.await (A := fun c : Call τ K => c.request.Reply A) ⟨t, r⟩

/-- Begin, execute the body, commit; roll back when the body fails. -/
def transaction {α : Type} (t : τ) (body : ExceptT ε (Program (Call τ K) (Answer ε A)) α) :
    ExceptT ε (Program (Call τ K) (Answer ε A)) α := do
  ask t .begin
  match ← Fallible.attempt body with
  | .ok a => do
      ask t .commit
      pure a
  | .error e => do
      let _ ← Fallible.attempt (ask t .rollback)
      throw e

-- The reply type of a known request reduces, so the rules must not be found by it.

@[simp] theorem asks_ask (t : τ) (r : Request K) (past : List (Exchange (Call τ K) (Answer ε A)))
    (c : Call τ K) :
    @Fallible.Asks _ _ _ (no_index (r.Reply A)) (ask (ε := ε) t r) past c ↔ past = [] ∧ c = ⟨t, r⟩ :=
  Fallible.asks_await (A := fun c : Call τ K => c.request.Reply A) ⟨t, r⟩ c past

@[simp] theorem returns_ask (t : τ) (r : Request K)
    (past : List (Exchange (Call τ K) (Answer ε A))) (a : r.Reply A) :
    @Fallible.Returns _ _ _ (no_index (r.Reply A)) (ask t r) past a ↔ past = [⟨⟨t, r⟩, .ok a⟩] :=
  Fallible.returns_await (A := fun c : Call τ K => c.request.Reply A) ⟨t, r⟩ past a

/-- What a transaction asks: its body's calls, and then a commit if the body succeeded. -/
theorem asks_transaction {α : Type} {t : τ}
    {body : ExceptT ε (Program (Call τ K) (Answer ε A)) α}
    {past : List (Exchange (Call τ K) (Answer ε A))} {c : Call τ K}
    (h : Fallible.Asks (transaction t body) past c) :
    (past = [] ∧ c = ⟨t, .begin⟩) ∨ ∃ rest, past = ⟨⟨t, .begin⟩, .ok ()⟩ :: rest ∧
      (Fallible.Asks body rest c ∨ (c = ⟨t, .commit⟩ ∧ ∃ a, Fallible.Returns body rest a) ∨
        c = ⟨t, .rollback⟩) := by
  rw [transaction, Fallible.asks_bind] at h
  rcases h with h | ⟨before, rest, u, rfl, hbegin, h⟩
  · exact Or.inl ((asks_ask t .begin past c).1 h)
  rw [returns_ask t .begin before u] at hbegin
  subst hbegin
  refine Or.inr ⟨rest, rfl, ?_⟩
  rw [Fallible.asks_bind, Fallible.asks_attempt] at h
  rcases h with h | ⟨inner, after, r, rfl, hbody, h⟩
  · exact Or.inl h
  rw [Fallible.returns_attempt] at hbody
  -- a body that returned is followed by the commit, one that failed by the rollback
  cases r with
  | ok a =>
      rcases (Fallible.asks_bind _ _ _ _).1 h with h | ⟨_, _, _, -, -, h⟩
      · obtain ⟨rfl, rfl⟩ := (asks_ask t .commit after c).1 h
        rw [List.append_nil]
        exact Or.inr (Or.inl ⟨rfl, a, hbody⟩)
      · exact ((Fallible.asks_pure _ _ _).1 h).elim
  | error e =>
      rcases (Fallible.asks_bind _ _ _ _).1 h with h | ⟨_, _, _, -, -, h⟩
      · rw [Fallible.asks_attempt] at h
        exact Or.inr (Or.inr ((asks_ask t .rollback after c).1 h).2)
      · exact ((Fallible.asks_throw _ _ _).1 h).elim

/-! ## What a call can change -/

section Effect

variable [DecidableEq τ] {run : (k : K) → σ → Except δ (A k × (σ → σ))} {onError : K → δ → ε}
  {lost : ε} {c : Call τ K} {s s' : Server τ σ} {r : Answer ε A c} {t : τ}

theorem Server.pending_ended_other (committed : σ) {u : τ} (h : t ≠ u) :
    (s.ended u committed).pending t = s.pending t :=
  Function.update_of_ne h _ _

theorem Server.pending_executed_self (delta : σ → σ) :
    (s.executed t delta).pending t = delta ∘ s.pending t :=
  Function.update_self _ _ _

theorem Server.holder_ended_other (committed : σ) {u : τ} (h : s.holder = some t) (hne : t ≠ u) :
    (s.ended u committed).holder = some t := by
  have hother : s.holder ≠ some u := by
    rw [h]
    exact fun heq => hne (Option.some.inj heq)
  exact (if_neg hother).trans h

/-- A call does not touch what another client has pending. -/
theorem Effect.pending_other (h : Effect run onError lost c s r s') (hne : t ≠ c.client) :
    s'.pending t = s.pending t := by
  cases h with
  | execute => exact Function.update_of_ne hne _ _
  | commit => exact Server.pending_ended_other _ hne
  | unconfirmed => exact Server.pending_ended_other _ hne
  | rollback => exact Server.pending_ended_other _ hne
  | dropped => exact Server.pending_ended_other _ hne
  | _ => rfl

/-- A call does not take the lock from another client. -/
theorem Effect.holder_other (h : Effect run onError lost c s r s') (hholder : s.holder = some t)
    (hne : t ≠ c.client) : s'.holder = some t := by
  cases h with
  | lock u _ free =>
      rcases free with free | free
      · rw [hholder] at free
        cases free
      · rw [hholder] at free
        exact absurd (Option.some.inj free) hne
  | commit => exact Server.holder_ended_other _ hholder hne
  | unconfirmed => exact Server.holder_ended_other _ hholder hne
  | rollback => exact Server.holder_ended_other _ hholder hne
  | dropped => exact Server.holder_ended_other _ hholder hne
  | _ => exact hholder

theorem Effect.execute_ok {k : K} {a : A k}
    (h : Effect run onError lost ⟨t, .execute k⟩ s (.ok a) s') :
    ∃ delta, run k (s.view t) = .ok (a, delta) ∧ s' = s.executed t delta := by
  cases h with
  | execute _ _ _ _ delta result => exact ⟨delta, result, rfl⟩

/-- What is committed changes only when a transaction commits. -/
theorem Effect.committed_cases (h : Effect run onError lost c s r s') :
    s'.committed = s.committed ∨ (c.request = .commit ∧ s'.committed = s.view c.client) := by
  cases h with
  | commit => exact Or.inr ⟨rfl, rfl⟩
  | unconfirmed => exact Or.inr ⟨rfl, rfl⟩
  | _ => exact Or.inl rfl

end Effect

/-! ## Transactions that have not ended -/

/-- The calls were answered with results, and none of them ended the transaction. -/
def Open (past : List (Exchange (Call τ K) (Answer ε A))) : Prop :=
  ∀ x ∈ past, x.resp.isOk = true ∧ x.call.request.ends = false

/-- Among the calls is one that took the lock. -/
def Locked (t : τ) (past : List (Exchange (Call τ K) (Answer ε A))) : Prop :=
  (⟨⟨t, .lock⟩, .ok ()⟩ : Exchange (Call τ K) (Answer ε A)) ∈ past

section Rules

variable [DecidableEq τ] {run : (k : K) → σ → Except δ (A k × (σ → σ))} {onError : K → δ → ε}
  {lost : ε} {init : σ} {out : τ → Type}
  {start : (t : τ) → Program (Call τ K) (Answer ε A) (out t)}
  {tr : List (Event τ (Call τ K) (Answer ε A) (Server τ σ))} {s : Server τ σ}
  {pool : (t : τ) → Program (Call τ K) (Answer ε A) (out t)}

/-- Every client asks on its own connection. -/
def Tagged (start : (t : τ) → Program (Call τ K) (Answer ε A) (out t)) : Prop :=
  ∀ t past c, Program.Asks (start t) past c → c.client = t

variable (htagged : Tagged start)

include htagged

theorem Tagged.client {effect : (c : Call τ K) → Server τ σ → Answer ε A c → Server τ σ → Prop}
    {a : Server τ σ} (h : Run effect a start tr s pool) {t : τ} {c : Call τ K}
    {next : Answer ε A c → Program (Call τ K) (Answer ε A) (out t)}
    (ready : pool t = .call c next) : c.client = t := by
  have hafter := h.after t
  rw [ready] at hafter
  exact htagged t _ c ⟨next, hafter⟩

/-- **What an open transaction has pending was built by its statements.** -/
theorem pending_built {Q : List (Exchange (Call τ K) (Answer ε A)) → (σ → σ) → Prop} (hnil : Q [] id)
    (hother : ∀ past g (x : Exchange (Call τ K) (Answer ε A)), Q past g →
      (x.call.request = .begin ∨ x.call.request = .lock) → Q (past ++ [x]) g)
    (hexecute : ∀ past g t k a delta view, Q past g → run k view = .ok (a, delta) →
      Q (past ++ [⟨⟨t, .execute k⟩, .ok a⟩]) (delta ∘ g))
    (h : Run (Effect run onError lost) (.idle init) start tr s pool) {t : τ}
    (hopen : Open (exchanges tr t)) : Q (exchanges tr t) (s.pending t) := by
  induction h with
  | init => exact hnil
  | @step tr a b pool t' c next r h ready heffect ih =>
      have hclient : c.client = t' := htagged.client h ready
      by_cases ht : t' = t
      · subst ht
        have hcons := exchanges_cons_self
          (⟨t', c, r, a, b⟩ : Event τ (Call τ K) (Answer ε A) (Server τ σ)) tr
        simp only at hcons
        rw [hcons] at hopen ⊢
        have hQ := ih fun x hx => hopen x (List.mem_append_left _ hx)
        obtain ⟨hok, hends⟩ := hopen _ (List.mem_append_right _ (List.mem_singleton_self _))
        -- a call that fails or ends the transaction would leave it closed
        cases heffect with
        | begin => exact hother _ _ _ hQ (Or.inl rfl)
        | lock => exact hother _ _ _ hQ (Or.inr rfl)
        | execute u k _ a delta result =>
            have hbuilt := hexecute _ _ u k a delta _ hQ result
            have hu : t' = u := hclient.symm
            subst hu
            rwa [Server.pending_executed_self]
        | refused => cases hok
        | commit => cases hends
        | unconfirmed => cases hok
        | rollback => cases hends
        | lost => cases hok
        | dropped => cases hok
      · rw [exchanges_cons_ne (e := ⟨t', c, r, a, b⟩) ht] at hopen ⊢
        have hother : t ≠ c.client := by
          rw [hclient]
          exact fun heq => ht heq.symm
        rw [heffect.pending_other hother]
        exact ih hopen

/-- **An open transaction holds the lock since it took it.** -/
theorem holder_of_locked (h : Run (Effect run onError lost) (.idle init) start tr s pool) {t : τ}
    (hopen : Open (exchanges tr t)) (hlocked : Locked t (exchanges tr t)) : s.holder = some t := by
  induction h with
  | init => cases hlocked
  | @step tr a b pool t' c next r h ready heffect ih =>
      have hclient : c.client = t' := htagged.client h ready
      by_cases ht : t' = t
      · subst ht
        have hcons := exchanges_cons_self
          (⟨t', c, r, a, b⟩ : Event τ (Call τ K) (Answer ε A) (Server τ σ)) tr
        simp only at hcons
        rw [hcons] at hopen hlocked
        obtain ⟨hok, hends⟩ := hopen _ (List.mem_append_right _ (List.mem_singleton_self _))
        have hbefore : Locked t' (exchanges tr t') → a.holder = some t' :=
          ih fun x hx => hopen x (List.mem_append_left _ hx)
        -- either the lock was taken before this call, or this call takes it
        rcases List.mem_append.1 hlocked with hpast | hnow
        · have hheld := hbefore hpast
          clear hlocked hopen hcons
          cases heffect with
          | begin => exact hheld
          -- advisory locks are reentrant: asking for it again keeps the holder
          | lock => exact congrArg some hclient
          | execute => exact hheld
          | refused => cases hok
          | commit => cases hends
          | unconfirmed => cases hok
          | rollback => cases hends
          | lost => cases hok
          | dropped => cases hok
        · have hcall : c = ⟨t', .lock⟩ :=
            (congrArg Exchange.call (List.mem_singleton.1 hnow)).symm
          clear hlocked hopen hcons hnow
          subst hcall
          cases heffect with
          | lock => rfl
          | lost => cases hok
          | dropped => cases hok
      · rw [exchanges_cons_ne (e := ⟨t', c, r, a, b⟩) ht] at hopen hlocked
        refine heffect.holder_other (ih hopen hlocked) ?_
        rw [hclient]
        exact fun heq => ht heq.symm

end Rules

/-! ## Clients that run one transaction each -/

/-- The body of a transaction of client `t`: it asks on its own connection what satisfies `P`, does
    not end the transaction, and goes on after results only. -/
structure Body {α : Type} (P : Request K → Prop) (t : τ)
    (x : ExceptT ε (Program (Call τ K) (Answer ε A)) α) : Prop where
  asks : Fallible.AsksOnly (fun c => c.client = t ∧ c.request.ends = false ∧ P c.request) x
  returns : Fallible.ReturnsWithin (fun y => y.resp.isOk = true) x

section Body

variable {α β : Type} {P : Request K → Prop} {t : τ}

theorem body_pure (a : α) :
    Body P t (pure a : ExceptT ε (Program (Call τ K) (Answer ε A)) α) :=
  ⟨Fallible.asksOnly_pure a, Fallible.returnsWithin_pure a⟩

theorem body_throw (e : ε) :
    Body P t (throw e : ExceptT ε (Program (Call τ K) (Answer ε A)) α) :=
  ⟨Fallible.asksOnly_throw e, fun past a h => ((Fallible.returns_throw e past a).1 h).elim⟩

theorem body_okOr (e : ε) (o : Option α) :
    Body P t (Fallible.okOr e o : ExceptT ε (Program (Call τ K) (Answer ε A)) α) :=
  ⟨Fallible.asksOnly_okOr e o, Fallible.returnsWithin_okOr e o⟩

theorem body_ensure (p : Prop) [Decidable p] (e : ε) :
    Body P t (Fallible.ensure p e : ExceptT ε (Program (Call τ K) (Answer ε A)) Unit) :=
  ⟨Fallible.asksOnly_ensure p e, Fallible.returnsWithin_ensure p e⟩

theorem body_ask {r : Request K} (hends : r.ends = false) (h : P r) :
    Body P t (ask (ε := ε) (A := A) t r) :=
  ⟨Fallible.asksOnly_await ⟨rfl, hends, h⟩, Fallible.returnsWithin_await fun _ => rfl⟩

theorem body_bind {x : ExceptT ε (Program (Call τ K) (Answer ε A)) α}
    {f : α → ExceptT ε (Program (Call τ K) (Answer ε A)) β} (hx : Body P t x)
    (hf : ∀ a, Body P t (f a)) : Body P t (x >>= f) :=
  ⟨Fallible.asksOnly_bind hx.asks fun a => (hf a).asks,
    Fallible.returnsWithin_bind hx.returns fun a => (hf a).returns⟩

end Body

section Transactions

variable [DecidableEq τ] {run : (k : K) → σ → Except δ (A k × (σ → σ))} {onError : K → δ → ε}
  {lost : ε} {init s : Server τ σ} {α : τ → Type}
  {body : (t : τ) → ExceptT ε (Program (Call τ K) (Answer ε A)) (α t)} {P : τ → Request K → Prop}
  {newer older : List (Event τ (Call τ K) (Answer ε A) (Server τ σ))}
  {e : Event τ (Call τ K) (Answer ε A) (Server τ σ)}
  {pool : (t : τ) → Program (Call τ K) (Answer ε A) (Except ε (α t))}

variable (hbody : ∀ t, Body (P t) t (body t))

include hbody in
omit [DecidableEq τ] in
theorem tagged_transaction : Tagged fun t => (transaction t (body t)).run := by
  intro t past c h
  rcases asks_transaction h with ⟨-, rfl⟩ | ⟨rest, -, h | ⟨rfl, -⟩ | rfl⟩
  · rfl
  · exact ((hbody t).asks rest c h).1
  · rfl
  · rfl

/-- A statement is executed inside the body. -/
theorem execute_past (h : Run (Effect run onError lost) init
      (fun t => (transaction t (body t)).run) (newer ++ e :: older) s pool) {k : K}
    (hcall : e.call.request = .execute k) :
    ∃ rest, exchanges older e.tid = ⟨⟨e.tid, .begin⟩, .ok ()⟩ :: rest ∧
      Fallible.Asks (body e.tid) rest e.call := by
  rcases asks_transaction h.asks with ⟨-, hc⟩ | ⟨rest, hpast, hasks | ⟨hc, -⟩ | hc⟩
  · rw [hc] at hcall
    cases hcall
  · exact ⟨rest, hpast, hasks⟩
  · rw [hc] at hcall
    cases hcall
  · rw [hc] at hcall
    cases hcall

include hbody

/-- A transaction that commits is open, and has executed its body. -/
theorem commit_past (h : Run (Effect run onError lost) init
      (fun t => (transaction t (body t)).run) (newer ++ e :: older) s pool)
    (hcommit : e.call.request = .commit) :
    Open (exchanges older e.tid) ∧ ∃ rest a,
      exchanges older e.tid = ⟨⟨e.tid, .begin⟩, .ok ()⟩ :: rest ∧
      Fallible.Returns (body e.tid) rest a ∧ ∀ x ∈ rest, P e.tid x.call.request := by
  rcases asks_transaction h.asks with ⟨-, hc⟩ | ⟨rest, hpast, hasks | ⟨-, a, hreturns⟩ | hc⟩
  · rw [hc] at hcommit
    cases hcommit
  · have hends := ((hbody e.tid).asks rest e.call hasks).2.1
    rw [hcommit] at hends
    cases hends
  · have hmem := fun x hx => (hbody e.tid).asks.of_mem (y := x) hreturns hx
    refine ⟨?_, rest, a, hpast, hreturns, fun x hx => (hmem x hx).2.2⟩
    rw [hpast]
    intro x hx
    rcases List.mem_cons.1 hx with rfl | hx
    · exact ⟨rfl, rfl⟩
    · exact ⟨(hbody e.tid).returns rest a hreturns x hx, (hmem x hx).2.1⟩
  · rw [hc] at hcommit
    cases hcommit

/-- Only a commit changes what is committed, to what its client saw. -/
theorem committed_changed (h : Run (Effect run onError lost) init
      (fun t => (transaction t (body t)).run) (newer ++ e :: older) s pool)
    (hchanged : e.post.committed ≠ e.pre.committed) :
    e.call.request = .commit ∧ e.post.committed = e.pre.view e.tid := by
  have heffect := h.performed (e := e) (by simp)
  have hclient := tagged_transaction hbody e.tid _ _ h.asks
  rcases heffect.committed_cases with heq | ⟨hcommit, heq⟩
  · exact absurd heq hchanged
  · rw [hclient] at heq
    exact ⟨hcommit, heq⟩

end Transactions

end Isolation

end RsConsole.Library
