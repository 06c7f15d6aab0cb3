import RsConsole.Server.Invalidation
import RsConsole.Server.Statements

set_option autoImplicit false

/-! # Interleaved bootstraps

Any number of `complete_registration` and `break_glass` transactions, interleaved statement by
statement on a database that a history led to. A bootstrap counts the operators' credentials under
the lock that every registration takes first, so until it commits only a break-glass can commit, and
that adds no credential (`Interleaved.none_before`). After it an operator has a credential, so the
next bootstrap counts none only if a break-glass committed in between. -/

namespace RsConsole

open Library Library.Table Library.Isolation

variable {τ : Type}

/-- One request of an interleaving. -/
abbrev SqlEvent (τ : Type) : Type :=
  Event τ (Isolation.Call τ Sql) (Answer AuthError Sql.Reply) (Server τ Database)

/-- A request with its answer. -/
abbrev SqlExchange (τ : Type) : Type := Exchange (Isolation.Call τ Sql) (Answer AuthError Sql.Reply)

/-- The transactions `txs`, interleaved statement by statement on the database `db`. -/
def Interleaved [DecidableEq τ] (txs : τ → StoreTransaction) (db : Database)
    (tr : List (SqlEvent τ)) (s : Server τ Database) : Prop :=
  ∃ pool, Run (Effect Sql.run Sql.onError .store) (.idle db) (fun t => ((txs t).program t).run) tr s
    pool

/-- The event commits its client's transaction (confirmed or not). -/
def SqlCommits (e : SqlEvent τ) : Prop :=
  e.call.request = .commit ∧ e.post.committed = e.pre.view e.tid

namespace StoreTransaction

/-- The transaction completes a bootstrap ceremony of the database. -/
def Bootstraps (db : Database) : StoreTransaction → Prop
  | completeRegistration _ ceremonyId .. =>
      ∃ row ∈ db.authCeremonies, row.id = ceremonyId ∧ row.kind = "operator_bootstrap"
  | breakGlass .. => False

def BreaksGlass : StoreTransaction → Prop
  | completeRegistration .. => False
  | breakGlass .. => True

/-- The row is the credential that the transaction registers. -/
def Enrols (row : Database.PasskeyCredential) : StoreTransaction → Prop
  | completeRegistration env _ _ credential now _ =>
      ∃ userId, row = credential.row env.fresh userId now
  | breakGlass .. => False

/-! ## What the transactions execute -/

/-- The request revokes a credential. -/
def revokes : Request Sql → Bool
  | .execute (.revokeOperatorCredential ..) => true
  | _ => false

/-- The credential that the request inserts. -/
def enrolled : Request Sql → Option Database.PasskeyCredential
  | .execute (.insertPasskeyCredential credential) => some credential
  | _ => none

/-- A registration revokes nothing, a break-glass inserts no credential. -/
def Allows : StoreTransaction → Request Sql → Prop
  | completeRegistration .., r => revokes r = false
  | breakGlass .., r => enrolled r = none

theorem Allows.revokes_eq {tx : StoreTransaction} {r : Request Sql} (h : tx.Allows r)
    (htx : ¬ tx.BreaksGlass) : revokes r = false := by
  cases tx with
  | completeRegistration => exact h
  | breakGlass => exact absurd trivial htx

theorem Allows.enrolled_eq {tx : StoreTransaction} {r : Request Sql} (h : tx.Allows r)
    (htx : tx.BreaksGlass) : enrolled r = none := by
  cases tx with
  | completeRegistration => exact htx.elim
  | breakGlass => exact h

theorem body_spentCeremony {P : Request Sql → Prop} {t : τ}
    (spent : Option (Option String × String)) :
    Body P t (Conversation.spentCeremony spent : Conversation τ _) := by
  unfold Conversation.spentCeremony
  split
  · exact body_throw _
  · exact body_throw _
  · exact body_pure _

theorem body_checkBootstrap {P : Request Sql → Prop} {t : τ} (kind : String)
    (h : P (.execute .countOperatorCredentials)) :
    Body P t (Conversation.checkBootstrap t kind) := by
  unfold Conversation.checkBootstrap
  split
  · exact body_bind (body_ask rfl h) fun n => body_ensure (n = 0) _
  · exact body_pure ()

theorem body_spendCapability {P : Request Sql → Prop} {t : τ} (capabilityHash : Option SecretHash)
    (now : DateTime) (h : ∀ hash, P (.execute (.consumeCapability hash now))) :
    Body P t (Conversation.spendCapability t capabilityHash now) := by
  unfold Conversation.spendCapability
  split
  · exact body_pure ()
  · exact body_bind (body_ask rfl (h _)) fun n => body_ensure (n = 1) _

theorem body_allowed (tx : StoreTransaction) (t : τ) : Body tx.Allows t (tx.body t) := by
  cases tx with
  | completeRegistration env ceremonyId capabilityHash credential now audit =>
      refine body_bind (body_ask rfl rfl) fun _ => ?_
      refine body_bind (body_ask rfl rfl) fun spent => ?_
      refine body_bind (body_spentCeremony spent) fun owner => ?_
      refine body_bind (body_checkBootstrap owner.2 rfl) fun _ => ?_
      refine body_bind (body_spendCapability capabilityHash now fun _ => rfl) fun _ => ?_
      refine body_bind (body_ask rfl rfl) fun _ => ?_
      refine body_bind (body_ask rfl rfl) fun _ => ?_
      exact body_ask rfl rfl
  | breakGlass env credentialId capability now reason =>
      refine body_bind (body_ask rfl rfl) fun revoked => ?_
      refine body_bind (body_okOr _ revoked) fun userId => ?_
      refine body_bind (body_ensure (capability.userId.value = userId) _) fun _ => ?_
      refine body_bind (body_bind (body_ask rfl rfl) fun _ => body_bind (body_ask rfl rfl) fun _ =>
        body_bind (body_ask rfl rfl) fun _ => body_ask rfl rfl) fun _ => ?_
      refine body_bind (body_ask rfl rfl) fun _ => ?_
      exact body_ask rfl rfl

end StoreTransaction

/-! ## Operators and their credentials -/

namespace Database

/-- The columns that say whose ceremonies are and who is an operator are the same. -/
structure SameOwners (db db' : Database) : Prop where
  users : db'.humanUsers.map (fun u => (u.id, u.role)) = db.humanUsers.map (fun u => (u.id, u.role))
  ceremonies : db'.authCeremonies.map (fun c => (c.id, c.kind, c.userId)) =
    db.authCeremonies.map (fun c => (c.id, c.kind, c.userId))

theorem sameOwners_refl (db : Database) : SameOwners db db := ⟨rfl, rfl⟩

theorem SameOwners.trans {a b c : Database} (h₁ : SameOwners a b) (h₂ : SameOwners b c) :
    SameOwners a c :=
  ⟨h₂.users.trans h₁.users, h₂.ceremonies.trans h₁.ceremonies⟩

def IsOperator (db : Database) (userId : String) : Prop :=
  ∃ u ∈ db.humanUsers, u.id = userId ∧ u.role = "operator"

/-- The credential is an unrevoked one of an operator. -/
def Counted (db : Database) (c : PasskeyCredential) : Prop :=
  c ∈ db.passkeyCredentials ∧ c.revokedAt = none ∧ db.IsOperator c.userId

theorem counted_of_mem {db : Database} {x : PasskeyCredential × HumanUser}
    (h : x ∈ db.operatorCredentials) : db.Counted x.1 := by
  rw [operatorCredentials, mem_join, List.mem_filter, List.mem_filter] at h
  simp only [decide_eq_true_eq] at h
  obtain ⟨⟨hmem, hrevoked⟩, ⟨huser, hrole⟩, hid⟩ := h
  exact ⟨hmem, hrevoked, x.2, huser, hid, hrole⟩

theorem Counted.mem {db : Database} {c : PasskeyCredential} (h : db.Counted c) :
    ∃ u, (c, u) ∈ db.operatorCredentials := by
  obtain ⟨hmem, hrevoked, u, huser, hid, hrole⟩ := h
  refine ⟨u, ?_⟩
  rw [operatorCredentials, mem_join, List.mem_filter, List.mem_filter]
  simp only [decide_eq_true_eq]
  exact ⟨⟨hmem, hrevoked⟩, ⟨huser, hrole⟩, hid⟩

theorem operatorCredentials_eq_nil {db : Database} :
    db.operatorCredentials = [] ↔ ¬ ∃ c, db.Counted c := by
  rw [List.eq_nil_iff_forall_not_mem]
  constructor
  · rintro h ⟨c, hc⟩
    obtain ⟨u, hu⟩ := hc.mem
    exact h _ hu
  · intro h x hx
    exact h ⟨x.1, counted_of_mem hx⟩

theorem SameOwners.isOperator {db db' : Database} (h : SameOwners db db') {userId : String} :
    db'.IsOperator userId ↔ db.IsOperator userId := by
  have hmem : ∀ d : Database, d.IsOperator userId ↔
      (userId, "operator") ∈ d.humanUsers.map (fun u => (u.id, u.role)) := by
    intro d
    simp [IsOperator]
  rw [hmem, hmem, h.users]

/-- The ceremony with an id keeps its kind and its user. -/
theorem SameOwners.ceremony {db db' : Database} (h : SameOwners db db')
    (hkeyed : Keyed (·.id) db.authCeremonies) {row row' : AuthCeremony}
    (hrow : row ∈ db.authCeremonies) (hrow' : row' ∈ db'.authCeremonies) (hid : row'.id = row.id) :
    row'.kind = row.kind ∧ row'.userId = row.userId := by
  have hmem : (row'.id, row'.kind, row'.userId) ∈
      db.authCeremonies.map (fun c => (c.id, c.kind, c.userId)) := by
    rw [← h.ceremonies]
    exact List.mem_map_of_mem (f := fun c => (c.id, c.kind, c.userId)) hrow'
  obtain ⟨old, hold, heq⟩ := List.mem_map.1 hmem
  simp only [Prod.mk.injEq] at heq
  obtain ⟨hid', hkind, howner⟩ := heq
  have hsame : old = row := hkeyed.eq_of_mem hold hrow (hid'.trans hid)
  rw [← hkind, ← howner, hsame]
  exact ⟨rfl, rfl⟩

end Database

/-! ## What an open transaction has pending -/

/-- The credentials that a transaction inserted. -/
def enrolments (past : List (SqlExchange τ)) : List Database.PasskeyCredential :=
  past.filterMap (fun x => StoreTransaction.enrolled x.call.request)

/-- What the statements of `past` make of the committed tables. -/
structure Built (past : List (SqlExchange τ)) (g : Database → Database) : Prop where
  owners : ∀ db, Database.SameOwners db (g db)
  unrevoked : ∀ db, ∀ c ∈ (g db).passkeyCredentials, c.revokedAt = none →
    c ∈ db.passkeyCredentials ∨ c ∈ enrolments past
  kept : (∀ x ∈ past, StoreTransaction.revokes x.call.request = false) → ∀ db c,
    c ∈ db.passkeyCredentials ∨ c ∈ enrolments past → c ∈ (g db).passkeyCredentials

namespace Sql

variable {k : Sql} {view db : Database} {c : Database.PasskeyCredential}

theorem writes_sameOwners : Database.SameOwners db (k.writes view db) := by
  cases k with
  | consumeCeremony id now =>
      refine ⟨rfl, updateWhere_map ?_ _⟩
      exact fun _ _ => rfl
  | advanceEpochs userId now =>
      refine ⟨updateWhere_map ?_ _, rfl⟩
      exact fun _ _ => rfl
  | consumeCeremonies userId now =>
      refine ⟨rfl, updateWhere_map ?_ _⟩
      exact fun _ _ => rfl
  | _ => exact ⟨rfl, rfl⟩

/-- An unrevoked credential was there, or is inserted by the statement. -/
theorem writes_unrevoked (h : c ∈ (k.writes view db).passkeyCredentials)
    (hrevoked : c.revokedAt = none) :
    c ∈ db.passkeyCredentials ∨ StoreTransaction.enrolled (.execute k) = some c := by
  cases k with
  | insertPasskeyCredential credential =>
      rcases List.mem_append.1 h with h | h
      · exact Or.inl h
      · exact Or.inr (congrArg some (List.mem_singleton.1 h).symm)
  | revokeOperatorCredential id now =>
      obtain ⟨old, hold, rfl⟩ := mem_updateWhere.1 h
      split at hrevoked
      · cases hrevoked
      · next hselected =>
          rw [if_neg hselected]
          exact Or.inl hold
  | _ => exact Or.inl h

/-- Only a revocation changes credentials that are there. -/
theorem writes_kept (hkeeps : StoreTransaction.revokes (.execute k) = false)
    (h : c ∈ db.passkeyCredentials ∨ StoreTransaction.enrolled (.execute k) = some c) :
    c ∈ (k.writes view db).passkeyCredentials := by
  cases k with
  | insertPasskeyCredential credential =>
      rcases h with h | h
      · exact List.mem_append_left _ h
      · exact List.mem_append_right _ (List.mem_singleton.2 (Option.some.inj h).symm)
  | revokeOperatorCredential id now => cases hkeeps
  | _ =>
      rcases h with h | h
      · exact h
      · cases h

theorem run_ok {a : k.Reply} {delta : Database → Database} (h : k.run view = .ok (a, delta)) :
    (∃ db', k.statement view = .ok (a, db')) ∧ delta = k.writes view := by
  rw [run] at h
  cases hstatement : k.statement view with
  | error d =>
      rw [hstatement] at h
      cases h
  | ok out =>
      obtain ⟨a', db'⟩ := out
      rw [hstatement] at h
      cases h
      exact ⟨⟨db', rfl⟩, rfl⟩

end Sql

theorem enrolments_append (past past' : List (SqlExchange τ)) :
    enrolments (past ++ past') = enrolments past ++ enrolments past' :=
  List.filterMap_append

theorem mem_enrolments_snoc {past : List (SqlExchange τ)} {x : SqlExchange τ}
    {c : Database.PasskeyCredential} :
    c ∈ enrolments (past ++ [x]) ↔
      c ∈ enrolments past ∨ StoreTransaction.enrolled x.call.request = some c := by
  simp [enrolments]

theorem built_nil : Built (τ := τ) [] id where
  owners := Database.sameOwners_refl
  unrevoked _ _ hc _ := Or.inl hc
  kept _ _ _ hc := hc.elim id fun h => by cases h

/-- A request that is no statement changes nothing. -/
theorem Built.other {past : List (SqlExchange τ)} {g : Database → Database} (h : Built past g)
    {x : SqlExchange τ} (hx : StoreTransaction.enrolled x.call.request = none) :
    Built (past ++ [x]) g where
  owners := h.owners
  unrevoked db c hc hrevoked := by
    rw [mem_enrolments_snoc]
    exact (h.unrevoked db c hc hrevoked).imp_right Or.inl
  kept hkeeps db c hc := by
    rw [mem_enrolments_snoc, hx] at hc
    refine h.kept (fun y hy => hkeeps y (List.mem_append_left _ hy)) db c (hc.imp_right ?_)
    rintro (hc | hc)
    · exact hc
    · cases hc

theorem Built.execute {past : List (SqlExchange τ)} {g : Database → Database} (h : Built past g)
    (t : τ) (k : Sql) (a : k.Reply) (view : Database) :
    Built (past ++ [⟨⟨t, .execute k⟩, .ok a⟩]) (k.writes view ∘ g) where
  owners db := (h.owners db).trans Sql.writes_sameOwners
  unrevoked db c hc hrevoked := by
    rw [mem_enrolments_snoc]
    rcases Sql.writes_unrevoked hc hrevoked with hc | hc
    · exact (h.unrevoked db c hc hrevoked).imp_right Or.inl
    · exact Or.inr (Or.inr hc)
  kept hkeeps db c hc := by
    rw [mem_enrolments_snoc] at hc
    refine Sql.writes_kept (hkeeps _ (List.mem_append_right _ (List.mem_singleton_self _))) ?_
    rcases hc with hc | hc | hc
    · exact Or.inl (h.kept (fun y hy => hkeeps y (List.mem_append_left _ hy)) db c (Or.inl hc))
    · exact Or.inl (h.kept (fun y hy => hkeeps y (List.mem_append_left _ hy)) db c (Or.inr hc))
    · exact Or.inr hc

/-! ## What a registration has been answered -/

namespace Conversation

variable {t : τ} {past : List (SqlExchange τ)}

theorem returns_execute {k : Sql} {a : k.Reply} (h : Fallible.Returns (execute t k) past a) :
    past = [⟨⟨t, .execute k⟩, .ok a⟩] :=
  (Isolation.returns_ask t (.execute k) past a).1 h

theorem checkBootstrap_returns {kind : String} {u : Unit}
    (h : Fallible.Returns (checkBootstrap t kind) past u) :
    enrolments past = [] ∧ (kind = "operator_bootstrap" →
      ⟨⟨t, .execute .countOperatorCredentials⟩, .ok 0⟩ ∈ past) := by
  unfold checkBootstrap at h
  split at h
  · obtain ⟨before, after, n, rfl, hcount, hzero⟩ := (Fallible.returns_bind _ _ _ _).1 h
    obtain ⟨rfl, rfl⟩ := (Fallible.returns_ensure _ _ _ _).1 hzero
    rw [returns_execute hcount]
    exact ⟨rfl, fun _ => List.mem_singleton_self _⟩
  · next hkind =>
      obtain ⟨rfl, -⟩ := (Fallible.returns_pure _ _ _).1 h
      exact ⟨rfl, fun heq => absurd heq hkind⟩

theorem spendCapability_returns {capabilityHash : Option SecretHash} {now : DateTime} {u : Unit}
    (h : Fallible.Returns (spendCapability t capabilityHash now) past u) :
    enrolments past = [] := by
  unfold spendCapability at h
  split at h
  · obtain ⟨rfl, -⟩ := (Fallible.returns_pure _ _ _).1 h
    rfl
  · obtain ⟨before, after, n, rfl, hspent, hone⟩ := (Fallible.returns_bind _ _ _ _).1 h
    obtain ⟨rfl, -⟩ := (Fallible.returns_ensure _ _ _ _).1 hone
    rw [returns_execute hspent]
    rfl

theorem spentCeremony_returns {spent : Option (Option String × String)} {owner : String × String}
    (h : Fallible.Returns (spentCeremony spent : Conversation τ _) past owner) :
    past = [] ∧ spent = some (some owner.1, owner.2) := by
  unfold spentCeremony at h
  split at h
  · exact ((Fallible.returns_throw _ _ _).1 h).elim
  · exact ((Fallible.returns_throw _ _ _).1 h).elim
  · obtain ⟨rfl, rfl⟩ := (Fallible.returns_pure _ _ _).1 h
    exact ⟨rfl, rfl⟩

variable {env : Env} {ceremonyId : Uuid} {capabilityHash : Option SecretHash}
  {credential : VerifiedCredential} {now : DateTime} {audit : AuditEvent}

/-- A registration that finished took the lock, spent its ceremony, counted if it is a bootstrap,
    and inserted one credential. -/
theorem completeRegistration_returns {u : Unit}
    (h : Fallible.Returns
      (completeRegistration t env ceremonyId capabilityHash credential now audit) past u) :
    ∃ userId kind, Locked t past ∧
      ⟨⟨t, .execute (.consumeCeremony ceremonyId now)⟩, .ok (some (some userId, kind))⟩ ∈ past ∧
      (kind = "operator_bootstrap" →
        ⟨⟨t, .execute .countOperatorCredentials⟩, .ok 0⟩ ∈ past) ∧
      enrolments past = [credential.row env.fresh userId now] := by
  -- one piece of the past for each step of the body
  obtain ⟨p₁, past, u₁, rfl, hlock, h⟩ := (Fallible.returns_bind _ _ _ _).1 h
  obtain ⟨p₂, past, spent, rfl, hspent, h⟩ := (Fallible.returns_bind _ _ _ _).1 h
  obtain ⟨p₃, past, owner, rfl, howner, h⟩ := (Fallible.returns_bind _ _ _ _).1 h
  obtain ⟨p₄, past, u₄, rfl, hcheck, h⟩ := (Fallible.returns_bind _ _ _ _).1 h
  obtain ⟨p₅, past, u₅, rfl, hcapability, h⟩ := (Fallible.returns_bind _ _ _ _).1 h
  obtain ⟨p₆, past, u₆, rfl, hinsert, h⟩ := (Fallible.returns_bind _ _ _ _).1 h
  obtain ⟨p₇, p₈, u₇, rfl, hrecoveries, haudit⟩ := (Fallible.returns_bind _ _ _ _).1 h
  have h₁ := (Isolation.returns_ask t .lock p₁ u₁).1 hlock
  have h₂ := returns_execute hspent
  obtain ⟨h₃, hsome⟩ := spentCeremony_returns howner
  obtain ⟨h₄, hcount⟩ := checkBootstrap_returns hcheck
  have h₅ := spendCapability_returns hcapability
  have h₆ := returns_execute hinsert
  have h₇ := returns_execute hrecoveries
  have h₈ := returns_execute haudit
  subst h₁ h₂ h₃ h₆ h₇ h₈ hsome
  refine ⟨owner.1, owner.2, ?_, ?_, fun hkind => ?_, ?_⟩
  · simp [Locked]
  · simp
  · simp [hcount hkind]
  · simp only [enrolments_append, h₄, h₅]
    rfl

/-- A registration takes the lock first. -/
theorem completeRegistration_locks {c : Isolation.Call τ Sql}
    (h : Fallible.Asks
      (completeRegistration t env ceremonyId capabilityHash credential now audit) past c)
    (hc : c.request ≠ .lock) : Locked t past := by
  rcases (Fallible.asks_bind _ _ _ _).1 h with h | ⟨before, after, u, rfl, hlock, -⟩
  · obtain ⟨-, rfl⟩ := (Isolation.asks_ask t .lock past c).1 h
    exact absurd rfl hc
  · rw [(Isolation.returns_ask t .lock before u).1 hlock]
    exact List.mem_cons_self

end Conversation

/-! ## Interleavings -/

/-- What is committed says the same of who owns what. -/
def OwnersKept (s s' : Server τ Database) : Prop :=
  Database.SameOwners s.committed s'.committed

namespace Interleaved

section

variable [DecidableEq τ] {txs : τ → StoreTransaction} {db₀ : Database} {tr : List (SqlEvent τ)}
  {s : Server τ Database} {e : SqlEvent τ} {t : τ}

theorem older {newer older : List (SqlEvent τ)}
    (h : Interleaved txs db₀ (newer ++ e :: older) s) : Interleaved txs db₀ older e.pre := by
  obtain ⟨pool, run⟩ := h
  exact run.older

variable {newer older : List (SqlEvent τ)}

omit [DecidableEq τ] in
theorem allowed (txs : τ → StoreTransaction) (t : τ) : Body (txs t).Allows t ((txs t).body t) :=
  (txs t).body_allowed t

theorem built (h : Interleaved txs db₀ tr s) (hopen : Open (exchanges tr t)) :
    Built (exchanges tr t) (s.pending t) := by
  obtain ⟨pool, run⟩ := h
  refine pending_built (tagged_transaction (allowed txs)) built_nil ?_ ?_ run hopen
  · rintro past g x hbuilt (hx | hx)
    · exact hbuilt.other (by rw [hx]; rfl)
    · exact hbuilt.other (by rw [hx]; rfl)
  · intro past g t k a delta view hbuilt hrun
    rw [(Sql.run_ok hrun).2]
    exact hbuilt.execute t k a view

theorem holds_lock (h : Interleaved txs db₀ tr s) (hopen : Open (exchanges tr t))
    (hlocked : Locked t (exchanges tr t)) : s.holder = some t := by
  obtain ⟨pool, run⟩ := h
  exact holder_of_locked (tagged_transaction (allowed txs)) run hopen hlocked

/-- Two registrations that are past their lock and not finished are the same. -/
theorem one_holder (h : Interleaved txs db₀ tr s) {t' : τ} (hopen : Open (exchanges tr t))
    (hlocked : Locked t (exchanges tr t)) (hopen' : Open (exchanges tr t'))
    (hlocked' : Locked t' (exchanges tr t')) : t = t' :=
  Option.some.inj ((h.holds_lock hopen hlocked).symm.trans (h.holds_lock hopen' hlocked'))

theorem commit_open (h : Interleaved txs db₀ (newer ++ e :: older) s)
    (hcommit : e.call.request = .commit) :
    Open (exchanges older e.tid) ∧
      ∀ x ∈ exchanges older e.tid, (txs e.tid).Allows x.call.request := by
  obtain ⟨pool, run⟩ := h
  obtain ⟨hopen, rest, a, hpast, -, hallows⟩ := commit_past (allowed txs) run hcommit
  refine ⟨hopen, fun x hx => ?_⟩
  rw [hpast] at hx
  rcases List.mem_cons.1 hx with rfl | hx
  · cases txs e.tid with
    | completeRegistration => rfl
    | breakGlass => rfl
  · exact hallows x hx

/-- A registration that commits has revoked nothing. -/
theorem revokes_none (h : Interleaved txs db₀ (newer ++ e :: older) s)
    (hcommit : e.call.request = .commit) (htx : ¬ (txs e.tid).BreaksGlass) :
    ∀ x ∈ exchanges older e.tid, StoreTransaction.revokes x.call.request = false :=
  fun x hx => ((h.commit_open hcommit).2 x hx).revokes_eq htx

/-- A break-glass that commits has inserted no credential. -/
theorem enrolments_none (h : Interleaved txs db₀ (newer ++ e :: older) s)
    (hcommit : e.call.request = .commit) (htx : (txs e.tid).BreaksGlass) :
    enrolments (exchanges older e.tid) = [] :=
  List.filterMap_eq_nil_iff.2 fun x hx => ((h.commit_open hcommit).2 x hx).enrolled_eq htx

theorem commits_of_changed (h : Interleaved txs db₀ (newer ++ e :: older) s)
    (hchanged : e.post.committed ≠ e.pre.committed) : SqlCommits e := by
  obtain ⟨pool, run⟩ := h
  exact committed_changed (allowed txs) run hchanged

theorem ownersKept (h : Interleaved txs db₀ (newer ++ e :: older) s) :
    OwnersKept e.pre e.post := by
  by_cases hchanged : e.post.committed = e.pre.committed
  · rw [OwnersKept, hchanged]
    exact Database.sameOwners_refl _
  · obtain ⟨hcommit, hview⟩ := h.commits_of_changed hchanged
    rw [OwnersKept, hview]
    exact (h.older.built (h.commit_open hcommit).1).owners _

theorem sameOwners (h : Interleaved txs db₀ tr s) : Database.SameOwners db₀ s.committed := by
  have hevents : ∀ e ∈ tr, OwnersKept e.pre e.post := by
    intro e he
    obtain ⟨newer, older, rfl⟩ := List.append_of_mem he
    exact h.ownersKept
  obtain ⟨pool, run⟩ := h
  have hkept : OwnersKept (.idle db₀) s :=
    run.rel_of_init (fun a => Database.sameOwners_refl _) Database.SameOwners.trans hevents
  exact hkept

/-- What an open transaction sees says the same of who owns what as the database at the start. -/
theorem sameOwners_view (h : Interleaved txs db₀ tr s) (hopen : Open (exchanges tr t)) :
    Database.SameOwners db₀ (s.view t) :=
  h.sameOwners.trans ((h.built hopen).owners _)

/-- What a statement answered, it answered about what its transaction saw. -/
theorem answered (h : Interleaved txs db₀ tr s) (he : e ∈ tr) {k : Sql} {a : k.Reply}
    (hx : e.exchange = ⟨⟨t, .execute k⟩, .ok a⟩) :
    (∃ db', k.statement (e.pre.view t) = .ok (a, db')) ∧ e.post.committed = e.pre.committed := by
  obtain ⟨pool, run⟩ := h
  have heffect := run.performed he
  obtain ⟨t', c, r, pre, post⟩ := e
  cases hx
  obtain ⟨delta, hresult, hpost⟩ := heffect.execute_ok
  refine ⟨(Sql.run_ok hresult).1, ?_⟩
  rw [hpost]
  rfl

/-- A break-glass makes no credential count. -/
theorem counted_of_breakGlass (h : Interleaved txs db₀ (newer ++ e :: older) s)
    (hcommit : SqlCommits e) (htx : (txs e.tid).BreaksGlass) {c : Database.PasskeyCredential}
    (hc : e.post.committed.Counted c) : e.pre.committed.Counted c := by
  obtain ⟨hrequest, hview⟩ := hcommit
  have hbuilt := h.older.built (h.commit_open hrequest).1
  rw [hview] at hc
  obtain ⟨hmem, hrevoked, hoperator⟩ := hc
  have hnone := h.enrolments_none hrequest htx
  refine ⟨?_, hrevoked, (hbuilt.owners _).isOperator.1 hoperator⟩
  rcases hbuilt.unrevoked _ c hmem hrevoked with hmem | hmem
  · exact hmem
  · rw [hnone] at hmem
    cases hmem

/-- What a registration sees that revoked nothing: every credential that is committed. -/
theorem counted_view (h : Interleaved txs db₀ tr s) (hopen : Open (exchanges tr t))
    (hkeeps : ∀ x ∈ exchanges tr t, StoreTransaction.revokes x.call.request = false)
    {c : Database.PasskeyCredential} (hc : s.committed.Counted c) : (s.view t).Counted c := by
  have hbuilt := h.built hopen
  obtain ⟨hmem, hrevoked, hoperator⟩ := hc
  exact ⟨hbuilt.kept hkeeps _ c (Or.inl hmem), hrevoked, (hbuilt.owners _).isOperator.2 hoperator⟩

section Registration

variable {env : Env} {ceremonyId : Uuid} {capabilityHash : Option SecretHash}
  {credential : VerifiedCredential} {now : DateTime} {audit : AuditEvent}

/-- A registration that commits has done all it has to do. -/
theorem registration_commit (h : Interleaved txs db₀ (newer ++ e :: older) s)
    (hcommit : e.call.request = .commit)
    (htx : txs e.tid =
      .completeRegistration env ceremonyId capabilityHash credential now audit) :
    ∃ userId kind, Locked e.tid (exchanges older e.tid) ∧
      ⟨⟨e.tid, .execute (.consumeCeremony ceremonyId now)⟩, .ok (some (some userId, kind))⟩ ∈
        exchanges older e.tid ∧
      (kind = "operator_bootstrap" →
        ⟨⟨e.tid, .execute .countOperatorCredentials⟩, .ok 0⟩ ∈ exchanges older e.tid) ∧
      enrolments (exchanges older e.tid) = [credential.row env.fresh userId now] := by
  obtain ⟨pool, run⟩ := h
  obtain ⟨-, rest, a, hpast, hreturns, -⟩ := commit_past (allowed txs) run hcommit
  rw [htx] at hreturns
  obtain ⟨userId, kind, hlocked, hspent, hcount, henrolled⟩ :=
    Conversation.completeRegistration_returns hreturns
  rw [hpast]
  exact ⟨userId, kind, List.mem_cons_of_mem _ hlocked, List.mem_cons_of_mem _ hspent,
    fun hkind => List.mem_cons_of_mem _ (hcount hkind), henrolled⟩

/-- A statement of a registration is executed under the lock. -/
theorem locked_of_execute (h : Interleaved txs db₀ (newer ++ e :: older) s)
    (htx : txs e.tid =
      .completeRegistration env ceremonyId capabilityHash credential now audit) {k : Sql}
    (hcall : e.call.request = .execute k) : Locked e.tid (exchanges older e.tid) := by
  obtain ⟨pool, run⟩ := h
  obtain ⟨rest, hpast, hasks⟩ := execute_past run hcall
  rw [htx] at hasks
  rw [hpast]
  refine List.mem_cons_of_mem _ (Conversation.completeRegistration_locks hasks ?_)
  rw [hcall]
  exact nofun

/-- The ceremony that a registration spent is the one it names. -/
theorem spent_ceremony (h : Interleaved txs db₀ tr s) (hkeyed : Keyed (·.id) db₀.authCeremonies)
    (hopen : Open (exchanges tr t)) {userId kind : String}
    (hspent : ⟨⟨t, .execute (.consumeCeremony ceremonyId now)⟩, .ok (some (some userId, kind))⟩ ∈
      exchanges tr t) {row : Database.AuthCeremony} (hrow : row ∈ db₀.authCeremonies)
    (hid : row.id = ceremonyId) : kind = row.kind ∧ some userId = row.userId := by
  obtain ⟨e, he, rfl, hx⟩ := mem_exchanges hspent
  obtain ⟨⟨db', hstatement⟩, -⟩ := h.answered he hx
  obtain ⟨newer, older, rfl⟩ := List.append_of_mem he
  have howners := h.older.sameOwners_view (t := e.tid) fun x hx =>
    hopen x (exchanges_subset newer older e e.tid hx)
  rw [Sql.statement] at hstatement
  obtain ⟨row', hhead, howner⟩ := Option.map_eq_some_iff.1
    (congrArg Prod.fst (Except.ok.inj hstatement))
  have hmem := List.mem_of_head? hhead
  rw [List.mem_filter, decide_eq_true_eq] at hmem
  obtain ⟨hmem, hid', -⟩ := hmem
  obtain ⟨hkind, huser⟩ := howners.ceremony hkeyed hrow hmem (hid'.trans hid.symm)
  rw [Prod.mk.injEq] at howner
  exact ⟨howner.2.symm.trans hkind, howner.1.symm.trans huser⟩

/-- A bootstrap that commits has counted no credential, under the lock. -/
theorem counted_none (h : Interleaved txs db₀ (newer ++ e :: older) s)
    (hkeyed : Keyed (·.id) db₀.authCeremonies) (hcommit : e.call.request = .commit)
    (htx : txs e.tid =
      .completeRegistration env ceremonyId capabilityHash credential now audit)
    {row : Database.AuthCeremony} (hrow : row ∈ db₀.authCeremonies) (hid : row.id = ceremonyId)
    (hkind : row.kind = "operator_bootstrap") :
    ∃ newer' older' count, older = newer' ++ count :: older' ∧
      Open (exchanges older' e.tid) ∧ Locked e.tid (exchanges older' e.tid) ∧
      ¬ ∃ c, count.post.committed.Counted c := by
  obtain ⟨hopen, -⟩ := h.commit_open hcommit
  obtain ⟨userId, kind, -, hspent, hcount, -⟩ := h.registration_commit hcommit htx
  obtain ⟨rfl, -⟩ := h.older.spent_ceremony hkeyed hopen hspent hrow hid
  obtain ⟨count, hmem, htid, hx⟩ := mem_exchanges (hcount hkind)
  obtain ⟨⟨db', hstatement⟩, hsame⟩ := h.older.answered hmem hx
  obtain ⟨newer', older', rfl⟩ := List.append_of_mem hmem
  have hsubset := exchanges_subset newer' older' count e.tid
  have hopen' : Open (exchanges older' e.tid) := fun x hx => hopen x (hsubset hx)
  have hkeeps : ∀ x ∈ exchanges older' e.tid,
      StoreTransaction.revokes x.call.request = false :=
    fun x hx => h.revokes_none hcommit (by rw [htx]; exact id) x (hsubset hx)
  have hcall : count.call.request = .execute .countOperatorCredentials :=
    congrArg (fun y => y.call.request) hx
  have hlocked := h.older.locked_of_execute (htid ▸ htx) hcall
  rw [htid] at hlocked
  refine ⟨newer', older', count, rfl, hopen', hlocked, ?_⟩
  -- a committed credential is in the transaction's view as well, where it counted none
  rintro ⟨c, hc⟩
  rw [hsame] at hc
  have hview := h.older.older.counted_view hopen' hkeeps hc
  have hempty : (count.pre.view e.tid).operatorCredentials = [] :=
    List.length_eq_zero_iff.1 (congrArg Prod.fst (Except.ok.inj hstatement))
  exact Database.operatorCredentials_eq_nil.1 hempty ⟨c, hview⟩

end Registration

/-- **A bootstrap commits while no operator credential is committed.** Between its count and its
    commit no other registration can commit, and a break-glass adds none. -/
theorem none_before (h : Interleaved txs db₀ (newer ++ e :: older) s)
    (hkeyed : Keyed (·.id) db₀.authCeremonies) (hcommit : e.call.request = .commit)
    (hboot : (txs e.tid).Bootstraps db₀) : ¬ ∃ c, e.pre.committed.Counted c := by
  cases htx : txs e.tid with
  | breakGlass =>
      rw [htx] at hboot
      exact hboot.elim
  | completeRegistration env ceremonyId capabilityHash credential now audit =>
      rw [htx] at hboot
      obtain ⟨row, hrow, hid, hkind⟩ := hboot
      obtain ⟨newer', older', count, rfl, hopen, hlocked, hnone⟩ :=
        h.counted_none hkeyed hcommit htx hrow hid hkind
      obtain ⟨hopenAll, -⟩ := h.commit_open hcommit
      intro hsome
      obtain ⟨pool, run⟩ := h.older
      obtain ⟨e', he', hbefore, hafter⟩ :=
        run.origin_after (F := fun s => ∃ c, s.committed.Counted c) hnone hsome
      -- another client committed in between
      obtain ⟨mid, rest, rfl⟩ := List.append_of_mem he'
      have hhere := h.older
      rw [List.append_assoc, List.cons_append] at hhere hopenAll
      have hcommits : SqlCommits e' := by
        refine hhere.commits_of_changed fun heq => hbefore ?_
        rwa [heq] at hafter
      have hother : e.tid ≠ e'.tid := by
        intro heq
        have hmem : e'.exchange ∈ exchanges (mid ++ e' :: (rest ++ count :: older')) e'.tid :=
          mem_exchanges_of_mem (by simp)
        rw [← heq] at hmem
        have hends := (hopenAll _ hmem).2
        rw [Event.exchange, hcommits.1] at hends
        cases hends
      cases htx' : txs e'.tid with
      | breakGlass =>
          obtain ⟨c, hc⟩ := hafter
          exact hbefore ⟨c, hhere.counted_of_breakGlass hcommits (by rw [htx']; trivial) hc⟩
      | completeRegistration =>
          -- both would hold the lock
          obtain ⟨hopen', -⟩ := hhere.commit_open hcommits.1
          obtain ⟨-, -, hlocked', -⟩ := hhere.registration_commit hcommits.1 htx'
          refine hother (hhere.older.one_holder (fun x hx => hopenAll x ?_) ?_ hopen' hlocked')
          · exact exchanges_subset mid _ e' e.tid hx
          · exact exchanges_subset rest older' count e.tid hlocked

/-- After a bootstrap's commit, its credential is the only one that counts. -/
theorem counted_after (h : Interleaved txs db₀ (newer ++ e :: older) s)
    (hkeyed : Keyed (·.id) db₀.authCeremonies)
    (hoperator : ∀ row ∈ db₀.authCeremonies, row.kind = "operator_bootstrap" →
      ∃ userId, row.userId = some userId ∧ db₀.IsOperator userId)
    (hcommit : SqlCommits e) (hboot : (txs e.tid).Bootstraps db₀) :
    ∃ row, (txs e.tid).Enrols row ∧ ∀ c, e.post.committed.Counted c ↔ c = row := by
  have hnone := h.none_before hkeyed hcommit.1 hboot
  obtain ⟨hrequest, hview⟩ := hcommit
  obtain ⟨hopen, -⟩ := h.commit_open hrequest
  have hbuilt := h.older.built hopen
  cases htx : txs e.tid with
  | breakGlass =>
      rw [htx] at hboot
      exact hboot.elim
  | completeRegistration env ceremonyId capabilityHash credential now audit =>
      rw [htx] at hboot
      obtain ⟨ceremony, hceremony, hid, hkind⟩ := hboot
      obtain ⟨userId, kind, -, hspent, -, henrolled⟩ := h.registration_commit hrequest htx
      obtain ⟨-, howner⟩ := h.older.spent_ceremony hkeyed hopen hspent hceremony hid
      obtain ⟨owner, hsome, hrole⟩ := hoperator ceremony hceremony hkind
      obtain rfl : owner = userId := Option.some.inj (hsome.symm.trans howner.symm)
      refine ⟨credential.row env.fresh owner now, ⟨owner, rfl⟩, fun c => ?_⟩
      rw [hview]
      constructor
      · rintro ⟨hmem, hrevoked, hcounts⟩
        rcases hbuilt.unrevoked _ c hmem hrevoked with hmem | hmem
        · -- a row that was there before is not counted at the commit (`none_before`)
          exact absurd ⟨c, hmem, hrevoked, (hbuilt.owners _).isOperator.1 hcounts⟩ hnone
        · rw [henrolled] at hmem
          exact List.mem_singleton.1 hmem
      · rintro rfl
        -- a registration revokes nothing, so its own row is there at the end
        have hkeeps := h.revokes_none hrequest (by rw [htx]; exact id)
        refine ⟨hbuilt.kept hkeeps _ _ (Or.inr ?_), rfl,
          (h.older.sameOwners_view hopen).isOperator.2 hrole⟩
        rw [henrolled]
        exact List.mem_singleton_self _

/-- Only a break-glass takes the last operator credential. -/
theorem breakGlass_of_none (h : Interleaved txs db₀ (newer ++ e :: older) s)
    (hbefore : ∃ c, e.pre.committed.Counted c) (hafter : ¬ ∃ c, e.post.committed.Counted c) :
    SqlCommits e ∧ (txs e.tid).BreaksGlass := by
  have hcommits : SqlCommits e := by
    refine h.commits_of_changed fun heq => hafter ?_
    rwa [heq]
  refine ⟨hcommits, ?_⟩
  by_contra htx
  obtain ⟨c, hc⟩ := hbefore
  refine hafter ⟨c, ?_⟩
  rw [hcommits.2]
  exact h.older.counted_view (h.commit_open hcommits.1).1 (h.revokes_none hcommits.1 htx) hc

end

end Interleaved

/-- The user of a bootstrap ceremony is an operator. -/
theorem History.bootstrap_operator {τ : Type} [DecidableEq τ] [Crates] {config : AuthConfig}
    {engine : CeremonyEngine} {ops : τ → Operation} {tr : List (AuthEvent τ)} {db : Database}
    (h : History config engine ops tr db) {row : Database.AuthCeremony}
    (hrow : row ∈ db.authCeremonies) (hkind : row.kind = "operator_bootstrap") :
    ∃ userId, row.userId = some userId ∧ db.IsOperator userId := by
  cases h.provenance hrow with
  | registration t token purpose now seed capability operation kind =>
      rw [hkind] at kind
      exact absurd kind (by decide)
  | operatorRecovery capability kind =>
      rw [hkind] at kind
      exact absurd kind (by decide)
  | authentication kind =>
      rw [hkind] at kind
      exact absurd kind (by decide)
  | operatorBootstrap e now seed user operation kind seen start owner hash =>
      obtain ⟨env, hperform⟩ := h.succeeded seen start
      obtain ⟨u, hu, hrole, -, -, hdecodes⟩ :=
        PgAuthStore.operatorWithoutCredential_found hperform
      obtain ⟨u', hu', hbecomes⟩ := (h.evolves_from seen).humanUsers.exists_of_mem hu
      refine ⟨user.id.value, owner, u', hu', ?_, ?_⟩
      · rw [hbecomes.fixed]
        exact hdecodes.id
      · rw [hbecomes.fixed]
        exact hrole

/-- **Of concurrent operator bootstraps, one wins.** Whenever a bootstrap commits, no operator
    credential was committed before it and only its own is after it; and of two bootstraps that
    commit, a break-glass committed in between. -/
theorem one_bootstrap_wins {τ τ' : Type} [DecidableEq τ] [DecidableEq τ'] [Crates]
    {config : AuthConfig} {engine : CeremonyEngine} {ops : τ' → Operation}
    {tr₀ : List (AuthEvent τ')} {db₀ : Database} (h₀ : History config engine ops tr₀ db₀)
    {txs : τ → StoreTransaction} {tr : List (SqlEvent τ)} {s : Server τ Database}
    (h : Interleaved txs db₀ tr s) :
    (∀ e ∈ tr, SqlCommits e → (txs e.tid).Bootstraps db₀ →
      e.pre.committed.operatorCredentials = [] ∧
      ∃ row, (txs e.tid).Enrols row ∧ (∃ u, (row, u) ∈ e.post.committed.operatorCredentials) ∧
        ∀ x ∈ e.post.committed.operatorCredentials, x.1 = row) ∧
    ∀ e₁ e₂, Precedes tr e₁ e₂ → SqlCommits e₁ → SqlCommits e₂ →
      (txs e₁.tid).Bootstraps db₀ → (txs e₂.tid).Bootstraps db₀ →
      ∃ e, Precedes tr e₁ e ∧ Precedes tr e e₂ ∧ SqlCommits e ∧ (txs e.tid).BreaksGlass := by
  have hkeyed := h₀.consistent.ceremonyIds
  have hoperator : ∀ row ∈ db₀.authCeremonies, row.kind = "operator_bootstrap" →
      ∃ userId, row.userId = some userId ∧ db₀.IsOperator userId :=
    fun _ hrow hkind => h₀.bootstrap_operator hrow hkind
  constructor
  · intro e he hcommit hboot
    obtain ⟨newer, older, rfl⟩ := List.append_of_mem he
    obtain ⟨row, henrols, hiff⟩ := h.counted_after hkeyed hoperator hcommit hboot
    exact ⟨Database.operatorCredentials_eq_nil.2 (h.none_before hkeyed hcommit.1 hboot), row,
      henrols, ((hiff row).2 rfl).mem, fun x hx => (hiff x.1).1 (Database.counted_of_mem hx)⟩
  · intro e₁ e₂ hprec hcommit₁ hcommit₂ hboot₁ hboot₂
    obtain ⟨newer, older, rfl, hmem⟩ := precedes_iff_split.1 hprec
    obtain ⟨mid, old, rfl⟩ := List.append_of_mem hmem
    obtain ⟨row, -, hiff⟩ := h.older.counted_after hkeyed hoperator hcommit₁ hboot₁
    -- no credential is left before the second commit: a step in between took the first one's
    have hnone := h.none_before hkeyed hcommit₂.1 hboot₂
    obtain ⟨pool, run⟩ := h.older
    obtain ⟨e, he, hbefore, hafter⟩ :=
      run.origin_after (F := fun s => ¬ ∃ c, s.committed.Counted c)
        (fun hnot => hnot ⟨row, (hiff row).2 rfl⟩) hnone
    obtain ⟨before, after, rfl⟩ := List.append_of_mem he
    have hhere := h.older
    rw [List.append_assoc, List.cons_append] at hhere
    obtain ⟨hcommits, hbreaks⟩ := hhere.breakGlass_of_none (not_not.1 hbefore) hafter
    refine ⟨e, ?_, ?_, hcommits, hbreaks⟩
    · exact precedes_iff_split.2
        ⟨newer ++ e₂ :: before, after ++ e₁ :: old, by simp, by simp⟩
    · exact precedes_iff_split.2
        ⟨newer, before ++ e :: (after ++ e₁ :: old), by simp, by simp⟩

section Sample

attribute [local instance] Reference.crates

/-- Two operators are seeded at once, and a bootstrap is started for each. -/
def sampleStarts : List Operation :=
  [.seedOperator sampleOperator "operator@example.com" "Operator" 1 1,
    .seedOperator sampleColleague "alice@example.com" "Alice" 0 2,
    .startOperatorBootstrap 2 0 10, .startOperatorBootstrap 2 0 11]

def sampleStartSchedule : List (ℕ × Uuid) :=
  [(0, 0), (1, 0), (0, 0), (1, 0), (0, 0), (2, 0), (2, 0), (2, 0), (1, 0), (3, 0), (3, 0), (3, 0)]

/-- Where this leads. -/
def sampleStart : Database where
  humanUsers := [⟨"operator", 1, "operator@example.com", "Operator", "operator", true, 1, 1, 1⟩,
    ⟨"alice", 2, "alice@example.com", "Alice", "operator", true, 1, 0, 0⟩]
  passkeyCredentials := []
  authCapabilities := []
  authCeremonies := [⟨10, "operator_bootstrap", some "operator", none, .null, 300000002, none, 0⟩,
    ⟨11, "operator_bootstrap", some "alice", none, .null, 300000002, none, 0⟩]
  authSessions := []
  recoveryRequests := []
  authAuditEvents := [⟨1, "operator.seeded", none, some "operator", .object []⟩,
    ⟨0, "operator.seeded", none, some "alice", .object []⟩]

theorem sampleStart_history :
    History .default sampleEngine (sampleOperations sampleStarts)
      (sampleRun sampleStarts sampleStartSchedule).trace sampleStart :=
  sampleRun_history sampleStarts sampleStartSchedule

/-- Both bootstraps are completed, and the first one's credential is revoked by a break-glass. -/
def sampleTransactions : ℕ → StoreTransaction
  | 0 => .completeRegistration (sampleEnv 30) 10 none ⟨asBytes "k", .null⟩ 3
      ⟨"passkey.registered", some sampleOperator, some sampleOperator, .null⟩
  | 1 => .completeRegistration (sampleEnv 31) 11 none ⟨asBytes "l", .null⟩ 3
      ⟨"passkey.registered", some sampleColleague, some sampleColleague, .null⟩
  | _ => .breakGlass (sampleEnv 0) 30
      ⟨60, sampleOperator, .operatorRecovery, (sampleToken 7).hash, 100⟩ 3 "lost platform passkey"

/-- The break-glass runs between the second bootstrap's lock and its count. -/
def sampleInterleaving :=
  play (fun _ : Unit => performSql) (.idle sampleStart)
    (fun t => ((sampleTransactions t).program t).run)
    (([0, 1, 2] ++ List.replicate 7 0 ++ [1, 1] ++ List.replicate 8 2 ++ List.replicate 5 1).map
      (fun t => (t, ())))

theorem sampleInterleaving_interleaved :
    Interleaved sampleTransactions sampleStart sampleInterleaving.trace
      sampleInterleaving.state := by
  refine ⟨_, (play_run (fun _ : Unit => performSql) _ _ _).mono ?_⟩
  rintro c a r b ⟨_, h⟩
  obtain ⟨rfl, rfl⟩ := Prod.mk.inj h
  exact effect_perform Sql.run Sql.onError .store c a

/-- The event is of client `t` and changes the number of credentials. -/
def registersAs (t : ℕ) (e : SqlEvent ℕ) : Bool :=
  decide (e.tid = t ∧
    e.post.committed.passkeyCredentials.length ≠ e.pre.committed.passkeyCredentials.length)

theorem commits_of_registersAs {t : ℕ} {e : SqlEvent ℕ} (he : e ∈ sampleInterleaving.trace)
    (h : registersAs t e = true) : SqlCommits e := by
  obtain ⟨newer, older, htrace⟩ := List.append_of_mem he
  have hrun := sampleInterleaving_interleaved
  rw [htrace] at hrun
  refine hrun.commits_of_changed fun heq => (of_decide_eq_true h).2 ?_
  rw [heq]

/-- Both bootstraps win, one after the other: a break-glass commits in between. -/
theorem one_bootstrap_wins_sample :
    ∃ e₁ e e₂, Precedes sampleInterleaving.trace e₁ e ∧ Precedes sampleInterleaving.trace e e₂ ∧
      e₁.tid = 0 ∧ e₂.tid = 1 ∧ (sampleTransactions e.tid).BreaksGlass ∧
      e₁.pre.committed.operatorCredentials = [] ∧ e₂.pre.committed.operatorCredentials = [] := by
  have hrun : hasChain [registersAs 1, registersAs 0] sampleInterleaving.trace = true := by
    decide +kernel
  obtain ⟨e₁, e₂, hprec, h₁, h₂⟩ := exists_precedes hrun
  have hcommit₁ := commits_of_registersAs hprec.left_mem h₁
  have hcommit₂ := commits_of_registersAs hprec.right_mem h₂
  have htid₁ : e₁.tid = 0 := (of_decide_eq_true h₁).1
  have htid₂ : e₂.tid = 1 := (of_decide_eq_true h₂).1
  have hboot₁ : (sampleTransactions e₁.tid).Bootstraps sampleStart := by
    rw [htid₁]
    exact ⟨_, List.mem_cons_self, rfl, rfl⟩
  have hboot₂ : (sampleTransactions e₂.tid).Bootstraps sampleStart := by
    rw [htid₂]
    exact ⟨_, List.mem_cons_of_mem _ List.mem_cons_self, rfl, rfl⟩
  obtain ⟨hwins, hbetween⟩ :=
    one_bootstrap_wins sampleStart_history sampleInterleaving_interleaved
  obtain ⟨e, hfirst, hsecond, -, hbreaks⟩ :=
    hbetween e₁ e₂ hprec hcommit₁ hcommit₂ hboot₁ hboot₂
  exact ⟨e₁, e, e₂, hfirst, hsecond, htid₁, htid₂, hbreaks,
    (hwins e₁ hprec.left_mem hcommit₁ hboot₁).1, (hwins e₂ hprec.right_mem hcommit₂ hboot₂).1⟩

end Sample

end RsConsole
