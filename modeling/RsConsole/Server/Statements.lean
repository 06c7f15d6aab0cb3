import RsConsole.Library.Isolation
import RsConsole.Server.Effects

set_option autoImplicit false

/-! # Two transactions, statement by statement

`complete_registration` and `break_glass` once more, now as what they ask of their connection, so
that the statements of several transactions can be interleaved. A statement selects rows by what it
sees; what it writes is a change of the committed tables: an `UPDATE` concerns the rows it selected,
an `INSERT` adds its row. Executed alone, a transaction does what the repository's method does
(`StoreTransaction.alone`). -/

namespace RsConsole

open Library Library.Table Library.Isolation

/-! ## Statements -/

/-- The statements of the two transactions. -/
inductive Sql where
  | consumeCeremony (id : Uuid) (now : DateTime)
  | countOperatorCredentials
  | consumeCapability (hash : List UInt8) (now : DateTime)
  | insertPasskeyCredential (credential : Database.PasskeyCredential)
  | completeRecoveries (userId : Option String) (now : DateTime)
  | insertAuthAuditEvent (event : Database.AuthAuditEvent)
  | revokeOperatorCredential (id : Uuid) (now : DateTime)
  | advanceEpochs (userId : String) (now : DateTime)
  | revokeSessions (userId : String) (now : DateTime)
  | consumeCeremonies (userId : String) (now : DateTime)
  | consumeCapabilities (userId : String) (now : DateTime)
  | insertAuthCapability (capability : Database.AuthCapability)

namespace Sql

abbrev Reply : Sql → Type
  | consumeCeremony .. => Option (Option String × String)
  | countOperatorCredentials => ℕ
  | consumeCapability .. => ℕ
  | revokeOperatorCredential .. => Option String
  | advanceEpochs .. => ℕ
  | _ => Unit

/-- The statement, executed alone. -/
def statement : (k : Sql) → Database.Statement k.Reply
  | consumeCeremony id now => Database.consumeCeremony id now
  | countOperatorCredentials => Database.select (fun db => db.operatorCredentials.length)
  | consumeCapability hash now => Database.consumeCapability hash now
  | insertPasskeyCredential credential => Database.insertPasskeyCredential credential
  | completeRecoveries userId now => Database.completeRecoveries userId now
  | insertAuthAuditEvent event => Database.insertAuthAuditEvent event
  | revokeOperatorCredential id now => Database.revokeOperatorCredential id now
  | advanceEpochs userId now => Database.advanceEpochs (fun u => u.id = userId) now
  | revokeSessions userId now => Database.revokeSessions (fun s => s.userId = userId) now
  | consumeCeremonies userId now =>
      Database.consumeCeremonies (fun c => c.userId = some userId) now
  | consumeCapabilities userId now => Database.consumeCapabilities (fun c => c.userId = userId) now
  | insertAuthCapability capability => Database.insertAuthCapability capability

/-- Update the rows whose versions in `view` satisfy `p`. -/
def rewrite {ρ κ : Type} [DecidableEq κ] (key : ρ → κ) (p : ρ → Bool) (f : ρ → ρ)
    (view rows : List ρ) : List ρ :=
  updateWhere (fun r => view.any (fun r' => decide (key r' = key r) && p r')) f rows

/-- What the statement writes, when its transaction sees `view`. -/
def writes (view : Database) : Sql → Database → Database
  | consumeCeremony id now, db =>
      { db with
        authCeremonies := rewrite (·.id) (fun c => decide (c.id = id ∧ c.Live now))
          (fun c => { c with consumedAt := some now }) view.authCeremonies db.authCeremonies }
  | countOperatorCredentials, db => db
  | consumeCapability hash now, db =>
      { db with
        authCapabilities := rewrite (·.id) (fun c => decide (c.tokenHash = hash ∧ c.Live now))
          (fun c => { c with consumedAt := some now }) view.authCapabilities db.authCapabilities }
  | insertPasskeyCredential credential, db =>
      { db with passkeyCredentials := db.passkeyCredentials ++ [credential] }
  | completeRecoveries userId now, db =>
      { db with
        recoveryRequests := rewrite (·.id) (fun r => decide (some r.userId = userId ∧
            r.approvedAt ≠ none ∧ r.setupIssuedAt ≠ none ∧ r.completedAt = none))
          (fun r => { r with completedAt := some now }) view.recoveryRequests db.recoveryRequests }
  | insertAuthAuditEvent event, db => { db with authAuditEvents := db.authAuditEvents ++ [event] }
  | revokeOperatorCredential id now, db =>
      { db with
        passkeyCredentials := rewrite (·.id) (fun c => decide (c.id = id ∧ c.revokedAt = none ∧
            ∃ u ∈ view.humanUsers, u.id = c.userId ∧ u.role = "operator"))
          (fun c => { c with revokedAt := some now })
          view.passkeyCredentials db.passkeyCredentials }
  | advanceEpochs userId now, db =>
      { db with
        humanUsers := rewrite (·.id) (fun u => decide (u.id = userId))
          (fun u => { u with authEpoch := u.authEpoch + 1, updatedAt := now })
          view.humanUsers db.humanUsers }
  | revokeSessions userId now, db =>
      { db with
        authSessions := rewrite (·.id)
          (fun s => decide (s.userId = userId) && decide (s.revokedAt = none))
          (fun s => { s with revokedAt := some now }) view.authSessions db.authSessions }
  | consumeCeremonies userId now, db =>
      { db with
        authCeremonies := rewrite (·.id)
          (fun c => decide (c.userId = some userId) && decide (c.consumedAt = none))
          (fun c => { c with consumedAt := some now }) view.authCeremonies db.authCeremonies }
  | consumeCapabilities userId now, db =>
      { db with
        authCapabilities := rewrite (·.id)
          (fun c => decide (c.userId = userId) && decide (c.consumedAt = none))
          (fun c => { c with consumedAt := some now }) view.authCapabilities db.authCapabilities }
  | insertAuthCapability capability, db =>
      { db with authCapabilities := db.authCapabilities ++ [capability] }

/-- Execute the statement in a transaction that sees `view`. -/
def run (k : Sql) (view : Database) : Except SqlError (k.Reply × (Database → Database)) :=
  (k.statement view).map (fun out => (out.1, k.writes view))

/-- How the code maps the database's errors. -/
def onError : Sql → SqlError → AuthError
  | insertPasskeyCredential _ => uniqueConflict
  | _ => fun _ => .store

theorem rewrite_self {ρ κ : Type} [DecidableEq κ] {key : ρ → κ} (p : ρ → Bool) (f : ρ → ρ)
    {rows : List ρ} (h : Keyed key rows) : rewrite key p f rows rows = updateWhere p f rows := by
  refine List.map_congr_left fun r hr => ?_
  have hsame : rows.any (fun r' => decide (key r' = key r) && p r') = p r := by
    rw [Bool.eq_iff_iff, List.any_eq_true]
    constructor
    · rintro ⟨r', hr', hboth⟩
      rw [Bool.and_eq_true, decide_eq_true_eq] at hboth
      rw [← h.eq_of_mem hr' hr hboth.1]
      exact hboth.2
    · intro hp
      exact ⟨r, hr, by rw [hp, decide_eq_true rfl, Bool.and_self]⟩
  simp only [hsame]

variable {k : Sql} {a : k.Reply} {db db' : Database}

/-- **Executed alone, a statement writes what it writes in an interleaving.** -/
theorem writes_self (h : k.statement db = .ok (a, db')) (hc : Database.Consistent db) :
    k.writes db db = db' := by
  cases k with
  | consumeCeremony id now =>
      cases h
      rw [writes, rewrite_self _ _ hc.ceremonyIds]
  | countOperatorCredentials =>
      cases h
      rfl
  | consumeCapability hash now =>
      cases h
      rw [writes, rewrite_self _ _ hc.capabilityIds]
  | insertPasskeyCredential credential => exact (Database.insertPasskeyCredential_ok h).1.symm
  | completeRecoveries userId now =>
      cases h
      rw [writes, rewrite_self _ _ hc.recoveryIds]
  | insertAuthAuditEvent event => exact (Database.insertAuthAuditEvent_ok h).symm
  | revokeOperatorCredential id now =>
      cases h
      rw [writes, rewrite_self _ _ hc.credentialRowIds]
  | advanceEpochs userId now =>
      rw [Database.advanceEpochs_ok h, writes, rewrite_self _ _ hc.userIds]
  | revokeSessions userId now =>
      cases h
      rw [writes, rewrite_self _ _ hc.sessionIds]
  | consumeCeremonies userId now =>
      cases h
      rw [writes, rewrite_self _ _ hc.ceremonyIds]
  | consumeCapabilities userId now =>
      cases h
      rw [writes, rewrite_self _ _ hc.capabilityIds]
  | insertAuthCapability capability => exact (Database.insertAuthCapability_ok h).1.symm

theorem statement_consistent (h : k.statement db = .ok (a, db')) (hc : Database.Consistent db) :
    Database.Consistent db' := by
  have hwrite : Database.Write [.passkeyCredentials, .authAuditEvents, .authCapabilities] db db' ∨
      db' = db := by
    cases k with
    | consumeCeremony => exact Or.inl (Database.consumeCeremony_write h)
    | countOperatorCredentials =>
        cases h
        exact Or.inr rfl
    | consumeCapability => exact Or.inl (Database.consumeCapability_write h)
    | insertPasskeyCredential credential =>
        obtain ⟨rfl, hfresh⟩ := Database.insertPasskeyCredential_ok h
        exact Or.inl (.insertPasskeyCredential (by simp) hfresh)
    | completeRecoveries => exact Or.inl (Database.completeRecoveries_write h)
    | insertAuthAuditEvent event =>
        rw [Database.insertAuthAuditEvent_ok h]
        exact Or.inl (.insertAuthAuditEvent (by simp))
    | revokeOperatorCredential => exact Or.inl (Database.revokeOperatorCredential_write h)
    | advanceEpochs => exact Or.inl (Database.advanceEpochs_write h)
    | revokeSessions => exact Or.inl (Database.revokeSessions_write h)
    | consumeCeremonies => exact Or.inl (Database.consumeCeremonies_write h)
    | consumeCapabilities => exact Or.inl (Database.consumeCapabilities_write h)
    | insertAuthCapability capability =>
        obtain ⟨rfl, hfresh⟩ := Database.insertAuthCapability_ok h
        exact Or.inl (.insertAuthCapability (by simp) hfresh)
  rcases hwrite with hwrite | rfl
  · exact hwrite.consistent hc
  · exact hc

end Sql

/-! ## Transactions -/

/-- Code that executes statements on a connection. -/
abbrev Conversation (τ α : Type) : Type :=
  ExceptT AuthError (Program (Isolation.Call τ Sql) (Answer AuthError Sql.Reply)) α

variable {τ : Type}

namespace Conversation

def execute (t : τ) (k : Sql) : Conversation τ k.Reply := Isolation.ask t (.execute k)

/-- `RETURNING user_id, kind` read as `(String, String)`: a null user does not decode. -/
def spentCeremony : Option (Option String × String) → Conversation τ (String × String)
  | none => throw .invalidState
  | some (none, _) => throw .store
  | some (some userId, kind) => pure (userId, kind)

/-- The capability a registration spends, if it names one. -/
def spendCapability (t : τ) (capabilityHash : Option SecretHash) (now : DateTime) :
    Conversation τ Unit :=
  match capabilityHash with
  | none => pure ()
  | some hash => do
      let consumed ← execute t (.consumeCapability hash.asBytes now)
      Fallible.ensure (consumed = 1) .invalidState

/-- A bootstrap finds no unrevoked operator credential. -/
def checkBootstrap (t : τ) (kind : String) : Conversation τ Unit :=
  if kind = "operator_bootstrap" then do
    let operatorCredentials ← execute t .countOperatorCredentials
    Fallible.ensure (operatorCredentials = 0) .conflict
  else pure ()

def insertAudit (t : τ) (event : AuditEvent) (now : DateTime) : Conversation τ Unit :=
  execute t (.insertAuthAuditEvent (event.row now))

def invalidateUserAuth (t : τ) (userId : String) (now : DateTime) : Conversation τ Unit := do
  let _ ← execute t (.advanceEpochs userId now)
  execute t (.revokeSessions userId now)
  execute t (.consumeCeremonies userId now)
  execute t (.consumeCapabilities userId now)

def completeRegistration (t : τ) (env : Env) (ceremonyId : Uuid)
    (capabilityHash : Option SecretHash) (credential : VerifiedCredential) (now : DateTime)
    (audit : AuditEvent) : Conversation τ Unit := do
  Isolation.ask t .lock
  let spent ← execute t (.consumeCeremony ceremonyId now)
  let (userId, kind) ← spentCeremony spent
  checkBootstrap t kind
  spendCapability t capabilityHash now
  execute t (.insertPasskeyCredential (credential.row env.fresh userId now))
  execute t (.completeRecoveries (audit.subjectUserId.map (·.value)) now)
  insertAudit t audit now

def breakGlass (t : τ) (env : Env) (credentialId : Uuid) (capability : Capability)
    (now : DateTime) (reason : String) : Conversation τ Unit := do
  let revoked ← execute t (.revokeOperatorCredential credentialId now)
  let userId ← Fallible.okOr .conflict revoked
  Fallible.ensure (capability.userId.value = userId) .forbidden
  invalidateUserAuth t userId now
  execute t (.insertAuthCapability (capability.row env.clock))
  insertAudit t
    { eventType := "operator.break_glass_opened"
      actorUserId := none
      subjectUserId := some capability.userId
      data := .object [("credential_id", .string (uuidText credentialId)),
        ("reason", .string reason)] } now

end Conversation

/-- A transaction with its arguments. -/
inductive StoreTransaction where
  | completeRegistration (env : Env) (ceremonyId : Uuid) (capabilityHash : Option SecretHash)
      (credential : VerifiedCredential) (now : DateTime) (audit : AuditEvent)
  | breakGlass (env : Env) (credentialId : Uuid) (capability : Capability) (now : DateTime)
      (reason : String)

namespace StoreTransaction

/-- What client `t` executes between the begin and the commit. -/
def body (t : τ) : StoreTransaction → Conversation τ Unit
  | completeRegistration env ceremonyId capabilityHash credential now audit =>
      .completeRegistration t env ceremonyId capabilityHash credential now audit
  | breakGlass env credentialId capability now reason =>
      .breakGlass t env credentialId capability now reason

def program (t : τ) (tx : StoreTransaction) : Conversation τ Unit :=
  Isolation.transaction t (tx.body t)

/-- The repository's method. -/
def method : StoreTransaction → Repo Unit
  | completeRegistration env ceremonyId capabilityHash credential now audit =>
      PgAuthStore.completeRegistration env ceremonyId capabilityHash credential now audit
  | breakGlass env credentialId capability now reason =>
      PgAuthStore.breakGlass env credentialId capability now reason

end StoreTransaction

/-! ## A transaction on its own -/

section Alone

variable [DecidableEq τ] {α β : Type} {t : τ}

/-- Perform a call, if it need not wait for the lock. -/
def performSql (c : Isolation.Call τ Sql) (s : Server τ Database) :
    Answer AuthError Sql.Reply c × Server τ Database :=
  Isolation.perform Sql.run Sql.onError .store c s

/-- A server on which only client `t` has a transaction. -/
def Occupied (t : τ) (db : Database) (g : Database → Database) (holder : Option τ) :
    Server τ Database :=
  ⟨db, Function.update (fun _ => id) t g, holder⟩

theorem pending_occupied (t : τ) (db : Database) (g : Database → Database) (holder : Option τ) :
    (Occupied t db g holder).pending t = g := by
  simp [Occupied]

theorem executed_occupied (db : Database) (g delta : Database → Database) (holder : Option τ) :
    (Occupied t db g holder).executed t delta = Occupied t db (delta ∘ g) holder := by
  rw [Server.executed, pending_occupied, Occupied, Occupied, Function.update_idem]

theorem ended_occupied (db db' : Database) (g : Database → Database) {holder : Option τ}
    (h : holder = none ∨ holder = some t) : (Occupied t db g holder).ended t db' = .idle db' := by
  have hholder : (if holder = some t then none else holder) = none := by
    rcases h with rfl | rfl
    · rfl
    · exact if_pos rfl
  rw [Server.ended, Occupied, Function.update_idem, hholder, Function.update_eq_self_iff.2 rfl]
  rfl

/-- On a server of its own, `x` does what the repository's code `y` does. -/
def Simulates (t : τ) (x : Conversation τ α) (y : Repo α) : Prop :=
  ∀ db g holder, (holder = none ∨ holder = some t) → Database.Consistent (g db) →
    ∃ r g' holder', Fallible.exec performSql x (Occupied t db g holder) =
        (r, Occupied t db g' holder') ∧ y ⟨g db, none⟩ = (r, ⟨g' db, none⟩) ∧
      (holder' = none ∨ holder' = some t) ∧ Database.Consistent (g' db)

theorem simulates_pure (a : α) : Simulates t (pure a) (pure a) :=
  fun _ g holder hholder hc => ⟨.ok a, g, holder, rfl, rfl, hholder, hc⟩

theorem simulates_fail (e : AuthError) : Simulates t (throw e) (Tx.fail e : Repo α) :=
  fun _ g holder hholder hc => ⟨.error e, g, holder, rfl, rfl, hholder, hc⟩

theorem simulates_okOr (e : AuthError) (o : Option α) :
    Simulates t (Fallible.okOr e o) (Tx.okOr e o) := by
  cases o with
  | none => exact simulates_fail e
  | some a => exact simulates_pure a

theorem simulates_ensure (p : Prop) [Decidable p] (e : AuthError) :
    Simulates t (Fallible.ensure p e) (Tx.ensure p e) := by
  unfold Fallible.ensure Tx.ensure
  split
  · exact simulates_pure ()
  · exact simulates_fail e

theorem simulates_bind {x : Conversation τ α} {y : Repo α} {f : α → Conversation τ β}
    {f' : α → Repo β} (hx : Simulates t x y) (hf : ∀ a, Simulates t (f a) (f' a)) :
    Simulates t (x >>= f) (y >>= f') := by
  intro db g holder hholder hc
  obtain ⟨r, g₁, holder₁, hexec, hrepo, hholder₁, hc₁⟩ := hx db g holder hholder hc
  cases r with
  | error e =>
      exact ⟨.error e, g₁, holder₁, Fallible.exec_bind_error hexec f, Tx.bind_of_error hrepo f',
        hholder₁, hc₁⟩
  | ok a =>
      obtain ⟨r, g₂, holder₂, hexec₂, hrepo₂, hend⟩ := hf a db g₁ holder₁ hholder₁ hc₁
      exact ⟨r, g₂, holder₂, (Fallible.exec_bind_ok hexec f).trans hexec₂,
        (Tx.bind_of_ok hrepo f').trans hrepo₂, hend⟩

theorem simulates_lock : Simulates t (Isolation.ask t .lock) (fetch (fun _ => ())) := by
  intro db g holder hholder hc
  refine ⟨.ok (), g, some t, ?_, rfl, Or.inr rfl, hc⟩
  show (if holder = none ∨ holder = some t then _ else _) = _
  rw [if_pos hholder]
  rfl

theorem exec_execute (k : Sql) (s : Server τ Database) :
    Fallible.exec performSql (Conversation.execute t k) s =
      match Sql.run k (s.view t) with
      | .ok (a, delta) => (.ok a, s.executed t delta)
      | .error d => (.error (Sql.onError k d), s) := by
  show Isolation.perform Sql.run Sql.onError .store ⟨t, .execute k⟩ s = _
  rw [Isolation.perform, Isolation.serve]
  rcases Sql.run k (s.view t) with d | ⟨a, delta⟩
  · rfl
  · rfl

theorem simulates_execute (k : Sql) :
    Simulates t (Conversation.execute t k) (Tx.exec .store (Sql.onError k) k.statement) := by
  intro db g holder hholder hc
  have hview : (Occupied t db g holder).view t = g db :=
    congrFun (pending_occupied t db g holder) db
  have hexec := exec_execute (t := t) k (Occupied t db g holder)
  rw [hview, Sql.run] at hexec
  cases hstatement : k.statement (g db) with
  | error d =>
      rw [hstatement] at hexec
      exact ⟨_, g, holder, hexec, Tx.exec_of_error hstatement, hholder, hc⟩
  | ok out =>
      obtain ⟨a, db'⟩ := out
      have hwrites : (k.writes (g db) ∘ g) db = db' := Sql.writes_self hstatement hc
      rw [hstatement] at hexec
      refine ⟨.ok a, k.writes (g db) ∘ g, holder, ?_, ?_, hholder, ?_⟩
      · rw [← executed_occupied]
        exact hexec
      · rw [hwrites]
        exact Tx.exec_of_ok hstatement
      · rw [hwrites]
        exact Sql.statement_consistent hstatement hc

/-- A transaction alone begins, executes its body and commits, or rolls back. -/
theorem exec_transaction {x : Conversation τ α} {y : Repo α} (h : Simulates t x y) {db : Database}
    (hc : Database.Consistent db) :
    Fallible.exec performSql (Isolation.transaction t x) (.idle db) =
      ((transaction y ⟨db, none⟩).1, .idle (transaction y ⟨db, none⟩).2.state) := by
  have hidle : (.idle db : Server τ Database) = Occupied t db id none := by
    rw [Occupied, Function.update_eq_self_iff.2 rfl]
    rfl
  obtain ⟨r, g, holder, hexec, hrepo, hholder, -⟩ := h db id none (Or.inl rfl) hc
  have hattempt : Fallible.exec performSql (Fallible.attempt x) (Occupied t db id none) =
      (.ok r, Occupied t db g holder) := by
    rw [Fallible.exec_attempt, hexec]
  have hbegin : Fallible.exec performSql (Isolation.ask t .begin) (Occupied t db id none) =
      (.ok (), Occupied t db id none) := rfl
  have hview : (Occupied t db g holder).view t = g db :=
    congrFun (pending_occupied t db g holder) db
  rw [hidle, Isolation.transaction, Fallible.exec_bind_ok hbegin, Fallible.exec_bind_ok hattempt]
  -- what the body wrote is committed as one step, or dropped with the rollback
  cases r with
  | ok a =>
      have hcommit : Fallible.exec performSql (Isolation.ask t .commit) (Occupied t db g holder) =
          (.ok (), .idle (g db)) := by
        rw [← hview, ← ended_occupied db _ g hholder]
        rfl
      have hmethod : transaction y ⟨db, none⟩ = (.ok a, ⟨g db, none⟩) :=
        Tx.transaction_of_ok hrepo
      rw [hmethod]
      exact Fallible.exec_bind_ok hcommit _
  | error e =>
      have hrollback : Fallible.exec performSql (Isolation.ask t .rollback) (Occupied t db g holder) =
          (.ok (), .idle db) := by
        rw [← ended_occupied db db g hholder]
        rfl
      have hignored : Fallible.exec performSql (Fallible.attempt (Isolation.ask t .rollback))
          (Occupied t db g holder) = (.ok (.ok ()), .idle db) := by
        rw [Fallible.exec_attempt, hrollback]
      have hmethod : transaction y ⟨db, none⟩ = (.error e, ⟨db, none⟩) :=
        Tx.transaction_of_error hrepo
      rw [hmethod]
      exact Fallible.exec_bind_ok hignored _

theorem simulates_spentCeremony (spent : Option (Option String × String)) :
    Simulates t (Conversation.spentCeremony spent) (PgAuthStore.spentCeremony spent) := by
  unfold Conversation.spentCeremony PgAuthStore.spentCeremony
  split
  · exact simulates_fail _
  · exact simulates_fail _
  · exact simulates_pure _

theorem simulates_checkBootstrap (kind : String) :
    Simulates t (Conversation.checkBootstrap t kind) (PgAuthStore.checkBootstrap kind) := by
  unfold Conversation.checkBootstrap PgAuthStore.checkBootstrap
  split
  · exact simulates_bind (simulates_execute .countOperatorCredentials)
      fun n => simulates_ensure (n = 0) .conflict
  · exact simulates_pure ()

theorem simulates_spendCapability (capabilityHash : Option SecretHash) (now : DateTime) :
    Simulates t (Conversation.spendCapability t capabilityHash now)
      (PgAuthStore.spendCapability capabilityHash now) := by
  unfold Conversation.spendCapability PgAuthStore.spendCapability
  split
  · exact simulates_pure ()
  · exact simulates_bind (simulates_execute (.consumeCapability _ now))
      fun n => simulates_ensure (n = 1) .invalidState

theorem simulates_invalidateUserAuth (userId : String) (now : DateTime) :
    Simulates t (Conversation.invalidateUserAuth t userId now)
      (RsConsole.invalidateUserAuth userId now) :=
  simulates_bind (simulates_execute (.advanceEpochs userId now)) fun _ =>
    simulates_bind (simulates_execute (.revokeSessions userId now)) fun _ =>
      simulates_bind (simulates_execute (.consumeCeremonies userId now)) fun _ =>
        simulates_execute (.consumeCapabilities userId now)

/-- **Alone, a transaction does what the repository's method does.** -/
theorem StoreTransaction.alone (tx : StoreTransaction) (t : τ) {db : Database}
    (hc : Database.Consistent db) :
    Fallible.exec performSql (tx.program t) (.idle db) =
      ((tx.method ⟨db, none⟩).1, .idle (tx.method ⟨db, none⟩).2.state) := by
  cases tx with
  | completeRegistration env ceremonyId capabilityHash credential now audit =>
      refine exec_transaction ?_ hc
      refine simulates_bind simulates_lock fun _ => ?_
      refine simulates_bind (simulates_execute (.consumeCeremony ceremonyId now)) fun spent => ?_
      refine simulates_bind (simulates_spentCeremony spent) fun owner => ?_
      refine simulates_bind (simulates_checkBootstrap owner.2) fun _ => ?_
      refine simulates_bind (simulates_spendCapability capabilityHash now) fun _ => ?_
      refine simulates_bind (simulates_execute (.insertPasskeyCredential _)) fun _ => ?_
      refine simulates_bind (simulates_execute (.completeRecoveries _ now)) fun _ => ?_
      exact simulates_execute (.insertAuthAuditEvent _)
  | breakGlass env credentialId capability now reason =>
      refine exec_transaction ?_ hc
      refine simulates_bind (simulates_execute (.revokeOperatorCredential credentialId now))
        fun revoked => ?_
      refine simulates_bind (simulates_okOr .conflict revoked) fun userId => ?_
      refine simulates_bind (simulates_ensure (capability.userId.value = userId) .forbidden)
        fun _ => ?_
      refine simulates_bind (simulates_invalidateUserAuth userId now) fun _ => ?_
      refine simulates_bind (simulates_execute (.insertAuthCapability _)) fun _ => ?_
      exact simulates_execute (.insertAuthAuditEvent _)

end Alone

end RsConsole
