import RsConsole.Auth.Clients
import RsConsole.Library.Interleaving
import RsConsole.Server.Effects

set_option autoImplicit false

/-! # Runs of the authentication store

Any number of operations run at the same time; their store calls are performed one after another,
in any order, each as one transaction. A `History` is such a run: the calls performed so far, newest
first, and the database they led to (`StoreRun` is the same for clients that run any program). What
every call keeps holds between any two events of a history; and what a row says about its origin
leads back to the event that added it. -/

namespace RsConsole

open Library Library.Table Database PgAuthStore

variable {τ : Type}

/-- One performed store call of operation `tid`. -/
abbrev AuthEvent (τ : Type) : Type := Event τ AuthCall AuthCall.Answer Database

/-- The event is the call `c`, answered with `a`. -/
def Succeeded (e : AuthEvent τ) (c : AuthCall) (a : c.Reply) : Prop := e.exchange = ⟨c, .ok a⟩

/-- The event is the call `c`, answered with an error. -/
def Failed (e : AuthEvent τ) (c : AuthCall) : Prop := ∃ error, e.exchange = ⟨c, .error error⟩

/-- The exchange of an event, by the name of its call. -/
theorem exchange_of_call {e : AuthEvent τ} {env : Env} {c : AuthCall} (hcall : e.call = c)
    (h : perform env e.call e.pre = (e.resp, e.post)) :
    ∃ r : c.Answer, e.exchange = ⟨c, r⟩ ∧ perform env c e.pre = (r, e.post) := by
  subst hcall
  exact ⟨e.resp, rfl, h⟩

/-- An event whose exchange is known was performed as that call. -/
theorem performed_of_exchange {e : AuthEvent τ} {env : Env} {c : AuthCall} {r : c.Answer}
    (hc : e.exchange = ⟨c, r⟩) (h : perform env e.call e.pre = (e.resp, e.post)) :
    perform env c e.pre = (r, e.post) := by
  obtain ⟨tid, call, resp, pre, post⟩ := e
  obtain ⟨rfl, hresp⟩ := Exchange.mk.inj hc
  rw [eq_of_heq hresp] at h
  exact h

section StoreRun

variable [DecidableEq τ] {out : τ → Type}

/-- A run of any clients of the store from the migrated database. -/
def StoreRun (start : (t : τ) → Program AuthCall AuthCall.Answer (out t)) (tr : List (AuthEvent τ))
    (db : Database) : Prop :=
  ∃ pool, Run (effectOf perform) Database.empty start tr db pool

theorem evolves_of_performed {c : AuthCall} {a b : Database} {r : c.Answer}
    (h : effectOf perform c a r b) : Evolves a b := by
  obtain ⟨env, h⟩ := h
  exact perform_evolves h

namespace StoreRun

variable {start : (t : τ) → Program AuthCall AuthCall.Answer (out t)} {tr : List (AuthEvent τ)}
  {db : Database} {e e₁ e₂ : AuthEvent τ}

theorem older {newer older : List (AuthEvent τ)} (h : StoreRun start (newer ++ e :: older) db) :
    StoreRun start older e.pre := by
  obtain ⟨pool, run⟩ := h
  exact run.older

theorem upto {newer older : List (AuthEvent τ)} (h : StoreRun start (newer ++ e :: older) db) :
    StoreRun start (e :: older) e.post := by
  obtain ⟨pool, run⟩ := h
  exact run.upto

theorem performed (h : StoreRun start tr db) (he : e ∈ tr) :
    ∃ env, perform env e.call e.pre = (e.resp, e.post) := by
  obtain ⟨pool, run⟩ := h
  exact run.performed he

theorem succeeded (h : StoreRun start tr db) (he : e ∈ tr) {c : AuthCall} {a : c.Reply}
    (hc : Succeeded e c a) : ∃ env, perform env c e.pre = (.ok a, e.post) := by
  obtain ⟨env, hperform⟩ := h.performed he
  exact ⟨env, performed_of_exchange hc hperform⟩

theorem failed (h : StoreRun start tr db) (he : e ∈ tr) {c : AuthCall} (hc : Failed e c) :
    ∃ env error, perform env c e.pre = (.error error, e.post) := by
  obtain ⟨env, hperform⟩ := h.performed he
  obtain ⟨error, hc⟩ := hc
  exact ⟨env, error, performed_of_exchange hc hperform⟩

theorem evolves_event (h : StoreRun start tr db) (he : e ∈ tr) : Evolves e.pre e.post := by
  obtain ⟨pool, run⟩ := h
  exact evolves_of_performed (run.performed he)

theorem evolves_end (h : StoreRun start tr db) (he : e ∈ tr) : Evolves e.post db := by
  obtain ⟨pool, run⟩ := h
  exact run.rel_of_mem evolves_refl .trans (fun e he => evolves_of_performed (run.performed he)) he

theorem evolves_from (h : StoreRun start tr db) (he : e ∈ tr) : Evolves e.pre db :=
  (h.evolves_event he).trans (h.evolves_end he)

theorem evolves_between (h : StoreRun start tr db) (hprec : Precedes tr e₁ e₂) :
    Evolves e₁.post e₂.pre := by
  obtain ⟨pool, run⟩ := h
  exact run.rel_of_precedes evolves_refl .trans
    (fun e he => evolves_of_performed (run.performed he)) hprec

theorem consistent (h : StoreRun start tr db) : Database.Consistent db := by
  obtain ⟨pool, run⟩ := h
  refine run.invariant consistent_empty ?_
  rintro c a r b ⟨env, hperform⟩ ha
  exact perform_consistent hperform ha

theorem consistent_pre (h : StoreRun start tr db) (he : e ∈ tr) : Database.Consistent e.pre := by
  obtain ⟨newer, older, rfl⟩ := List.append_of_mem he
  exact h.older.consistent

/-- What holds at the start, and after every event if it held before it, holds of every run. -/
theorem induct {P : List (AuthEvent τ) → Database → Prop} (nil : P [] Database.empty)
    (step : ∀ e tr, StoreRun start tr e.pre → StoreRun start (e :: tr) e.post → P tr e.pre →
      P (e :: tr) e.post) (h : StoreRun start tr db) : P tr db := by
  obtain ⟨pool, run⟩ := h
  induction run with
  | init => exact nil
  | @step tr a b pool t c next r run ready perform ih =>
      exact step ⟨t, c, r, a, b⟩ tr ⟨pool, run⟩ ⟨_, .step run ready perform⟩ ih

end StoreRun

end StoreRun

section

variable [DecidableEq τ] [Crates] (config : AuthConfig) (engine : CeremonyEngine)
  (ops : τ → Operation)

/-- A run of the operations `ops` from the migrated database. -/
def History (tr : List (AuthEvent τ)) (db : Database) : Prop :=
  ∃ pool, Run (effectOf perform) Database.empty (fun t => (ops t).program config engine) tr db pool

end

namespace History

theorem inserts_authCeremonies {c : AuthCall} (h : .authCeremonies ∈ c.inserts) :
    ∃ ceremony, c = .insertCeremony ceremony := by
  cases c <;> simp [AuthCall.inserts] at h
  exact ⟨_, rfl⟩

theorem inserts_authSessions {c : AuthCall} (h : .authSessions ∈ c.inserts) :
    ∃ ceremonyId verification session now audit,
      c = .completeAuthentication ceremonyId verification session now audit := by
  cases c <;> simp [AuthCall.inserts] at h
  exact ⟨_, _, _, _, _, rfl⟩

theorem inserts_passkeyCredentials {c : AuthCall} (h : .passkeyCredentials ∈ c.inserts) :
    ∃ ceremonyId capabilityHash credential now audit,
      c = .completeRegistration ceremonyId capabilityHash credential now audit := by
  cases c <;> simp [AuthCall.inserts] at h
  exact ⟨_, _, _, _, _, rfl⟩

/-- The call of an event was answered with a result or with an error. -/
theorem succeeded_or_failed {e : AuthEvent τ} {c : AuthCall} (hc : e.call = c) :
    (∃ a, Succeeded e c a) ∨ Failed e c := by
  subst hc
  cases hresp : e.resp with
  | ok a => exact Or.inl ⟨a, congrArg (Exchange.mk e.call) hresp⟩
  | error error => exact Or.inr ⟨error, congrArg (Exchange.mk e.call) hresp⟩

section

variable [DecidableEq τ] [Crates] {config : AuthConfig} {engine : CeremonyEngine}
  {ops : τ → Operation} {tr : List (AuthEvent τ)} {db : Database} {e e₁ e₂ : AuthEvent τ}

/-! ## What holds along a history -/

/-- The operations are clients of the store. -/
theorem storeRun (h : History config engine ops tr db) :
    StoreRun (fun t => (ops t).program config engine) tr db := h

theorem older {newer older : List (AuthEvent τ)}
    (h : History config engine ops (newer ++ e :: older) db) :
    History config engine ops older e.pre :=
  h.storeRun.older

theorem succeeded (h : History config engine ops tr db) (he : e ∈ tr) {c : AuthCall}
    {a : c.Reply} (hc : Succeeded e c a) : ∃ env, perform env c e.pre = (.ok a, e.post) :=
  h.storeRun.succeeded he hc

theorem failed (h : History config engine ops tr db) (he : e ∈ tr) {c : AuthCall}
    (hc : Failed e c) : ∃ env error, perform env c e.pre = (.error error, e.post) :=
  h.storeRun.failed he hc

theorem evolves_event (h : History config engine ops tr db) (he : e ∈ tr) :
    Evolves e.pre e.post :=
  h.storeRun.evolves_event he

theorem evolves_end (h : History config engine ops tr db) (he : e ∈ tr) : Evolves e.post db :=
  h.storeRun.evolves_end he

theorem evolves_from (h : History config engine ops tr db) (he : e ∈ tr) : Evolves e.pre db :=
  h.storeRun.evolves_from he

theorem evolves_between (h : History config engine ops tr db) (hprec : Precedes tr e₁ e₂) :
    Evolves e₁.post e₂.pre :=
  h.storeRun.evolves_between hprec

theorem consistent (h : History config engine ops tr db) : Database.Consistent db :=
  h.storeRun.consistent

theorem consistent_pre (h : History config engine ops tr db) (he : e ∈ tr) :
    Database.Consistent e.pre :=
  h.storeRun.consistent_pre he

theorem consistent_post (h : History config engine ops tr db) (he : e ∈ tr) :
    Database.Consistent e.post := by
  obtain ⟨env, hperform⟩ := h.storeRun.performed he
  exact perform_consistent hperform (h.consistent_pre he)

/-- What holds at the start, and after every event if it held before it, holds of every history. -/
theorem induct {P : List (AuthEvent τ) → Database → Prop} (nil : P [] Database.empty)
    (step : ∀ e tr, History config engine ops tr e.pre → History config engine ops (e :: tr) e.post →
      P tr e.pre → P (e :: tr) e.post) (h : History config engine ops tr db) : P tr db :=
  h.storeRun.induct nil step

/-- An operation asked the event's call because of what it had been answered by earlier events. -/
theorem explained (h : History config engine ops tr db) (he : e ∈ tr) :
    ∃ past, Explained config (ops e.tid) past e.call ∧
      (∀ c a, Answered past c a →
        ∃ e₀, Precedes tr e₀ e ∧ e₀.tid = e.tid ∧ Succeeded e₀ c a) ∧
      ∀ e₀, Precedes tr e₀ e → e₀.tid = e.tid → e₀.exchange ∈ past := by
  obtain ⟨pool, run⟩ := h
  obtain ⟨past, hasks, hback, hforth⟩ := run.asks_of_mem he
  exact ⟨past, explained_of_asks hasks, fun c a ha => hback _ ha, hforth⟩

/-- `explained` for a call with a known answer. -/
theorem explained_of_succeeded (h : History config engine ops tr db) (he : e ∈ tr) {c : AuthCall}
    {a : c.Reply} (hc : Succeeded e c a) :
    ∃ past, Explained config (ops e.tid) past c ∧
      (∀ c a, Answered past c a →
        ∃ e₀, Precedes tr e₀ e ∧ e₀.tid = e.tid ∧ Succeeded e₀ c a) ∧
      ∀ e₀, Precedes tr e₀ e → e₀.tid = e.tid → e₀.exchange ∈ past := by
  have hcall : e.call = c := congrArg Exchange.call hc
  rw [← hcall]
  exact h.explained he

/-! ## Where rows come from -/

/-- A row that was not there before an event and is there after it was added by its call. -/
theorem adds {ρ κ : Type} [DecidableEq κ] {rel : ρ → ρ → Prop} {key : ρ → κ}
    {rows : Database → List ρ} {t : TableName} (hkey : ∀ a b, rel a b → key b = key a)
    (hcount : ∀ db, rowCount db t = (rows db).length)
    (hgrows : ∀ {a b}, Evolves a b → Grows rel (rows a) (rows b))
    (h : History config engine ops tr db) {r : ρ} (hr : r ∈ rows db) :
    ∃ e ∈ tr, t ∈ e.call.inserts ∧ (∀ a ∈ rows e.pre, key a ≠ key r) ∧
      ∃ a ∈ rows e.post, key a = key r := by
  obtain ⟨pool, run⟩ := h
  by_cases hempty : ∃ a ∈ rows Database.empty, key a = key r
  · obtain ⟨a, ha, -⟩ := hempty
    have hnil : (rows Database.empty).length = 0 := by
      rw [← hcount]
      cases t <;> rfl
    rw [List.length_eq_zero_iff.1 hnil] at ha
    cases ha
  · -- the table starts empty, so one event of the run brings the key in
    obtain ⟨e, he, hpre, a, ha, hkeya⟩ :=
      run.origin (F := fun db => ∃ a ∈ rows db, key a = key r) hempty ⟨r, hr, rfl⟩
    push Not at hpre
    refine ⟨e, he, ?_, hpre, a, ha, hkeya⟩
    -- a call that inserts nothing keeps the number of rows, hence the keys
    by_contra hnot
    obtain ⟨env, hperform⟩ := run.performed he
    have hlength : (rows e.post).length = (rows e.pre).length := by
      rw [← hcount, ← hcount]
      exact perform_rowCount hperform hnot
    obtain ⟨b, hb, hrel⟩ := (hgrows (perform_evolves hperform)).exists_old hlength ha
    exact hpre b hb ((hkey b a hrel).symm.trans hkeya)

/-- **A ceremony was inserted by one event**, and kept what that event wrote. -/
theorem ceremony_origin (h : History config engine ops tr db) {row : AuthCeremony}
    (hrow : row ∈ db.authCeremonies) :
    ∃ e ∈ tr, ∃ ceremony clock, Succeeded e (.insertCeremony ceremony) () ∧
      (ceremony.row clock).Becomes row ∧ ∀ a ∈ e.pre.authCeremonies, a.id ≠ row.id := by
  have hkey : ∀ a b : AuthCeremony, a.Becomes b → b.id = a.id := fun a b hab => by rw [hab.fixed]
  obtain ⟨e, he, hinserts, hnew, a, ha, hid⟩ :=
    h.adds (t := .authCeremonies) hkey (fun _ => rfl) (fun h => h.authCeremonies) hrow
  obtain ⟨ceremony, hcall⟩ := inserts_authCeremonies hinserts
  rcases succeeded_or_failed hcall with ⟨⟨⟩, hc⟩ | hc
  · obtain ⟨env, hperform⟩ := h.succeeded he hc
    have hpost := insertCeremony_committed hperform
    have hbecomes := (h.evolves_end he).becomes_of_ceremonyId h.consistent ha hrow hid.symm
    rw [hpost, List.mem_append, List.mem_singleton] at ha
    rcases ha with ha | rfl
    · exact absurd hid (hnew a ha)
    · exact ⟨e, he, ceremony, env.clock, hc, hbecomes, hnew⟩
  · obtain ⟨env, error, hperform⟩ := h.failed he hc
    rw [insertCeremony_failed hperform] at ha
    exact absurd hid (hnew a ha)

/-- **A session was inserted by one login.** -/
theorem session_origin (h : History config engine ops tr db) {row : AuthSession}
    (hrow : row ∈ db.authSessions) :
    ∃ e ∈ tr, ∃ ceremonyId verification session now audit,
      Succeeded e (.completeAuthentication ceremonyId verification session now audit) () ∧
      (session.row now).Becomes row ∧ ∀ a ∈ e.pre.authSessions, a.id ≠ row.id := by
  have hkey : ∀ a b : AuthSession, a.Becomes b → b.id = a.id := fun a b hab => by rw [hab.fixed]
  obtain ⟨e, he, hinserts, hnew, a, ha, hid⟩ :=
    h.adds (t := .authSessions) hkey (fun _ => rfl) (fun h => h.authSessions) hrow
  obtain ⟨ceremonyId, verification, session, now, audit, hcall⟩ := inserts_authSessions hinserts
  rcases succeeded_or_failed hcall with ⟨⟨⟩, hc⟩ | hc
  · obtain ⟨env, hperform⟩ := h.succeeded he hc
    obtain ⟨ceremony, hlogin⟩ := completeAuthentication_committed hperform
    have hbecomes := (h.evolves_end he).becomes_of_sessionId h.consistent ha hrow hid.symm
    rw [hlogin.added, List.mem_append, List.mem_singleton] at ha
    rcases ha with ha | rfl
    · exact absurd hid (hnew a ha)
    · exact ⟨e, he, ceremonyId, verification, session, now, audit, hc, hbecomes, hnew⟩
  · obtain ⟨env, error, hperform⟩ := h.failed he hc
    rw [completeAuthentication_failed hperform] at ha
    exact absurd hid (hnew a ha)

/-- **A credential was inserted by one registration.** -/
theorem credential_origin (h : History config engine ops tr db) {row : PasskeyCredential}
    (hrow : row ∈ db.passkeyCredentials) :
    ∃ e ∈ tr, ∃ ceremonyId capabilityHash credential now audit ceremony id userId,
      Succeeded e (.completeRegistration ceremonyId capabilityHash credential now audit) () ∧
      Registration ceremonyId capabilityHash credential now e.pre e.post ceremony id userId ∧
      (credential.row id userId now).Becomes row ∧
      ∀ a ∈ e.pre.passkeyCredentials, a.id ≠ row.id := by
  have hkey : ∀ a b : PasskeyCredential, a.Becomes b → b.id = a.id :=
    fun a b hab => by rw [hab.fixed]
  obtain ⟨e, he, hinserts, hnew, a, ha, hid⟩ :=
    h.adds (t := .passkeyCredentials) hkey (fun _ => rfl) (fun h => h.passkeyCredentials) hrow
  obtain ⟨ceremonyId, capabilityHash, credential, now, audit, hcall⟩ :=
    inserts_passkeyCredentials hinserts
  rcases succeeded_or_failed hcall with ⟨⟨⟩, hc⟩ | hc
  · obtain ⟨env, hperform⟩ := h.succeeded he hc
    obtain ⟨ceremony, id, userId, hreg⟩ := completeRegistration_committed hperform
    have hbecomes := (h.evolves_end he).becomes_of_credentialRowId h.consistent ha hrow hid.symm
    rw [hreg.added, List.mem_append, List.mem_singleton] at ha
    rcases ha with ha | rfl
    · exact absurd hid (hnew a ha)
    · exact ⟨e, he, ceremonyId, capabilityHash, credential, now, audit, ceremony, id, userId, hc,
        hreg, hbecomes, hnew⟩
  · obtain ⟨env, error, hperform⟩ := h.failed he hc
    rw [completeRegistration_failed hperform] at ha
    exact absurd hid (hnew a ha)

end

end History

end RsConsole
