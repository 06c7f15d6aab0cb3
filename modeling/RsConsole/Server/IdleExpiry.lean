import RsConsole.Server.Csrf

set_option autoImplicit false

/-! # What keeps a session alive

`authenticate_session` looks the session up, which sets its idle expiry, and compares the CSRF token
afterwards. So a rejection leaves every table as it was, except for one with `Forbidden`: there a live
session was found, and used like by a success. A session that is neither used by a success nor refused
for its CSRF token dies with its idle expiry, whatever else presents its token. -/

namespace RsConsole

open Library Library.Table Database PgAuthStore

variable {τ : Type}

/-- What a check that failed has done to the database. -/
inductive Rejected [Crates] (config : AuthConfig) (token : SecretToken) (csrf : Option SecretToken)
    (now : DateTime) (db db' : Database) : AuthError → Prop
  | unauthenticated (same : db' = db) : Rejected config token csrf now db db' .unauthenticated
  | forbidden (s : AuthSession) (presented : SecretToken) (given : csrf = some presented)
      (live : LiveSession db token now s) (differs : ¬ KeepsCsrf s presented)
      (used : db' = db.used s none (now + config.sessionIdleTtl) now) :
      Rejected config token csrf now db db' .forbidden
  | store (same : db' = db) : Rejected config token csrf now db db' .store
  | undecoded (s : AuthSession) (u : HumanUser) (live : LiveSession db token now s)
      (user : u ∈ db.humanUsers) (fails : sessionPrincipal (s, u) = .error .store)
      (used : db' = db.used s none (now + config.sessionIdleTtl) now) :
      Rejected config token csrf now db db' .store

/-- The operation, having exchanged `past`, has used the session at `used`: it returned its principal,
    or it refused a CSRF token that was presented with the token of the session. -/
inductive KeepsAlive [Crates] (config : AuthConfig) (op : Operation) (past : AuthExchanges)
    (s : AuthSession) (used : DateTime) : Prop
  | returned (p : SessionPrincipal) (returns : ReturnsPrincipal config op past p used)
      (id : p.sessionId = s.id)
  | refused (token csrf : SecretToken)
      (operation : op = .authenticateSession token (some csrf) used)
      (named : s.tokenHash = token.hash.asBytes)
      (refuses : Fallible.Fails (AuthService.authenticateSession config token (some csrf) used) past
        .forbidden)

/-! ## Errors of the lookup -/

theorem User.tryFrom_error {row : HumanUser} {e : AuthError} (h : User.tryFrom row = .error e) :
    e = .store := by
  rcases except_bind_error h with hid | ⟨id, -, h⟩
  · unfold parseUserId at hid
    cases hnew : OpaqueId.new row.id with
    | ok id =>
        rw [hnew] at hid
        cases hid
    | error e' =>
        rw [hnew] at hid
        cases hid
        rfl
  rcases except_bind_error h with hrole | ⟨role, -, h⟩
  · unfold parseRole at hrole
    split at hrole
    · cases hrole
    · split at hrole
      · cases hrole
      · cases hrole
        rfl
  · cases h

theorem sessionPrincipal_error {row : AuthSession × HumanUser} {e : AuthError}
    (h : sessionPrincipal row = .error e) : e = .store := by
  rcases except_bind_error h with huser | ⟨user, -, h⟩
  · exact User.tryFrom_error huser
  rcases except_bind_error h with hcsrf | ⟨csrfHash, -, h⟩
  · unfold SecretHash.fromSlice at hcsrf
    split at hcsrf
    · cases hcsrf
    · cases hcsrf
      rfl
  · cases h

/-- The lookup fails with `Store` only. -/
theorem failsAs_session (hash : SecretHash) (now idle : DateTime) :
    Tx.FailsAs .store (PgAuthStore.session hash now idle) := by
  have hstatement : ∀ {α : Type} (stmt : Statement α), Tx.FailsAs .store (execute stmt) :=
    fun stmt => Tx.failsAs_exec fun _ => rfl
  refine Tx.failsAs_bind (Tx.failsAs_transaction ?_) fun found => Tx.failsAs_ofExcept ?_
  · refine Tx.failsAs_bind (hstatement _) fun found => ?_
    cases found with
    | none => exact Tx.failsAs_pure none
    | some row => exact Tx.failsAs_bind (hstatement _) fun _ => Tx.failsAs_pure (some row)
  · intro e h
    cases found with
    | none => cases h
    | some row =>
        cases hprincipal : sessionPrincipal row with
        | ok p =>
            rw [transpose, hprincipal] at h
            cases h
        | error e' =>
            rw [transpose, hprincipal] at h
            cases h
            exact sessionPrincipal_error hprincipal

/-! ## What a rejection has done -/

section Check

variable [Crates] {config : AuthConfig} {token : SecretToken} {csrf : Option SecretToken}
  {now : DateTime}

/-- A check fails because the lookup did, because there is no such session, or for the CSRF token. -/
theorem fails_authenticateSession {past : AuthExchanges} {error : AuthError} :
    Fallible.Fails (AuthService.authenticateSession config token csrf now) past error ↔
      past = [⟨.session token.hash now (now + config.sessionIdleTtl), .error error⟩] ∨
      (past = [⟨.session token.hash now (now + config.sessionIdleTtl), .ok none⟩] ∧
        error = .unauthenticated) ∨
      ∃ p, past = [⟨.session token.hash now (now + config.sessionIdleTtl), .ok (some p)⟩] ∧
        (∃ c, csrf = some c ∧ c.hash ≠ p.csrfHash) ∧ error = .forbidden := by
  simp only [AuthService.authenticateSession, Fallible.fails_bind, fails_ask, returns_ask,
    Fallible.fails_okOr, Fallible.returns_okOr, Fallible.fails_ensure, Fallible.fails_pure]
  constructor
  · rintro (hstore | ⟨_, _, found, rfl, rfl, ⟨rfl, rfl, rfl⟩ |
      ⟨_, _, p, rfl, ⟨rfl, rfl⟩, ⟨rfl, hcsrf, rfl⟩ | ⟨_, _, _, -, -, ⟨⟩⟩⟩⟩)
    · exact Or.inl hstore
    · exact Or.inr (Or.inl ⟨rfl, rfl⟩)
    · have hdiffers : ∃ c, csrf = some c ∧ c.hash ≠ p.csrfHash := by simpa using hcsrf
      exact Or.inr (Or.inr ⟨p, rfl, hdiffers, rfl⟩)
  · rintro (hstore | ⟨rfl, rfl⟩ | ⟨p, rfl, ⟨c, hc, hne⟩, rfl⟩)
    · exact Or.inl hstore
    · exact Or.inr ⟨_, [], none, rfl, rfl, Or.inl ⟨rfl, rfl, rfl⟩⟩
    · refine Or.inr ⟨_, [], some p, rfl, rfl, Or.inr ⟨[], [], p, rfl, ⟨rfl, rfl⟩,
        Or.inl ⟨rfl, fun hall => hne (hall c hc), rfl⟩⟩⟩

variable {env : Env} {db db' : Database}

theorem rejected_store {error : AuthError}
    (h : perform env (.session token.hash now (now + config.sessionIdleTtl)) db =
      (.error error, db')) :
    Rejected config token csrf now db db' error := by
  have hyields : Tx.Yields (PgAuthStore.session token.hash now (now + config.sessionIdleTtl)) db
      (.error error) db' := yields_of_perform h
  obtain rfl := failsAs_session _ _ _ _ _ _ hyields
  rcases session_cases h with ⟨hsame, -⟩ | ⟨s, hs, u, hu, hfound, hused, hr⟩
  · exact .store hsame
  · refine .undecoded s u ⟨hs, u, hu, hfound⟩ hu ?_ hused
    cases hprincipal : sessionPrincipal (s, u) with
    | ok p =>
        rw [hprincipal] at hr
        cases hr
    | error e => rw [sessionPrincipal_error hprincipal]

theorem rejected_unauthenticated
    (h : perform env (.session token.hash now (now + config.sessionIdleTtl)) db = (.ok none, db')) :
    Rejected config token csrf now db db' .unauthenticated := by
  rcases session_cases h with ⟨hsame, -⟩ | ⟨s, -, u, -, -, -, hr⟩
  · exact .unauthenticated hsame
  · -- a session that is found is either answered or does not decode
    cases hprincipal : sessionPrincipal (s, u) with
    | ok p =>
        rw [hprincipal] at hr
        cases hr
    | error e =>
        rw [hprincipal] at hr
        cases hr

theorem rejected_forbidden {p : SessionPrincipal} {c : SecretToken}
    (h : perform env (.session token.hash now (now + config.sessionIdleTtl)) db =
      (.ok (some p), db')) (hcsrf : csrf = some c) (hne : c.hash ≠ p.csrfHash) :
    Rejected config token csrf now db db' .forbidden := by
  obtain ⟨s, hs, u, hu, hfound, hused, -, hrow, -⟩ := session_answered h
  refine .forbidden s c hcsrf ⟨hs, u, hu, hfound⟩ ?_ hused
  intro hkeeps
  exact hne (SecretHash.asBytes_injective (hkeeps.symm.trans hrow))

/-- **What a check that failed has done**, whatever the database was and whatever else ran: it made one
    call. -/
theorem rejected_of_fails [DecidableEq τ] {engine : CeremonyEngine} {ops : τ → Operation}
    {db₀ : Database} {tr : List (AuthEvent τ)} {pool : (t : τ) → Program AuthCall AuthCall.Answer _}
    (run : Run (effectOf perform) db₀ (fun t => (ops t).program config engine) tr db pool) {t : τ}
    {error : AuthError}
    (hfails : Fallible.Fails (AuthService.authenticateSession config token csrf now) (exchanges tr t)
      error) :
    ∃ e ∈ tr, e.tid = t ∧ exchanges tr t = [e.exchange] ∧
      Rejected config token csrf now e.pre e.post error := by
  have honce : ∀ {r : AuthCall.Answer (.session token.hash now (now + config.sessionIdleTtl))},
      exchanges tr t = [⟨.session token.hash now (now + config.sessionIdleTtl), r⟩] →
      ∃ e ∈ tr, e.tid = t ∧ exchanges tr t = [e.exchange] ∧ ∃ env,
        perform env (.session token.hash now (now + config.sessionIdleTtl)) e.pre = (r, e.post) := by
    intro r hexchanges
    obtain ⟨e, he, htid, hexchange⟩ := mem_exchanges (hexchanges ▸ List.mem_singleton_self _)
    obtain ⟨env, hperform⟩ := run.performed he
    exact ⟨e, he, htid, hexchanges.trans (by rw [hexchange]), env,
      performed_of_exchange hexchange hperform⟩
  rcases fails_authenticateSession.1 hfails with hx | ⟨hx, rfl⟩ | ⟨p, hx, ⟨c, hcsrf, hne⟩, rfl⟩
  · obtain ⟨e, he, htid, hexchanges, env, hperform⟩ := honce hx
    exact ⟨e, he, htid, hexchanges, rejected_store hperform⟩
  · obtain ⟨e, he, htid, hexchanges, env, hperform⟩ := honce hx
    exact ⟨e, he, htid, hexchanges, rejected_unauthenticated hperform⟩
  · obtain ⟨e, he, htid, hexchanges, env, hperform⟩ := honce hx
    exact ⟨e, he, htid, hexchanges, rejected_forbidden hperform hcsrf hne⟩

end Check

/-- Where the rows decode, only a rejection with `Forbidden` has used a session. -/
theorem Rejected.unchanged [Crates] {config : AuthConfig} {token : SecretToken}
    {csrf : Option SecretToken} {now : DateTime} {db db' : Database} {error : AuthError}
    (h : Rejected config token csrf now db db' error) (hd : Database.Decodes db)
    (hne : error ≠ .forbidden) : db' = db := by
  cases h with
  | unauthenticated same => exact same
  | forbidden => exact absurd rfl hne
  | store same => exact same
  | undecoded s u live user fails used =>
      obtain ⟨decoded, huser⟩ := hd.users u user
      obtain ⟨csrfHash, hcsrf⟩ := SecretHash.fromSlice_of_length (hd.csrfHashes s live.1)
      simp only [sessionPrincipal, huser, hcsrf] at fails
      cases fails

/-! ## What a run does to the idle expiry -/

namespace History

variable [DecidableEq τ] [Crates] {config : AuthConfig} {engine : CeremonyEngine}
  {ops : τ → Operation} {tr : List (AuthEvent τ)} {db : Database} {e : AuthEvent τ}

/-- An operation that looks a session up makes no other call. -/
theorem exchanges_of_looksUp (h : History config engine ops tr db) (he : e ∈ tr)
    (hlooks : e.call.looksUp = true) : exchanges tr e.tid = [e.exchange] := by
  obtain ⟨newer, older, rfl⟩ := List.append_of_mem he
  obtain ⟨pool, run⟩ := h
  have hpasses : Passes config (ops e.tid) (exchanges older e.tid) e.call := passes_of_asks run.asks
  refine run.exchanges_of_once fun past c hasks => ?_
  rcases AuthCall.looksUp_cases hlooks with ⟨hash, now, idle, hcall⟩ |
    ⟨hash, csrfHash, now, idle, hcall⟩
  · rw [hcall] at hpasses
    obtain ⟨⟨token, csrf, hop, -⟩, -⟩ := hpasses
    rw [hop] at hasks
    exact (AuthService.asks_authenticateSession.1 hasks).1
  · rw [hcall] at hpasses
    obtain ⟨⟨token, csrf, hop, -⟩, -⟩ := hpasses
    rw [hop] at hasks
    exact (AuthService.asks_issueSessionCsrf.1 hasks).1

/-- A check that found a session returns its principal, or refuses the CSRF token. -/
theorem keepsAlive_of_lookup (h : History config engine ops tr db) (he : e ∈ tr) {hash : SecretHash}
    {used idle : DateTime} {p : SessionPrincipal}
    (hc : Succeeded e (.session hash used idle) (some p)) {s : AuthSession}
    (hs : s ∈ db.authSessions) (hid : p.sessionId = s.id) :
    KeepsAlive config (ops e.tid) (exchanges tr e.tid) s used := by
  obtain ⟨past, ⟨⟨token, csrf, hop, rfl⟩, rfl⟩, -⟩ := h.passed he hc
  have hcall : e.call = _ := congrArg Exchange.call hc
  have hexchanges := h.exchanges_of_looksUp he (by rw [hcall]; rfl)
  rw [hc] at hexchanges
  by_cases haccepts : ∀ c, csrf = some c → c.hash = p.csrfHash
  · exact .returned p (.authenticateSession token csrf hop
      (returns_authenticateSession.2 ⟨hexchanges, haccepts⟩)) hid
  · have hdiffers : ∃ c, csrf = some c ∧ c.hash ≠ p.csrfHash := by simpa using haccepts
    obtain ⟨c, rfl, hne⟩ := hdiffers
    refine .refused token c hop ?_ (fails_authenticateSession.2
      (Or.inr (Or.inr ⟨p, hexchanges, ⟨c, rfl, hne⟩, rfl⟩)))
    -- the row keeps the token that the lookup found it by
    obtain ⟨env, hperform⟩ := h.succeeded he hc
    obtain ⟨s₀, hs₀, u, -, hfound, -, hid₀, -⟩ := session_answered hperform
    have hbecomes : s₀.Becomes s := (h.evolves_from he).authSessions.rel_of_key
      (fun a b hab => by rw [hab.fixed]) h.consistent.sessionIds hs₀ hs (hid.symm.trans hid₀)
    rw [hbecomes.fixed]
    exact hfound.2.1

/-- An event that found a session belongs to an operation that keeps it alive. -/
theorem keepsAlive_of_found (h : History config engine ops tr db) (he : e ∈ tr)
    {p : SessionPrincipal} {used : DateTime} (hfound : foundSession e = some (p, used))
    {s : AuthSession} (hs : s ∈ db.authSessions) (hid : p.sessionId = s.id) :
    KeepsAlive config (ops e.tid) (exchanges tr e.tid) s used := by
  rcases foundSession_eq_some.1 hfound with ⟨hash, idle, hc⟩ | ⟨hash, csrfHash, idle, hc⟩
  · exact h.keepsAlive_of_lookup he hc hs hid
  · obtain ⟨past, ⟨⟨token, csrf, hop, rfl, rfl⟩, rfl⟩, -⟩ := h.passed he hc
    have hcall : e.call = _ := congrArg Exchange.call hc
    have hexchanges := h.exchanges_of_looksUp he (by rw [hcall]; rfl)
    rw [hc] at hexchanges
    refine .returned p (.issueSessionCsrf token csrf hop ?_) hid
    simpa [AuthService.issueSessionCsrf] using hexchanges

/-- **The idle expiry of a session stays behind `T`** when it was created long enough before `T` and
    no event uses it in the time to live before `T`: then none can use it later. -/
theorem idle_le (h : History config engine ops tr db) {id : Uuid} {T : DateTime} :
    (∀ e ∈ tr, ∀ c, CreatesSession ops e id c → c + config.sessionIdleTtl ≤ T) →
    (∀ e ∈ tr, ∀ p used, foundSession e = some (p, used) → p.sessionId = id →
      used + config.sessionIdleTtl ≤ T ∨ T ≤ used) →
    ∀ s ∈ db.authSessions, s.id = id → s.idleExpiresAt ≤ T := by
  refine h.induct (P := fun tr db =>
    (∀ e ∈ tr, ∀ c, CreatesSession ops e id c → c + config.sessionIdleTtl ≤ T) →
    (∀ e ∈ tr, ∀ p used, foundSession e = some (p, used) → p.sessionId = id →
      used + config.sessionIdleTtl ≤ T ∨ T ≤ used) →
    ∀ s ∈ db.authSessions, s.id = id → s.idleExpiresAt ≤ T) (fun _ _ s hs => nomatch hs) ?_
  intro e tr _ hpost ih hcreated hquiet s' hs' hid
  have hpre : ∀ s ∈ e.pre.authSessions, s.id = id → s.idleExpiresAt ≤ T :=
    ih (fun e₀ he₀ => hcreated e₀ (List.mem_cons_of_mem _ he₀))
      (fun e₀ he₀ => hquiet e₀ (List.mem_cons_of_mem _ he₀))
  have he : e ∈ e :: tr := List.mem_cons_self
  rcases hpost.sessions_event he with ⟨_, _, session, now, _, hc, hrows⟩ |
    ⟨s, p, csrfHash, now, hfound, huses⟩ | ⟨-, q, now, hrows⟩
  · rw [hrows, List.mem_append, List.mem_singleton] at hs'
    rcases hs' with hs' | rfl
    · exact hpre s' hs' hid
    · obtain ⟨hcreates, hidle, -⟩ := hpost.createsSession he hc
      exact hidle.trans_le (hcreated e he now (hid ▸ hcreates))
  · rw [huses.used] at hs'
    obtain ⟨s₁, hs₁, rfl⟩ := mem_updateWhere.1 hs'
    by_cases hsame : s₁.id = s.id
    · rw [if_pos (decide_eq_true hsame)] at hid ⊢
      -- the use found the session alive, hence before `T`
      have hid₁ : s₁.id = id := hid
      have hlive : now < T := huses.beforeIdle.trans_le (hpre s huses.mem (hsame ▸ hid₁))
      have hused := (hquiet e he p now hfound (huses.id.trans (hsame.symm.trans hid₁))).resolve_right
        (not_le.2 hlive)
      exact (min_le_left _ _).trans hused
    · rw [if_neg (by simpa using hsame)] at hid ⊢
      exact hpre s₁ hs₁ hid
  · rw [hrows] at hs'
    obtain ⟨s, hs, rfl⟩ := mem_updateWhere.1 hs'
    cases hq : q s with
    | true =>
        simp only [hq] at hid
        exact hpre s hs hid
    | false =>
        simp only [hq] at hid
        exact hpre s hs hid

end History

/-- **Rejected checks and the idle expiry.** Whatever the database is, a check that fails has made one
    call, and done no more than `Rejected` says. In a run from the migrated database a failure other
    than `Forbidden` leaves every table as it was; and a session that nothing keeps alive in the time
    to live before `T` is dead from `T` on, however often its token is presented. -/
theorem rejection_and_idle_expiry [DecidableEq τ] [Crates] {config : AuthConfig}
    {engine : CeremonyEngine} {ops : τ → Operation} :
    (∀ db₀ tr db pool,
      Run (effectOf perform) db₀ (fun t => (ops t).program config engine) tr db pool →
      ∀ t token csrf now error, ops t = .authenticateSession token csrf now →
      Fallible.Fails (AuthService.authenticateSession config token csrf now) (exchanges tr t) error →
      ∃ e ∈ tr, e.tid = t ∧ exchanges tr t = [e.exchange] ∧
        Rejected config token csrf now e.pre e.post error) ∧
    ∀ tr db, History config engine ops tr db →
      (∀ t token csrf now error, ops t = .authenticateSession token csrf now →
        Fallible.Fails (AuthService.authenticateSession config token csrf now) (exchanges tr t)
          error →
        error ≠ .forbidden → ∃ e ∈ tr, e.tid = t ∧ exchanges tr t = [e.exchange] ∧ e.post = e.pre) ∧
      ∀ s ∈ db.authSessions, ∀ T,
        (∀ e ∈ tr, ∀ c, CreatesSession ops e s.id c → c + config.sessionIdleTtl ≤ T) →
        (∀ t used, KeepsAlive config (ops t) (exchanges tr t) s used →
          used + config.sessionIdleTtl ≤ T ∨ T ≤ used) →
        ∀ token now, T ≤ now → ¬ LiveSession db token now s := by
  refine ⟨fun db₀ tr db pool run t token csrf now error _ hfails => rejected_of_fails run hfails,
    fun tr db h => ⟨?_, ?_⟩⟩
  · intro t token csrf now error hop hfails hne
    obtain ⟨pool, run⟩ := id h
    obtain ⟨e, he, htid, hexchanges, hrejected⟩ := rejected_of_fails run hfails
    exact ⟨e, he, htid, hexchanges, hrejected.unchanged (h.decodes_pre he) hne⟩
  · rintro s hs T hcreated hquiet token now hT ⟨-, u, -, hfound⟩
    have huses : ∀ e ∈ tr, ∀ p used, foundSession e = some (p, used) → p.sessionId = s.id →
        used + config.sessionIdleTtl ≤ T ∨ T ≤ used :=
      fun e he p used hfound hid => hquiet e.tid used (h.keepsAlive_of_found he hfound hs hid)
    have hidle : s.idleExpiresAt ≤ T := h.idle_le hcreated huses s hs rfl
    exact absurd hfound.2.2.2.1 (not_lt.2 (hidle.trans hT))

section Sample

attribute [local instance] Reference.crates

/-- A session that is created at 4 and presented at 9, with a CSRF token that it does not keep. -/
def sampleRefusal : List Operation :=
  sampleRegistration "k" ++
    [.startAuthentication 3 0 11,
      .finishAuthentication 11 (.string "k") 4 (sampleToken 1) (sampleToken 2) 20,
      .authenticateSession (sampleToken 1) (some (sampleToken 3)) 9]

def sampleRefusalRun :=
  sampleRun sampleRefusal [(0, 0), (0, 0), (0, 0), (1, 0), (1, 0), (1, 0), (2, 0), (2, 30), (3, 0),
    (4, 0), (4, 0), (4, 0), (4, 0), (5, 0)]

theorem sampleRefusal_history : History .default sampleEngine (sampleOperations sampleRefusal)
    sampleRefusalRun.trace sampleRefusalRun.state :=
  sampleRun_history _ _

theorem sampleRefusal_session {t : ℕ} {token : SecretToken} {csrf : Option SecretToken}
    {now : DateTime}
    (h : sampleOperations sampleRefusal t = .authenticateSession token csrf now) :
    t = 5 ∧ token = sampleToken 1 ∧ csrf = some (sampleToken 3) ∧ now = 9 := by
  rcases t with _ | _ | _ | _ | _ | _ | t
  all_goals cases h
  exact ⟨rfl, rfl, rfl, rfl⟩

theorem sampleRefusal_created {e : AuthEvent ℕ} {id : Uuid} {c : DateTime}
    (h : CreatesSession (sampleOperations sampleRefusal) e id c) : c = 4 := by
  obtain ⟨_, _, _, _, _, _, _, hop, -, -⟩ := h
  generalize e.tid = t at hop
  rcases t with _ | _ | _ | _ | _ | _ | t
  all_goals cases hop
  rfl

/-- The check found the session and moved its idle expiry; none was found with that CSRF token. -/
theorem sampleRefusal_check :
    (∃ e ∈ sampleRefusalRun.trace, e.tid = 5 ∧ e.post ≠ e.pre ∧ ∃ p, foundSession e = some (p, 9)) ∧
      ∀ e ∈ sampleRefusalRun.trace, ∀ p used, foundSession e = some (p, used) →
        p.csrfHash ≠ (sampleToken 3).hash := by
  have hcheck : sampleRefusalRun.trace.any (fun e => decide (e.tid = 5) &&
      decide (e.post.authSessions.map (·.idleExpiresAt) ≠ e.pre.authSessions.map (·.idleExpiresAt)) &&
      (foundSession e).any (·.2 = 9)) = true := by decide +kernel
  have hother : sampleRefusalRun.trace.all (fun e =>
      (foundSession e).all (fun found => found.1.csrfHash ≠ (sampleToken 3).hash)) = true := by
    decide +kernel
  constructor
  · obtain ⟨e, he, hmoved⟩ := List.any_eq_true.1 hcheck
    simp only [Bool.and_eq_true, decide_eq_true_eq] at hmoved
    obtain ⟨⟨htid, hne⟩, hany⟩ := hmoved
    obtain ⟨⟨p, now⟩, hfound, hnow⟩ := (Option.any_eq_true _ _).1 hany
    obtain rfl : now = 9 := of_decide_eq_true hnow
    exact ⟨e, he, htid, fun hsame => hne (by rw [hsame]), p, hfound⟩
  · intro e he p used hfound
    have hall := List.all_eq_true.1 hother e he
    rw [hfound] at hall
    exact of_decide_eq_true hall

theorem sampleRefusal_unreturned (t : ℕ) (p : SessionPrincipal) (used : DateTime) :
    ¬ ReturnsPrincipal .default (sampleOperations sampleRefusal t)
      (exchanges sampleRefusalRun.trace t) p used := by
  intro h
  obtain ⟨e, he, -, hfound⟩ := h.found
  have hne := sampleRefusal_check.2 e he p used hfound
  cases h with
  | authenticateSession token csrf operation returns =>
      obtain ⟨-, -, rfl, -⟩ := sampleRefusal_session operation
      exact hne ((returns_authenticateSession.1 returns).2 _ rfl).symm
  | issueSessionCsrf token csrf operation =>
      rcases t with _ | _ | _ | _ | _ | _ | t
      all_goals cases operation

theorem sampleRefusal_forbidden :
    Fallible.Fails (AuthService.authenticateSession .default (sampleToken 1) (some (sampleToken 3)) 9)
      (exchanges sampleRefusalRun.trace 5) .forbidden := by
  have h := sampleRefusal_history
  obtain ⟨e, he, htid, -, p, hfound⟩ := sampleRefusal_check.1
  obtain ⟨s₀, _, huses⟩ := h.uses_of_found he hfound
  obtain ⟨s, hs, hbecomes⟩ := (h.evolves_from he).authSessions.exists_of_mem huses.mem
  have hid : p.sessionId = s.id := by rw [huses.id, hbecomes.fixed]
  rw [← htid]
  cases h.keepsAlive_of_found he hfound hs hid with
  | returned p returns => exact absurd returns (sampleRefusal_unreturned _ _ _)
  | refused token csrf operation named refuses =>
      obtain ⟨-, rfl, ⟨⟩, -⟩ := sampleRefusal_session operation
      exact refuses

/-- The check is rejected, and the session it was made for dies half an hour after it. -/
theorem rejection_and_idle_expiry_sample :
    (∃ e ∈ sampleRefusalRun.trace, Rejected .default (sampleToken 1) (some (sampleToken 3)) 9 e.pre
      e.post .forbidden) ∧
    ∀ s ∈ sampleRefusalRun.state.authSessions,
      ¬ LiveSession sampleRefusalRun.state (sampleToken 1)
        (9 + AuthConfig.default.sessionIdleTtl) s := by
  have h := sampleRefusal_history
  obtain ⟨hrejected, hruns⟩ := @rejection_and_idle_expiry ℕ _ _ .default sampleEngine
    (sampleOperations sampleRefusal)
  refine ⟨?_, fun s hs => (hruns _ _ h).2 s hs _ ?_ ?_ _ _ le_rfl⟩
  · obtain ⟨pool, run⟩ := h
    obtain ⟨e, he, -, -, hforbidden⟩ :=
      hrejected _ _ _ _ run 5 _ _ _ _ rfl sampleRefusal_forbidden
    exact ⟨e, he, hforbidden⟩
  · intro e he c hcreates
    rw [sampleRefusal_created hcreates]
    decide
  · intro t used halive
    cases halive with
    | returned p returns => exact absurd returns (sampleRefusal_unreturned _ _ _)
    | refused token csrf operation =>
        obtain ⟨-, -, -, rfl⟩ := sampleRefusal_session operation
        exact Or.inl le_rfl

/-- A check that was refused for its CSRF token has changed the database: half an hour after it was
    created the session is alive, although no operation ever returned its principal. -/
theorem refused_check_keeps_alive :
    History .default sampleEngine (sampleOperations sampleRefusal) sampleRefusalRun.trace
      sampleRefusalRun.state ∧
    (∃ e ∈ sampleRefusalRun.trace, sampleOperations sampleRefusal e.tid =
        .authenticateSession (sampleToken 1) (some (sampleToken 3)) 9 ∧
      Fallible.Fails
        (AuthService.authenticateSession .default (sampleToken 1) (some (sampleToken 3)) 9)
        (exchanges sampleRefusalRun.trace e.tid) .forbidden ∧ e.post ≠ e.pre) ∧
    (∀ t p used, ¬ ReturnsPrincipal .default (sampleOperations sampleRefusal t)
      (exchanges sampleRefusalRun.trace t) p used) ∧
    ∃ s, LiveSession sampleRefusalRun.state (sampleToken 1)
        (4 + AuthConfig.default.sessionIdleTtl) s ∧
      ∀ e ∈ sampleRefusalRun.trace, ∀ c,
        CreatesSession (sampleOperations sampleRefusal) e s.id c → c = 4 := by
  refine ⟨sampleRefusal_history, ?_, sampleRefusal_unreturned, ?_⟩
  · obtain ⟨e, he, htid, hne, -⟩ := sampleRefusal_check.1
    refine ⟨e, he, ?_, ?_, hne⟩
    · rw [htid]
      rfl
    · rw [htid]
      exact sampleRefusal_forbidden
  · have halive : sampleRefusalRun.state.authSessions.any (fun s =>
        sampleRefusalRun.state.humanUsers.any fun u => decide (SessionFound
          (sampleToken 1).hash.asBytes (4 + AuthConfig.default.sessionIdleTtl) s u)) = true := by
      decide +kernel
    obtain ⟨s, hs, hany⟩ := List.any_eq_true.1 halive
    obtain ⟨u, hu, hfound⟩ := List.any_eq_true.1 hany
    exact ⟨s, ⟨hs, u, hu, of_decide_eq_true hfound⟩, fun e _ c => sampleRefusal_created⟩

end Sample

end RsConsole
