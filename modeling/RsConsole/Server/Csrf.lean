import RsConsole.Library.LastWrite
import RsConsole.Server.Sessions

set_option autoImplicit false

/-! # The CSRF token of a session

A login issues the first CSRF token of its session, and every `issue_session_csrf` another one; what
the row keeps is the hash of the token issued last. The table of sessions follows the log of the
issuances in the order in which they were committed, whatever else happens in between, and a check
compares the presented token with what the row keeps when the check is performed. -/

namespace RsConsole

open Library Library.Table Database PgAuthStore

variable {τ : Type}

/-- The session for which an event has issued a CSRF token, and the token. -/
def issuedCsrf (ops : τ → Operation) (e : AuthEvent τ) : Option (Uuid × SecretToken) :=
  match ops e.tid, e.exchange with
  | .finishAuthentication _ _ _ _ csrf id, ⟨.completeAuthentication .., .ok _⟩ => some (id, csrf)
  | .issueSessionCsrf _ _ csrf, ⟨.rotateSessionCsrf .., .ok (some p)⟩ => some (p.sessionId, csrf)
  | _, _ => none

/-- The CSRF token issued last for the session `id`. -/
abbrev newestCsrf (ops : τ → Operation) (id : Uuid) (tr : List (AuthEvent τ)) :
    Option SecretToken :=
  lastWrite (issuedCsrf ops) id tr

/-- The row of a session keeps the hash of a token. -/
def KeepsCsrf [Crates] (s : AuthSession) (csrf : SecretToken) : Prop :=
  s.csrfHash = csrf.hash.asBytes

/-- The session that is named by `token`, live at `now`. -/
def LiveSession [Crates] (db : Database) (token : SecretToken) (now : DateTime) (s : AuthSession) :
    Prop :=
  s ∈ db.authSessions ∧ ∃ u ∈ db.humanUsers, SessionFound token.hash.asBytes now s u

/-- The operation, having exchanged `past`, has accepted the CSRF token. -/
def AcceptsCsrf [Crates] (config : AuthConfig) (token csrf : SecretToken) (now : DateTime)
    (past : AuthExchanges) : Prop :=
  ∃ p, Fallible.Returns (AuthService.authenticateSession config token (some csrf) now) past p

theorem issuedCsrf_eq_some {ops : τ → Operation} {e : AuthEvent τ} {id : Uuid}
    {csrf : SecretToken} : issuedCsrf ops e = some (id, csrf) ↔
      (∃ ceremonyId response t token asked verification session now audit,
        ops e.tid = .finishAuthentication ceremonyId response t token csrf id ∧
        Succeeded e (.completeAuthentication asked verification session now audit) ()) ∨
      ∃ token t hash csrfHash now idle p, ops e.tid = .issueSessionCsrf token t csrf ∧
        Succeeded e (.rotateSessionCsrf hash csrfHash now idle) (some p) ∧ p.sessionId = id := by
  constructor
  · intro h
    unfold issuedCsrf at h
    split at h
    · next hop hexchange =>
        cases h
        exact Or.inl ⟨_, _, _, _, _, _, _, _, _, hop, hexchange⟩
    · next hop hexchange =>
        cases h
        exact Or.inr ⟨_, _, _, _, _, _, _, hop, hexchange, rfl⟩
    · cases h
  · rintro (⟨_, _, _, _, _, _, _, _, _, hop, hc⟩ | ⟨_, _, _, _, _, _, _, hop, hc, rfl⟩)
    · rw [issuedCsrf, hop, hc]
    · rw [issuedCsrf, hop, hc]

/-! ## Issuing -/

namespace History

variable [DecidableEq τ] [Crates] {config : AuthConfig} {engine : CeremonyEngine}
  {ops : τ → Operation} {tr : List (AuthEvent τ)} {db : Database} {e : AuthEvent τ}

/-- A login issues the CSRF token that its row keeps. -/
theorem login_issues (h : History config engine ops tr db) (he : e ∈ tr) {ceremonyId : Uuid}
    {verification : AuthenticationVerification} {session : SessionRecord} {now : DateTime}
    {audit : AuditEvent}
    (hc : Succeeded e (.completeAuthentication ceremonyId verification session now audit) ()) :
    ∃ csrf, issuedCsrf ops e = some (session.id, csrf) ∧ KeepsCsrf (session.row now) csrf := by
  obtain ⟨past, ⟨response, token, csrf, id, _, _, user, _, hop, -, -, rfl, -⟩, -⟩ :=
    h.explained_of_succeeded he hc
  exact ⟨csrf, issuedCsrf_eq_some.2 (Or.inl ⟨_, _, _, _, _, _, _, _, _, hop, hc⟩), rfl⟩

/-- A rotation issues the CSRF token of its call. -/
theorem rotation_issues (h : History config engine ops tr db) (he : e ∈ tr)
    {hash csrfHash : SecretHash} {now idle : DateTime} {p : SessionPrincipal}
    (hc : Succeeded e (.rotateSessionCsrf hash csrfHash now idle) (some p)) :
    ∃ csrf : SecretToken, issuedCsrf ops e = some (p.sessionId, csrf) ∧ csrfHash = csrf.hash := by
  obtain ⟨past, ⟨⟨token, csrf, hop, -, rfl⟩, -⟩, -⟩ := h.passed he hc
  exact ⟨csrf, issuedCsrf_eq_some.2 (Or.inr ⟨_, _, _, _, _, _, _, hop, hc, rfl⟩), rfl⟩

/-- An event that issues nothing leaves every CSRF token as it was. -/
theorem csrf_unissued (h : History config engine ops tr db) (he : e ∈ tr)
    (hnone : issuedCsrf ops e = none) {s' : AuthSession} (hs' : s' ∈ e.post.authSessions) :
    ∃ s ∈ e.pre.authSessions, s.id = s'.id ∧ s.csrfHash = s'.csrfHash := by
  rcases h.sessions_event he with ⟨_, _, session, now, _, hc, -⟩ |
    ⟨s, p, csrfHash, now, hfound, -⟩ | ⟨-, p, now, hrows⟩
  · obtain ⟨csrf, hcsrf, -⟩ := h.login_issues he hc
    cases hnone.symm.trans hcsrf
  · rcases foundSession_eq_some.1 hfound with ⟨_, _, hc⟩ | ⟨_, _, _, hc⟩
    · -- a lookup sets the expiry alone
      obtain ⟨s, huses⟩ := h.uses_of_lookup he hc
      rw [huses.used] at hs'
      obtain ⟨s₁, hs₁, rfl⟩ := mem_updateWhere.1 hs'
      refine ⟨s₁, hs₁, ?_⟩
      split
      · exact ⟨rfl, rfl⟩
      · exact ⟨rfl, rfl⟩
    · obtain ⟨csrf, hcsrf, -⟩ := h.rotation_issues he hc
      cases hnone.symm.trans hcsrf
  · rw [hrows] at hs'
    obtain ⟨s₁, hs₁, rfl⟩ := mem_updateWhere.1 hs'
    refine ⟨s₁, hs₁, ?_⟩
    split
    · exact ⟨rfl, rfl⟩
    · exact ⟨rfl, rfl⟩

/-- An event that issues a token writes its hash to the row of the session, and to no other. -/
theorem csrf_issued (h : History config engine ops tr db) (he : e ∈ tr) {id : Uuid}
    {csrf : SecretToken} (hissued : issuedCsrf ops e = some (id, csrf)) {s' : AuthSession}
    (hs' : s' ∈ e.post.authSessions) :
    (s'.id = id ∧ KeepsCsrf s' csrf) ∨
      (s'.id ≠ id ∧ ∃ s ∈ e.pre.authSessions, s.id = s'.id ∧ s.csrfHash = s'.csrfHash) := by
  rcases issuedCsrf_eq_some.1 hissued with ⟨_, _, _, _, _, _, session, now, _, -, hc⟩ |
    ⟨_, _, _, csrfHash, now, _, p, -, hc, rfl⟩
  · obtain ⟨csrf', hcsrf', hkeeps⟩ := h.login_issues he hc
    obtain ⟨rfl, rfl⟩ := Prod.mk.inj (Option.some.inj (hissued.symm.trans hcsrf'))
    obtain ⟨env, hperform⟩ := h.succeeded he hc
    obtain ⟨ceremony, hlogin⟩ := completeAuthentication_committed hperform
    -- the id of the new session is new, so the other rows are other sessions
    have hkeys := (h.consistent_post he).sessionIds
    rw [hlogin.added] at hkeys hs'
    rcases List.mem_append.1 hs' with hold | hnew
    · exact Or.inr ⟨hkeys.ne_of_append hold, s', hold, rfl, rfl⟩
    · obtain rfl := List.mem_singleton.1 hnew
      exact Or.inl ⟨rfl, hkeeps⟩
  · obtain ⟨csrf', hcsrf', rfl⟩ := h.rotation_issues he hc
    obtain rfl := (Prod.mk.inj (Option.some.inj (hissued.symm.trans hcsrf'))).2
    obtain ⟨s, huses⟩ := h.uses_of_rotation he hc
    rw [huses.used] at hs'
    obtain ⟨s₁, hs₁, rfl⟩ := mem_updateWhere.1 hs'
    rw [huses.id]
    by_cases hid : s₁.id = s.id
    · rw [if_pos (decide_eq_true hid)]
      exact Or.inl ⟨hid, rfl⟩
    · rw [if_neg (by simpa using hid)]
      exact Or.inr ⟨hid, s₁, hs₁, rfl, rfl⟩

/-- **Every session keeps the hash of the CSRF token issued last for it.** -/
theorem keepsNewestCsrf (h : History config engine ops tr db) :
    Follows (issuedCsrf ops) (·.id) KeepsCsrf tr db.authSessions := by
  refine h.induct (P := fun tr db => Follows (issuedCsrf ops) (·.id) KeepsCsrf tr db.authSessions)
    (follows_nil _ _ _) ?_
  intro e tr _ hpost ih
  refine ih.step fun s' hs' => ?_
  cases hissued : issuedCsrf ops e with
  | none =>
      obtain ⟨s, hs, hid, hcsrf⟩ := hpost.csrf_unissued List.mem_cons_self hissued hs'
      exact Or.inr ⟨by simp, s, hs, hid, fun csrf hkeeps => hcsrf.symm.trans hkeeps⟩
  | some issued =>
      obtain ⟨id, csrf⟩ := issued
      rcases hpost.csrf_issued List.mem_cons_self hissued hs' with
        ⟨rfl, hkeeps⟩ | ⟨hne, s, hs, hid, hcsrf⟩
      · exact Or.inl ⟨csrf, rfl, hkeeps⟩
      · refine Or.inr ⟨?_, s, hs, hid, fun csrf hkeeps => hcsrf.symm.trans hkeeps⟩
        rintro csrf' heq
        exact hne (Prod.mk.inj (Option.some.inj heq)).1.symm

end History

/-! ## Checking -/

/-- The lookup, on a connection that lasts: its answer is decoded from the rows of the query. -/
theorem session_lasts (hash : SecretHash) (now idle : DateTime) (db : Database) :
    Tx.Lasts (PgAuthStore.session hash now idle)
      (fun r _ => r = transpose sessionPrincipal (Database.session hash.asBytes now db)) db := by
  refine Tx.lasts_bind (Tx.lasts_transaction (Tx.lasts_bind (Repo.lasts_fetch ?_)))
  cases hfound : Database.session hash.asBytes now db with
  | none => exact Tx.lasts_pure (Tx.lasts_ofExcept rfl)
  | some row =>
      refine Tx.lasts_bind (Repo.lasts_execute rfl ?_)
      exact Tx.lasts_pure (Tx.lasts_ofExcept rfl)

/-- The session that a token names is the only one, and its user too. -/
theorem session_of_live [Crates] {db : Database} {token : SecretToken} {now : DateTime}
    {s : AuthSession} (hc : Database.Consistent db) (hlive : LiveSession db token now s) :
    ∃ u ∈ db.humanUsers, Database.session token.hash.asBytes now db = some (s, u) := by
  obtain ⟨hs, u, hu, hfound⟩ := hlive
  refine ⟨u, hu, ?_⟩
  have hmem : (s, u) ∈ join (fun s u => SessionFound token.hash.asBytes now s u) db.authSessions
      db.humanUsers := mem_join.2 ⟨hs, hu, decide_eq_true hfound⟩
  unfold Database.session
  cases hrows : join (fun s u => SessionFound token.hash.asBytes now s u) db.authSessions
      db.humanUsers with
  | nil =>
      rw [hrows] at hmem
      cases hmem
  | cons row rows =>
      have hrow : row ∈ join (fun s u => SessionFound token.hash.asBytes now s u) db.authSessions
          db.humanUsers := by
        rw [hrows]
        exact List.mem_cons_self
      rw [mem_join, decide_eq_true_eq] at hrow
      obtain ⟨hs', hu', hfound'⟩ := hrow
      have hsession : row.1 = s :=
        hc.sessionHashes.eq_of_mem hs' hs (hfound'.2.1.trans hfound.2.1.symm)
      have huser : row.2 = u := by
        refine hc.userIds.eq_of_mem hu' hu (hfound'.1.trans ?_)
        rw [hsession, hfound.1]
      rw [List.head?_cons, ← hsession, ← huser]

/-- The principal that a lookup answers with, and the rows it is built from. -/
theorem session_answered {env : Env} {db db' : Database} {hash : SecretHash} {now idle : DateTime}
    {p : SessionPrincipal} (h : perform env (.session hash now idle) db = (.ok (some p), db')) :
    ∃ s ∈ db.authSessions, ∃ u ∈ db.humanUsers, SessionFound hash.asBytes now s u ∧
      db' = db.used s none idle now ∧ p.sessionId = s.id ∧
      s.csrfHash = p.csrfHash.asBytes ∧ p.user.Decodes u := by
  rcases session_cases h with ⟨-, hno⟩ | ⟨s, hs, u, hu, hfound, hused, hr⟩
  · exact absurd rfl (hno p)
  · refine ⟨s, hs, u, hu, hfound, hused, ?_⟩
    cases hprincipal : sessionPrincipal (s, u) with
    | error e =>
        rw [hprincipal] at hr
        cases hr
    | ok q =>
        rw [hprincipal] at hr
        cases hr
        obtain ⟨user, huser, hprincipal⟩ := except_bind_ok hprincipal
        obtain ⟨csrfHash, hcsrf, hprincipal⟩ := except_bind_ok hprincipal
        cases hprincipal
        exact ⟨rfl, SecretHash.fromSlice_ok hcsrf, User.decodes_of_tryFrom huser⟩

section

variable [Crates] {config : AuthConfig} {token csrf : SecretToken} {now : DateTime}

/-- The check gives the session that the store found, if the token is the one that it keeps. -/
theorem returns_authenticateSession {csrf : Option SecretToken} {past : AuthExchanges}
    {p : SessionPrincipal} :
    Fallible.Returns (AuthService.authenticateSession config token csrf now) past p ↔
      past = [⟨.session token.hash now (now + config.sessionIdleTtl), .ok (some p)⟩] ∧
        ∀ c, csrf = some c → c.hash = p.csrfHash := by
  simp only [AuthService.authenticateSession, Fallible.returns_bind, returns_ask,
    Fallible.returns_okOr, Fallible.returns_ensure, Fallible.returns_pure]
  constructor
  · rintro ⟨_, _, found, rfl, rfl, _, _, principal, rfl, ⟨rfl, rfl⟩, _, _, -, rfl, ⟨rfl, hcsrf⟩,
      rfl, rfl⟩
    exact ⟨rfl, hcsrf⟩
  · rintro ⟨rfl, hcsrf⟩
    exact ⟨_, [], some p, rfl, rfl, [], [], p, rfl, ⟨rfl, rfl⟩, [], [], (), rfl, ⟨rfl, hcsrf⟩,
      rfl, rfl⟩

theorem acceptsCsrf_iff {past : AuthExchanges} : AcceptsCsrf config token csrf now past ↔
    ∃ p, past = [⟨.session token.hash now (now + config.sessionIdleTtl), .ok (some p)⟩] ∧
      csrf.hash = p.csrfHash :=
  exists_congr fun _ => returns_authenticateSession.trans (by simp)

namespace History

variable [DecidableEq τ] {engine : CeremonyEngine} {ops : τ → Operation}
  {newer older : List (AuthEvent τ)} {e : AuthEvent τ} {db : Database}

/-- A check asks the store once. -/
theorem authenticates (h : History config engine ops (newer ++ e :: older) db)
    {csrf : Option SecretToken} (hop : ops e.tid = .authenticateSession token csrf now) :
    e.call = .session token.hash now (now + config.sessionIdleTtl) ∧
      exchanges (newer ++ e :: older) e.tid = [e.exchange] := by
  obtain ⟨pool, run⟩ := h
  have honce : ∀ past c, Program.Asks ((ops e.tid).program config engine) past c →
      past = [] ∧ c = .session token.hash now (now + config.sessionIdleTtl) := by
    rw [hop]
    intro past c hasks
    change Fallible.Asks (AuthService.authenticateSession config token csrf now) past c at hasks
    simpa [AuthService.authenticateSession] using hasks
  exact ⟨(honce _ _ run.asks).2, run.exchanges_of_once fun past c hasks => (honce past c hasks).1⟩

/-- What an accepted token is. -/
theorem newest_of_accepted (h : History config engine ops (newer ++ e :: older) db)
    (hop : ops e.tid = .authenticateSession token (some csrf) now)
    (hsha : ∀ e₀ ∈ older, ∀ id c, issuedCsrf ops e₀ = some (id, c) → c.hash = csrf.hash → c = csrf)
    (haccepts : AcceptsCsrf config token csrf now (exchanges (newer ++ e :: older) e.tid)) :
    ∃ s, LiveSession e.pre token now s ∧ newestCsrf ops s.id older = some csrf := by
  rw [(h.authenticates hop).2, acceptsCsrf_iff] at haccepts
  obtain ⟨p, hexchange, hcsrf⟩ := haccepts
  obtain ⟨env, hperform⟩ := h.succeeded (e := e) (by simp) (List.singleton_inj.1 hexchange)
  obtain ⟨s, hs, u, hu, hfound, -, -, hrow, -⟩ := session_answered hperform
  obtain ⟨c, hlast, hkeeps⟩ := h.older.keepsNewestCsrf s hs
  refine ⟨s, ⟨hs, u, hu, hfound⟩, ?_⟩
  -- the hash that the row keeps is the hash of the presented token
  have hhash : c.hash = csrf.hash := by
    rw [hcsrf]
    exact SecretHash.asBytes_injective (hkeeps.symm.trans hrow)
  obtain ⟨between, e₀, oldest, hsplit, hissued, -⟩ := lastWrite_eq_some.1 hlast
  rw [newestCsrf, hlast, hsha e₀ (by simp [hsplit]) s.id c hissued hhash]

/-- The newest token of a live session is accepted. -/
theorem accepted_of_newest (h : History config engine ops (newer ++ e :: older) db)
    (hop : ops e.tid = .authenticateSession token (some csrf) now) {env : Env}
    (hlasts : env.left = none) (hperform : perform env e.call e.pre = (e.resp, e.post))
    {s : AuthSession} (hlive : LiveSession e.pre token now s)
    (hlast : newestCsrf ops s.id older = some csrf) :
    AcceptsCsrf config token csrf now (exchanges (newer ++ e :: older) e.tid) := by
  have he : e ∈ newer ++ e :: older := by simp
  obtain ⟨hcall, hexchanges⟩ := h.authenticates hop
  obtain ⟨r, hexchange, hanswer⟩ := exchange_of_call hcall hperform
  -- the row decodes, and keeps the hash of the newest token
  obtain ⟨u, hu, hquery⟩ := session_of_live (h.consistent_pre he) hlive
  obtain ⟨user, huser⟩ := (h.decodes_pre he).users u hu
  obtain ⟨csrfHash, hcsrf⟩ :=
    SecretHash.fromSlice_of_length ((h.decodes_pre he).csrfHashes s hlive.1)
  obtain ⟨c, hlast', hkeeps⟩ := h.older.keepsNewestCsrf s hlive.1
  obtain rfl : c = csrf := Option.some.inj (hlast'.symm.trans hlast)
  have hhash : c.hash = csrfHash :=
    SecretHash.asBytes_injective (hkeeps.symm.trans (SecretHash.fromSlice_ok hcsrf))
  have hr : r = transpose sessionPrincipal (Database.session token.hash.asBytes now e.pre) :=
    perform_of_lasts hanswer hlasts (session_lasts token.hash now _ e.pre)
  simp only [hquery, transpose, sessionPrincipal, huser, hcsrf] at hr
  rw [hexchanges, acceptsCsrf_iff, hexchange, hr]
  exact ⟨_, rfl, hhash⟩

end History

end

/-- **A CSRF token is accepted exactly when it was the last one issued for the live session that the
    session token names.** The steps are the store's calls in the order of their commits, and `hsha`
    says that SHA-256 tells the presented token from the issued ones. The check needs an answer of
    the database to accept; what it accepts is right in any case. Where the issued tokens are told
    apart as well, a token that was issued for another session, or before another one for the same
    session, is rejected. -/
theorem newest_csrf_accepted [DecidableEq τ] [Crates] {config : AuthConfig}
    {engine : CeremonyEngine} {ops : τ → Operation} {newer older : List (AuthEvent τ)}
    {e : AuthEvent τ} {db : Database} (h : History config engine ops (newer ++ e :: older) db)
    {token csrf : SecretToken} {now : DateTime}
    (hop : ops e.tid = .authenticateSession token (some csrf) now)
    (hsha : ∀ e₀ ∈ older, ∀ id c, issuedCsrf ops e₀ = some (id, c) → c.hash = csrf.hash → c = csrf) :
    (AcceptsCsrf config token csrf now (exchanges (newer ++ e :: older) e.tid) →
      ∃ s, LiveSession e.pre token now s ∧ newestCsrf ops s.id older = some csrf) ∧
    (∀ env, env.left = none → perform env e.call e.pre = (e.resp, e.post) →
      (AcceptsCsrf config token csrf now (exchanges (newer ++ e :: older) e.tid) ↔
        ∃ s, LiveSession e.pre token now s ∧ newestCsrf ops s.id older = some csrf)) ∧
    (WritesOnce (issuedCsrf ops) SecretToken.hash older →
      (∀ e₀ ∈ older, ∀ id, issuedCsrf ops e₀ = some (id, csrf) →
        (∀ s, LiveSession e.pre token now s → s.id ≠ id) →
        ¬ AcceptsCsrf config token csrf now (exchanges (newer ++ e :: older) e.tid)) ∧
      ∀ e₁ e₂ id c, Precedes older e₁ e₂ → issuedCsrf ops e₁ = some (id, csrf) →
        issuedCsrf ops e₂ = some (id, c) →
        ¬ AcceptsCsrf config token csrf now (exchanges (newer ++ e :: older) e.tid)) := by
  have hnewest := h.newest_of_accepted hop hsha
  refine ⟨hnewest, ?_, ?_⟩
  · intro env hlasts hperform
    refine ⟨hnewest, ?_⟩
    rintro ⟨s, hlive, hlast⟩
    exact h.accepted_of_newest hop hlasts hperform hlive hlast
  · intro honce
    refine ⟨?_, ?_⟩
    · rintro e₀ he₀ id hissued hother haccepts
      obtain ⟨s, hlive, hlast⟩ := hnewest haccepts
      obtain ⟨after, before, rfl⟩ := List.append_of_mem he₀
      exact hother s hlive (honce.last_of_written hissued hlast).1
    · rintro e₁ e₂ id c hprec hissued₁ hissued₂ haccepts
      obtain ⟨s, hlive, hlast⟩ := hnewest haccepts
      obtain ⟨after, before, rfl, he₁⟩ := precedes_iff_split.1 hprec
      obtain ⟨between, oldest, rfl⟩ := List.append_of_mem he₁
      -- after the issuance of the accepted token nothing was issued for its session
      have hsplit : after ++ e₂ :: (between ++ e₁ :: oldest) =
          (after ++ e₂ :: between) ++ e₁ :: oldest := by simp
      rw [hsplit] at honce hlast
      exact (honce.last_of_written hissued₁ hlast).2 e₂ (by simp) c hissued₂

section Sample

attribute [local instance] Reference.crates

/-- A session whose CSRF token is rotated before it is checked. -/
def sampleRotation : List Operation :=
  sampleRegistration "k" ++
    [.startAuthentication 3 0 11,
      .finishAuthentication 11 (.string "k") 4 (sampleToken 1) (sampleToken 2) 20,
      .issueSessionCsrf (sampleToken 1) 6 (sampleToken 3),
      .authenticateSession (sampleToken 1) (some (sampleToken 3)) 9]

def sampleRotationRun :=
  sampleRun sampleRotation [(0, 0), (0, 0), (0, 0), (1, 0), (1, 0), (1, 0), (2, 0), (2, 30), (3, 0),
    (4, 0), (4, 0), (4, 0), (4, 0), (5, 0), (6, 0)]

/-- The trace ends with the check, which found a session with the rotated token; the hash of no
    other issued token is the hash of that one. -/
def sampleChecked : List (AuthEvent ℕ) → Bool
  | [] => false
  | e :: older =>
      decide (e.tid = 6) &&
      (foundSession e).any (fun found => found.1.csrfHash = (sampleToken 3).hash) &&
      (older.filterMap (issuedCsrf (sampleOperations sampleRotation))).all
        (fun issued => decide (issued.2.hash = (sampleToken 3).hash → issued.2 = sampleToken 3))

/-- The check accepted the token that had been issued last. -/
theorem newest_csrf_accepted_sample : ∃ e older s, sampleRotationRun.trace = e :: older ∧
    LiveSession e.pre (sampleToken 1) 9 s ∧
    newestCsrf (sampleOperations sampleRotation) s.id older = some (sampleToken 3) := by
  have hchecked : sampleChecked sampleRotationRun.trace = true := by decide +kernel
  have hrun := sampleRun_history sampleRotation [(0, 0), (0, 0), (0, 0), (1, 0), (1, 0), (1, 0),
    (2, 0), (2, 30), (3, 0), (4, 0), (4, 0), (4, 0), (4, 0), (5, 0), (6, 0)]
  change History _ _ _ sampleRotationRun.trace _ at hrun
  cases htrace : sampleRotationRun.trace with
  | nil =>
      rw [htrace] at hchecked
      cases hchecked
  | cons e older =>
      rw [htrace] at hchecked hrun
      simp only [sampleChecked, Bool.and_eq_true, decide_eq_true_eq, List.all_eq_true,
        List.mem_filterMap] at hchecked
      obtain ⟨⟨htid, hany⟩, hdistinct⟩ := hchecked
      obtain ⟨⟨p, now⟩, hfound, hcsrf⟩ := (Option.any_eq_true _ _).1 hany
      have hop : sampleOperations sampleRotation e.tid =
          .authenticateSession (sampleToken 1) (some (sampleToken 3)) 9 := by
        rw [htid]
        rfl
      have hhistory : History .default sampleEngine (sampleOperations sampleRotation)
          ([] ++ e :: older) _ := hrun
      obtain ⟨hcall, hexchanges⟩ := hhistory.authenticates hop
      have haccepts : AcceptsCsrf .default (sampleToken 1) (sampleToken 3) 9
          (exchanges ([] ++ e :: older) e.tid) := by
        rw [hexchanges, acceptsCsrf_iff]
        rcases foundSession_eq_some.1 hfound with ⟨_, _, hc⟩ | ⟨_, _, _, hc⟩
        · have hsame : (AuthCall.session _ _ _) = _ := (congrArg Exchange.call hc).symm.trans hcall
          cases hsame
          exact ⟨p, congrArg (fun x => [x]) hc, (of_decide_eq_true hcsrf).symm⟩
        · cases (congrArg Exchange.call hc).symm.trans hcall
      have hsha : ∀ e₀ ∈ older, ∀ id c,
          issuedCsrf (sampleOperations sampleRotation) e₀ = some (id, c) →
          c.hash = (sampleToken 3).hash → c = sampleToken 3 :=
        fun e₀ he₀ id c hissued hhash => hdistinct (id, c) ⟨e₀, he₀, hissued⟩ hhash
      obtain ⟨s, hlive, hlast⟩ := (newest_csrf_accepted hhistory hop hsha).1 haccepts
      exact ⟨e, older, s, rfl, hlive, hlast⟩

end Sample

end RsConsole
