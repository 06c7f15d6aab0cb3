import RsConsole.Server.Commits
import RsConsole.Server.Invalidation

set_option autoImplicit false

/-! # The lifetime of a session

A login sets both expiries of its session. Every later use sets the idle expiry again, clamped to the
absolute one it reads back; nothing else touches either. The clock of the calls need not advance: the
idle expiry follows the use that was committed last. -/

namespace RsConsole

open Library Library.Table Database PgAuthStore

variable {τ : Type}

/-- The session that a call found, and when it was used. -/
def foundSession (e : AuthEvent τ) : Option (SessionPrincipal × DateTime) :=
  match e.exchange with
  | ⟨.session _ now _, .ok (some p)⟩ => some (p, now)
  | ⟨.rotateSessionCsrf _ _ now _, .ok (some p)⟩ => some (p, now)
  | _ => none

/-- The time of the event's use of the session `id`. -/
def usedAt (id : Uuid) (e : AuthEvent τ) : Option DateTime :=
  ((foundSession e).filter (·.1.sessionId = id)).map (·.2)

/-- The time of the last use of the session `id`. -/
def lastUse (id : Uuid) (tr : List (AuthEvent τ)) : Option DateTime := tr.findSome? (usedAt id)

theorem lastUse_cons_of_found {id : Uuid} {e : AuthEvent τ} {tr : List (AuthEvent τ)}
    {p : SessionPrincipal} {now : DateTime} (hfound : foundSession e = some (p, now))
    (hid : p.sessionId = id) : lastUse id (e :: tr) = some now := by
  simp [lastUse, usedAt, hfound, hid]

theorem lastUse_cons_of_ne {id : Uuid} {e : AuthEvent τ} {tr : List (AuthEvent τ)}
    (hne : ∀ p now, foundSession e = some (p, now) → p.sessionId ≠ id) :
    lastUse id (e :: tr) = lastUse id tr := by
  have hnone : usedAt id e = none := by
    cases hfound : foundSession e with
    | none => simp [usedAt, hfound]
    | some found => simp [usedAt, hfound, hne found.1 found.2 hfound]
  simp [lastUse, hnone]

/-- The event completed a `finish_authentication` at `c` that created the session `id`. -/
def CreatesSession (ops : τ → Operation) (e : AuthEvent τ) (id : Uuid) (c : DateTime) : Prop :=
  ∃ ceremonyId response token csrf verification session audit,
    ops e.tid = .finishAuthentication ceremonyId response c token csrf id ∧
    Succeeded e (.completeAuthentication ceremonyId verification session c audit) () ∧
    session.id = id

/-- The operation, having exchanged `past`, has returned the principal `p`; it was called at `t`. -/
inductive ReturnsPrincipal [Crates] (config : AuthConfig) (op : Operation) (past : AuthExchanges)
    (p : SessionPrincipal) (t : DateTime) : Prop
  | authenticateSession (token : SecretToken) (csrf : Option SecretToken)
      (operation : op = .authenticateSession token csrf t)
      (returns : Fallible.Returns (AuthService.authenticateSession config token csrf t) past p)
  | issueSessionCsrf (token csrf : SecretToken)
      (operation : op = .issueSessionCsrf token t csrf)
      (returns : Fallible.Returns (AuthService.issueSessionCsrf config token t csrf) past (p, csrf))

/-- A returned principal is the one that the operation's call of the store found. -/
theorem ReturnsPrincipal.answered [Crates] {config : AuthConfig} {op : Operation}
    {past : AuthExchanges} {p : SessionPrincipal} {t : DateTime}
    (h : ReturnsPrincipal config op past p t) :
    (∃ hash idle, Answered past (.session hash t idle) (some p)) ∨
      ∃ hash csrfHash idle, Answered past (.rotateSessionCsrf hash csrfHash t idle) (some p) := by
  cases h with
  | authenticateSession token csrf operation returns =>
      simp [AuthService.authenticateSession] at returns
      obtain ⟨rfl, -⟩ := returns
      exact Or.inl ⟨_, _, List.mem_singleton_self _⟩
  | issueSessionCsrf token csrf operation returns =>
      simp [AuthService.issueSessionCsrf] at returns
      subst returns
      exact Or.inr ⟨_, _, _, List.mem_singleton_self _⟩

/-! ## What commits do to the sessions -/

/-- The call looks a session up. -/
def AuthCall.looksUp : AuthCall → Bool
  | .session .. => true
  | .rotateSessionCsrf .. => true
  | _ => false

/-- The session, revoked. -/
def Database.revoked (now : DateTime) (s : AuthSession) : AuthSession :=
  { s with revokedAt := some now }

/-- A session is added by a login, used by the two calls that look one up, and revoked otherwise. -/
theorem Commits.authSessions_cases {env : Env} {db db' : Database} {c : AuthCall}
    (h : Commits env db c db') :
    (∃ ceremonyId verification session now audit,
      c = .completeAuthentication ceremonyId verification session now audit ∧
      db'.authSessions = db.authSessions ++ [session.row now]) ∨
    (c.looksUp = true ∧ ∃ s ∈ db.authSessions, ∃ csrfHash idle now,
      db' = db.used s csrfHash idle now) ∨
    ∃ p now, db'.authSessions = updateWhere p (revoked now) db.authSessions := by
  have hsame : db.authSessions = updateWhere (fun _ => false) (revoked 0) db.authSessions := by simp
  cases h with
  | completeAuthentication ceremonyId verification session now audit =>
      exact Or.inl ⟨ceremonyId, verification, session, now, audit, rfl, rfl⟩
  | session hash now idle s u mem => exact Or.inr (Or.inl ⟨rfl, s, mem, none, idle, now, rfl⟩)
  | rotateSessionCsrf hash csrfHash now idle s u mem =>
      exact Or.inr (Or.inl ⟨rfl, s, mem, some csrfHash, idle, now, rfl⟩)
  | rotateAllAuthEpochs => exact Or.inr (Or.inr ⟨_, _, rfl⟩)
  | deleteSession => exact Or.inr (Or.inr ⟨_, _, rfl⟩)
  | approveRecovery => exact Or.inr (Or.inr ⟨_, _, rfl⟩)
  | breakGlass => exact Or.inr (Or.inr ⟨_, _, rfl⟩)
  | _ => exact Or.inr (Or.inr ⟨_, _, hsame⟩)

theorem AuthCall.looksUp_cases {c : AuthCall} (h : c.looksUp = true) :
    (∃ hash now idle, c = .session hash now idle) ∨
      ∃ hash csrfHash now idle, c = .rotateSessionCsrf hash csrfHash now idle := by
  cases c with
  | session hash now idle => exact Or.inl ⟨hash, now, idle, rfl⟩
  | rotateSessionCsrf hash csrfHash now idle => exact Or.inr ⟨hash, csrfHash, now, idle, rfl⟩
  | _ => cases h

theorem foundSession_eq_some {e : AuthEvent τ} {p : SessionPrincipal} {now : DateTime} :
    foundSession e = some (p, now) ↔
      (∃ hash idle, Succeeded e (.session hash now idle) (some p)) ∨
        ∃ hash csrfHash idle, Succeeded e (.rotateSessionCsrf hash csrfHash now idle) (some p) := by
  constructor
  · intro h
    unfold foundSession at h
    split at h
    · next hash now' idle p' he =>
        cases h
        exact Or.inl ⟨hash, idle, he⟩
    · next hash csrfHash now' idle p' he =>
        cases h
        exact Or.inr ⟨hash, csrfHash, idle, he⟩
    · cases h
  · rintro (⟨hash, idle, h⟩ | ⟨hash, csrfHash, idle, h⟩)
    · unfold foundSession
      rw [h]
    · unfold foundSession
      rw [h]

/-- A reading call that looks no session up changes nothing. -/
theorem Commits.same_of_reads {env : Env} {db db' : Database} {c : AuthCall}
    (h : Commits env db c db') (hreads : c.reads = true) (hlooks : c.looksUp = false) :
    db' = db := by
  cases h with
  | unchanged => rfl
  | session => cases hlooks
  | rotateSessionCsrf => cases hlooks
  | _ => cases hreads

/-! ## Rows decode -/

theorem parseUserId_value (id : UserId) : parseUserId id.value = .ok id := by
  simp [parseUserId, OpaqueId.new, id.valid, Except.mapError]

theorem parseRole_roleName (role : Role) : parseRole (roleName role) = .ok role := by
  cases role <;> rfl

theorem User.tryFrom_row (user : User) (now : DateTime) : User.tryFrom (user.row now) = .ok user := by
  simp only [User.tryFrom, User.row, parseUserId_value, parseRole_roleName]
  rfl

/-- An epoch that advanced does not keep a row from decoding. -/
theorem User.tryFrom_advanced {u : HumanUser} {user : User} (h : User.tryFrom u = .ok user)
    (now : DateTime) :
    User.tryFrom (advanced now u) = .ok { user with authEpoch := user.authEpoch + 1 } := by
  obtain ⟨id, hid, h⟩ := except_bind_ok h
  obtain ⟨role, hrole, h⟩ := except_bind_ok h
  cases h
  simp only [User.tryFrom, advanced, hid, hrole]
  rfl

theorem SecretHash.fromSlice_of_length {value : List UInt8} (h : value.length = 32) :
    ∃ hash, SecretHash.fromSlice value = .ok hash := by
  unfold SecretHash.fromSlice
  rw [dif_pos h]
  exact ⟨_, rfl⟩

/-- The rows that a session call decodes are the ones that its methods can write. -/
structure Database.Decodes (db : Database) : Prop where
  users : ∀ u ∈ db.humanUsers, ∃ user, User.tryFrom u = .ok user
  csrfHashes : ∀ s ∈ db.authSessions, s.csrfHash.length = 32

/-- A session call that found the session `s` used it, and answers with its principal. -/
structure UsesSession (db db' : Database) (answer : Except AuthError (Option SessionPrincipal))
    (csrfHash : Option SecretHash) (now idle : DateTime) (s : AuthSession) (p : SessionPrincipal) :
    Prop where
  mem : s ∈ db.authSessions
  answered : answer = .ok (some p)
  id : p.sessionId = s.id
  absolute : p.absoluteExpiresAt = s.absoluteExpiresAt
  beforeIdle : now < s.idleExpiresAt
  beforeAbsolute : now < s.absoluteExpiresAt
  used : db' = db.used s csrfHash idle now

section

variable {env : Env} {db db' : Database} {hash csrfHash : SecretHash} {now idle : DateTime}
  {r : Except AuthError (Option SessionPrincipal)}

theorem Database.Decodes.session (hd : Database.Decodes db)
    (h : perform env (.session hash now idle) db = (r, db')) :
    (db' = db ∧ ∀ p, r ≠ .ok (some p)) ∨ ∃ s p, UsesSession db db' r none now idle s p := by
  rcases session_cases h with hsame | ⟨s, hs, u, hu, hfound, hused, hr⟩
  · exact Or.inl hsame
  · obtain ⟨user, huser⟩ := hd.users u hu
    obtain ⟨csrfHash, hcsrf⟩ := SecretHash.fromSlice_of_length (hd.csrfHashes s hs)
    obtain ⟨-, -, -, hidle, habsolute, -⟩ := hfound
    simp only [sessionPrincipal, huser, hcsrf] at hr
    exact Or.inr ⟨s, _, hs, hr, rfl, rfl, hidle, habsolute, hused⟩

theorem Database.Decodes.rotateSessionCsrf (hd : Database.Decodes db)
    (h : perform env (.rotateSessionCsrf hash csrfHash now idle) db = (r, db')) :
    (db' = db ∧ ∀ p, r ≠ .ok (some p)) ∨
      ∃ s p, UsesSession db db' r (some csrfHash) now idle s p := by
  rcases rotateSessionCsrf_cases h with hsame | ⟨s, hs, u, hu, hfound, hused, hr⟩
  · exact Or.inl hsame
  · obtain ⟨user, huser⟩ := hd.users u hu
    obtain ⟨-, -, -, hidle, habsolute, -⟩ := hfound
    simp only [rotatedPrincipal, huser] at hr
    exact Or.inr ⟨s, _, hs, hr, rfl, rfl, hidle, habsolute, hused⟩

end

namespace History

variable [DecidableEq τ] [Crates] {config : AuthConfig} {engine : CeremonyEngine}
  {ops : τ → Operation} {tr : List (AuthEvent τ)} {db : Database} {e e₀ : AuthEvent τ}

theorem users_decode (h : History config engine ops tr db) :
    ∀ u ∈ db.humanUsers, ∃ user, User.tryFrom u = .ok user := by
  refine h.induct (P := fun _ db => ∀ u ∈ db.humanUsers, ∃ user, User.tryFrom u = .ok user)
    (fun u hu => nomatch hu) ?_
  intro e tr _ hpost ih u hu
  rcases hpost.users_event List.mem_cons_self with ⟨user, now, audit, -, hrows⟩ |
    ⟨user, capability, operatorId, now, -, hrows⟩ | ⟨-, p, now, hrows⟩
  · rw [hrows, List.mem_append, List.mem_singleton] at hu
    rcases hu with hu | rfl
    · exact ih u hu
    · exact ⟨user, user.tryFrom_row now⟩
  · rw [hrows, List.mem_append, List.mem_singleton] at hu
    rcases hu with hu | rfl
    · exact ih u hu
    · exact ⟨user, user.tryFrom_row now⟩
  · rw [hrows] at hu
    obtain ⟨u₀, hu₀, rfl⟩ := mem_updateWhere.1 hu
    obtain ⟨user, huser⟩ := ih u₀ hu₀
    split
    · exact ⟨_, User.tryFrom_advanced huser now⟩
    · exact ⟨user, huser⟩

theorem csrfHashes_decode (h : History config engine ops tr db) :
    ∀ s ∈ db.authSessions, s.csrfHash.length = 32 := by
  refine h.induct (P := fun _ db => ∀ s ∈ db.authSessions, s.csrfHash.length = 32)
    (fun s hs => nomatch hs) ?_
  intro e tr _ hpost ih s hs
  rcases hpost.storeRun.commits_event List.mem_cons_self with hsame | ⟨env, hcommits⟩
  · rw [hsame] at hs
    exact ih s hs
  rcases hcommits.authSessions_cases with ⟨_, _, session, now, _, -, hrows⟩ |
    ⟨-, s₀, -, csrfHash, idle, now, hused⟩ | ⟨p, now, hrows⟩
  · rw [hrows, List.mem_append, List.mem_singleton] at hs
    rcases hs with hs | rfl
    · exact ih s hs
    · exact session.csrfHash.length_asBytes
  · rw [hused] at hs
    obtain ⟨s₁, hs₁, rfl⟩ := mem_updateWhere.1 hs
    split
    · -- only an issued CSRF token changes the column, and what it writes is a digest
      cases csrfHash with
      | none => exact ih s₁ hs₁
      | some csrfHash => exact csrfHash.length_asBytes
    · exact ih s₁ hs₁
  · rw [hrows] at hs
    obtain ⟨s₁, hs₁, rfl⟩ := mem_updateWhere.1 hs
    split
    · exact ih s₁ hs₁
    · exact ih s₁ hs₁

theorem decodes (h : History config engine ops tr db) : Database.Decodes db :=
  ⟨h.users_decode, h.csrfHashes_decode⟩

theorem decodes_pre (h : History config engine ops tr db) (he : e ∈ tr) :
    Database.Decodes e.pre := by
  obtain ⟨newer, older, rfl⟩ := List.append_of_mem he
  exact h.older.decodes

/-- **A call that fails leaves the database as it was**: what a session call finds it can decode. -/
theorem failed_unchanged (h : History config engine ops tr db) (he : e ∈ tr)
    (hfailed : Failed e e.call) : e.post = e.pre := by
  have hdecodes := h.decodes_pre he
  obtain ⟨env, error, hperform⟩ := h.failed he hfailed
  generalize hcall : e.call = c at hperform
  rcases perform_error hperform with hsame | ⟨hreads, hcommits⟩
  · exact hsame
  cases c with
  | session hash now idle =>
      rcases hdecodes.session hperform with ⟨hsame, -⟩ | ⟨s, p, huses⟩
      · exact hsame
      · cases huses.answered
  | rotateSessionCsrf hash csrfHash now idle =>
      rcases hdecodes.rotateSessionCsrf hperform with ⟨hsame, -⟩ | ⟨s, p, huses⟩
      · exact hsame
      · cases huses.answered
  | _ => exact hcommits.same_of_reads hreads rfl

/-- A session call that found none changes nothing. -/
theorem same_of_not_found (h : History config engine ops tr db) (he : e ∈ tr)
    (hlooks : e.call.looksUp = true) (hnone : foundSession e = none) : e.post = e.pre := by
  rcases History.succeeded_or_failed (rfl : e.call = e.call) with ⟨a, hc⟩ | hc
  · have hdecodes := h.decodes_pre he
    rcases AuthCall.looksUp_cases hlooks with ⟨hash, now, idle, hcall⟩ |
      ⟨hash, csrfHash, now, idle, hcall⟩
    · obtain ⟨found, hc⟩ := succeeded_of_call hc hcall
      obtain ⟨env, hperform⟩ := h.succeeded he hc
      rcases hdecodes.session hperform with ⟨hsame, -⟩ | ⟨s, p, huses⟩
      · exact hsame
      · cases huses.answered
        rw [foundSession_eq_some.2 (Or.inl ⟨hash, idle, hc⟩)] at hnone
        cases hnone
    · obtain ⟨found, hc⟩ := succeeded_of_call hc hcall
      obtain ⟨env, hperform⟩ := h.succeeded he hc
      rcases hdecodes.rotateSessionCsrf hperform with ⟨hsame, -⟩ | ⟨s, p, huses⟩
      · exact hsame
      · cases huses.answered
        rw [foundSession_eq_some.2 (Or.inr ⟨hash, csrfHash, idle, hc⟩)] at hnone
        cases hnone
  · exact h.failed_unchanged he hc

/-- A lookup that found a session used it, and kept its CSRF token. -/
theorem uses_of_lookup (h : History config engine ops tr db) (he : e ∈ tr) {hash : SecretHash}
    {now idle : DateTime} {p : SessionPrincipal} (hc : Succeeded e (.session hash now idle) (some p)) :
    ∃ s, UsesSession e.pre e.post (.ok (some p)) none now (now + config.sessionIdleTtl) s p := by
  obtain ⟨past, ⟨-, rfl⟩, -⟩ := h.passed he hc
  obtain ⟨env, hperform⟩ := h.succeeded he hc
  rcases (h.decodes_pre he).session hperform with ⟨-, hno⟩ | ⟨s, p', huses⟩
  · exact absurd rfl (hno p)
  · cases huses.answered
    exact ⟨s, huses⟩

/-- A rotation that found a session used it, and gave it the CSRF token of its call. -/
theorem uses_of_rotation (h : History config engine ops tr db) (he : e ∈ tr)
    {hash csrfHash : SecretHash} {now idle : DateTime} {p : SessionPrincipal}
    (hc : Succeeded e (.rotateSessionCsrf hash csrfHash now idle) (some p)) :
    ∃ s, UsesSession e.pre e.post (.ok (some p)) (some csrfHash) now
      (now + config.sessionIdleTtl) s p := by
  obtain ⟨past, ⟨-, rfl⟩, -⟩ := h.passed he hc
  obtain ⟨env, hperform⟩ := h.succeeded he hc
  rcases (h.decodes_pre he).rotateSessionCsrf hperform with ⟨-, hno⟩ | ⟨s, p', huses⟩
  · exact absurd rfl (hno p)
  · cases huses.answered
    exact ⟨s, huses⟩

/-- A session call that found one used it, at the time and with the bound of its operation. -/
theorem uses_of_found (h : History config engine ops tr db) (he : e ∈ tr) {p : SessionPrincipal}
    {now : DateTime} (hfound : foundSession e = some (p, now)) :
    ∃ s csrfHash, UsesSession e.pre e.post (.ok (some p)) csrfHash now
      (now + config.sessionIdleTtl) s p := by
  rcases foundSession_eq_some.1 hfound with ⟨hash, idle, hc⟩ | ⟨hash, csrfHash, idle, hc⟩
  · obtain ⟨s, huses⟩ := h.uses_of_lookup he hc
    exact ⟨s, none, huses⟩
  · obtain ⟨s, huses⟩ := h.uses_of_rotation he hc
    exact ⟨s, some csrfHash, huses⟩

/-- What an event does to the sessions. -/
theorem sessions_event (h : History config engine ops tr db) (he : e ∈ tr) :
    (∃ ceremonyId verification session now audit,
      Succeeded e (.completeAuthentication ceremonyId verification session now audit) () ∧
      e.post.authSessions = e.pre.authSessions ++ [session.row now]) ∨
    (∃ s p csrfHash now, foundSession e = some (p, now) ∧
      UsesSession e.pre e.post (.ok (some p)) csrfHash now (now + config.sessionIdleTtl) s p) ∨
    (foundSession e = none ∧
      ∃ p now, e.post.authSessions = updateWhere p (revoked now) e.pre.authSessions) := by
  cases hfound : foundSession e with
  | some found =>
      obtain ⟨s, csrfHash, huses⟩ := h.uses_of_found he hfound
      exact Or.inr (Or.inl ⟨s, found.1, csrfHash, found.2, rfl, huses⟩)
  | none =>
      have hsame : e.pre.authSessions =
          updateWhere (fun _ => false) (revoked 0) e.pre.authSessions := by simp
      -- a lookup that finds nothing writes nothing; any other call is not a lookup
      cases hlooks : e.call.looksUp with
      | true =>
          rw [h.same_of_not_found he hlooks hfound]
          exact Or.inr (Or.inr ⟨rfl, _, _, hsame⟩)
      | false =>
          rcases h.storeRun.commits_answered he with hpost | ⟨env, hcommits, hanswered⟩
          · rw [hpost]
            exact Or.inr (Or.inr ⟨rfl, _, _, hsame⟩)
          rcases hcommits.authSessions_cases with ⟨_, _, _, _, _, hcall, hrows⟩ | ⟨hyes, -⟩ | hrows
          · obtain ⟨⟨⟩, hc⟩ := hanswered _ hcall rfl
            exact Or.inl ⟨_, _, _, _, _, hc, hrows⟩
          · rw [hlooks] at hyes
            cases hyes
          · exact Or.inr (Or.inr ⟨rfl, hrows⟩)

/-! ## The age of a session -/

/-- A login creates the session of its operation, with both expiries counted from its time. -/
theorem createsSession (h : History config engine ops tr db) (he : e ∈ tr) {ceremonyId : Uuid}
    {verification : AuthenticationVerification} {session : SessionRecord} {now : DateTime}
    {audit : AuditEvent}
    (hc : Succeeded e (.completeAuthentication ceremonyId verification session now audit) ()) :
    CreatesSession ops e session.id now ∧
      session.idleExpiresAt = now + config.sessionIdleTtl ∧
      session.absoluteExpiresAt = now + config.sessionAbsoluteTtl := by
  obtain ⟨past, ⟨response, token, csrf, id, _, _, user, _, hop, -, -, rfl, -⟩, -⟩ :=
    h.explained_of_succeeded he hc
  exact ⟨⟨ceremonyId, response, token, csrf, verification, _, audit, hop, hc, rfl⟩, rfl, rfl⟩

/-- Before its creation there is no session with its id, after it there is one. -/
theorem session_of_creates (h : History config engine ops tr db) (he : e ∈ tr) {id : Uuid}
    {c : DateTime} (hcreates : CreatesSession ops e id c) :
    (∀ s ∈ e.pre.authSessions, s.id ≠ id) ∧ ∃ s ∈ e.post.authSessions, s.id = id := by
  obtain ⟨ceremonyId, _, _, _, verification, session, audit, -, hc, rfl⟩ := hcreates
  obtain ⟨env, hperform⟩ := h.succeeded he hc
  obtain ⟨ceremony, hlogin⟩ := completeAuthentication_committed hperform
  have hkeys := (h.consistent_post he).sessionIds
  rw [hlogin.added] at hkeys
  refine ⟨fun s hs => hkeys.ne_of_append hs, session.row c, ?_, rfl⟩
  rw [hlogin.added]
  exact List.mem_append_right _ (List.mem_singleton_self _)

/-- The sessions that were found or created exist. -/
theorem session_of_lastUse (h : History config engine ops tr db) {id : Uuid} {t : DateTime}
    (huse : lastUse id tr = some t) : ∃ s ∈ db.authSessions, s.id = id := by
  obtain ⟨e, he, hat⟩ := List.exists_of_findSome?_eq_some huse
  obtain ⟨⟨p, now⟩, hfound, -⟩ := Option.map_eq_some_iff.1 hat
  rw [Option.filter_eq_some_iff] at hfound
  obtain ⟨s, csrfHash, huses⟩ := h.uses_of_found he hfound.1
  obtain ⟨s', hs', hbecomes⟩ := (h.evolves_from he).authSessions.exists_of_mem huses.mem
  refine ⟨s', hs', ?_⟩
  rw [hbecomes.fixed, ← huses.id]
  exact of_decide_eq_true hfound.2

/-- A session that exists before an event was created before it. -/
theorem created_before {newer older : List (AuthEvent τ)}
    (h : History config engine ops (newer ++ e :: older) db) {s : AuthSession}
    (hs : s ∈ e.pre.authSessions) (he₀ : e₀ ∈ newer ++ e :: older) {c : DateTime}
    (hcreates : CreatesSession ops e₀ s.id c) : e₀ ∈ older := by
  have hfresh := (h.session_of_creates he₀ hcreates).1
  rcases List.mem_append.1 he₀ with hnewer | he₀
  · have hprec : Precedes (newer ++ e :: older) e e₀ := precedes_of_mem_newer hnewer
    obtain ⟨s', hs', hbecomes⟩ := ((h.evolves_event hprec.left_mem).trans
      (h.evolves_between hprec)).authSessions.exists_of_mem hs
    exact absurd (by rw [hbecomes.fixed]) (hfresh s' hs')
  · rcases List.mem_cons.1 he₀ with rfl | he₀
    · exact absurd rfl (hfresh s hs)
    · exact he₀

theorem created_in_past (h : History config engine ops (e :: tr) db) {s : AuthSession}
    (hs : s ∈ e.pre.authSessions) (he₀ : e₀ ∈ e :: tr) {c : DateTime}
    (hcreates : CreatesSession ops e₀ s.id c) : e₀ ∈ tr :=
  created_before (show History config engine ops ([] ++ e :: tr) db from h) hs he₀ hcreates

end History

/-- What the past says about the expiries of a session. -/
structure Timed (config : AuthConfig) (ops : τ → Operation) (tr : List (AuthEvent τ))
    (s : AuthSession) : Prop where
  created : ∃ e₀ ∈ tr, ∃ c, CreatesSession ops e₀ s.id c
  absolute : ∀ e₀ ∈ tr, ∀ c, CreatesSession ops e₀ s.id c →
    s.absoluteExpiresAt = c + config.sessionAbsoluteTtl
  idle : ∀ e₀ ∈ tr, ∀ c, CreatesSession ops e₀ s.id c →
    s.idleExpiresAt ≤ (lastUse s.id tr).getD c + config.sessionIdleTtl

namespace History

variable [DecidableEq τ] [Crates] {config : AuthConfig} {engine : CeremonyEngine}
  {ops : τ → Operation} {tr : List (AuthEvent τ)} {db : Database} {e e₀ : AuthEvent τ}

/-- An event that does not use a session, nor prolong it, keeps what the past says about it. -/
theorem timed_unused (h : History config engine ops (e :: tr) e.post) {s s' : AuthSession}
    (hs : s ∈ e.pre.authSessions) (ht : Timed config ops tr s) (hid : s'.id = s.id)
    (habsolute : s'.absoluteExpiresAt = s.absoluteExpiresAt)
    (hidle : s'.idleExpiresAt = s.idleExpiresAt)
    (hne : ∀ p now, foundSession e = some (p, now) → p.sessionId ≠ s.id) :
    Timed config ops (e :: tr) s' := by
  obtain ⟨⟨e₀, he₀, c, hcreates⟩, habs, hidl⟩ := ht
  refine ⟨⟨e₀, List.mem_cons_of_mem _ he₀, c, hid ▸ hcreates⟩, ?_, ?_⟩
  · intro e₁ he₁ c₁ hcreates₁
    rw [hid] at hcreates₁
    rw [habsolute]
    exact habs e₁ (h.created_in_past hs he₁ hcreates₁) c₁ hcreates₁
  · intro e₁ he₁ c₁ hcreates₁
    rw [hid] at hcreates₁ ⊢
    rw [hidle, lastUse_cons_of_ne hne]
    exact hidl e₁ (h.created_in_past hs he₁ hcreates₁) c₁ hcreates₁

/-- A use clamps the idle expiry and counts it from its own time. -/
theorem timed_used (h : History config engine ops (e :: tr) e.post) {s : AuthSession}
    {p : SessionPrincipal} {now : DateTime} (hs : s ∈ e.pre.authSessions)
    (ht : Timed config ops tr s) (hfound : foundSession e = some (p, now)) (hid : p.sessionId = s.id)
    (csrfHash : List UInt8) :
    Timed config ops (e :: tr) { s with
      csrfHash
      idleExpiresAt := min (now + config.sessionIdleTtl) s.absoluteExpiresAt
      lastSeenAt := now } := by
  obtain ⟨⟨e₀, he₀, c, hcreates⟩, habsolute, -⟩ := ht
  refine ⟨⟨e₀, List.mem_cons_of_mem _ he₀, c, hcreates⟩, ?_, ?_⟩
  · intro e₁ he₁ c₁ hcreates₁
    exact habsolute e₁ (h.created_in_past hs he₁ hcreates₁) c₁ hcreates₁
  · intro e₁ he₁ c₁ hcreates₁
    rw [lastUse_cons_of_found hfound hid]
    exact min_le_left _ _

/-- A session is timed from its creation. -/
theorem timed_created (h : History config engine ops (e :: tr) e.post)
    (hpre : History config engine ops tr e.pre) {session : SessionRecord} {now : DateTime}
    (hcreates : CreatesSession ops e session.id now)
    (hidle : session.idleExpiresAt = now + config.sessionIdleTtl)
    (habsolute : session.absoluteExpiresAt = now + config.sessionAbsoluteTtl)
    (hne : ∀ p now, foundSession e = some (p, now) → p.sessionId ≠ session.id) :
    Timed config ops (e :: tr) (session.row now) := by
  have hfresh := (h.session_of_creates List.mem_cons_self hcreates).1
  have honce : ∀ e₁ ∈ e :: tr, ∀ c₁, CreatesSession ops e₁ session.id c₁ → c₁ = now := by
    intro e₁ he₁ c₁ hcreates₁
    rcases List.mem_cons.1 he₁ with rfl | he₁
    · obtain ⟨_, _, _, _, _, _, _, -, hc, -⟩ := hcreates
      obtain ⟨_, _, _, _, _, _, _, -, hc₁, -⟩ := hcreates₁
      cases hc.unique hc₁
      rfl
    · obtain ⟨s, hs, hid⟩ := (hpre.session_of_creates he₁ hcreates₁).2
      obtain ⟨s', hs', hbecomes⟩ := (hpre.evolves_end he₁).authSessions.exists_of_mem hs
      exact absurd (by rw [hbecomes.fixed, hid]) (hfresh s' hs')
  -- the id is fresh, so no use of it is in the past
  have hnever : lastUse session.id (e :: tr) = none := by
    rw [lastUse_cons_of_ne hne, Option.eq_none_iff_forall_not_mem]
    intro t huse
    obtain ⟨s, hs, hid⟩ := hpre.session_of_lastUse huse
    exact hfresh s hs hid
  refine ⟨⟨e, List.mem_cons_self, now, hcreates⟩, ?_, ?_⟩
  · intro e₁ he₁ c₁ hcreates₁
    rw [honce e₁ he₁ c₁ hcreates₁]
    exact habsolute
  · intro e₁ he₁ c₁ hcreates₁
    have hnone : lastUse (session.row now).id (e :: tr) = none := hnever
    rw [honce e₁ he₁ c₁ hcreates₁, hnone]
    exact hidle.le

/-- **The expiries of every session are what its creation and its last use make them.** -/
theorem timed (h : History config engine ops tr db) :
    ∀ s ∈ db.authSessions, Timed config ops tr s := by
  refine h.induct (P := fun tr db => ∀ s ∈ db.authSessions, Timed config ops tr s)
    (fun s hs => nomatch hs) ?_
  intro e tr hpre hpost ih s' hs'
  rcases hpost.sessions_event List.mem_cons_self with
    ⟨ceremonyId, verification, session, now, audit, hc, hrows⟩ | ⟨s, p, csrfHash, now, hfound, huses⟩ |
    ⟨hnone, p, now, hrows⟩
  · -- a login: a row of its own, and no session looked up
    have hunused : ∀ id p now, foundSession e = some (p, now) → p.sessionId ≠ id := by
      intro id p now hfound
      rcases foundSession_eq_some.1 hfound with ⟨_, _, hc'⟩ | ⟨_, _, _, hc'⟩
      · cases hc.unique hc'
      · cases hc.unique hc'
    rw [hrows, List.mem_append, List.mem_singleton] at hs'
    rcases hs' with hs' | rfl
    · exact hpost.timed_unused hs' (ih s' hs') rfl rfl rfl (hunused s'.id)
    · obtain ⟨hcreates, hidle, habsolute⟩ := hpost.createsSession List.mem_cons_self hc
      exact hpost.timed_created hpre hcreates hidle habsolute (hunused session.id)
  · -- a use: one row moves its idle expiry, the others stay
    rw [huses.used] at hs'
    obtain ⟨s₁, hs₁, rfl⟩ := mem_updateWhere.1 hs'
    by_cases hid : s₁.id = s.id
    · obtain rfl : s₁ = s := hpre.consistent.sessionIds.eq_of_mem hs₁ huses.mem hid
      rw [if_pos (decide_eq_true rfl)]
      exact hpost.timed_used hs₁ (ih s₁ hs₁) hfound huses.id _
    · rw [if_neg (by simpa using hid)]
      refine hpost.timed_unused hs₁ (ih s₁ hs₁) rfl rfl rfl ?_
      intro p' now' hfound'
      obtain ⟨rfl, rfl⟩ := Prod.mk.inj (Option.some.inj (hfound.symm.trans hfound'))
      rw [huses.id]
      exact fun heq => hid heq.symm
  · -- rows revoked: a mark the bounds do not mention
    rw [hrows] at hs'
    obtain ⟨s, hs, rfl⟩ := mem_updateWhere.1 hs'
    have hunused : ∀ p now, foundSession e = some (p, now) → p.sessionId ≠ s.id := by
      simp [hnone]
    split
    · exact hpost.timed_unused hs (ih s hs) rfl rfl rfl hunused
    · exact hpost.timed_unused hs (ih s hs) rfl rfl rfl hunused

/-- No event moves an absolute expiry, nor an idle expiry beyond it. -/
theorem expiries_event (h : History config engine ops tr db) (he : e ∈ tr) {s : AuthSession}
    (hs : s ∈ e.pre.authSessions) :
    ∃ s' ∈ e.post.authSessions, s'.id = s.id ∧ s'.absoluteExpiresAt = s.absoluteExpiresAt ∧
      (s'.idleExpiresAt = s.idleExpiresAt ∨ s'.idleExpiresAt ≤ s'.absoluteExpiresAt) := by
  rcases h.sessions_event he with ⟨_, _, session, now, _, -, hrows⟩ |
    ⟨s₀, p, csrfHash, now, hfound, huses⟩ | ⟨-, p, now, hrows⟩
  · refine ⟨s, ?_, rfl, rfl, Or.inl rfl⟩
    rw [hrows]
    exact List.mem_append_left _ hs
  · rw [huses.used]
    refine exists_mem_updateWhere hs (fun hid => ?_) (fun _ => ⟨rfl, rfl, Or.inl rfl⟩)
    obtain rfl : s = s₀ := (h.consistent_pre he).sessionIds.eq_of_mem hs huses.mem
      (of_decide_eq_true hid)
    exact ⟨rfl, rfl, Or.inr (min_le_right _ _)⟩
  · rw [hrows]
    exact exists_mem_updateWhere hs (fun _ => ⟨rfl, rfl, Or.inl rfl⟩)
      (fun _ => ⟨rfl, rfl, Or.inl rfl⟩)

end History

/-- An operation that returned a principal has found its session. -/
theorem ReturnsPrincipal.found [DecidableEq τ] [Crates] {config : AuthConfig} {op : Operation}
    {tr : List (AuthEvent τ)} {t : τ} {p : SessionPrincipal} {now : DateTime}
    (hreturns : ReturnsPrincipal config op (exchanges tr t) p now) :
    ∃ e ∈ tr, e.tid = t ∧ foundSession e = some (p, now) := by
  rcases hreturns.answered with ⟨hash, idle, hc⟩ | ⟨hash, csrfHash, idle, hc⟩
  · obtain ⟨e, he, htid, hexchange⟩ := mem_exchanges hc
    exact ⟨e, he, htid, foundSession_eq_some.2 (Or.inl ⟨hash, idle, hexchange⟩)⟩
  · obtain ⟨e, he, htid, hexchange⟩ := mem_exchanges hc
    exact ⟨e, he, htid, foundSession_eq_some.2 (Or.inr ⟨hash, csrfHash, idle, hexchange⟩)⟩

/-- **The lifetime of a session.** -/
theorem session_lifetime [DecidableEq τ] [Crates] {config : AuthConfig} {engine : CeremonyEngine}
    {ops : τ → Operation} {tr : List (AuthEvent τ)} {db : Database}
    (h : History config engine ops tr db) :
    (∀ t p now, ReturnsPrincipal config (ops t) (exchanges tr t) p now →
      ∃ e ∈ tr, e.tid = t ∧ foundSession e = some (p, now)) ∧
    (∀ newer e older p now, tr = newer ++ e :: older → foundSession e = some (p, now) →
      (∃ e₀ ∈ older, ∃ c, CreatesSession ops e₀ p.sessionId c) ∧
      ∀ e₀ ∈ tr, ∀ c, CreatesSession ops e₀ p.sessionId c →
        now < c + config.sessionAbsoluteTtl ∧
        now < (lastUse p.sessionId older).getD c + config.sessionIdleTtl ∧
        p.absoluteExpiresAt = c + config.sessionAbsoluteTtl) ∧
    (∀ e ∈ tr, ∀ s ∈ e.pre.authSessions, ∃ s' ∈ e.post.authSessions, s'.id = s.id ∧
      s'.absoluteExpiresAt = s.absoluteExpiresAt ∧
      (s'.idleExpiresAt = s.idleExpiresAt ∨ s'.idleExpiresAt ≤ s'.absoluteExpiresAt)) ∧
    ∀ e ∈ tr, Failed e e.call → e.post = e.pre := by
  refine ⟨fun t p now hreturns => hreturns.found, ?_, fun e he s => h.expiries_event he,
    fun e he => h.failed_unchanged he⟩
  rintro newer e older p now rfl hfound
  -- the lookup tested the row against its clock, and the row keeps to its creation's times
  obtain ⟨s, csrfHash, huses⟩ := h.uses_of_found (by simp) hfound
  have htimed := h.older.timed s huses.mem
  rw [huses.id, huses.absolute]
  refine ⟨htimed.created, fun e₀ he₀ c hcreates => ?_⟩
  have hbefore := h.created_before huses.mem he₀ hcreates
  have habsolute := htimed.absolute e₀ hbefore c hcreates
  refine ⟨?_, ?_, habsolute⟩
  · rw [← habsolute]
    exact huses.beforeAbsolute
  · exact huses.beforeIdle.trans_le (htimed.idle e₀ hbefore c hcreates)

section Sample

attribute [local instance] Reference.crates

/-- A session that is created at 4, used at 9, and then used by a caller whose clock stands at 6. -/
def sampleUses : List Operation :=
  sampleRegistration "k" ++
    [.startAuthentication 3 0 11,
      .finishAuthentication 11 (.string "k") 4 (sampleToken 1) (sampleToken 2) 20,
      .authenticateSession (sampleToken 1) none 9,
      .issueSessionCsrf (sampleToken 1) 6 (sampleToken 3)]

def sampleUsesRun :=
  sampleRun sampleUses [(0, 0), (0, 0), (0, 0), (1, 0), (1, 0), (1, 0), (2, 0), (2, 30), (3, 0),
    (4, 0), (4, 0), (4, 0), (4, 0), (5, 0), (6, 0)]

/-- The last use returns the absolute expiry of the creation. -/
theorem session_lifetime_sample :
    ∃ e ∈ sampleUsesRun.trace, ∃ p c, foundSession e = some (p, 6) ∧
      p.absoluteExpiresAt = c + AuthConfig.default.sessionAbsoluteTtl ∧
      ∃ e₀ ∈ sampleUsesRun.trace, CreatesSession (sampleOperations sampleUses) e₀ p.sessionId c := by
  have hrun : sampleUsesRun.trace.any (fun e => (foundSession e).any (·.2 = 6)) = true := by
    decide +kernel
  obtain ⟨e, he, hany⟩ := List.any_eq_true.1 hrun
  obtain ⟨⟨p, now⟩, hfound, hnow⟩ := (Option.any_eq_true _ _).1 hany
  obtain rfl : now = 6 := of_decide_eq_true hnow
  obtain ⟨newer, older, heq⟩ := List.append_of_mem he
  obtain ⟨⟨e₀, he₀, c, hcreates⟩, hall⟩ :=
    (session_lifetime (sampleRun_history _ _)).2.1 newer e older p 6 heq hfound
  have hmem : e₀ ∈ sampleUsesRun.trace := by
    rw [heq]
    simp [he₀]
  exact ⟨e, he, p, c, hfound, (hall e₀ hmem c hcreates).2.2, e₀, hmem, hcreates⟩

end Sample

end RsConsole
