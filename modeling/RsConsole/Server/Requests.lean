import RsConsole.Policy.Timestamps
import RsConsole.Server.Csrf
import RsConsole.Server.Http

set_option autoImplicit false

/-! # What requests change

A rejected request had at most used the session of its own cookie. The checks are made before the
calls that write, so a request that fails one has only looked its session up; and the calls that
give authority are not among those the public handlers ask at all. -/

namespace RsConsole

open Library Library.Table Database PgAuthStore Http

variable {τ : Type}

/-! ## Changes of the database -/

/-- The row is the same, or the session that `hash` names after a use. -/
def UsedAs (hash : Option SecretHash) (s s' : AuthSession) : Prop :=
  s' = s ∨ hash.map (·.asBytes) = some s.tokenHash ∧
    s' = { s with
      csrfHash := s'.csrfHash, idleExpiresAt := s'.idleExpiresAt, lastSeenAt := s'.lastSeenAt }

/-- At most the session that `hash` names was used; nothing else changed. -/
structure OnlyUses (hash : Option SecretHash) (db db' : Database) : Prop where
  tables : db' = { db with authSessions := db'.authSessions }
  sessions : List.Forall₂ (UsedAs hash) db.authSessions db'.authSessions

theorem usedAs_trans {hash : Option SecretHash} {s₁ s₂ s₃ : AuthSession}
    (h₁ : UsedAs hash s₁ s₂) (h₂ : UsedAs hash s₂ s₃) : UsedAs hash s₁ s₃ := by
  rcases h₁ with rfl | ⟨hname, hrow₁⟩
  · exact h₂
  rcases h₂ with rfl | ⟨-, hrow₂⟩
  · exact Or.inr ⟨hname, hrow₁⟩
  · rw [hrow₁] at hrow₂
    exact Or.inr ⟨hname, hrow₂⟩

theorem onlyUses_refl (hash : Option SecretHash) (db : Database) : OnlyUses hash db db where
  tables := rfl
  sessions := List.forall₂_same.2 fun _ _ => Or.inl rfl

theorem OnlyUses.trans {hash : Option SecretHash} {db₁ db₂ db₃ : Database}
    (h₁ : OnlyUses hash db₁ db₂) (h₂ : OnlyUses hash db₂ db₃) : OnlyUses hash db₁ db₃ where
  tables := by
    have htables := h₂.tables
    rw [h₁.tables] at htables
    exact htables
  sessions := @forall₂_trans _ (UsedAs hash) (fun _ _ _ => usedAs_trans) _ _ _ h₁.sessions h₂.sessions

/-- A capability, whether it was consumed or not. -/
def unconsumed (k : AuthCapability) : AuthCapability := { k with consumedAt := none }

/-- Nobody was given authority: no user or capability was added and no epoch changed, and every
    recovery that is approved, or whose setup is issued, was so before. -/
structure SameAuthority (db db' : Database) : Prop where
  users : db'.humanUsers = db.humanUsers
  capabilities : db'.authCapabilities.map unconsumed = db.authCapabilities.map unconsumed
  recoveries : ∀ r' ∈ db'.recoveryRequests, r'.approvedAt = none ∧ r'.setupIssuedAt = none ∨
    ∃ r ∈ db.recoveryRequests, r.id = r'.id ∧ r'.approvedAt = r.approvedAt ∧
      r'.setupIssuedAt = r.setupIssuedAt

theorem sameAuthority_refl (db : Database) : SameAuthority db db where
  users := rfl
  capabilities := rfl
  recoveries r' hr' := Or.inr ⟨r', hr', rfl, rfl, rfl⟩

theorem SameAuthority.trans {db₁ db₂ db₃ : Database} (h₁ : SameAuthority db₁ db₂)
    (h₂ : SameAuthority db₂ db₃) : SameAuthority db₁ db₃ where
  users := h₂.users.trans h₁.users
  capabilities := h₂.capabilities.trans h₁.capabilities
  recoveries := by
    intro r₃ hr₃
    rcases h₂.recoveries r₃ hr₃ with hnone | ⟨r₂, hr₂, hid₂, happroved₂, hissued₂⟩
    · exact Or.inl hnone
    rcases h₁.recoveries r₂ hr₂ with ⟨happroved, hissued⟩ | ⟨r₁, hr₁, hid₁, happroved₁, hissued₁⟩
    · exact Or.inl ⟨happroved₂.trans happroved, hissued₂.trans hissued⟩
    · exact Or.inr ⟨r₁, hr₁, hid₁.trans hid₂, happroved₂.trans happroved₁, hissued₂.trans hissued₁⟩

/-! ## What calls change -/

/-- The call reads, and uses no session but the one that `hash` names. -/
def AuthCall.Uses (hash : Option SecretHash) : AuthCall → Prop
  | .session h _ _ => hash = some h
  | .rotateSessionCsrf h _ _ _ => hash = some h
  | c => c.reads = true

/-- The call gives authority, or takes it back. -/
def AuthCall.grants : AuthCall → Bool
  | .insertCapability _ => true
  | .insertUser .. => true
  | .approveUserWithSetup .. => true
  | .rotateAllAuthEpochs .. => true
  | .approveRecovery .. => true
  | .issueRecoverySetup .. => true
  | .breakGlass .. => true
  | _ => false

namespace Commits

variable {env : Env} {db db' : Database} {c : AuthCall}

/-- The use of a session changes its row only: no other row has its id. -/
theorem onlyUses_used (hkeyed : Keyed (·.id) db.authSessions) {s : AuthSession}
    (hs : s ∈ db.authSessions) {hash : SecretHash} (hhash : s.tokenHash = hash.asBytes)
    (csrfHash : Option SecretHash) (idle now : DateTime) :
    OnlyUses (some hash) db (db.used s csrfHash idle now) where
  tables := rfl
  sessions := by
    rw [used, updateWhere, List.forall₂_map_right_iff, List.forall₂_same]
    intro r hr
    by_cases hid : r.id = s.id
    · rw [if_pos (decide_eq_true hid)]
      refine Or.inr ⟨?_, rfl⟩
      rw [hkeyed.eq_of_mem hr hs hid, hhash]
      rfl
    · rw [if_neg (by simpa using hid)]
      exact Or.inl rfl

theorem onlyUses (h : Commits env db c db') {hash : Option SecretHash} (hc : c.Uses hash)
    (hkeyed : Keyed (·.id) db.authSessions) : OnlyUses hash db db' := by
  cases h with
  | unchanged => exact onlyUses_refl hash db
  | session h now idle s u mem user found =>
      cases hc
      exact onlyUses_used hkeyed mem found.2.1 none idle now
  | rotateSessionCsrf h csrfHash now idle s u mem user found =>
      cases hc
      exact onlyUses_used hkeyed mem found.2.1 (some csrfHash) idle now
  | _ => cases hc

theorem sameAuthority (h : Commits env db c db') (hc : c.grants = false) : SameAuthority db db' := by
  have hrequests : ∀ r' ∈ db.recoveryRequests, r'.approvedAt = none ∧ r'.setupIssuedAt = none ∨
      ∃ r ∈ db.recoveryRequests, r.id = r'.id ∧ r'.approvedAt = r.approvedAt ∧
        r'.setupIssuedAt = r.setupIssuedAt := (sameAuthority_refl db).recoveries
  cases h with
  | unchanged => exact sameAuthority_refl db
  | insertCeremony => exact ⟨rfl, rfl, hrequests⟩
  | completeRegistration =>
      refine ⟨rfl, updateWhere_map (by intro k hk; rfl) _, fun r' hr' => ?_⟩
      obtain ⟨r, hr, rfl⟩ := mem_updateWhere.1 hr'
      refine Or.inr ⟨r, hr, ?_⟩
      -- a completed recovery keeps its other marks
      split <;> exact ⟨rfl, rfl, rfl⟩
  | completeAuthentication => exact ⟨rfl, rfl, hrequests⟩
  | session => exact ⟨rfl, rfl, hrequests⟩
  | rotateSessionCsrf => exact ⟨rfl, rfl, hrequests⟩
  | deleteSession => exact ⟨rfl, rfl, hrequests⟩
  | createRecovery =>
      refine ⟨rfl, rfl, fun r' hr' => ?_⟩
      rcases List.mem_append.1 hr' with hr' | hr'
      · exact hrequests r' hr'
      · cases List.mem_singleton.1 hr'
        exact Or.inl ⟨rfl, rfl⟩
  | _ => cases hc

end Commits

/-! ## What handlers ask -/

section Handlers

variable [Crates] [HttpCrates]

/-- The hash of the token of the session cookie, if it names one. -/
def cookieHash (headers : HeaderMap) : Option SecretHash :=
  (sessionToken headers).toOption.map (·.hash)

theorem cookieHash_of_token {headers : HeaderMap} {token : SecretToken}
    (h : sessionToken headers = .ok token) : cookieHash headers = some token.hash := by
  rw [cookieHash, h]
  rfl

theorem cookieHash_of_value {headers : HeaderMap} {value : String} {token : SecretToken}
    (hvalue : cookieValue headers sessionCookie = some value)
    (htoken : SecretToken.parse value = .ok token) : cookieHash headers = some token.hash := by
  refine cookieHash_of_token ?_
  rw [sessionToken, hvalue]
  exact htoken

omit [Crates] in
theorem sessionAndCsrf_ok {headers : HeaderMap} {token csrf : SecretToken} :
    sessionAndCsrf headers = .ok (token, csrf) ↔
      sessionToken headers = .ok token ∧ csrfToken headers = .ok csrf := by
  unfold sessionAndCsrf
  cases sessionToken headers with
  | error e => simp [bind, Except.bind]
  | ok t =>
      cases csrfToken headers with
      | error e => simp [bind, Except.bind]
      | ok c => simp [bind, Except.bind, pure, Except.pure]

variable {state : AppState} {request : HttpRequest} {headers : HeaderMap} {draws : Draws}

section Asks

open Fallible

variable {P : AuthCall → Prop}

omit [Crates] [HttpCrates] in
theorem asksOnly_ask {c : AuthCall} (h : P c) : AsksOnly P (ask c) := asksOnly_await h

omit [Crates] [HttpCrates] in
theorem asksOnly_extract {T : Type} {extracted : Except ℕ T} {handler : T → Auth Reply}
    (h : ∀ value, AsksOnly P (handler value)) : AsksOnly P (extract extracted handler) := by
  cases extracted with
  | error status => exact asksOnly_pure _
  | ok value => exact h value

omit [HttpCrates] in
theorem asksOnly_authenticateSession {config : AuthConfig} {token : SecretToken}
    {csrf : Option SecretToken} {now : DateTime}
    (h : P (.session token.hash now (now + config.sessionIdleTtl))) :
    AsksOnly P (AuthService.authenticateSession config token csrf now) := by
  refine asksOnly_bind (asksOnly_ask h) fun found => ?_
  refine asksOnly_bind (asksOnly_okOr _ _) fun principal => ?_
  exact asksOnly_bind (asksOnly_ensure _ _) fun _ => asksOnly_pure _

theorem asksOnly_optionalSession {now : DateTime}
    (h : ∀ hash idle, cookieHash headers = some hash → P (.session hash now idle)) :
    AsksOnly P (optionalSession state headers now) := by
  unfold optionalSession
  split
  · exact asksOnly_pure _
  · next value hvalue =>
      refine asksOnly_bind_ofExcept fun token htoken => ?_
      have hsession := h token.hash (now + state.config.sessionIdleTtl)
        (cookieHash_of_value hvalue htoken)
      refine asksOnly_bind (asksOnly_attempt (asksOnly_authenticateSession hsession)) fun r => ?_
      split
      · exact asksOnly_pure _
      · exact asksOnly_pure _
      · exact asksOnly_throw _

theorem asksOnly_publicCapabilities
    (h : ∀ hash idle, cookieHash request.headers = some hash → P (.session hash draws.now idle)) :
    AsksOnly P (publicCapabilities state request draws) := by
  refine asksOnly_bind (asksOnly_optionalSession h) fun principal => ?_
  cases principal with
  | none => exact asksOnly_pure _
  | some principal => exact asksOnly_pure _

theorem asksOnly_sessionDiscovery
    (h : ∀ hash csrfHash idle, cookieHash request.headers = some hash →
      P (.rotateSessionCsrf hash csrfHash draws.now idle)) :
    AsksOnly P (sessionDiscovery state request draws) := by
  unfold sessionDiscovery
  split
  · exact asksOnly_pure _
  · next value hvalue =>
      refine asksOnly_bind_ofExcept fun token htoken => ?_
      have hrotate := h token.hash draws.csrf.hash (draws.now + state.config.sessionIdleTtl)
        (cookieHash_of_value hvalue htoken)
      refine asksOnly_bind (asksOnly_attempt ?_) fun r => ?_
      · refine asksOnly_bind (asksOnly_ask hrotate) fun found => ?_
        exact asksOnly_bind (asksOnly_okOr _ _) fun principal => asksOnly_pure _
      · split
        · exact asksOnly_pure _
        · exact asksOnly_pure _
        · exact asksOnly_throw _

/-- Without the CSRF token the operator's check asks for the session of the cookie only. -/
theorem asksOnly_operator {now : DateTime}
    (h : ∀ hash idle, cookieHash headers = some hash → P (.session hash now idle)) :
    AsksOnly P (operator state headers false now) := by
  refine asksOnly_bind_ofExcept fun tokens htokens => ?_
  rw [if_neg Bool.false_ne_true] at htokens
  cases htoken : sessionToken headers with
  | error e =>
      rw [htoken] at htokens
      cases htokens
  | ok token =>
      rw [htoken] at htokens
      cases htokens
      refine asksOnly_bind (asksOnly_authenticateSession (h _ _ (cookieHash_of_token htoken)))
        fun principal => ?_
      exact asksOnly_bind (asksOnly_ensure _ _) fun _ => asksOnly_pure _

/-- **A request that does not pass `verify_origin_json` uses its own session at most.** -/
theorem asksOnly_unverified (hverify : verifyOriginJson state request.headers ≠ .ok ())
    (endpoint : Endpoint) :
    AsksOnly (AuthCall.Uses (cookieHash request.headers)) (handle state request draws endpoint) := by
  have hrefused : ∀ handler : Unit → Auth Reply, AsksOnly (AuthCall.Uses (cookieHash request.headers))
      (ofExcept (verifyOriginJson state request.headers) >>= handler) :=
    fun handler => asksOnly_bind_ofExcept fun u hu => absurd hu hverify
  cases endpoint with
  | live => exact asksOnly_pure _
  | ready => exact asksOnly_pure _
  | publicCapabilities => exact asksOnly_publicCapabilities fun _ _ hhash => hhash
  | sessionDiscovery => exact asksOnly_sessionDiscovery fun _ _ _ hhash => hhash
  | pendingRecoveries =>
      refine asksOnly_bind (asksOnly_operator fun _ _ hhash => hhash) fun principal => ?_
      exact asksOnly_bind (asksOnly_ask rfl) fun recoveries => asksOnly_pure _
  | operatorCapabilities =>
      exact asksOnly_bind (asksOnly_operator fun _ _ hhash => hhash) fun principal =>
        asksOnly_pure _
  -- the other handlers verify before they ask
  | loginStart => exact hrefused _
  | loginFinish => exact asksOnly_extract fun _ => hrefused _
  | logout => exact hrefused _
  | setupStart => exact asksOnly_extract fun _ => hrefused _
  | setupFinish => exact asksOnly_extract fun _ => hrefused _
  | recoveryRequest => exact asksOnly_extract fun _ => hrefused _
  | operatorBootstrapStart => exact hrefused _
  | operatorBootstrapFinish => exact asksOnly_extract fun _ => hrefused _
  | approveRecovery => exact asksOnly_extract fun _ => hrefused _
  | issueRecoverySetup => exact asksOnly_extract fun _ => asksOnly_extract fun _ => hrefused _
  | approveUser => exact asksOnly_extract fun _ => hrefused _

/-! ### The public handlers -/

omit [HttpCrates] in
theorem asksOnly_startSetupRegistration {token : SecretToken} {purpose : CapabilityPurpose} :
    AsksOnly (fun c : AuthCall => c.grants = false) (AuthService.startSetupRegistration state.config
      state.engine token purpose draws.now draws.seed draws.id) := by
  refine asksOnly_bind (asksOnly_ask rfl) fun found => ?_
  refine asksOnly_bind (asksOnly_okOr _ _) fun capability => ?_
  refine asksOnly_bind (asksOnly_ask rfl) fun found => ?_
  refine asksOnly_bind (asksOnly_okOr _ _) fun user => ?_
  refine asksOnly_bind (asksOnly_ask rfl) fun credentials => ?_
  refine asksOnly_bind (asksOnly_ofExcept _) fun started => ?_
  exact asksOnly_bind (asksOnly_ask rfl) fun _ => asksOnly_pure _

omit [Crates] [HttpCrates] in
theorem asksOnly_finishRegistration {ceremonyId : Uuid} {kind : CeremonyKind} {response : Value}
    {now : DateTime} :
    AsksOnly (fun c : AuthCall => c.grants = false)
      (AuthService.finishRegistration state.engine ceremonyId kind response now) := by
  refine asksOnly_bind (asksOnly_ask rfl) fun found => ?_
  refine asksOnly_bind (asksOnly_okOr _ _) fun ceremony => ?_
  refine asksOnly_bind (asksOnly_ofExcept _) fun credential => ?_
  exact asksOnly_bind (asksOnly_okOr _ _) fun userId => asksOnly_ask rfl

omit [HttpCrates] in
theorem asksOnly_finishAuthentication {ceremonyId : Uuid} {response : Value} {now : DateTime}
    {token csrf : SecretToken} {id : Uuid} :
    AsksOnly (fun c : AuthCall => c.grants = false) (AuthService.finishAuthentication state.config
      state.engine ceremonyId response now token csrf id) := by
  refine asksOnly_bind (asksOnly_ask rfl) fun found => ?_
  refine asksOnly_bind (asksOnly_okOr _ _) fun ceremony => ?_
  refine asksOnly_bind (asksOnly_ofExcept _) fun handle => ?_
  refine asksOnly_bind (asksOnly_ask rfl) fun found => ?_
  refine asksOnly_bind (asksOnly_okOr _ _) fun user => ?_
  refine asksOnly_bind (asksOnly_ask rfl) fun credentials => ?_
  refine asksOnly_bind (asksOnly_ofExcept _) fun verified => ?_
  exact asksOnly_bind (asksOnly_ask rfl) fun _ => asksOnly_pure _

/-- **The handlers of the public router do not ask for authority.** -/
theorem asksOnly_public {route : Route} (hroute : route ∈ publicRouter) :
    AsksOnly (fun c : AuthCall => c.grants = false) (handle state request draws route.endpoint) := by
  have hverified : ∀ handler : Unit → Auth Reply,
      AsksOnly (fun c : AuthCall => c.grants = false) (handler ()) →
      AsksOnly (fun c : AuthCall => c.grants = false)
        (Fallible.ofExcept (verifyOriginJson state request.headers) >>= handler) :=
    fun handler hhandler => asksOnly_bind (asksOnly_ofExcept _) fun _ => hhandler
  simp only [publicRouter, List.mem_cons, List.not_mem_nil, or_false] at hroute
  rcases hroute with rfl | rfl | rfl | rfl | rfl | rfl | rfl | rfl | rfl | rfl
  · exact asksOnly_pure _
  · exact asksOnly_pure _
  · exact asksOnly_publicCapabilities fun _ _ _ => rfl
  · exact asksOnly_sessionDiscovery fun _ _ _ _ => rfl
  · refine hverified _ (asksOnly_bind ?_ fun started => asksOnly_pure _)
    refine asksOnly_bind (asksOnly_ofExcept _) fun started => ?_
    exact asksOnly_bind (asksOnly_ask rfl) fun _ => asksOnly_pure _
  · refine asksOnly_extract fun body => hverified _ ?_
    refine asksOnly_bind asksOnly_finishAuthentication fun granted => ?_
    exact asksOnly_bind (asksOnly_okOr _ _) fun cookie => asksOnly_pure _
  · refine hverified _ (asksOnly_bind (asksOnly_ofExcept _) fun tokens => ?_)
    refine asksOnly_bind (asksOnly_authenticateSession rfl) fun principal => ?_
    exact asksOnly_bind (asksOnly_ask rfl) fun _ => asksOnly_pure _
  · refine asksOnly_extract fun body => hverified _ ?_
    refine asksOnly_bind (asksOnly_ofExcept _) fun token => ?_
    exact asksOnly_bind asksOnly_startSetupRegistration fun started => asksOnly_pure _
  · refine asksOnly_extract fun body => hverified _ ?_
    exact asksOnly_bind asksOnly_finishRegistration fun _ => asksOnly_pure _
  · refine asksOnly_extract fun body => hverified _ ?_
    refine asksOnly_bind (asksOnly_ofExcept _) fun userId => ?_
    exact asksOnly_bind (asksOnly_ask rfl) fun recovery => asksOnly_pure _

end Asks

/-! ### The handlers that check the CSRF token -/

/-- The endpoints that require a CSRF token. All but `logout` require an operator. -/
def Http.Endpoint.checksCsrf : Endpoint → Bool
  | .logout => true
  | .approveRecovery => true
  | .issueRecoverySetup => true
  | .approveUser => true
  | _ => false

/-- The handler starts with the session of the cookie, and asks more only when it has been answered
    with a session whose CSRF token the request carries, of a user with the role required. -/
def Checks (state : AppState) (headers : HeaderMap) (now : DateTime) (endpoint : Endpoint)
    (past : AuthExchanges) (c : AuthCall) : Prop :=
  ∃ token, sessionToken headers = .ok token ∧
    ((past = [] ∧ c = .session token.hash now (now + state.config.sessionIdleTtl)) ∨
      c.looksUp = false ∧ ∃ csrf principal after, csrfToken headers = .ok csrf ∧
        past = ⟨.session token.hash now (now + state.config.sessionIdleTtl),
          .ok (some principal)⟩ :: after ∧
        csrf.hash = principal.csrfHash ∧ (endpoint ≠ .logout → principal.user.role = .operator))

section Checks

open Fallible

variable {endpoint : Endpoint} {past : AuthExchanges} {c : AuthCall} {now : DateTime}

omit [Crates] in
/-- The tokens that an operator's check takes from the headers. -/
theorem tokens_eq_ok {tokens : SecretToken × Option SecretToken} :
    (sessionAndCsrf headers).map (fun tokens => (tokens.1, some tokens.2)) = .ok tokens ↔
      ∃ token csrf, sessionToken headers = .ok token ∧ csrfToken headers = .ok csrf ∧
        tokens = (token, some csrf) := by
  cases h : sessionAndCsrf headers with
  | error e =>
      refine ⟨nofun, ?_⟩
      rintro ⟨token, csrf, htoken, hcsrf, -⟩
      rw [sessionAndCsrf_ok.2 ⟨htoken, hcsrf⟩] at h
      cases h
  | ok found =>
      obtain ⟨htoken, hcsrf⟩ := sessionAndCsrf_ok.1 h
      constructor
      · rintro ⟨⟩
        exact ⟨found.1, found.2, htoken, hcsrf, rfl⟩
      · rintro ⟨token, csrf, htoken', hcsrf', rfl⟩
        cases htoken.symm.trans htoken'
        cases hcsrf.symm.trans hcsrf'
        rfl

theorem asks_operator (h : Asks (operator state headers true now) past c) :
    ∃ token, sessionToken headers = .ok token ∧ past = [] ∧
      c = .session token.hash now (now + state.config.sessionIdleTtl) := by
  simp only [operator, if_true, asks_bind, asks_ofExcept, returns_ofExcept, tokens_eq_ok,
    AuthService.asks_authenticateSession, asks_ensure, asks_pure, false_or] at h
  obtain ⟨_, after, _, rfl, ⟨rfl, token, csrf, htoken, -, rfl⟩, ⟨rfl, rfl⟩ | h⟩ := h
  · exact ⟨token, htoken, rfl, rfl⟩
  · simp at h

theorem returns_operator {principal : SessionPrincipal}
    (h : Returns (operator state headers true now) past principal) :
    ∃ token csrf, sessionToken headers = .ok token ∧ csrfToken headers = .ok csrf ∧
      past = [⟨.session token.hash now (now + state.config.sessionIdleTtl),
        .ok (some principal)⟩] ∧
      csrf.hash = principal.csrfHash ∧ principal.user.role = .operator := by
  simp only [operator, if_true, returns_bind, returns_ofExcept, tokens_eq_ok, returns_ensure,
    returns_pure] at h
  obtain ⟨_, _, _, rfl, ⟨rfl, token, csrf, htoken, hcsrf, rfl⟩, _, _, p, rfl, hp, _, _, -, rfl,
    ⟨rfl, hrole⟩, rfl, rfl⟩ := h
  obtain ⟨rfl, hhash⟩ := returns_authenticateSession.1 hp
  exact ⟨token, csrf, htoken, hcsrf, rfl, hhash csrf rfl, hrole⟩

/-- Whatever follows the check is asked only after it, and looks no session up. -/
theorem checks_operator {α : Type} {rest : SessionPrincipal → Auth α}
    (hrest : ∀ principal, AsksOnly (fun c : AuthCall => c.looksUp = false) (rest principal))
    (h : Asks (operator state headers true now >>= rest) past c) :
    Checks state headers now endpoint past c := by
  rcases (asks_bind _ rest past c).1 h with hcheck | ⟨before, after, principal, rfl, hreturns, hlater⟩
  · obtain ⟨token, htoken, rfl, rfl⟩ := asks_operator hcheck
    exact ⟨token, htoken, Or.inl ⟨rfl, rfl⟩⟩
  · obtain ⟨token, csrf, htoken, hcsrf, rfl, hhash, hrole⟩ := returns_operator hreturns
    exact ⟨token, htoken, Or.inr ⟨hrest principal after c hlater, csrf, principal, after, hcsrf, rfl,
      hhash, fun _ => hrole⟩⟩

omit [Crates] in
theorem asks_verified {handler : Unit → Auth Reply}
    (h : Asks (Fallible.ofExcept (verifyOriginJson state headers) >>= handler) past c) :
    Asks (handler ()) past c := by
  rcases (asks_bind _ handler past c).1 h with hnone | ⟨before, after, ⟨⟩, rfl, hreturns, hlater⟩
  · exact ((asks_ofExcept _ _ _).1 hnone).elim
  · rw [((returns_ofExcept _ _ _).1 hreturns).1, List.nil_append]
    exact hlater

/-- `logout` makes the check itself, for any user. -/
theorem checks_logout (h : Asks (Http.logout state request draws) past c) :
    Checks state request.headers draws.checkedAt .logout past c := by
  rcases (asks_bind _ _ past c).1 (asks_verified h) with
    hnone | ⟨before, later, ⟨token, csrf⟩, rfl, hfound, hcheck⟩
  · exact ((asks_ofExcept _ _ _).1 hnone).elim
  obtain ⟨rfl, htokens⟩ := (returns_ofExcept _ _ _).1 hfound
  obtain ⟨htoken, hcsrf⟩ := sessionAndCsrf_ok.1 htokens
  rcases (asks_bind _ _ later c).1 hcheck with
    hfirst | ⟨before, after, principal, rfl, hreturns, hlater⟩
  · obtain ⟨rfl, rfl⟩ := AuthService.asks_authenticateSession.1 hfirst
    exact ⟨token, htoken, Or.inl ⟨rfl, rfl⟩⟩
  · obtain ⟨rfl, hhash⟩ := returns_authenticateSession.1 hreturns
    have hlast : AsksOnly (fun c : AuthCall => c.looksUp = false) (do
        AuthService.logout token
        pure ⟨204, none, some (asBytes
          "__Host-rs_session=; Path=/; Secure; HttpOnly; SameSite=Strict; Max-Age=0")⟩ :
        Auth Reply) := asksOnly_bind (asksOnly_ask rfl) fun _ => asksOnly_pure _
    exact ⟨token, htoken, Or.inr ⟨hlast after c hlater, csrf, principal, after, hcsrf, rfl,
      hhash csrf rfl, fun hne => absurd rfl hne⟩⟩

/-- **The four handlers check the session and its CSRF token before they write.** -/
theorem checks_of_asks (hendpoint : endpoint.checksCsrf = true)
    (h : Asks (handle state request draws endpoint) past c) :
    Checks state request.headers draws.checkedAt endpoint past c := by
  have hextract : ∀ {T : Type} {extracted : Except ℕ T} {handler : T → Auth Reply},
      Asks (extract extracted handler) past c → ∃ value, Asks (handler value) past c := by
    intro T extracted handler h
    cases extracted with
    | error status => exact ((asks_pure _ _ _).1 h).elim
    | ok value => exact ⟨value, h⟩
  cases endpoint with
  | logout => exact checks_logout h
  | approveRecovery =>
      obtain ⟨id, h⟩ := hextract h
      refine checks_operator (fun principal => ?_) (asks_verified h)
      exact asksOnly_bind (asksOnly_ask rfl) fun _ => asksOnly_pure _
  | issueRecoverySetup =>
      obtain ⟨id, h⟩ := hextract h
      obtain ⟨body, h⟩ := hextract h
      refine checks_operator (fun principal => ?_) (asks_verified h)
      refine asksOnly_bind (asksOnly_ofExcept _) fun userId => ?_
      refine asksOnly_bind ?_ fun token => asksOnly_pure _
      exact asksOnly_bind (asksOnly_ask rfl) fun _ => asksOnly_pure _
  | approveUser =>
      obtain ⟨body, h⟩ := hextract h
      refine checks_operator (fun principal => ?_) (asks_verified h)
      refine asksOnly_bind (asksOnly_ofExcept _) fun userId => ?_
      refine asksOnly_bind ?_ fun token => asksOnly_pure _
      refine asksOnly_bind (asksOnly_ensure _ _) fun _ => ?_
      refine asksOnly_bind (asksOnly_ask rfl) fun found => ?_
      refine asksOnly_bind (asksOnly_ensure _ _) fun _ => ?_
      exact asksOnly_bind (asksOnly_ask rfl) fun _ => asksOnly_pure _
  | _ => cases hendpoint

end Checks

end Handlers

/-! ## Requests to the listeners -/

/-- The two listeners of the console. -/
inductive Listener where
  | publicListen
  | privateListen

def Listener.router : Listener → List Route
  | .publicListen => publicRouter
  | .privateListen => privateRouter

/-- A request to one of the listeners, with what its handler reads and draws. -/
structure Visit where
  listener : Listener
  request : HttpRequest
  draws : Draws

section Visits

variable [HttpCrates]

/-- The endpoint that gets the request. -/
def Visit.endpoint (visit : Visit) : Option Endpoint :=
  endpointOf visit.request visit.listener.router

/-- The request as a client of the store. -/
def Visit.program [Crates] (state : AppState) (visit : Visit) :
    Program AuthCall AuthCall.Answer Reply :=
  serve state visit.request visit.draws visit.listener.router

/-- The origin is the configured one and the content type `application/json`, octet by octet. -/
def SameOriginJson (state : AppState) (headers : HeaderMap) : Prop :=
  headers.get "origin" = some (asBytes state.browserOrigin) ∧
    headers.get "content-type" = some (asBytes "application/json")

/-- `HeaderValue::to_str` gives the octets themselves. -/
def HeaderText : Prop :=
  ∀ value text, HttpCrates.toStr value = some text → value = asBytes text

/-- The request carries the tokens of a session that is live at the time, and of an operator unless
    it is to log out. -/
def Entitled [Crates] (db : Database) (headers : HeaderMap) (now : DateTime) (endpoint : Endpoint) :
    Prop :=
  ∃ token csrf, sessionToken headers = .ok token ∧ csrfToken headers = .ok csrf ∧
    ∃ s ∈ db.authSessions, ∃ u ∈ db.humanUsers, SessionFound token.hash.asBytes now s u ∧
      s.csrfHash = csrf.hash.asBytes ∧ (endpoint ≠ .logout → u.role = roleName .operator)

theorem sameOriginJson_of_verify (htext : HeaderText) {state : AppState} {headers : HeaderMap}
    (h : verifyOriginJson state headers = .ok ()) : SameOriginJson state headers := by
  have hget : ∀ {name text}, (headers.get name).bind HttpCrates.toStr = some text →
      headers.get name = some (asBytes text) := by
    intro name text hbind
    obtain ⟨value, hvalue, hstr⟩ := Option.bind_eq_some_iff.1 hbind
    rw [hvalue, htext value text hstr]
  unfold verifyOriginJson at h
  split at h
  · cases h
  · next origin horigin =>
      split at h
      · cases h
      · next hsame =>
          simp only at h
          split at h
          · cases h
          · next hjson =>
              rw [ne_eq, not_not] at hsame hjson
              refine ⟨hsame ▸ hget horigin, hget ?_⟩
              -- the default of a missing content type is not the required one
              cases htype : (headers.get "content-type").bind HttpCrates.toStr with
              | none =>
                  rw [htype] at hjson
                  exact absurd hjson (by decide)
              | some contentType =>
                  rw [htype] at hjson
                  exact congrArg some hjson

theorem endpointOf_mem {request : HttpRequest} {router : List Route} {endpoint : Endpoint}
    (h : endpointOf request router = some endpoint) :
    ∃ route ∈ router, route.endpoint = endpoint := by
  unfold endpointOf at h
  split at h
  · cases h
  · split at h
    · cases h
    · next route hroute =>
        split at h
        · cases h
          exact ⟨route, List.mem_of_find?_eq_some hroute, rfl⟩
        · cases h

theorem asks_program [Crates] {state : AppState} {visit : Visit} {past : AuthExchanges}
    {c : AuthCall} (h : Program.Asks (visit.program state) past c) :
    ∃ endpoint, visit.endpoint = some endpoint ∧
      Fallible.Asks (handle state visit.request visit.draws endpoint) past c := by
  unfold Visit.program serve at h
  cases hendpoint : endpointOf visit.request visit.listener.router with
  | none =>
      rw [hendpoint] at h
      exact ((Program.asks_done _ _ _).1 h).elim
  | some endpoint =>
      rw [hendpoint] at h
      refine ⟨endpoint, hendpoint, ?_⟩
      rcases (Program.asks_bind _ _ past c).1 h with h | ⟨before, after, r, -, -, h⟩
      · exact h
      · cases r with
        | ok reply => exact ((Program.asks_done _ _ _).1 h).elim
        | error e => exact ((Program.asks_done _ _ _).1 h).elim

end Visits

/-! ## Runs -/

section

variable [DecidableEq τ] [Crates] [HttpCrates]

/-- A run of requests, in any number and order, on a database of the console. -/
def VisitRun (state : AppState) (visits : τ → Visit) (db₀ : Database) (tr : List (AuthEvent τ))
    (db : Database) : Prop :=
  ∃ pool, Run (effectOf perform) db₀ (fun t => (visits t).program state) tr db pool

/-- The first event of the request found its session, with the CSRF token that it carries. -/
def CheckedBefore (visits : τ → Visit) (tr : List (AuthEvent τ)) (e : AuthEvent τ)
    (endpoint : Endpoint) : Prop :=
  ∃ e₀, Precedes tr e₀ e ∧ e₀.tid = e.tid ∧ (∀ e₁, Precedes tr e₁ e₀ → e₁.tid ≠ e.tid) ∧
    Entitled e₀.pre (visits e.tid).request.headers (visits e.tid).draws.checkedAt endpoint

namespace VisitRun

variable {state : AppState} {visits : τ → Visit} {db₀ db : Database} {tr : List (AuthEvent τ)}
  {e : AuthEvent τ}

theorem consistent_pre (h : VisitRun state visits db₀ tr db) (hdb₀ : Database.Consistent db₀)
    (he : e ∈ tr) : Database.Consistent e.pre := by
  obtain ⟨newer, older, rfl⟩ := List.append_of_mem he
  obtain ⟨pool, run⟩ := h
  obtain ⟨pool', run'⟩ := run.older
  refine run'.invariant (P := Database.Consistent) hdb₀ ?_
  rintro c a r b ⟨env, hperform⟩ ha
  exact perform_consistent hperform ha

/-- A call that reads and uses the cookie's session at most. -/
theorem onlyUses_event (h : VisitRun state visits db₀ tr db) (hdb₀ : Database.Consistent db₀)
    (he : e ∈ tr) {hash : Option SecretHash} (hc : e.call.Uses hash) :
    OnlyUses hash e.pre e.post := by
  obtain ⟨pool, run⟩ := id h
  obtain ⟨env, hperform⟩ := run.performed he
  rcases perform_cases hperform with hsame | hcommits
  · rw [hsame]
    exact onlyUses_refl hash e.pre
  · exact hcommits.onlyUses hc (h.consistent_pre hdb₀ he).sessionIds

/-- A request that is not verified. -/
theorem unverified_event (h : VisitRun state visits db₀ tr db) (htext : HeaderText)
    (hdb₀ : Database.Consistent db₀) (he : e ∈ tr)
    (hreject : ¬ SameOriginJson state (visits e.tid).request.headers) :
    OnlyUses (cookieHash (visits e.tid).request.headers) e.pre e.post := by
  obtain ⟨pool, run⟩ := id h
  obtain ⟨past, hasks, -⟩ := run.asks_of_mem he
  obtain ⟨endpoint, -, hasks⟩ := asks_program hasks
  refine h.onlyUses_event hdb₀ he (asksOnly_unverified (fun hverify => ?_) endpoint past e.call hasks)
  exact hreject (sameOriginJson_of_verify htext hverify)

/-- A request to an endpoint that checks the CSRF token. -/
theorem checked_event (h : VisitRun state visits db₀ tr db) (hdb₀ : Database.Consistent db₀)
    (he : e ∈ tr) {endpoint : Endpoint} (hcsrf : endpoint.checksCsrf = true)
    (hendpoint : (visits e.tid).endpoint = some endpoint) :
    OnlyUses (cookieHash (visits e.tid).request.headers) e.pre e.post ∨
      CheckedBefore visits tr e endpoint := by
  obtain ⟨pool, run⟩ := id h
  have hchecks : ∀ e₀ ∈ tr, e₀.tid = e.tid → ∃ past,
      Checks state (visits e.tid).request.headers (visits e.tid).draws.checkedAt endpoint past
        e₀.call ∧
      (∀ x ∈ past, ∃ e₁, Precedes tr e₁ e₀ ∧ e₁.tid = e₀.tid ∧ e₁.exchange = x) ∧
      ∀ e₁, Precedes tr e₁ e₀ → e₁.tid = e₀.tid → e₁.exchange ∈ past := by
    intro e₀ he₀ htid
    obtain ⟨past, hasks, hback, hforth⟩ := run.asks_of_mem he₀
    obtain ⟨endpoint', hendpoint', hasks⟩ := asks_program hasks
    rw [htid] at hendpoint' hasks
    cases hendpoint.symm.trans hendpoint'
    exact ⟨past, checks_of_asks hcsrf hasks, hback, hforth⟩
  obtain ⟨past, ⟨token, htoken, ⟨-, hcall⟩ | ⟨-, csrf, principal, after, hcsrfToken, rfl, hhash,
    hrole⟩⟩, hback, -⟩ := hchecks e he rfl
  · -- the check itself
    refine Or.inl (h.onlyUses_event hdb₀ he ?_)
    rw [hcall]
    exact cookieHash_of_token htoken
  · -- a call after it: the check was an event, the first of the request
    obtain ⟨e₀, hprec, htid, hexchange⟩ := hback _ List.mem_cons_self
    refine Or.inr ⟨e₀, hprec, htid, fun e₁ hprec₁ htid₁ => ?_, token, csrf, htoken, hcsrfToken, ?_⟩
    · obtain ⟨past₀, ⟨_, -, ⟨rfl, -⟩ | ⟨hlooks, -⟩⟩, -, hforth⟩ := hchecks e₀ hprec.left_mem htid
      · cases hforth e₁ hprec₁ (htid₁.trans htid.symm)
      · have hcall : e₀.call = _ := congrArg Exchange.call hexchange
        rw [hcall] at hlooks
        cases hlooks
    · obtain ⟨env, hperform⟩ := run.performed hprec.left_mem
      obtain ⟨r, hr, hperform⟩ := exchange_of_call (congrArg Exchange.call hexchange) hperform
      cases (hr.symm.trans hexchange)
      obtain ⟨s, hs, u, hu, hfound, -, -, hrow, hdecodes⟩ := session_answered hperform
      refine ⟨s, hs, u, hu, hfound, ?_, fun hne => ?_⟩
      · rw [hrow, hhash]
      · rw [hdecodes.role, hrole hne]

/-- A request to the public listener. -/
theorem public_event (h : VisitRun state visits db₀ tr db) (he : e ∈ tr)
    (hpublic : (visits e.tid).listener = .publicListen) : SameAuthority e.pre e.post := by
  obtain ⟨pool, run⟩ := h
  obtain ⟨past, hasks, -⟩ := run.asks_of_mem he
  obtain ⟨endpoint, hendpoint, hasks⟩ := asks_program hasks
  have hgrants : e.call.grants = false := by
    rw [Visit.endpoint, hpublic] at hendpoint
    obtain ⟨route, hroute, rfl⟩ := endpointOf_mem hendpoint
    exact asksOnly_public hroute past e.call hasks
  obtain ⟨env, hperform⟩ := run.performed he
  rcases perform_cases hperform with hsame | hcommits
  · rw [hsame]
    exact sameAuthority_refl e.pre
  · exact hcommits.sameAuthority hgrants

end VisitRun

/-- **Rejected requests change nothing**, but for the use of the session of their own cookie. Of the
    requests in any run, on any database of the console: one that does not come from the origin or
    is not JSON; one to log out, or of an operator to approve or to issue a setup, without the tokens
    of a session that is live when the request is first served (and of an operator); and any requests
    to the public listener give nobody authority. -/
theorem rejected_requests_change_nothing {state : AppState} {visits : τ → Visit}
    {db₀ db : Database} {tr : List (AuthEvent τ)} (htext : HeaderText)
    (hdb₀ : Database.Consistent db₀) (h : VisitRun state visits db₀ tr db) :
    (∀ e ∈ tr, ¬ SameOriginJson state (visits e.tid).request.headers →
      OnlyUses (cookieHash (visits e.tid).request.headers) e.pre e.post) ∧
    (∀ e ∈ tr, ∀ endpoint, (visits e.tid).endpoint = some endpoint → endpoint.checksCsrf = true →
      OnlyUses (cookieHash (visits e.tid).request.headers) e.pre e.post ∨
        CheckedBefore visits tr e endpoint) ∧
    (∀ t, (∀ e ∈ tr, e.tid = t) →
      (¬ SameOriginJson state (visits t).request.headers →
        OnlyUses (cookieHash (visits t).request.headers) db₀ db) ∧
      ∀ endpoint, (visits t).endpoint = some endpoint → endpoint.checksCsrf = true →
        OnlyUses (cookieHash (visits t).request.headers) db₀ db ∨
          Entitled db₀ (visits t).request.headers (visits t).draws.checkedAt endpoint) ∧
    ((∀ e ∈ tr, (visits e.tid).listener = .publicListen) → SameAuthority db₀ db) := by
  obtain ⟨pool, run⟩ := id h
  have hall : ∀ hash, (∀ e ∈ tr, OnlyUses hash e.pre e.post) → OnlyUses hash db₀ db :=
    fun hash hevents => run.rel_of_init (onlyUses_refl hash) OnlyUses.trans hevents
  refine ⟨fun e he => h.unverified_event htext hdb₀ he,
    fun e he endpoint hendpoint hcsrf => h.checked_event hdb₀ he hcsrf hendpoint,
    fun t halone => ⟨fun hreject => hall _ fun e he => ?_, fun endpoint hendpoint hcsrf => ?_⟩,
    fun hpublic => ?_⟩
  · obtain rfl := halone e he
    exact h.unverified_event htext hdb₀ he hreject
  · by_cases hevents : ∀ e ∈ tr, OnlyUses (cookieHash (visits t).request.headers) e.pre e.post
    · exact Or.inl (hall _ hevents)
    · push Not at hevents
      obtain ⟨e, he, hchanged⟩ := hevents
      obtain rfl := halone e he
      rcases h.checked_event hdb₀ he hcsrf hendpoint with huses | ⟨e₀, hprec, -, hfirst, hentitled⟩
      · exact absurd huses hchanged
      · -- alone, the first event of the request is the first of the run
        have hpre : e₀.pre = db₀ := run.pre_of_first hprec.left_mem fun e₁ hprec₁ =>
          hfirst e₁ hprec₁ (halone e₁ hprec₁.left_mem)
        rw [hpre] at hentitled
        exact Or.inr hentitled
  · exact run.rel_of_init sameAuthority_refl SameAuthority.trans fun e he =>
      h.public_event he (hpublic e he)

end

section Sample

attribute [local instance] Reference.crates

/-- The crates on requests without cookie and body: header values are visible ASCII, and routes
    without parameters match their own path. -/
@[reducible] def sampleHttp : HttpCrates where
  toStr value :=
    if value.all fun byte => (32 ≤ byte && byte < 127) || byte = 9 then
      some (String.ofList (value.map fun byte => Char.ofNat byte.toNat))
    else none
  fromStr text := some (asBytes text)
  urlDecode _ := none
  urlEncode _ := ""
  dateTimeText _ := ""
  matchesPath route path := route = path
  pathId _ := .error 400
  ceremonyFinish _ := .error 415
  setupStart _ := .error 415
  recoveryRequestBody _ := .error 415
  recoverySetupBody _ := .error 415
  approveUserBody _ := .error 415

attribute [local instance] sampleHttp

theorem sampleHttp_text : HeaderText := by
  intro value text h
  have h' : (if value.all fun byte => (32 ≤ byte && byte < 127) || byte = 9 then
      some (String.ofList (value.map fun byte => Char.ofNat byte.toNat)) else none) = some text := h
  split at h'
  · next hascii =>
      cases h'
      refine (asBytes_ofAscii fun byte hbyte => ?_).symm
      have hvisible := List.all_eq_true.1 hascii byte hbyte
      simp only [Bool.or_eq_true, Bool.and_eq_true, decide_eq_true_eq] at hvisible
      rcases hvisible with ⟨-, hlt⟩ | rfl
      · exact lt_trans (UInt8.lt_iff_toNat_lt.1 hlt) (by decide)
      · decide
  · cases h'

def sampleState : AppState where
  config := .default
  engine := sampleEngine
  browserOrigin := "http://localhost:4321"

/-- Two requests to start a login, the second from another origin. -/
def sampleVisits (t : ℕ) : Visit where
  listener := .publicListen
  request :=
    { method := .post
      path := "/v1/auth/login/start"
      headers := [
        ("origin", asBytes (if t = 0 then "http://localhost:4321" else "https://evil.example")),
        ("content-type", asBytes "application/json")]
      body := [] }
  draws := ⟨0, 0, 0, 10, 0, sampleToken 1, sampleToken 2, true⟩

def sampleServed :=
  play perform Database.empty (fun t => (sampleVisits t).program sampleState)
    [(0, sampleEnv 0), (1, sampleEnv 0)]

/-- The first gets its ceremony, and neither gives anybody authority. -/
theorem rejected_requests_change_nothing_sample :
    sampleServed.trace.map (·.tid) = [0] ∧
      SameAuthority Database.empty sampleServed.state :=
  ⟨by decide +kernel,
    (rejected_requests_change_nothing sampleHttp_text Database.consistent_empty
      ⟨_, play_run perform Database.empty _ _⟩).2.2.2 fun _ _ => rfl⟩

end Sample

end RsConsole
