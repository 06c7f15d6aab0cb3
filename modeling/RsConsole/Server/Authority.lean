import RsConsole.Server.Console
import RsConsole.Server.Credentials

set_option autoImplicit false

/-! # Where authority comes from

Users, capabilities, passkeys and sessions give authority, and each is given on the ground of an
earlier one: a session for a passkey, a passkey for a capability or to the seeded operator, a
capability by an operator who has a session, or by a command. In every run of the console these
grounds lead back to a command of the operator's machine. -/

namespace RsConsole

open Library Library.Table Library.Fallible Database PgAuthStore Http

variable {τ : Type}

/-- The operator that a call names as its actor. -/
def AuthCall.actor : AuthCall → Option UserId
  | .approveUserWithSetup _ _ operatorId _ => some operatorId
  | .approveRecovery _ operatorId _ => some operatorId
  | .issueRecoverySetup _ _ operatorId _ => some operatorId
  | _ => none

/-- The capability that a call gives. -/
def AuthCall.issued : AuthCall → Option Capability
  | .insertCapability given => some given
  | .approveUserWithSetup _ given _ _ => some given
  | .issueRecoverySetup _ given _ _ => some given
  | .breakGlass _ given _ _ => some given
  | _ => none

/-! ## What handlers ask -/

section Handlers

variable [Crates] [HttpCrates] {state : AppState} {request : HttpRequest} {headers : HeaderMap}
  {draws : Draws} {past : AuthExchanges} {c : AuthCall}

/-- The request was verified, and a live session of the operator `userId` was found for the tokens
    that it carries. -/
def OperatorChecked (state : AppState) (headers : HeaderMap) (now : DateTime) (past : AuthExchanges)
    (userId : UserId) : Prop :=
  verifyOriginJson state headers = .ok () ∧ ∃ token csrf principal,
    sessionToken headers = .ok token ∧ csrfToken headers = .ok csrf ∧
    Answered past (.session token.hash now (now + state.config.sessionIdleTtl)) (some principal) ∧
    csrf.hash = principal.csrfHash ∧ principal.user.role = .operator ∧ principal.user.id = userId

/-- After the operator's check only the operator acts. -/
theorem operator_acts {now : DateTime} {rest : SessionPrincipal → Auth Reply}
    (hrest : ∀ principal, AsksOnly (fun c : AuthCall => c.grants = true →
      c.actor = some principal.user.id) (rest principal))
    (h : Asks (Fallible.ofExcept (verifyOriginJson state headers) >>= fun _ =>
      operator state headers true now >>= rest) past c) (hc : c.grants = true) :
    ∃ userId, c.actor = some userId ∧ OperatorChecked state headers now past userId := by
  rcases (asks_bind _ _ past c).1 h with hnone | ⟨before, after, ⟨⟩, rfl, hverified, hafter⟩
  · exact ((asks_ofExcept _ _ _).1 hnone).elim
  obtain ⟨rfl, hverify⟩ := (returns_ofExcept _ _ _).1 hverified
  rcases (asks_bind _ rest after c).1 hafter with hcheck |
    ⟨before, later, principal, rfl, hreturns, hlater⟩
  · obtain ⟨token, -, -, rfl⟩ := asks_operator hcheck
    cases hc
  · obtain ⟨token, csrf, htoken, hcsrf, rfl, hhash, hrole⟩ := returns_operator hreturns
    exact ⟨principal.user.id, hrest principal later c hlater hc, hverify, token, csrf, principal,
      htoken, hcsrf, List.mem_cons_self, hhash, hrole, rfl⟩

/-- An endpoint whose handler grants nothing. -/
def Http.Endpoint.grants : Endpoint → Bool
  | .approveRecovery => true
  | .issueRecoverySetup => true
  | .approveUser => true
  | _ => false

/-- The handlers of the other endpoints grant nothing. -/
theorem asksOnly_granting {endpoint : Endpoint} (hendpoint : endpoint.grants = false) :
    AsksOnly (fun c : AuthCall => c.grants = false) (handle state request draws endpoint) := by
  have hcheck : ∀ {rest : SessionPrincipal → Auth Reply},
      (∀ principal, AsksOnly (fun c : AuthCall => c.grants = false) (rest principal)) →
      AsksOnly (fun c : AuthCall => c.grants = false)
        (operator state request.headers false draws.checkedAt >>= rest) :=
    fun hrest => asksOnly_bind (asksOnly_operator fun _ _ _ => rfl) hrest
  have hpublic : ∀ served ∈ publicRouter.map (·.endpoint),
      AsksOnly (fun c : AuthCall => c.grants = false) (handle state request draws served) := by
    intro served hserved
    obtain ⟨route, hroute, rfl⟩ := List.mem_map.1 hserved
    exact asksOnly_public hroute
  cases endpoint with
  | live => exact asksOnly_pure _
  | ready => exact asksOnly_pure _
  | publicCapabilities => exact hpublic _ (by decide)
  | sessionDiscovery => exact hpublic _ (by decide)
  | loginStart => exact hpublic _ (by decide)
  | loginFinish => exact hpublic _ (by decide)
  | logout => exact hpublic _ (by decide)
  | setupStart => exact hpublic _ (by decide)
  | setupFinish => exact hpublic _ (by decide)
  | recoveryRequest => exact hpublic _ (by decide)
  | operatorBootstrapStart =>
      refine asksOnly_bind (asksOnly_ofExcept _) fun _ => ?_
      refine asksOnly_bind ?_ fun started => asksOnly_pure _
      refine asksOnly_bind (asksOnly_bind (asksOnly_ask rfl) fun window => ?_) fun candidate => ?_
      · cases window with
        | some found => exact asksOnly_pure _
        | none =>
            refine asksOnly_bind (asksOnly_ask rfl) fun found => ?_
            exact asksOnly_bind (asksOnly_okOr _ _) fun user => asksOnly_pure _
      · refine asksOnly_bind (asksOnly_ofExcept _) fun started => ?_
        exact asksOnly_bind (asksOnly_ask rfl) fun _ => asksOnly_pure _
  | operatorBootstrapFinish =>
      refine asksOnly_extract fun body => asksOnly_bind (asksOnly_ofExcept _) fun _ => ?_
      refine asksOnly_bind (asksOnly_ensure _ _) fun _ => ?_
      exact asksOnly_bind asksOnly_finishRegistration fun _ => asksOnly_pure _
  | pendingRecoveries =>
      exact hcheck fun principal => asksOnly_bind (asksOnly_ask rfl) fun _ => asksOnly_pure _
  | operatorCapabilities => exact hcheck fun principal => asksOnly_pure _
  | approveRecovery => cases hendpoint
  | issueRecoverySetup => cases hendpoint
  | approveUser => cases hendpoint

/-- **Who grants by a request is an operator with a session.** -/
theorem granting_of_asks {endpoint : Endpoint} (h : Asks (handle state request draws endpoint) past c)
    (hc : c.grants = true) :
    ∃ userId, c.actor = some userId ∧
      OperatorChecked state request.headers draws.checkedAt past userId := by
  have hextract : ∀ {T : Type} {extracted : Except ℕ T} {handler : T → Auth Reply},
      Asks (extract extracted handler) past c → ∃ value, Asks (handler value) past c := by
    intro T extracted handler h
    cases extracted with
    | error status => exact ((asks_pure _ _ _).1 h).elim
    | ok value => exact ⟨value, h⟩
  have hask : ∀ {userId : UserId} {call : AuthCall}, (call.grants = true → call.actor = some userId) →
      AsksOnly (fun c : AuthCall => c.grants = true → c.actor = some userId) (ask call) :=
    fun hcall => asksOnly_ask hcall
  cases hendpoint : endpoint.grants with
  | false =>
      have hnot := asksOnly_granting hendpoint past c h
      exact Bool.noConfusion (hnot.symm.trans hc)
  | true =>
      cases endpoint with
      | approveRecovery =>
          obtain ⟨id, h⟩ := hextract h
          refine operator_acts (fun principal => ?_) h hc
          exact asksOnly_bind (hask fun _ => rfl) fun _ => asksOnly_pure _
      | issueRecoverySetup =>
          obtain ⟨id, h⟩ := hextract h
          obtain ⟨body, h⟩ := hextract h
          refine operator_acts (fun principal => ?_) h hc
          refine asksOnly_bind (asksOnly_ofExcept _) fun userId => ?_
          refine asksOnly_bind ?_ fun token => asksOnly_pure _
          exact asksOnly_bind (hask fun _ => rfl) fun _ => asksOnly_pure _
      | approveUser =>
          obtain ⟨body, h⟩ := hextract h
          refine operator_acts (fun principal => ?_) h hc
          refine asksOnly_bind (asksOnly_ofExcept _) fun userId => ?_
          refine asksOnly_bind ?_ fun token => asksOnly_pure _
          refine asksOnly_bind (asksOnly_ensure _ _) fun _ => ?_
          refine asksOnly_bind (hask fun hreads => nomatch hreads) fun found => ?_
          refine asksOnly_bind (asksOnly_ensure _ _) fun _ => ?_
          exact asksOnly_bind (hask fun _ => rfl) fun _ => asksOnly_pure _
      | _ => cases hendpoint

end Handlers

/-! ## Chains of grounds -/

/-- The event gave the capability that `hash` names to `userId`. -/
def GaveCapability (e : AuthEvent τ) (hash : SecretHash) (userId : String) : Prop :=
  e.resp.isOk = true ∧ ∃ given, e.call.issued = some given ∧ given.tokenHash = hash ∧
    given.userId.value = userId

/-- The event seeded the operator `userId`. -/
def SeededOperator (e : AuthEvent τ) (userId : String) : Prop :=
  ∃ user now audit, Succeeded e (.insertUser user now audit) () ∧ user.id.value = userId ∧
    user.role = .operator

/-- The event registered the credential `credentialId` for `userId`, by the capability that
    `capabilityHash` names. -/
def RegisteredFor (e : AuthEvent τ) (credentialId : List UInt8) (userId : String)
    (capabilityHash : Option SecretHash) : Prop :=
  ∃ ceremonyId credential now audit id,
    Succeeded e (.completeRegistration ceremonyId capabilityHash credential now audit) () ∧
    credential.credentialId = credentialId ∧
    e.post.passkeyCredentials = e.pre.passkeyCredentials ++ [credential.row id userId now]

/-- The event logged `userId` in by the credential `credentialId`, with the session `tokenHash`. -/
def LoggedIn (e : AuthEvent τ) (credentialId : List UInt8) (userId : String)
    (tokenHash : SecretHash) : Prop :=
  ∃ ceremonyId verification session now audit,
    Succeeded e (.completeAuthentication ceremonyId verification session now audit) () ∧
    verification.credentialId = credentialId ∧ session.userId.value = userId ∧
    session.tokenHash = tokenHash

/-- **The event leads back to a command.** -/
inductive Rooted (clients : τ → Client) (tr : List (AuthEvent τ)) : AuthEvent τ → Prop
  | command {e : AuthEvent τ} (cli : Cli) (host : Host) (mem : e ∈ tr)
      (client : clients e.tid = .command cli host) : Rooted clients tr e
  | setup {e₀ e : AuthEvent τ} (hash : SecretHash) (credentialId : List UInt8) (userId : String)
      (rooted : Rooted clients tr e₀) (before : Precedes tr e₀ e)
      (ground : GaveCapability e₀ hash userId)
      (registered : RegisteredFor e credentialId userId (some hash)) : Rooted clients tr e
  | bootstrap {e₀ e : AuthEvent τ} (credentialId : List UInt8) (userId : String)
      (rooted : Rooted clients tr e₀) (before : Precedes tr e₀ e)
      (ground : SeededOperator e₀ userId)
      (registered : RegisteredFor e credentialId userId none) : Rooted clients tr e
  | login {e₀ e : AuthEvent τ} (credentialId : List UInt8) (userId : String)
      (capabilityHash : Option SecretHash) (tokenHash : SecretHash)
      (rooted : Rooted clients tr e₀) (before : Precedes tr e₀ e)
      (ground : RegisteredFor e₀ credentialId userId capabilityHash)
      (loggedIn : LoggedIn e credentialId userId tokenHash) : Rooted clients tr e
  | operator {e₀ check e : AuthEvent τ} (visit : Visit) (credentialId : List UInt8)
      (operatorId : UserId) (tokenHash : SecretHash) (principal : SessionPrincipal)
      (now idle : DateTime) (rooted : Rooted clients tr e₀) (before : Precedes tr e₀ check)
      (ground : LoggedIn e₀ credentialId operatorId.value tokenHash)
      (client : clients e.tid = .visit visit) (checks : check.tid = e.tid)
      (checked : Precedes tr check e)
      (found : Succeeded check (.session tokenHash now idle) (some principal))
      (user : principal.user.id = operatorId) (role : principal.user.role = .operator)
      (acts : e.call.actor = some operatorId) : Rooted clients tr e

theorem Rooted.mono {clients : τ → Client} {e e₁ : AuthEvent τ} {tr : List (AuthEvent τ)}
    (h : Rooted clients tr e) : Rooted clients (e₁ :: tr) e := by
  induction h with
  | command cli host mem client => exact .command cli host (List.mem_cons_of_mem e₁ mem) client
  | setup hash credentialId userId _ before ground registered ih =>
      exact .setup hash credentialId userId ih (precedes_cons before) ground registered
  | bootstrap credentialId userId _ before ground registered ih =>
      exact .bootstrap credentialId userId ih (precedes_cons before) ground registered
  | login credentialId userId capabilityHash tokenHash _ before ground loggedIn ih =>
      exact .login credentialId userId capabilityHash tokenHash ih (precedes_cons before) ground
        loggedIn
  | operator visit credentialId operatorId tokenHash principal now idle _ before ground client checks
      checked found user role acts ih =>
      exact .operator visit credentialId operatorId tokenHash principal now idle ih
        (precedes_cons before) ground client checks (precedes_cons checked) found user role acts

/-- What gives authority is a grant, a registration or a login. -/
theorem AuthCall.entitles_cases {c : AuthCall} (h : c.entitles = true) :
    c.grants = true ∨
      (∃ ceremonyId capabilityHash credential now audit,
        c = .completeRegistration ceremonyId capabilityHash credential now audit) ∨
      ∃ ceremonyId verification session now audit,
        c = .completeAuthentication ceremonyId verification session now audit := by
  cases c with
  | completeRegistration => exact Or.inr (Or.inl ⟨_, _, _, _, _, rfl⟩)
  | completeAuthentication => exact Or.inr (Or.inr ⟨_, _, _, _, _, rfl⟩)
  | insertCapability => exact Or.inl rfl
  | insertUser => exact Or.inl rfl
  | approveUserWithSetup => exact Or.inl rfl
  | rotateAllAuthEpochs => exact Or.inl rfl
  | approveRecovery => exact Or.inl rfl
  | issueRecoverySetup => exact Or.inl rfl
  | breakGlass => exact Or.inl rfl
  | _ => cases h

/-! ## Where rows come from -/

/-- A capability's row is given by an event, and stays consumed once it is. -/
theorem Commits.authCapabilities_issued {env : Env} {db db' : Database} {c : AuthCall}
    (h : Commits env db c db') : ∀ k' ∈ db'.authCapabilities,
      (∃ k ∈ db.authCapabilities, k.tokenHash = k'.tokenHash ∧ k.userId = k'.userId ∧
        (k'.consumedAt = none → k.consumedAt = none)) ∨
        ∃ given clock, c.issued = some given ∧ k' = given.row clock := by
  intro k' hk'
  have hsame : k' ∈ db.authCapabilities → ∃ k ∈ db.authCapabilities, k.tokenHash = k'.tokenHash ∧
      k.userId = k'.userId ∧ (k'.consumedAt = none → k.consumedAt = none) :=
    fun hmem => ⟨k', hmem, rfl, rfl, id⟩
  have hconsumed : ∀ {p : AuthCapability → Bool} {now : DateTime},
      k' ∈ updateWhere p (fun k => { k with consumedAt := some now }) db.authCapabilities →
      ∃ k ∈ db.authCapabilities, k.tokenHash = k'.tokenHash ∧ k.userId = k'.userId ∧
        (k'.consumedAt = none → k.consumedAt = none) :=
    fun {_ now} hmem => old_of_update
      (Q := fun k k' : AuthCapability => k.tokenHash = k'.tokenHash ∧ k.userId = k'.userId ∧
        (k'.consumedAt = none → k.consumedAt = none)) hmem (fun _ => ⟨rfl, rfl, id⟩)
      fun _ => ⟨rfl, rfl, fun hnone => absurd hnone (Option.some_ne_none now)⟩
  have hinserted : ∀ {rows : List AuthCapability} {given : Capability} {clock : DateTime},
      k' ∈ rows ++ [given.row clock] → c.issued = some given →
      (k' ∈ rows → ∃ k ∈ db.authCapabilities, k.tokenHash = k'.tokenHash ∧ k.userId = k'.userId ∧
        (k'.consumedAt = none → k.consumedAt = none)) →
      (∃ k ∈ db.authCapabilities, k.tokenHash = k'.tokenHash ∧ k.userId = k'.userId ∧
        (k'.consumedAt = none → k.consumedAt = none)) ∨
        ∃ given clock, c.issued = some given ∧ k' = given.row clock := by
    intro rows given clock hmem hissued hold
    rcases List.mem_append.1 hmem with hmem | hmem
    · exact Or.inl (hold hmem)
    · exact Or.inr ⟨given, clock, hissued, List.mem_singleton.1 hmem⟩
  cases h with
  | insertCapability => exact hinserted hk' rfl hsame
  | approveUserWithSetup => exact hinserted hk' rfl hsame
  | issueRecoverySetup => exact hinserted hk' rfl hsame
  | breakGlass => exact hinserted hk' rfl hconsumed
  | rotateAllAuthEpochs => exact Or.inl (hconsumed hk')
  | completeRegistration => exact Or.inl (hconsumed hk')
  | approveRecovery => exact Or.inl (hconsumed hk')
  | _ => exact Or.inl (hsame hk')

/-- What gives a capability is not a reading call. -/
theorem AuthCall.reads_of_issued {c : AuthCall} {given : Capability} (h : c.issued = some given) :
    c.reads = false := by
  cases c with
  | insertCapability => rfl
  | approveUserWithSetup => rfl
  | issueRecoverySetup => rfl
  | breakGlass => rfl
  | _ => cases h

theorem AuthCall.entitles_of_issued {c : AuthCall} {given : Capability} (h : c.issued = some given) :
    c.entitles = true := by
  cases c with
  | insertCapability => rfl
  | approveUserWithSetup => rfl
  | issueRecoverySetup => rfl
  | breakGlass => rfl
  | _ => cases h

theorem Succeeded.isOk {e : AuthEvent τ} {c : AuthCall} {a : c.Reply} (h : Succeeded e c a) :
    e.resp.isOk = true := by
  obtain ⟨tid, call, resp, pre, post⟩ := e
  obtain ⟨rfl, hresp⟩ := Exchange.mk.inj h
  rw [show resp = .ok a from eq_of_heq hresp]
  rfl

theorem Succeeded.entitles {e : AuthEvent τ} {c : AuthCall} {a : c.Reply} (h : Succeeded e c a)
    (hc : c.entitles = true) : e.resp.isOk = true ∧ e.call.entitles = true := by
  refine ⟨h.isOk, ?_⟩
  rw [show e.call = c from congrArg Exchange.call h]
  exact hc

section Runs

variable [DecidableEq τ]

/-- Every capability was given by an event. -/
theorem StoreRun.capability_given {out : τ → Type}
    {start : (t : τ) → Program AuthCall AuthCall.Answer (out t)} {tr : List (AuthEvent τ)}
    {db : Database} (h : StoreRun start tr db) :
    ∀ k ∈ db.authCapabilities, ∃ e ∈ tr, ∃ hash : SecretHash, k.tokenHash = hash.asBytes ∧
      GaveCapability e hash k.userId := by
  refine h.induct (P := fun tr db => ∀ k ∈ db.authCapabilities, ∃ e ∈ tr, ∃ hash : SecretHash,
    k.tokenHash = hash.asBytes ∧ GaveCapability e hash k.userId)
    (fun k hk => absurd hk List.not_mem_nil) ?_
  intro e tr _ hpost ih k' hk'
  rcases hpost.commits_answered List.mem_cons_self with hsame | ⟨env, hcommits, hanswered⟩
  · rw [hsame] at hk'
    obtain ⟨e₀, he₀, hash, hhash, hgave⟩ := ih k' hk'
    exact ⟨e₀, List.mem_cons_of_mem e he₀, hash, hhash, hgave⟩
  rcases hcommits.authCapabilities_issued k' hk' with ⟨k, hk, hsame, howner, -⟩ |
    ⟨given, clock, hissued, rfl⟩
  · obtain ⟨e₀, he₀, hash, hhash, hgave⟩ := ih k hk
    exact ⟨e₀, List.mem_cons_of_mem e he₀, hash, hsame.symm.trans hhash, howner ▸ hgave⟩
  · obtain ⟨a, ha⟩ := hanswered e.call rfl (AuthCall.reads_of_issued hissued)
    exact ⟨e, List.mem_cons_self, given.tokenHash, rfl, ha.isOk, given, hissued, rfl, rfl⟩

variable [Crates] {config : AuthConfig} {engine : CeremonyEngine} {ops : τ → Operation}
  {tr : List (AuthEvent τ)} {db : Database}

/-- Every operator was seeded by an event. -/
theorem History.operator_seeded (h : History config engine ops tr db) {u : HumanUser}
    (hu : u ∈ db.humanUsers) (hrole : u.role = "operator") :
    ∃ e ∈ tr, SeededOperator e u.id := by
  refine h.induct (P := fun tr db => ∀ u ∈ db.humanUsers, u.role = "operator" →
    ∃ e ∈ tr, SeededOperator e u.id) (fun u hu => nomatch hu) ?_ u hu hrole
  intro e tr _ hpost ih u hu hrole
  have hold : u ∈ e.pre.humanUsers → ∃ e₀ ∈ e :: tr, SeededOperator e₀ u.id := by
    intro hu
    obtain ⟨e₀, he₀, hseeded⟩ := ih u hu hrole
    exact ⟨e₀, List.mem_cons_of_mem e he₀, hseeded⟩
  rcases hpost.users_event List.mem_cons_self with ⟨user, now, audit, hc, hrows⟩ |
    ⟨user, given, operatorId, now, hc, hrows⟩ | ⟨-, p, now, hrows⟩
  · rw [hrows, List.mem_append, List.mem_singleton] at hu
    rcases hu with hu | rfl
    · exact hold hu
    · obtain ⟨past, hseeds, -⟩ := hpost.passed List.mem_cons_self hc
      exact ⟨e, List.mem_cons_self, user, now, audit, hc, rfl, hseeds.role⟩
  · rw [hrows, List.mem_append, List.mem_singleton] at hu
    rcases hu with hu | rfl
    · exact hold hu
    · obtain ⟨past, ⟨huser, -⟩, -⟩ := hpost.passed List.mem_cons_self hc
      have hoperator : roleName .user = "operator" := huser ▸ hrole
      exact absurd hoperator (by decide)
  · rw [hrows] at hu
    obtain ⟨u₀, hu₀, hid, hsame⟩ := Commits.old_of_update
      (Q := fun a b : HumanUser => a.id = b.id ∧ a.role = b.role) hu (fun _ => ⟨rfl, rfl⟩)
      fun _ => ⟨rfl, rfl⟩
    obtain ⟨e₀, he₀, hseeded⟩ := ih u₀ hu₀ (hsame.trans hrole)
    exact ⟨e₀, List.mem_cons_of_mem e he₀, hid ▸ hseeded⟩

end Runs

/-! ## Runs of the console -/

section Console

variable [DecidableEq τ] [Crates] [HttpCrates] [WebauthnCrates] {state : AppState}
  {clients : τ → Client} {tr : List (AuthEvent τ)} {db : Database} {e : AuthEvent τ}

namespace ConsoleRun

theorem history (h : ConsoleRun state clients tr db) :
    ∃ tr', History state.config state.engine
        (fun m : τ × Option UserId => (clients m.1).operation m.2) tr' db ∧
      tr'.map (Event.forClient Prod.fst) = tr := by
  obtain ⟨pool, run⟩ := h
  obtain ⟨tr', pool', run', htrace, -⟩ := run.split fun t => (clients t).delegated
  exact ⟨tr', ⟨pool', run'⟩, htrace⟩

/-- Every session is from a login. -/
theorem session_logged (h : ConsoleRun state clients tr db) {s : AuthSession}
    (hs : s ∈ db.authSessions) :
    ∃ e ∈ tr, ∃ credentialId, ∃ hash : SecretHash, s.tokenHash = hash.asBytes ∧
      LoggedIn e credentialId s.userId hash := by
  obtain ⟨tr', h', rfl⟩ := h.history
  obtain ⟨e, he, ceremonyId, verification, session, now, audit, hc, hbecomes, -⟩ :=
    h'.session_origin hs
  have htoken : s.tokenHash = session.tokenHash.asBytes := by
    rw [hbecomes.fixed]
    rfl
  have huser : s.userId = session.userId.value := by
    rw [hbecomes.fixed]
    rfl
  exact ⟨_, List.mem_map_of_mem he, verification.credentialId, session.tokenHash, htoken, ceremonyId,
    verification, session, now, audit, hc, rfl, huser.symm, rfl⟩

/-- Every credential is from a registration. -/
theorem credential_registered (h : ConsoleRun state clients tr db) {c : PasskeyCredential}
    (hc : c ∈ db.passkeyCredentials) :
    ∃ e ∈ tr, ∃ capabilityHash, RegisteredFor e c.credentialId c.userId capabilityHash := by
  obtain ⟨tr', h', rfl⟩ := h.history
  obtain ⟨e, he, ceremonyId, capabilityHash, credential, now, audit, ceremony, id, userId, hdone,
    hregistration, hbecomes, -⟩ := h'.credential_origin hc
  have hcredential : c.credentialId = credential.credentialId := by
    rw [hbecomes.fixed]
    rfl
  have huser : c.userId = userId := by
    rw [hbecomes.fixed]
    rfl
  exact ⟨_, List.mem_map_of_mem he, capabilityHash, ceremonyId, credential, now, audit, id, hdone,
    hcredential.symm, huser ▸ hregistration.added⟩

/-- The ground of a registration: a capability that was given, or the seeded operator. -/
theorem registration_ground (h : ConsoleRun state clients (e :: tr) e.post) {ceremonyId : Uuid}
    {capabilityHash : Option SecretHash} {credential : VerifiedCredential} {now : DateTime}
    {audit : AuditEvent}
    (hc : Succeeded e (.completeRegistration ceremonyId capabilityHash credential now audit) ()) :
    ∃ credentialId userId, RegisteredFor e credentialId userId capabilityHash ∧
      ((∃ hash, capabilityHash = some hash ∧
          ∃ k ∈ e.pre.authCapabilities, k.tokenHash = hash.asBytes ∧ k.userId = userId) ∨
        (capabilityHash = none ∧ ∃ e₀ ∈ tr, SeededOperator e₀ userId)) := by
  obtain ⟨tr', h', htrace⟩ := h.history
  obtain ⟨e', older, rfl, rfl, rfl⟩ := List.map_eq_cons_iff.1 htrace
  obtain ⟨ceremony, id, userId, kind, hdone⟩ := h'.completed List.mem_cons_self hc
  refine ⟨credential.credentialId, userId, ⟨ceremonyId, credential, now, audit, id, hc, rfl,
    hdone.added⟩, ?_⟩
  cases hdone.charge h' List.mem_cons_self with
  | capability hash k named mem token owner =>
      exact Or.inl ⟨hash, named, k, mem, token, owner⟩
  | bootstrap start now seed user operation kind named before started owner =>
      have hstart : start ∈ older := (precedes_cons_iff.1 before).elim (·.left_mem) (·.2)
      obtain ⟨newer, oldest, rfl⟩ := List.append_of_mem hstart
      have hbefore := (show History _ _ _ ((e' :: newer) ++ start :: oldest) _ from h').older
      obtain ⟨env, hperform⟩ := h'.succeeded (List.mem_cons_of_mem e' hstart) started
      obtain ⟨u, hu, hrole, -, -, hdecodes⟩ := operatorWithoutCredential_found hperform
      obtain ⟨e₀, he₀, hseeded⟩ := hbefore.operator_seeded hu hrole
      have huser : u.id = userId := hdecodes.id.trans owner
      refine Or.inr ⟨named, Event.forClient Prod.fst e₀, List.mem_map_of_mem ?_, huser ▸ hseeded⟩
      exact List.mem_append_right newer (List.mem_cons_of_mem start he₀)

/-- The ground of a login: a passkey. -/
theorem login_ground (h : ConsoleRun state clients tr db) (he : e ∈ tr) {ceremonyId : Uuid}
    {verification : AuthenticationVerification} {session : SessionRecord} {now : DateTime}
    {audit : AuditEvent}
    (hc : Succeeded e (.completeAuthentication ceremonyId verification session now audit) ()) :
    ∃ c ∈ e.pre.passkeyCredentials, LoggedIn e c.credentialId c.userId session.tokenHash := by
  obtain ⟨env, hcommits⟩ := StoreRun.committed h he hc
  generalize e.post = db' at hcommits
  cases hcommits with
  | unchanged _ reads => cases reads
  | completeAuthentication _ _ _ _ _ _ c _ _ _ _ mem owner credentialId =>
      exact ⟨c, mem, ceremonyId, verification, session, now, audit, hc, credentialId.symm,
        owner.symm, rfl⟩

/-- What a request grants. -/
theorem granting_event (h : ConsoleRun state clients tr db) (he : e ∈ tr) {visit : Visit}
    (hclient : clients e.tid = .visit visit) (hc : e.call.grants = true) :
    ∃ userId check token principal now idle, e.call.actor = some userId ∧ Precedes tr check e ∧
      check.tid = e.tid ∧
      Succeeded check (.session (SecretToken.hash token) now idle) (some principal) ∧
      principal.user.role = .operator ∧ principal.user.id = userId := by
  obtain ⟨pool, run⟩ := h
  obtain ⟨past, hasks, hback, -⟩ := run.asks_of_mem he
  rw [hclient] at hasks
  obtain ⟨endpoint, -, hasks⟩ := asks_program hasks
  obtain ⟨userId, hactor, -, token, csrf, principal, -, -, hfound, -, hrole, huser⟩ :=
    granting_of_asks hasks hc
  obtain ⟨check, hprec, htid, hexchange⟩ := hback _ hfound
  exact ⟨userId, check, token, principal, _, _, hactor, hprec, htid, hexchange, hrole, huser⟩

end ConsoleRun

omit [Crates] [HttpCrates] [WebauthnCrates] [DecidableEq τ] in
/-- An event that was answered with a result. -/
theorem succeeded_of_isOk {c : AuthCall} (hcall : e.call = c) (h : e.resp.isOk = true) :
    ∃ a, Succeeded e c a := by
  obtain ⟨tid, call, resp, pre, post⟩ := e
  subst hcall
  cases resp with
  | ok a => exact ⟨a, rfl⟩
  | error error => cases h

omit [DecidableEq τ] [Crates] [HttpCrates] [WebauthnCrates] in
theorem LoggedIn.entitles {credentialId : List UInt8} {userId : String} {tokenHash : SecretHash}
    (h : LoggedIn e credentialId userId tokenHash) :
    e.resp.isOk = true ∧ e.call.entitles = true := by
  obtain ⟨ceremonyId, verification, session, now, audit, hc, -⟩ := h
  exact hc.entitles rfl

/-- The events of the trace that gave authority lead back to a command. -/
def AllRooted (clients : τ → Client) (tr : List (AuthEvent τ)) : Prop :=
  ∀ e ∈ tr, e.resp.isOk = true → e.call.entitles = true → Rooted clients tr e

namespace ConsoleRun

variable (h : ConsoleRun state clients (e :: tr) e.post) (ih : AllRooted clients tr)

include h ih

/-- What a request grants is asked by an operator who has logged in. -/
theorem granting_rooted {visit : Visit} (hclient : clients e.tid = .visit visit)
    (hc : e.call.grants = true) : Rooted clients (e :: tr) e := by
  obtain ⟨operatorId, check, token, principal, now, idle, hactor, hprec, hchecks, hfound, hrole,
    huser⟩ := h.granting_event List.mem_cons_self hclient hc
  have hcheck : check ∈ tr := (precedes_cons_iff.1 hprec).elim (·.left_mem) (·.2)
  obtain ⟨newer, older, rfl⟩ := List.append_of_mem hcheck
  obtain ⟨env, hperform⟩ := StoreRun.succeeded h (List.mem_cons_of_mem e hcheck) hfound
  obtain ⟨s, hs, u, -, ⟨howner, hhash, -⟩, -, -, -, hdecodes⟩ := session_answered hperform
  have hsplit : ConsoleRun state clients ((e :: newer) ++ check :: older) e.post := h
  have hbefore : ConsoleRun state clients older check.pre := StoreRun.older hsplit
  obtain ⟨e₀, he₀, credentialId, hash, hnamed, hlogged⟩ := hbefore.session_logged hs
  obtain rfl : hash = SecretToken.hash token :=
    SecretHash.asBytes_injective (hnamed.symm.trans hhash)
  have hground : s.userId = operatorId.value := by
    rw [← howner, ← huser]
    exact hdecodes.id
  have hmem : e₀ ∈ newer ++ check :: older :=
    List.mem_append_right newer (List.mem_cons_of_mem check he₀)
  have hrooted := ih e₀ hmem hlogged.entitles.1 hlogged.entitles.2
  have hprior : Precedes (e :: (newer ++ check :: older)) e₀ check :=
    precedes_cons (precedes_iff_split.2 ⟨newer, older, rfl, he₀⟩)
  exact .operator visit credentialId operatorId (SecretToken.hash token) principal now idle
    hrooted.mono hprior (hground ▸ hlogged) hclient hchecks hprec hfound huser hrole hactor

/-- A passkey is registered by a capability, or by the seeded operator. -/
theorem registration_rooted {ceremonyId : Uuid} {capabilityHash : Option SecretHash}
    {credential : VerifiedCredential} {now : DateTime} {audit : AuditEvent}
    (hc : Succeeded e (.completeRegistration ceremonyId capabilityHash credential now audit) ()) :
    Rooted clients (e :: tr) e := by
  have hsplit : ConsoleRun state clients ([] ++ e :: tr) e.post := h
  have hpre : StoreRun (fun t => (clients t).program state) tr e.pre := StoreRun.older hsplit
  obtain ⟨credentialId, userId, hregistered, hground⟩ := h.registration_ground hc
  rcases hground with ⟨hash, rfl, k, hk, htoken, rfl⟩ | ⟨rfl, e₀, he₀, hseeded⟩
  · obtain ⟨e₀, he₀, named, hnamed, hgave⟩ := hpre.capability_given k hk
    obtain rfl : named = hash := SecretHash.asBytes_injective (hnamed.symm.trans htoken)
    obtain ⟨hok, given, hissued, -⟩ := id hgave
    have hrooted := ih e₀ he₀ hok (AuthCall.entitles_of_issued hissued)
    exact .setup named credentialId k.userId hrooted.mono (precedes_head he₀) hgave hregistered
  · obtain ⟨user, seedNow, seedAudit, hseeds, -⟩ := id hseeded
    have hrooted := ih e₀ he₀ (hseeds.entitles rfl).1 (hseeds.entitles rfl).2
    exact .bootstrap credentialId userId hrooted.mono (precedes_head he₀) hseeded hregistered

/-- A login is by a registered passkey. -/
theorem login_rooted {ceremonyId : Uuid} {verification : AuthenticationVerification}
    {session : SessionRecord} {now : DateTime} {audit : AuditEvent}
    (hc : Succeeded e (.completeAuthentication ceremonyId verification session now audit) ()) :
    Rooted clients (e :: tr) e := by
  have hsplit : ConsoleRun state clients ([] ++ e :: tr) e.post := h
  have hpre : ConsoleRun state clients tr e.pre := StoreRun.older hsplit
  obtain ⟨c, hmem, hlogged⟩ := h.login_ground List.mem_cons_self hc
  obtain ⟨e₀, he₀, capabilityHash, hregistered⟩ := hpre.credential_registered hmem
  obtain ⟨firstId, credential, firstNow, firstAudit, id, hdone, -⟩ := id hregistered
  have hrooted := ih e₀ he₀ (hdone.entitles rfl).1 (hdone.entitles rfl).2
  exact .login c.credentialId c.userId capabilityHash session.tokenHash hrooted.mono
    (precedes_head he₀) hregistered hlogged

end ConsoleRun

/-- Every event that gave authority leads back to a command. -/
theorem ConsoleRun.allRooted (h : ConsoleRun state clients tr db) : AllRooted clients tr := by
  refine StoreRun.induct (P := fun tr _ => AllRooted clients tr)
    (fun e he => absurd he List.not_mem_nil) ?_ h
  intro e tr _ hpost ih e' he' hok hentitles
  have hrun : ConsoleRun state clients (e :: tr) e.post := hpost
  rcases List.mem_cons.1 he' with rfl | he'
  · cases hclient : clients e'.tid with
    | command cli host => exact .command cli host List.mem_cons_self hclient
    | visit visit =>
        rcases AuthCall.entitles_cases hentitles with hgrants |
          ⟨ceremonyId, capabilityHash, credential, now, audit, hcall⟩ |
          ⟨ceremonyId, verification, session, now, audit, hcall⟩
        · exact hrun.granting_rooted ih hclient hgrants
        · obtain ⟨⟨⟩, hc⟩ := succeeded_of_isOk hcall hok
          exact hrun.registration_rooted ih hc
        · obtain ⟨⟨⟩, hc⟩ := succeeded_of_isOk hcall hok
          exact hrun.login_rooted ih hc
  · exact (ih e' he' hok hentitles).mono

omit [DecidableEq τ] [Crates] [HttpCrates] [WebauthnCrates] in
/-- No request seeds an operator. -/
theorem Rooted.seeds {userId : String} (h : Rooted clients tr e) (hseeded : SeededOperator e userId) :
    ∃ cli host, clients e.tid = .command cli host := by
  obtain ⟨user, now, audit, hc, -⟩ := hseeded
  have hcall : e.call = .insertUser user now audit := congrArg Exchange.call hc
  cases h with
  | command cli host _ client => exact ⟨cli, host, client⟩
  | setup _ _ _ _ _ _ registered =>
      obtain ⟨_, _, _, _, _, hdone, -⟩ := registered
      cases hcall.symm.trans (congrArg Exchange.call hdone)
  | bootstrap _ _ _ _ _ registered =>
      obtain ⟨_, _, _, _, _, hdone, -⟩ := registered
      cases hcall.symm.trans (congrArg Exchange.call hdone)
  | login _ _ _ _ _ _ _ loggedIn =>
      obtain ⟨_, _, _, _, _, hdone, -⟩ := loggedIn
      cases hcall.symm.trans (congrArg Exchange.call hdone)
  | operator _ _ _ _ _ _ _ _ _ _ _ _ _ _ _ _ acts =>
      rw [hcall] at acts
      cases acts

/-- The events that gave the rows of the database their authority lead back to commands. -/
structure Grounded (clients : τ → Client) (tr : List (AuthEvent τ)) (db : Database) : Prop where
  events : AllRooted clients tr
  sessions : ∀ s ∈ db.authSessions, ∃ e, Rooted clients tr e ∧
    ∃ credentialId hash, s.tokenHash = SecretHash.asBytes hash ∧
      LoggedIn e credentialId s.userId hash
  passkeys : ∀ c ∈ db.passkeyCredentials, ∃ e, Rooted clients tr e ∧
    ∃ capabilityHash, RegisteredFor e c.credentialId c.userId capabilityHash
  capabilities : ∀ k ∈ db.authCapabilities, ∃ e, Rooted clients tr e ∧
    ∃ hash, k.tokenHash = SecretHash.asBytes hash ∧ GaveCapability e hash k.userId
  operators : ∀ u ∈ db.humanUsers, u.role = "operator" → ∃ e ∈ tr, SeededOperator e u.id ∧
    ∃ cli host, clients e.tid = .command cli host

/-- **Authority leads back to a command.** In every run of the console, each event that gave
    authority is a command of the operator's machine or was asked on the ground of an earlier event
    that gave authority, and so is each event that a session, a passkey or a capability is from. -/
theorem authority_grounded (h : ConsoleRun state clients tr db) : Grounded clients tr db where
  events := h.allRooted
  sessions s hs := by
    obtain ⟨e, he, credentialId, hash, htoken, hlogged⟩ := h.session_logged hs
    exact ⟨e, h.allRooted e he hlogged.entitles.1 hlogged.entitles.2, credentialId, hash, htoken,
      hlogged⟩
  passkeys c hc := by
    obtain ⟨e, he, capabilityHash, hregistered⟩ := h.credential_registered hc
    obtain ⟨ceremonyId, credential, now, audit, id, hdone, -⟩ := id hregistered
    have hentitles := hdone.entitles rfl
    exact ⟨e, h.allRooted e he hentitles.1 hentitles.2, capabilityHash, hregistered⟩
  capabilities k hk := by
    obtain ⟨e, he, hash, htoken, hgave⟩ := StoreRun.capability_given h k hk
    obtain ⟨hok, given, hissued, -⟩ := id hgave
    exact ⟨e, h.allRooted e he hok (AuthCall.entitles_of_issued hissued), hash, htoken, hgave⟩
  operators u hu hrole := by
    obtain ⟨tr', h', rfl⟩ := h.history
    obtain ⟨e, he, hseeded⟩ := h'.operator_seeded hu hrole
    obtain ⟨user, now, audit, hc, -⟩ := id hseeded
    have hentitles := hc.entitles rfl
    have hmem := List.mem_map_of_mem (f := Event.forClient Prod.fst) he
    have hrooted := h.allRooted _ hmem hentitles.1 hentitles.2
    exact ⟨_, hmem, hseeded, hrooted.seeds hseeded⟩

end Console

section Sample

attribute [local instance] Reference.crates sampleWebauthn consoleHttp

/-- In the run of `consoleServed` the operator's approval of a user is at the end of the chain. -/
theorem authority_grounded_sample :
    Grounded consoleClients consoleServed.trace consoleServed.state :=
  have run : ConsoleRun consoleState consoleClients consoleServed.trace consoleServed.state :=
    ⟨_, play_run perform Database.empty _ _⟩
  authority_grounded run

end Sample

end RsConsole
