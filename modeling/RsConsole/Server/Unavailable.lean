import RsConsole.Server.Completions
import RsConsole.Server.Failures

set_option autoImplicit false

/-! # Which operations fail with `Store`

The handlers answer `AuthError::Store` with 503: the console is not available. With a database that
executes every statement, an operation of a handler fails with it exactly when its write names a user
who does not exist. A recovery can be requested for anybody, so there it does. -/

namespace RsConsole

open Library Library.Table Database PgAuthStore

/-! ## What is taken for granted -/

/-- The operations that handlers run; the others are commands. -/
def Operation.handled : Operation → Bool
  | .seedOperator .. => false
  | .rotateAllAuthEpochs .. => false
  | .breakGlass .. => false
  | _ => true

/-- The texts that an operation is given. -/
def Operation.texts : Operation → List String
  | .approveUserAndIssueSetup _ _ email displayName _ _ _ _ => [email, displayName]
  | .seedOperator _ email displayName _ _ => [email, displayName]
  | .rotateAllAuthEpochs _ reason => [reason]
  | .breakGlass _ _ _ reason => [reason]
  | _ => []

/-- The engine does not fail with `Store` itself, and the documents it gives have no NUL. -/
structure CeremonyEngine.Serves (engine : CeremonyEngine) : Prop where
  startRegistration : ∀ seed user credentials,
    engine.startRegistration seed user credentials ≠ .error .store
  finishRegistration : ∀ response state, engine.finishRegistration response state ≠ .error .store
  startAuthentication : ∀ seed, engine.startAuthentication seed ≠ .error .store
  authenticationUserHandle : ∀ response, engine.authenticationUserHandle response ≠ .error .store
  finishAuthentication : ∀ response state credentials,
    engine.finishAuthentication response state credentials ≠ .error .store
  registrationState : ∀ seed user credentials challenge state,
    engine.startRegistration seed user credentials = .ok (challenge, state) → storable state = true
  authenticationState : ∀ seed challenge state,
    engine.startAuthentication seed = .ok (challenge, state) → storable state = true
  credential : ∀ response state credential,
    engine.finishRegistration response state = .ok credential →
      storable credential.publicData = true
  verification : ∀ response state credentials verification,
    engine.finishAuthentication response state credentials = .ok verification →
      storable verification.updatedPublicData = true

/-- The ids and tokens that were drawn for a call are new. -/
def AuthCall.Draws (env : Env) (db : Database) : AuthCall → Prop
  | .insertCeremony started => ∀ k ∈ db.authCeremonies, k.id ≠ started.id
  | .completeAuthentication _ _ created _ _ =>
      ∀ s ∈ db.authSessions, s.id ≠ created.id ∧ s.tokenHash ≠ created.tokenHash.asBytes
  | .approveUserWithSetup _ issued _ _ => db.FreshCapability issued
  | .issueRecoverySetup _ issued _ _ => db.FreshCapability issued
  | .createRecovery .. => ∀ r ∈ db.recoveryRequests, r.id ≠ env.fresh
  | _ => True

/-- A database that executes every statement performed the event's call, with new ids and tokens,
    and no epoch had reached the end of its range. -/
structure Served {τ : Type} (e : AuthEvent τ) : Prop where
  performed : ∃ env, env.left = none ∧ perform env e.call e.pre = (e.resp, e.post) ∧
    e.call.Draws env e.pre
  epochs : ∀ u ∈ e.pre.humanUsers, u.authEpoch < 2 ^ 63 - 1

/-! ## What the operations pass -/

/-- What a handled operation sees to, and which of them write a reference to a user they were given. -/
def AuthCall.Prepared (op : Operation) : AuthCall → Prop
  | .insertCapability _ => False
  | .insertUser .. => False
  | .rotateAllAuthEpochs .. => False
  | .breakGlass .. => False
  | .insertCeremony started => storable started.state = true
  | .completeRegistration _ _ credential _ audit =>
      storable credential.publicData = true ∧ storable audit.data = true
  | .completeAuthentication _ verification _ _ audit =>
      storable verification.updatedPublicData = true ∧ storable audit.data = true
  | .approveUserWithSetup user issued operatorId now =>
      (storableText user.email = true ∧ storableText user.displayName = true ∧
        0 < user.authEpoch ∧ issued.userId = user.id) ∧
        ∃ email displayName token, user.email = trim email ∧
          op = .approveUserAndIssueSetup operatorId user.id email displayName now token
            user.webauthnHandle issued.id
  | .createRecovery userId now => op = .requestRecovery userId now
  | .approveRecovery recoveryId operatorId now => op = .approveRecovery recoveryId operatorId now
  | .issueRecoverySetup recoveryId issued operatorId now =>
      ∃ token, op = .issueRecoverySetup recoveryId operatorId issued.userId now token issued.id
  | _ => True

section

variable [Crates] {config : AuthConfig} {engine : CeremonyEngine} {op : Operation}
  {past : AuthExchanges} {c : AuthCall}

theorem prepared_startOperatorBootstrap {now : DateTime} {seed : ℕ} {id : Uuid}
    (hengine : engine.Serves)
    (h : (Operation.startOperatorBootstrap now seed id).Asks config engine past c) :
    c.Prepared (.startOperatorBootstrap now seed id) := by
  rcases AuthService.asks_startOperatorBootstrap.1 h with
    h | ⟨user, hash, kind, -, challenge, state, hstate, rfl⟩
  · rcases AuthService.asks_bootstrapCandidate h with rfl | rfl
    · trivial
    · trivial
  · exact hengine.registrationState _ _ _ _ _ hstate

theorem prepared_of_asks (hop : op.handled = true)
    (htexts : ∀ text ∈ op.texts, storableText text = true) (hengine : engine.Serves)
    (h : op.Asks config engine past c) : c.Prepared op := by
  cases op with
  | startSetupRegistration =>
      rcases AuthService.asks_startSetupRegistration.1 h with
        ⟨-, rfl⟩ | ⟨_, _, rfl, ⟨-, rfl⟩ | ⟨_, _, rfl, -, ⟨-, rfl⟩ | h⟩⟩
      · trivial
      · trivial
      · trivial
      · obtain ⟨credentials, rfl, challenge, state, hstate, rfl⟩ := h
        exact hengine.registrationState _ _ _ _ _ hstate
  | startOperatorBootstrap => exact prepared_startOperatorBootstrap hengine h
  | finishRegistration ceremonyId kind =>
      rcases AuthService.asks_finishRegistration.1 h with
        ⟨-, rfl⟩ | ⟨ceremony, rfl, credential, hcredential, userId, -, rfl⟩
      · trivial
      · refine ⟨hengine.credential _ _ _ hcredential, ?_⟩
        simp only [AuthService.registered]
        cases kind <;> decide
  | startAuthentication =>
      obtain ⟨challenge, state, hstate, rfl⟩ := AuthService.asks_startAuthentication.1 h
      exact hengine.authenticationState _ _ _ hstate.2
  | finishAuthentication =>
      rcases AuthService.asks_finishAuthentication.1 h with
        ⟨-, rfl⟩ | ⟨_, _, rfl, _, -, ⟨-, rfl⟩ | ⟨_, _, rfl, -, ⟨-, rfl⟩ | h⟩⟩
      · trivial
      · trivial
      · trivial
      · obtain ⟨credentials, rfl, verification, hverification, rfl⟩ := h
        exact ⟨hengine.verification _ _ _ _ hverification, rfl⟩
  | authenticateSession =>
      obtain ⟨-, rfl⟩ := AuthService.asks_authenticateSession.1 h
      trivial
  | issueSessionCsrf =>
      obtain ⟨-, rfl⟩ := AuthService.asks_issueSessionCsrf.1 h
      trivial
  | logout =>
      obtain ⟨-, rfl⟩ := (asks_ask _ _ _).1 h
      trivial
  | requestRecovery =>
      obtain ⟨-, rfl⟩ := (asks_ask _ _ _).1 h
      exact rfl
  | pendingRecoveries =>
      obtain ⟨-, rfl⟩ := (asks_ask _ _ _).1 h
      trivial
  | approveRecovery =>
      obtain ⟨-, rfl⟩ := (asks_ask _ _ _).1 h
      exact rfl
  | issueRecoverySetup _ _ _ _ token =>
      obtain ⟨-, rfl⟩ := AuthService.asks_issueRecoverySetup.1 h
      exact ⟨token, rfl⟩
  | approveUserAndIssueSetup _ _ email displayName _ token =>
      rcases (AuthService.asks_approveUserAndIssueSetup.1 h).2 with ⟨-, rfl⟩ | ⟨-, rfl⟩
      · trivial
      · refine ⟨⟨storableText_trim (htexts email ?_), storableText_trim (htexts displayName ?_),
          Int.one_pos, rfl⟩, email, displayName, token, rfl, rfl⟩
        · exact List.mem_cons_self
        · exact List.mem_cons_of_mem _ List.mem_cons_self
  | seedOperator => cases hop
  | rotateAllAuthEpochs => cases hop
  | breakGlass => cases hop

end

/-! ## Users who exist -/

/-- The users that a handled operation takes from what it has read exist. -/
def AuthCall.Knows (db : Database) : AuthCall → Prop
  | .insertCeremony started => db.refersToUser (started.userId.map (·.value)) = true
  | .completeRegistration ceremonyId _ _ _ audit =>
      db.Attributes audit ∧ ∀ k ∈ db.authCeremonies, k.id = ceremonyId →
        ∃ userId, k.userId = some userId ∧ db.hasUser userId = true
  | .completeAuthentication _ _ created _ audit =>
      db.Attributes audit ∧ db.hasUser created.userId.value = true
  | _ => True

theorem Database.Evolves.refersToUser {db db' : Database} (h : Evolves db db') {id : Option String}
    (hid : db.refersToUser id = true) : db'.refersToUser id = true := by
  cases id with
  | none => rfl
  | some id => exact h.hasUser hid

theorem User.Decodes.hasUser {user : User} {db : Database} {row : HumanUser} (h : user.Decodes row)
    (hrow : row ∈ db.humanUsers) : db.hasUser user.id.value = true :=
  hasUser_iff.2 ⟨row, hrow, h.id⟩

namespace History

variable {τ : Type} [DecidableEq τ] [Crates] {config : AuthConfig} {engine : CeremonyEngine}
  {ops : τ → Operation} {tr : List (AuthEvent τ)} {db : Database} {e : AuthEvent τ}

/-- The user of a ceremony exists: its insertion was not refused. -/
theorem ceremony_refers (h : History config engine ops tr db) {k : AuthCeremony}
    (hk : k ∈ db.authCeremonies) : db.refersToUser k.userId = true := by
  obtain ⟨e, he, ceremony, clock, hc, hbecomes, -⟩ := h.ceremony_origin hk
  obtain ⟨env, hperform⟩ := h.succeeded he hc
  obtain ⟨rows, hrows, -⟩ := except_bind_ok (Repo.yields_execute_ok (yields_of_perform hperform))
  obtain ⟨-, -, -, hrefers⟩ := insertRow_ok hrows
  rw [hbecomes.fixed]
  exact (h.evolves_from he).refersToUser hrefers

/-- A user that an earlier event of the same operation has found still exists. -/
theorem found_before (h : History config engine ops tr db) {past : AuthExchanges}
    (hback : ∀ c a, Answered past c a →
      ∃ e₀, Precedes tr e₀ e ∧ e₀.tid = e.tid ∧ Succeeded e₀ c a)
    {c : AuthCall} {a : c.Reply} (hfound : Answered past c a) {id : String}
    (huser : ∀ env db db', perform env c db = (.ok a, db') → db.hasUser id = true) :
    e.pre.hasUser id = true := by
  obtain ⟨e₀, hprec, -, hc⟩ := hback c a hfound
  obtain ⟨env, hperform⟩ := h.succeeded hprec.left_mem hc
  refine ((h.evolves_event hprec.left_mem).trans (h.evolves_between hprec)).hasUser ?_
  exact huser env e₀.pre e₀.post hperform

theorem knows (h : History config engine ops tr db) (he : e ∈ tr) : e.call.Knows e.pre := by
  obtain ⟨past, hexplained, hback, -⟩ := h.explained he
  have hattributed := h.attributed he
  have hpre : ∀ k ∈ e.pre.authCeremonies, e.pre.refersToUser k.userId = true := by
    obtain ⟨newer, older, rfl⟩ := List.append_of_mem he
    exact fun k hk => h.older.ceremony_refers hk
  generalize e.call = c at hexplained hattributed
  cases c with
  | insertCeremony ceremony =>
      cases hexplained with
      | registration _ _ _ _ capability user _ _ howner _ huser =>
          rw [AuthCall.Knows, huser]
          refine h.found_before hback howner fun env db db' hperform => ?_
          obtain ⟨row, hrow, -, hdecodes⟩ := userById_found hperform
          exact hdecodes.hasUser hrow
      | operatorRecovery _ _ user _ _ hfound _ huser =>
          rw [AuthCall.Knows, huser]
          refine h.found_before hback hfound fun env db db' hperform => ?_
          obtain ⟨_, -, row, hrow, -, -, -, -, -, -, hdecodes⟩ :=
            operatorRecoveryWindow_found hperform
          exact hdecodes.hasUser hrow
      | operatorBootstrap _ _ user _ hfound _ huser =>
          rw [AuthCall.Knows, huser]
          refine h.found_before hback hfound fun env db db' hperform => ?_
          obtain ⟨row, hrow, -, -, -, hdecodes⟩ := operatorWithoutCredential_found hperform
          exact hdecodes.hasUser hrow
      | authentication _ _ _ _ huser =>
          rw [AuthCall.Knows, huser]
          rfl
  | completeRegistration ceremonyId _ _ now audit =>
      obtain ⟨⟨asked, kind, _, ceremony, userId, -, hfound, -, -, huser, rfl⟩⟩ := hexplained
      have hexists : e.pre.hasUser userId.value = true := by
        -- the ceremony that was read belongs to that user, and its reference holds
        obtain ⟨e₀, hprec, -, hc⟩ := hback _ _ hfound
        obtain ⟨env, hperform⟩ := h.succeeded hprec.left_mem hc
        obtain ⟨row, hrow, -, -, -, hdecodes⟩ := ceremony_found hperform
        obtain ⟨row', hrow', hbecomes⟩ := (((h.evolves_event hprec.left_mem).trans
          (h.evolves_between hprec)).authCeremonies).exists_of_mem hrow
        have hrefers := hpre row' hrow'
        rw [hbecomes.fixed] at hrefers
        rw [hdecodes.userId, huser] at hrefers
        exact hrefers
      refine ⟨⟨hexists, hexists⟩, fun k hk hid => ⟨userId.value, ?_, hexists⟩⟩
      exact hattributed.2 k hk hid
  | completeAuthentication _ _ session =>
      obtain ⟨⟨_, _, _, _, _, handle, user, _, -, rfl, -, rfl, rfl⟩⟩ := hexplained
      have hexists : e.pre.hasUser user.id.value = true := by
        refine h.found_before hback (c := .userByHandle handle) (a := some user)
          (List.mem_cons_of_mem _ List.mem_cons_self) fun env db db' hperform => ?_
        obtain ⟨row, hrow, -, hdecodes⟩ := userByHandle_found hperform
        exact hdecodes.hasUser hrow
      exact ⟨⟨hexists, hexists⟩, hexists⟩
  | _ => trivial

end History

/-- A prepared call with new draws and known users is ready. -/
theorem AuthCall.Prepared.ready {env : Env} {db : Database} {op : Operation} {c : AuthCall}
    (h : c.Prepared op) (hdraws : c.Draws env db) (hknows : c.Knows db)
    (hepochs : ∀ u ∈ db.humanUsers, u.authEpoch < 2 ^ 63 - 1) : c.Ready env db := by
  cases c with
  | insertCapability => exact h
  | insertUser => exact h
  | rotateAllAuthEpochs => exact h
  | breakGlass => exact h
  | insertCeremony => exact ⟨h, hdraws, hknows⟩
  | completeRegistration => exact ⟨h.1, h.2, hknows⟩
  | completeAuthentication => exact ⟨h.1, h.2, hknows.1, hknows.2, hdraws⟩
  | approveUserWithSetup => exact ⟨h.1.1, h.1.2.1, h.1.2.2.1, h.1.2.2.2, hdraws⟩
  | issueRecoverySetup => exact hdraws
  | approveRecovery => exact hepochs
  | createRecovery => exact hdraws
  | _ => trivial

/-! ## Operations -/

/-- The operation would write a reference to a user who does not exist. For the operations of the
    operator it is the operator, while the write would go through. -/
def Operation.MissesUser (db : Database) : Operation → Prop
  | .requestRecovery userId _ => db.hasUser userId.value = false
  | .approveRecovery recoveryId operatorId _ =>
      db.hasUser operatorId.value = false ∧
        ∃ r ∈ db.recoveryRequests, r.id = recoveryId ∧ r.Pending
  | .issueRecoverySetup recoveryId operatorId userId _ _ _ =>
      db.hasUser operatorId.value = false ∧
        ∃ r ∈ db.recoveryRequests, r.id = recoveryId ∧ r.approvedAt ≠ none ∧
          r.setupIssuedAt = none ∧ r.completedAt = none ∧ r.userId = userId.value
  | .approveUserAndIssueSetup operatorId userId email _ _ _ handle _ =>
      db.hasUser operatorId.value = false ∧ operatorId ≠ userId ∧
        ∀ u ∈ db.humanUsers, u.id ≠ userId.value ∧ u.webauthnHandle ≠ handle ∧ u.email ≠ trim email
  | _ => False

section

variable [Crates] {config : AuthConfig} {engine : CeremonyEngine} {op : Operation}
  {past : AuthExchanges} {c : AuthCall}

/-- A call misses a user when it is the write of an operation that does. -/
theorem missesUser_of_asks {db : Database} (h : op.Asks config engine past c)
    (hprepared : c.Prepared op) : c.MissesUser db ↔ c.reads = false ∧ op.MissesUser db := by
  constructor
  · intro hmisses
    cases c with
    | createRecovery =>
        cases hprepared
        exact ⟨rfl, hmisses⟩
    | approveRecovery =>
        cases hprepared
        exact ⟨rfl, hmisses⟩
    | issueRecoverySetup =>
        obtain ⟨token, rfl⟩ := hprepared
        exact ⟨rfl, hmisses⟩
    | approveUserWithSetup user =>
        obtain ⟨-, email, displayName, token, hemail, rfl⟩ := hprepared
        refine ⟨rfl, hmisses.1, hmisses.2.1, ?_⟩
        rw [← hemail]
        exact hmisses.2.2
    | _ => exact hmisses.elim
  · rintro ⟨hwrites, hmisses⟩
    cases op with
    | requestRecovery =>
        obtain ⟨-, rfl⟩ := (asks_ask _ _ _).1 h
        exact hmisses
    | approveRecovery =>
        obtain ⟨-, rfl⟩ := (asks_ask _ _ _).1 h
        exact hmisses
    | issueRecoverySetup =>
        obtain ⟨-, rfl⟩ := AuthService.asks_issueRecoverySetup.1 h
        exact hmisses
    | approveUserAndIssueSetup =>
        rcases (AuthService.asks_approveUserAndIssueSetup.1 h).2 with ⟨-, rfl⟩ | ⟨-, rfl⟩
        · cases hwrites
        · exact hmisses
    | _ => exact hmisses.elim

end

/-! ## The service passes `Store` on, and has no `Store` of its own -/

namespace AuthService

open Fallible

-- A rule is found by the shape of the code, which the elaborator would otherwise compute.
attribute [local irreducible] Relays

theorem relays_ask (c : AuthCall) : Relays .store (ask c) := relays_await c

variable [Crates] {config : AuthConfig} {engine : CeremonyEngine}

theorem relays_startSetupRegistration {token : SecretToken} {purpose : CapabilityPurpose}
    {now : DateTime} {seed : ℕ} {id : Uuid} (hengine : engine.Serves) :
    Relays .store (startSetupRegistration config engine token purpose now seed id) := by
  refine relays_bind (relays_ask _) fun found => ?_
  refine relays_bind (relays_okOr (by decide) _) fun capability => ?_
  refine relays_bind (relays_ask _) fun found => ?_
  refine relays_bind (relays_okOr (by decide) _) fun user => ?_
  refine relays_bind (relays_ask _) fun credentials => ?_
  refine relays_bind (relays_ofExcept (hengine.startRegistration _ _ _)) fun started => ?_
  exact relays_bind (relays_ask _) fun _ => relays_pure _

omit [Crates] in
theorem relays_bootstrapCandidate (now : DateTime) : Relays .store (bootstrapCandidate now) := by
  refine relays_bind (relays_ask _) fun window => ?_
  cases window with
  | some found => exact relays_pure _
  | none =>
      refine relays_bind (relays_ask _) fun found => ?_
      exact relays_bind (relays_okOr (by decide) _) fun user => relays_pure _

omit [Crates] in
theorem relays_startOperatorBootstrap {now : DateTime} {seed : ℕ} {id : Uuid}
    (hengine : engine.Serves) :
    Relays .store (startOperatorBootstrap config engine now seed id) := by
  refine relays_bind (relays_bootstrapCandidate now) fun candidate => ?_
  refine relays_bind (relays_ofExcept (hengine.startRegistration _ _ _)) fun started => ?_
  exact relays_bind (relays_ask _) fun _ => relays_pure _

omit [Crates] in
theorem relays_finishRegistration {ceremonyId : Uuid} {kind : CeremonyKind} {response : Value}
    {now : DateTime} (hengine : engine.Serves) :
    Relays .store (finishRegistration engine ceremonyId kind response now) := by
  refine relays_bind (relays_ask _) fun found => ?_
  refine relays_bind (relays_okOr (by decide) _) fun ceremony => ?_
  refine relays_bind (relays_ofExcept (hengine.finishRegistration _ _)) fun credential => ?_
  exact relays_bind (relays_okOr (by decide) _) fun userId => relays_ask _

theorem relays_finishAuthentication {ceremonyId : Uuid} {response : Value} {now : DateTime}
    {token csrf : SecretToken} {id : Uuid} (hengine : engine.Serves) :
    Relays .store (finishAuthentication config engine ceremonyId response now token csrf id) := by
  refine relays_bind (relays_ask _) fun found => ?_
  refine relays_bind (relays_okOr (by decide) _) fun ceremony => ?_
  refine relays_bind (relays_ofExcept (hengine.authenticationUserHandle _)) fun handle => ?_
  refine relays_bind (relays_ask _) fun found => ?_
  refine relays_bind (relays_okOr (by decide) _) fun user => ?_
  refine relays_bind (relays_ask _) fun credentials => ?_
  refine relays_bind (relays_ofExcept (hengine.finishAuthentication _ _ _)) fun verified => ?_
  exact relays_bind (relays_ask _) fun _ => relays_pure _

theorem relays_approveUserAndIssueSetup {operatorId userId : UserId} {email displayName : String}
    {now : DateTime} {token : SecretToken} {handle id : Uuid} :
    Relays .store (approveUserAndIssueSetup config operatorId userId email displayName now token
      handle id) := by
  refine relays_bind (relays_ensure (by decide) _) fun _ => ?_
  refine relays_bind (relays_ask _) fun found => ?_
  refine relays_bind (relays_ensure (by decide) _) fun _ => ?_
  exact relays_bind (relays_ask _) fun _ => relays_pure _

theorem relays_code {op : Operation} (hop : op.handled = true) (hengine : engine.Serves) :
    Relays .store (op.code config engine) := by
  cases op with
  | startSetupRegistration => exact relays_startSetupRegistration hengine
  | startOperatorBootstrap => exact relays_startOperatorBootstrap hengine
  | finishRegistration => exact relays_finishRegistration hengine
  | startAuthentication =>
      refine relays_bind (relays_ofExcept (hengine.startAuthentication _)) fun started => ?_
      exact relays_bind (relays_ask _) fun _ => relays_pure _
  | finishAuthentication => exact relays_finishAuthentication hengine
  | authenticateSession =>
      refine relays_bind (relays_ask _) fun found => ?_
      refine relays_bind (relays_okOr (by decide) _) fun principal => ?_
      exact relays_bind (relays_ensure (by decide) _) fun _ => relays_pure _
  | issueSessionCsrf =>
      refine relays_bind (relays_ask _) fun found => ?_
      exact relays_bind (relays_okOr (by decide) _) fun principal => relays_pure _
  | logout => exact relays_ask _
  | requestRecovery => exact relays_ask _
  | pendingRecoveries => exact relays_ask _
  | approveRecovery => exact relays_ask _
  | issueRecoverySetup => exact relays_bind (relays_ask _) fun _ => relays_pure _
  | approveUserAndIssueSetup => exact relays_approveUserAndIssueSetup
  | seedOperator => cases hop
  | rotateAllAuthEpochs => cases hop
  | breakGlass => cases hop

end AuthService

/-- **`Store` means that the store failed, or that the write named nobody.** -/
theorem store_failure_iff {τ : Type} [DecidableEq τ] [Crates] {config : AuthConfig}
    {engine : CeremonyEngine} {ops : τ → Operation} {tr : List (AuthEvent τ)} {db : Database}
    (hengine : engine.Serves) (h : History config engine ops tr db) :
    Database.Readable db ∧
    ∀ t, (ops t).handled = true → (∀ text ∈ (ops t).texts, storableText text = true) →
      (∀ e ∈ tr, e.tid = t → Served e) →
      (¬ Fallible.Fails ((ops t).code config engine) (exchanges tr t) .store ↔
        ∀ e ∈ tr, e.tid = t → e.call.reads = false → ¬ (ops t).MissesUser e.pre) := by
  refine ⟨h.readable, fun t hop htexts hserved => ?_⟩
  obtain ⟨pool, run⟩ := id h
  have hevent : ∀ e ∈ tr, e.tid = t →
      (e.resp = .error .store ↔ e.call.reads = false ∧ (ops t).MissesUser e.pre) := by
    rintro e he rfl
    obtain ⟨past, hasks, -⟩ := run.asks_of_mem he
    have hprepared := prepared_of_asks hop htexts hengine hasks
    obtain ⟨⟨env, hlasts, hperform, hdraws⟩, hepochs⟩ := hserved e he rfl
    have hready := hprepared.ready hdraws (h.knows he) hepochs
    rw [store_iff hperform hlasts hready (h.readable_pre he) (h.consistent_pre he).recoveryIds]
    exact missesUser_of_asks hasks hprepared
  have hfails : Fallible.Fails ((ops t).code config engine) (exchanges tr t) .store ↔
      ∃ e ∈ tr, e.tid = t ∧ e.resp = .error .store :=
    run.fails_iff (AuthService.relays_code hop hengine)
  rw [hfails]
  constructor
  · exact fun hnot e he htid hwrites hmisses =>
      hnot ⟨e, he, htid, (hevent e he htid).2 ⟨hwrites, hmisses⟩⟩
  · rintro hall ⟨e, he, htid, hresp⟩
    obtain ⟨hwrites, hmisses⟩ := (hevent e he htid).1 hresp
    exact hall e he htid hwrites hmisses

section Sample

attribute [local instance] Reference.crates

/-- An engine that stores nothing new about a credential. -/
def steadyEngine : CeremonyEngine where
  startRegistration := sampleEngine.startRegistration
  finishRegistration := sampleEngine.finishRegistration
  startAuthentication := sampleEngine.startAuthentication
  authenticationUserHandle := sampleEngine.authenticationUserHandle
  finishAuthentication
    | _, _, [] => .error .verification
    | _, _, c :: _ => .ok ⟨c.credentialId, .null⟩

theorem steadyEngine_serves : steadyEngine.Serves where
  startRegistration _ _ _ := nofun
  finishRegistration response _ := by cases response <;> nofun
  startAuthentication _ := nofun
  authenticationUserHandle _ := nofun
  finishAuthentication _ _ credentials := by cases credentials <;> nofun
  registrationState := by
    rintro seed user credentials challenge state h
    cases h
    rfl
  authenticationState := by
    rintro seed challenge state h
    cases h
    rfl
  credential := by
    rintro response state credential h
    cases response <;> cases h
    rfl
  verification := by
    rintro response state credentials verification h
    cases credentials <;> cases h
    rfl

/-- An operator is seeded, and a recovery of `userId` is requested. -/
def requestOperations (userId : UserId) : ℕ → Operation :=
  sampleOperations [.seedOperator sampleOperator "operator@example.com" "Operator" 0 1,
    .requestRecovery userId 1]

def seededRun (userId : UserId) :=
  play perform Database.empty
    (fun t => (requestOperations userId t).program .default steadyEngine)
    [(0, sampleEnv 0), (0, sampleEnv 0), (0, sampleEnv 0)]

def requestRun (userId : UserId) := (seededRun userId).move perform 1 (sampleEnv 7)

theorem requestRun_run (userId : UserId) :
    Run (effectOf perform) Database.empty
      (fun t => (requestOperations userId t).program .default steadyEngine)
      (requestRun userId).trace (requestRun userId).state (requestRun userId).pool :=
  Config.move_run perform Database.empty _ (play_run perform Database.empty _ _) 1 (sampleEnv 7)

/-- The only event of the request. -/
theorem requestRun_event {userId : UserId} {e : AuthEvent ℕ} (he : e ∈ (requestRun userId).trace)
    (htid : e.tid = 1) : Served e ∧ e.pre.humanUsers.map (·.id) = ["operator"] := by
  have hids : (seededRun userId).state.humanUsers.map (·.id) = ["operator"] := rfl
  have hepochs : (seededRun userId).state.humanUsers.map (·.authEpoch) = [1] := rfl
  have hempty : (seededRun userId).state.recoveryRequests = [] := rfl
  have hasks : ∃ next, (seededRun userId).pool 1 = .call (.createRecovery userId 1) next :=
    ⟨_, rfl⟩
  have hseeding : (seededRun userId).trace.map (·.tid) = [0, 0, 0] := rfl
  rcases Config.mem_move perform he with he | ⟨hpre, hperform, next, hcall⟩
  · have hmem := List.mem_map_of_mem (f := (·.tid)) he
    rw [hseeding, htid] at hmem
    exact absurd hmem (by decide)
  · obtain ⟨next', hcall'⟩ := hasks
    obtain ⟨hc, -⟩ := Program.call.inj (hcall.symm.trans hcall')
    refine ⟨⟨⟨sampleEnv 7, rfl, hperform, ?_⟩, ?_⟩, ?_⟩
    · rw [hc, hpre]
      intro r hr
      rw [hempty] at hr
      cases hr
    · rw [hpre]
      intro u hu
      have hmem := List.mem_map_of_mem (f := (·.authEpoch)) hu
      rw [hepochs, List.mem_singleton] at hmem
      omega
    · rw [hpre]
      exact hids

/-- A recovery of somebody who exists is not refused by `Store`. -/
theorem store_failure_iff_sample :
    ¬ Fallible.Fails ((requestOperations sampleOperator 1).code .default steadyEngine)
      (exchanges (requestRun sampleOperator).trace 1) .store := by
  refine ((store_failure_iff steadyEngine_serves ⟨_, requestRun_run sampleOperator⟩).2 1 rfl nofun
    fun e he htid => (requestRun_event he htid).1).2 fun e he htid _ hmisses => ?_
  obtain ⟨u, hu, hid⟩ := List.mem_map.1
    (List.mem_of_mem_head? (congrArg List.head? (requestRun_event he htid).2))
  have hexists : e.pre.hasUser sampleOperator.value = true := hasUser_iff.2 ⟨u, hu, hid⟩
  exact Bool.noConfusion (hexists.symm.trans hmisses)

/-- A valid id of nobody. -/
def sampleNobody : UserId := ⟨"nobody", by decide⟩

/-- **A recovery of nobody is refused by `Store`**, by a database that executes every statement. -/
theorem request_recovery_unavailable :
    steadyEngine.Serves ∧
    History .default steadyEngine (requestOperations sampleNobody) (requestRun sampleNobody).trace
      (requestRun sampleNobody).state ∧
    requestOperations sampleNobody 1 = .requestRecovery sampleNobody 1 ∧
    (∀ e ∈ (requestRun sampleNobody).trace, e.tid = 1 → Served e) ∧
    Fallible.Fails ((requestOperations sampleNobody 1).code .default steadyEngine)
      (exchanges (requestRun sampleNobody).trace 1) .store := by
  refine ⟨steadyEngine_serves, ⟨_, requestRun_run _⟩, rfl, fun e he htid =>
    (requestRun_event he htid).1, ?_⟩
  have hafter := (requestRun_run sampleNobody).after 1
  have hdone : (requestRun sampleNobody).pool 1 = .done (.error .store) := by rfl
  rw [hdone] at hafter
  exact hafter

end Sample

end RsConsole
