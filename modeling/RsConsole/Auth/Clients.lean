import RsConsole.Auth.Service

set_option autoImplicit false

/-! # What the clients of the store ask

The store performs whatever it is asked; what it is asked is a property of the service's programs.
For each call that creates or completes a ceremony: which operation asks it, with which arguments,
and what that operation had been answered before. -/

namespace RsConsole

open Library

abbrev AuthExchanges := List (Exchange AuthCall AuthCall.Answer)

/-- Among the exchanges `past` is the call `c`, answered with `a`. -/
def Answered (past : AuthExchanges) (c : AuthCall) (a : c.Reply) : Prop :=
  (⟨c, .ok a⟩ : Exchange AuthCall AuthCall.Answer) ∈ past

namespace AuthService

/-! ## Starting at the bootstrap endpoint -/

/-- A recovery window was open, or none was and no operator had a credential. -/
theorem returns_bootstrapCandidate {now : DateTime} {past : AuthExchanges}
    {candidate : User × Option SecretHash × CeremonyKind}
    (h : Fallible.Returns (bootstrapCandidate now) past candidate) :
    (∃ user hash, candidate = (user, some hash, .operatorRecovery) ∧
        past = [⟨.operatorRecoveryWindow now, .ok (some (user, hash))⟩]) ∨
      ∃ user, candidate = (user, none, .operatorBootstrap) ∧
        past = [⟨.operatorRecoveryWindow now, .ok none⟩,
          ⟨.operatorWithoutCredential, .ok (some user)⟩] := by
  rw [bootstrapCandidate, Fallible.returns_bind] at h
  obtain ⟨before, after, window, rfl, hwindow, hrest⟩ := h
  rw [returns_ask] at hwindow
  subst hwindow
  cases window with
  | some found =>
      obtain ⟨rfl, rfl⟩ := (Fallible.returns_pure _ _ _).1 hrest
      exact Or.inl ⟨found.1, found.2, rfl, rfl⟩
  | none =>
      simp only [Fallible.returns_bind, returns_ask, Fallible.returns_okOr,
        Fallible.returns_pure] at hrest
      obtain ⟨_, _, found, rfl, rfl, _, _, user, rfl, ⟨rfl, rfl⟩, rfl, rfl⟩ := hrest
      exact Or.inr ⟨user, rfl, rfl⟩

theorem asks_bootstrapCandidate {now : DateTime} {past : AuthExchanges} {c : AuthCall}
    (h : Fallible.Asks (bootstrapCandidate now) past c) :
    c = .operatorRecoveryWindow now ∨ c = .operatorWithoutCredential := by
  rw [bootstrapCandidate, Fallible.asks_bind] at h
  rcases h with h | ⟨before, after, window, -, -, hrest⟩
  · exact Or.inl ((asks_ask _ _ _).1 h).2
  · cases window with
    | some found => exact ((Fallible.asks_pure _ _ _).1 hrest).elim
    | none =>
        simp only [Fallible.asks_bind, asks_ask, Fallible.asks_okOr, Fallible.asks_pure] at hrest
        simp_all

/-! ## What each operation asks -/

section

variable {config : AuthConfig} {engine : CeremonyEngine} {past : AuthExchanges} {c : AuthCall}
  {now : DateTime} {token : SecretToken}

theorem asks_startOperatorBootstrap {seed : ℕ} {id : Uuid} :
    Fallible.Asks (startOperatorBootstrap config engine now seed id) past c ↔
      Fallible.Asks (bootstrapCandidate now) past c ∨
      ∃ user hash kind, Fallible.Returns (bootstrapCandidate now) past (user, hash, kind) ∧
        ∃ challenge state, engine.startRegistration seed user [] = .ok (challenge, state) ∧
          c = .insertCeremony ⟨id, kind, some user.id, hash, state, now + config.ceremonyTtl⟩ := by
  simp [startOperatorBootstrap]

theorem asks_finishRegistration {ceremonyId : Uuid} {kind : CeremonyKind} {response : Value} :
    Fallible.Asks (finishRegistration engine ceremonyId kind response now) past c ↔
      past = [] ∧ c = .ceremony ceremonyId kind now ∨
      ∃ ceremony, past = [⟨.ceremony ceremonyId kind now, .ok (some ceremony)⟩] ∧
        ∃ credential, engine.finishRegistration response ceremony.state = .ok credential ∧
          ∃ userId, ceremony.userId = some userId ∧
            c = .completeRegistration ceremony.id ceremony.capabilityHash credential now
              (registered userId kind) := by
  simp [finishRegistration]

theorem asks_startAuthentication {seed : ℕ} {id : Uuid} :
    Fallible.Asks (startAuthentication config engine now seed id) past c ↔
      ∃ challenge state,
        (past = [] ∧ engine.startAuthentication seed = .ok (challenge, state)) ∧
        c = .insertCeremony ⟨id, .authentication, none, none, state, now + config.ceremonyTtl⟩ := by
  simp [startAuthentication]

variable [Crates]

theorem asks_startSetupRegistration {purpose : CapabilityPurpose} {seed : ℕ} {id : Uuid} :
    Fallible.Asks (startSetupRegistration config engine token purpose now seed id) past c ↔
      past = [] ∧ c = .capability token.hash purpose now ∨
      ∃ after capability,
        past = ⟨.capability token.hash purpose now, .ok (some capability)⟩ :: after ∧
        (after = [] ∧ c = .userById capability.userId ∨
        ∃ after' user, after = ⟨.userById capability.userId, .ok (some user)⟩ :: after' ∧
          user.enabled = true ∧
          (after' = [] ∧ c = .credentialsForUser user.id ∨
          ∃ credentials, after' = [⟨.credentialsForUser user.id, .ok credentials⟩] ∧
            ∃ challenge state,
              engine.startRegistration seed user credentials = .ok (challenge, state) ∧
              c = .insertCeremony ⟨id, .registration, some user.id, some capability.tokenHash, state,
                now + config.ceremonyTtl⟩)) := by
  simp [startSetupRegistration]

theorem asks_finishAuthentication {ceremonyId : Uuid} {response : Value} {csrf : SecretToken}
    {id : Uuid} :
    Fallible.Asks (finishAuthentication config engine ceremonyId response now token csrf id) past c ↔
      past = [] ∧ c = .ceremony ceremonyId .authentication now ∨
      ∃ after ceremony,
        past = ⟨.ceremony ceremonyId .authentication now, .ok (some ceremony)⟩ :: after ∧
        ∃ handle, engine.authenticationUserHandle response = .ok handle ∧
          (after = [] ∧ c = .userByHandle handle ∨
          ∃ after' user, after = ⟨.userByHandle handle, .ok (some user)⟩ :: after' ∧
            user.enabled = true ∧
            (after' = [] ∧ c = .credentialsForUser user.id ∨
            ∃ credentials, after' = [⟨.credentialsForUser user.id, .ok credentials⟩] ∧
              ∃ verification,
                engine.finishAuthentication response ceremony.state credentials =
                  .ok verification ∧
                c = .completeAuthentication ceremonyId verification
                  (newSession config user now token csrf id) now (loggedIn user.id))) := by
  simp [finishAuthentication]

theorem asks_authenticateSession {csrf : Option SecretToken} :
    Fallible.Asks (authenticateSession config token csrf now) past c ↔
      past = [] ∧ c = .session token.hash now (now + config.sessionIdleTtl) := by
  simp [authenticateSession]

theorem asks_issueSessionCsrf {csrf : SecretToken} :
    Fallible.Asks (issueSessionCsrf config token now csrf) past c ↔
      past = [] ∧
        c = .rotateSessionCsrf token.hash csrf.hash now (now + config.sessionIdleTtl) := by
  simp [issueSessionCsrf]

theorem asks_issueRecoverySetup {recoveryId id : Uuid} {operatorId userId : UserId} :
    Fallible.Asks (issueRecoverySetup config recoveryId operatorId userId now token id) past c ↔
      past = [] ∧ c = .issueRecoverySetup recoveryId
        ⟨id, userId, .recoverySetup, token.hash, now + config.capabilityTtl⟩ operatorId now := by
  simp [issueRecoverySetup]

theorem asks_approveUserAndIssueSetup {operatorId userId : UserId} {email displayName : String}
    {handle id : Uuid} :
    Fallible.Asks (approveUserAndIssueSetup config operatorId userId email displayName now token
        handle id) past c ↔
      validPerson (trim email) (trim displayName) ∧
        (past = [] ∧ c = .userById userId ∨
        past = [⟨.userById userId, .ok none⟩] ∧
          c = .approveUserWithSetup
            ⟨userId, handle, trim email, trim displayName, .user, true, 1⟩
            ⟨id, userId, .setup, token.hash, now + config.capabilityTtl⟩ operatorId now) := by
  simp [approveUserAndIssueSetup]

end

end AuthService

/-! ## The operation behind a call -/

section

variable [Crates] {config : AuthConfig} {engine : CeremonyEngine} {op : Operation}
  {past : AuthExchanges}

/-- The operation, having exchanged `past`, asks `c`. -/
abbrev Operation.Asks (config : AuthConfig) (engine : CeremonyEngine) (op : Operation)
    (past : AuthExchanges) (c : AuthCall) : Prop :=
  Fallible.Asks (op.code config engine) past c

/-- How an operation comes to start a ceremony. -/
inductive Starts (op : Operation) (past : AuthExchanges) (ceremony : Ceremony) : Prop
  | registration (token : SecretToken) (purpose : CapabilityPurpose) (now : DateTime) (seed : ℕ)
      (capability : Capability) (user : User)
      (operation : op = .startSetupRegistration token purpose now seed ceremony.id)
      (found : Answered past (.capability token.hash purpose now) (some capability))
      (owner : Answered past (.userById capability.userId) (some user))
      (kind : ceremony.kind = .registration) (userId : ceremony.userId = some user.id)
      (capabilityHash : ceremony.capabilityHash = some capability.tokenHash)
  | operatorRecovery (now : DateTime) (seed : ℕ) (user : User) (hash : SecretHash)
      (operation : op = .startOperatorBootstrap now seed ceremony.id)
      (found : Answered past (.operatorRecoveryWindow now) (some (user, hash)))
      (kind : ceremony.kind = .operatorRecovery) (userId : ceremony.userId = some user.id)
      (capabilityHash : ceremony.capabilityHash = some hash)
  | operatorBootstrap (now : DateTime) (seed : ℕ) (user : User)
      (operation : op = .startOperatorBootstrap now seed ceremony.id)
      (found : Answered past .operatorWithoutCredential (some user))
      (kind : ceremony.kind = .operatorBootstrap) (userId : ceremony.userId = some user.id)
      (capabilityHash : ceremony.capabilityHash = none)
  | authentication (now : DateTime) (seed : ℕ)
      (operation : op = .startAuthentication now seed ceremony.id)
      (kind : ceremony.kind = .authentication) (userId : ceremony.userId = none)
      (capabilityHash : ceremony.capabilityHash = none)

/-- How an operation comes to complete a registration. -/
structure Registers (op : Operation) (past : AuthExchanges) (ceremonyId : Uuid)
    (capabilityHash : Option SecretHash) (now : DateTime) (audit : AuditEvent) : Prop where
  found : ∃ asked kind response ceremony userId,
    op = .finishRegistration asked kind response now ∧
      Answered past (.ceremony asked kind now) (some ceremony) ∧ ceremonyId = ceremony.id ∧
      capabilityHash = ceremony.capabilityHash ∧ ceremony.userId = some userId ∧
      audit = AuthService.registered userId kind

/-- How an operation comes to complete a login. -/
structure LogsIn (config : AuthConfig) (op : Operation) (past : AuthExchanges)
    (ceremonyId : Uuid) (session : SessionRecord) (now : DateTime) (audit : AuditEvent) : Prop where
  found : ∃ response token csrf id ceremony handle user credentials,
    op = .finishAuthentication ceremonyId response now token csrf id ∧
      past = [⟨.ceremony ceremonyId .authentication now, .ok (some ceremony)⟩,
        ⟨.userByHandle handle, .ok (some user)⟩,
        ⟨.credentialsForUser user.id, .ok credentials⟩] ∧
      user.enabled = true ∧ session = AuthService.newSession config user now token csrf id ∧
      audit = AuthService.loggedIn user.id

/-- Why a client asks a call that starts or completes a ceremony; no operation issues a capability
    by itself. -/
def Explained (config : AuthConfig) (op : Operation) (past : AuthExchanges) : AuthCall → Prop
  | .insertCeremony ceremony => Starts op past ceremony
  | .completeRegistration ceremonyId capabilityHash _ now audit =>
      Registers op past ceremonyId capabilityHash now audit
  | .completeAuthentication ceremonyId _ session now audit =>
      LogsIn config op past ceremonyId session now audit
  | .userByHandle _ => ∀ x ∈ past, ∃ id now, x.call = .ceremony id .authentication now
  | .insertCapability _ => False
  | _ => True

/-- How an operation comes to insert a user: it seeds an operator, after it was told that there is
    none. -/
structure Seeds (op : Operation) (past : AuthExchanges) (user : User) (now : DateTime)
    (audit : AuditEvent) : Prop where
  operation : ∃ email displayName handle, op = .seedOperator user.id email displayName now handle
  none : Answered past .operatorExists false
  role : user.role = .operator
  authEpoch : user.authEpoch = 1
  eventType : audit.eventType = "operator.seeded"
  subject : audit.subjectUserId = some user.id

/-- What an operation passes to the calls that `Explained` says nothing about. -/
def Passes (config : AuthConfig) (op : Operation) (past : AuthExchanges) : AuthCall → Prop
  | .insertUser user now audit => Seeds op past user now audit
  | .approveUserWithSetup user capability _ _ =>
      user.role = .user ∧ user.authEpoch = 1 ∧ capability.userId = user.id
  | .session hash now idleExpiresAt =>
      (∃ token csrf, op = .authenticateSession token csrf now ∧ hash = token.hash) ∧
        idleExpiresAt = now + config.sessionIdleTtl
  | .rotateSessionCsrf hash csrfHash now idleExpiresAt =>
      (∃ token csrf, op = .issueSessionCsrf token now csrf ∧ hash = token.hash ∧
        csrfHash = csrf.hash) ∧ idleExpiresAt = now + config.sessionIdleTtl
  | _ => True

/-- Why an operation asks a call, and with what arguments. -/
def Justified (config : AuthConfig) (op : Operation) (past : AuthExchanges) (c : AuthCall) : Prop :=
  Explained config op past c ∧ Passes config op past c

section Asks

variable {c : AuthCall}

theorem justified_startSetupRegistration {token : SecretToken} {purpose : CapabilityPurpose}
    {now : DateTime} {seed : ℕ} {id : Uuid}
    (h : (Operation.startSetupRegistration token purpose now seed id).Asks config engine past c) :
    Justified config (.startSetupRegistration token purpose now seed id) past c := by
  rcases AuthService.asks_startSetupRegistration.1 h with
    ⟨-, rfl⟩ | ⟨_, capability, rfl, ⟨-, rfl⟩ | ⟨_, user, rfl, -, h⟩⟩
  · exact ⟨trivial, trivial⟩
  · exact ⟨trivial, trivial⟩
  · rcases h with ⟨-, rfl⟩ | ⟨credentials, rfl, challenge, state, -, rfl⟩
    · exact ⟨trivial, trivial⟩
    · refine ⟨.registration token purpose now seed capability user rfl ?_ ?_ rfl rfl rfl, trivial⟩
      · exact List.mem_cons_self
      · exact List.mem_cons_of_mem _ List.mem_cons_self

theorem justified_startOperatorBootstrap {now : DateTime} {seed : ℕ} {id : Uuid}
    (h : (Operation.startOperatorBootstrap now seed id).Asks config engine past c) :
    Justified config (.startOperatorBootstrap now seed id) past c := by
  rcases AuthService.asks_startOperatorBootstrap.1 h with
    h | ⟨user, hash, kind, hcandidate, challenge, state, -, rfl⟩
  · rcases AuthService.asks_bootstrapCandidate h with rfl | rfl
    · exact ⟨trivial, trivial⟩
    · exact ⟨trivial, trivial⟩
  · rcases AuthService.returns_bootstrapCandidate hcandidate with
      ⟨user', hash', heq, rfl⟩ | ⟨user', heq, rfl⟩
    · cases heq
      exact ⟨.operatorRecovery now seed user hash' rfl List.mem_cons_self rfl rfl rfl, trivial⟩
    · cases heq
      exact ⟨.operatorBootstrap now seed user rfl (List.mem_cons_of_mem _ List.mem_cons_self) rfl
        rfl rfl, trivial⟩

theorem justified_finishRegistration {ceremonyId : Uuid} {kind : CeremonyKind} {response : Value}
    {now : DateTime}
    (h : (Operation.finishRegistration ceremonyId kind response now).Asks config engine past c) :
    Justified config (.finishRegistration ceremonyId kind response now) past c := by
  rcases AuthService.asks_finishRegistration.1 h with
    ⟨-, rfl⟩ | ⟨ceremony, rfl, credential, -, userId, huser, rfl⟩
  · exact ⟨trivial, trivial⟩
  · exact ⟨⟨ceremonyId, kind, response, ceremony, userId, rfl, List.mem_cons_self, rfl, rfl, huser,
      rfl⟩, trivial⟩

theorem justified_finishAuthentication {ceremonyId : Uuid} {response : Value} {now : DateTime}
    {token csrf : SecretToken} {id : Uuid}
    (h : (Operation.finishAuthentication ceremonyId response now token csrf id).Asks config engine
      past c) :
    Justified config (.finishAuthentication ceremonyId response now token csrf id) past c := by
  rcases AuthService.asks_finishAuthentication.1 h with
    ⟨-, rfl⟩ | ⟨_, ceremony, rfl, handle, -, ⟨rfl, rfl⟩ | ⟨_, user, rfl, henabled, h⟩⟩
  · exact ⟨trivial, trivial⟩
  · refine ⟨fun x hx => ?_, trivial⟩
    rw [List.mem_singleton] at hx
    subst hx
    exact ⟨ceremonyId, now, rfl⟩
  · rcases h with ⟨-, rfl⟩ | ⟨credentials, rfl, verification, -, rfl⟩
    · exact ⟨trivial, trivial⟩
    · exact ⟨⟨response, token, csrf, id, ceremony, handle, user, credentials, rfl, rfl, henabled,
        rfl, rfl⟩, trivial⟩

theorem justified_seedOperator {userId : UserId} {email displayName : String} {now : DateTime}
    {handle : Uuid}
    (h : (Operation.seedOperator userId email displayName now handle).Asks config engine past c) :
    Justified config (.seedOperator userId email displayName now handle) past c := by
  simp [Operation.Asks, Operation.code, AuthService.seedOperator] at h
  obtain ⟨-, h⟩ := h
  rcases h with ⟨-, rfl⟩ | ⟨_, rfl, ⟨-, rfl⟩ | ⟨rfl, rfl⟩⟩
  · exact ⟨trivial, trivial⟩
  · exact ⟨trivial, trivial⟩
  · refine ⟨trivial, ⟨email, displayName, handle, rfl⟩, ?_, rfl, rfl, rfl, rfl⟩
    exact List.mem_cons_of_mem _ List.mem_cons_self

/-- **What the store is asked, and why.** -/
theorem justified_of_asks (h : op.Asks config engine past c) : Justified config op past c := by
  cases op with
  | startSetupRegistration => exact justified_startSetupRegistration h
  | startOperatorBootstrap => exact justified_startOperatorBootstrap h
  | finishRegistration => exact justified_finishRegistration h
  | finishAuthentication => exact justified_finishAuthentication h
  | startAuthentication now seed id =>
      obtain ⟨challenge, state, -, rfl⟩ := AuthService.asks_startAuthentication.1 h
      exact ⟨.authentication now seed rfl rfl rfl rfl, trivial⟩
  | authenticateSession token csrf =>
      obtain ⟨-, rfl⟩ := AuthService.asks_authenticateSession.1 h
      exact ⟨trivial, ⟨token, csrf, rfl, rfl⟩, rfl⟩
  | issueSessionCsrf token now csrf =>
      obtain ⟨-, rfl⟩ := AuthService.asks_issueSessionCsrf.1 h
      exact ⟨trivial, ⟨token, csrf, rfl, rfl, rfl⟩, rfl⟩
  -- what is left asks the store once, with no capability, ceremony or credential in its call
  | logout =>
      obtain ⟨-, rfl⟩ := (asks_ask _ _ _).1 h
      exact ⟨trivial, trivial⟩
  | requestRecovery =>
      obtain ⟨-, rfl⟩ := (asks_ask _ _ _).1 h
      exact ⟨trivial, trivial⟩
  | pendingRecoveries =>
      obtain ⟨-, rfl⟩ := (asks_ask _ _ _).1 h
      exact ⟨trivial, trivial⟩
  | approveRecovery =>
      obtain ⟨-, rfl⟩ := (asks_ask _ _ _).1 h
      exact ⟨trivial, trivial⟩
  | issueRecoverySetup =>
      obtain ⟨-, rfl⟩ := AuthService.asks_issueRecoverySetup.1 h
      exact ⟨trivial, trivial⟩
  | approveUserAndIssueSetup =>
      rcases (AuthService.asks_approveUserAndIssueSetup.1 h).2 with ⟨-, rfl⟩ | ⟨-, rfl⟩
      · exact ⟨trivial, trivial⟩
      · exact ⟨trivial, rfl, rfl, rfl⟩
  | seedOperator => exact justified_seedOperator h
  | rotateAllAuthEpochs =>
      simp [Operation.Asks, Operation.code, AuthService.rotateAllAuthEpochs] at h
      obtain ⟨-, -, rfl⟩ := h
      exact ⟨trivial, trivial⟩
  | breakGlass =>
      obtain ⟨-, rfl⟩ := (asks_ask _ _ _).1 h
      exact ⟨trivial, trivial⟩

theorem explained_of_asks (h : op.Asks config engine past c) : Explained config op past c :=
  (justified_of_asks h).1

theorem passes_of_asks (h : op.Asks config engine past c) : Passes config op past c :=
  (justified_of_asks h).2

end Asks

end

end RsConsole
