import RsConsole.Library.Teams
import RsConsole.Server.Commands
import RsConsole.Server.Passkeys
import RsConsole.Server.Requests

set_option autoImplicit false

/-! # The whole console

The clients of the database are the requests to the two listeners and the commands of the operator's
machine, in any number and at the same time. A handler runs at most two operations of the service:
the check of the session, and then an operation that may depend on whose session it was. So a run of
the console is, event by event, a run of the operations that its clients choose (`console_runs`), with
arguments that the handlers and commands have checked. -/

namespace RsConsole

open Library Library.Fallible Database PgAuthStore Http

variable {τ : Type}

/-! ## Which operations a client runs -/

/-- What stands for an operation that is not run. -/
def orIdle (operation : Option Operation) : Operation := operation.getD .pendingRecoveries

theorem orIdle_guard {p : Prop} [Decidable p] (hp : p) (operation : Unit → Option Operation) :
    orIdle (guard p >>= operation) = orIdle (operation ()) := by
  rw [guard, if_pos hp]
  rfl

namespace Http

variable [HttpCrates] (state : AppState) (request : HttpRequest) (draws : Draws)

/-- The check of an operator's session. -/
def checkOperation (csrfRequired : Bool) : Operation := orIdle do
  let (token, csrf) ← Except.toOption <|
    if csrfRequired then (sessionAndCsrf request.headers).map fun tokens => (tokens.1, some tokens.2)
    else (sessionToken request.headers).map fun token => (token, none)
  pure (.authenticateSession token csrf draws.checkedAt)

/-- The operation of a handler that checks no session first. -/
def Endpoint.operation : Endpoint → Operation
  | .publicCapabilities => orIdle do
      let token ← (sessionToken request.headers).toOption
      pure (.authenticateSession token none draws.now)
  | .sessionDiscovery => orIdle do
      let token ← (sessionToken request.headers).toOption
      pure (.issueSessionCsrf token draws.now draws.csrf)
  | .loginStart => .startAuthentication draws.now draws.seed draws.id
  | .loginFinish => orIdle do
      let body ← (HttpCrates.ceremonyFinish request).toOption
      pure (.finishAuthentication body.ceremonyId body.credential draws.now draws.token draws.csrf
        draws.id)
  | .logout => orIdle do
      let (token, csrf) ← (sessionAndCsrf request.headers).toOption
      pure (.authenticateSession token (some csrf) draws.checkedAt)
  | .setupStart => orIdle do
      let body ← (HttpCrates.setupStart request).toOption
      let token ← (SecretToken.parse body.setupToken).toOption
      pure (.startSetupRegistration token (if body.recovery then .recoverySetup else .setup)
        draws.now draws.seed draws.id)
  | .setupFinish => orIdle do
      let body ← (HttpCrates.ceremonyFinish request).toOption
      pure (.finishRegistration body.ceremonyId .registration body.credential draws.now)
  | .recoveryRequest => orIdle do
      let body ← (HttpCrates.recoveryRequestBody request).toOption
      let userId ← (userIdOf body.userId).toOption
      pure (.requestRecovery userId draws.now)
  | .operatorBootstrapStart => .startOperatorBootstrap draws.now draws.seed draws.id
  | .operatorBootstrapFinish => orIdle do
      let body ← (HttpCrates.ceremonyFinish request).toOption
      let kind := body.ceremonyKind.getD .operatorBootstrap
      guard (kind = .operatorBootstrap ∨ kind = .operatorRecovery)
      pure (.finishRegistration body.ceremonyId kind body.credential draws.now)
  | .pendingRecoveries => checkOperation request draws false
  | .approveRecovery => checkOperation request draws true
  | .issueRecoverySetup => checkOperation request draws true
  | .approveUser => checkOperation request draws true
  | .operatorCapabilities => checkOperation request draws false
  | .live => orIdle none
  | .ready => orIdle none

/-- The operation of a handler after it has found the session of `userId`. -/
def Endpoint.operationFor (userId : UserId) : Endpoint → Operation
  | .logout => orIdle do
      let (token, _) ← (sessionAndCsrf request.headers).toOption
      pure (.logout token)
  | .pendingRecoveries => .pendingRecoveries
  | .approveRecovery => orIdle do
      let id ← (HttpCrates.pathId request).toOption
      pure (.approveRecovery id userId draws.now)
  | .issueRecoverySetup => orIdle do
      let id ← (HttpCrates.pathId request).toOption
      let body ← (HttpCrates.recoverySetupBody request).toOption
      let owner ← (userIdOf body.userId).toOption
      pure (.issueRecoverySetup id userId owner draws.now draws.token draws.id)
  | .approveUser => orIdle do
      let body ← (HttpCrates.approveUserBody request).toOption
      let newUser ← (userIdOf body.userId).toOption
      pure (.approveUserAndIssueSetup userId newUser body.email body.displayName draws.now draws.token
        draws.handle draws.id)
  | _ => orIdle none

end Http

/-- The operations of a request: the first one, and one for every user whose session it may be. -/
def Visit.operation [HttpCrates] (visit : Visit) : Option UserId → Operation
  | none => orIdle (visit.endpoint.map (·.operation visit.request visit.draws))
  | some userId => orIdle (visit.endpoint.map (·.operationFor visit.request visit.draws userId))

/-- The operation of a command, once its gates are passed. -/
def Cli.operation [Crates] (cli : Cli) (host : Host) : Operation :=
  match cli.command with
  | .serve _ => orIdle none
  | .breakGlass args => orIdle do
      guard (¬ (trim args.reason).utf8ByteSize < 12)
      guard (1 ≤ args.windowMinutes ∧ args.windowMinutes ≤ 15)
      let userId ← (operatorId args.operatorUserId).toOption
      pure (.breakGlass args.revokeCredential (recoveryCapability userId args.windowMinutes host)
        host.now (trim args.reason))
  | .seedOperator args => orIdle do
      let userId ← (operatorId args.operatorUserId).toOption
      pure (.seedOperator userId args.email args.displayName host.now host.handle)
  | .rotateAuthEpoch args => .rotateAllAuthEpochs host.now args.reason

/-! ## Handlers and commands as teams -/

section Teams

variable [Crates] {config : AuthConfig} {engine : CeremonyEngine} {κ : Type} [DecidableEq κ]
  {ops : κ → Operation}
  {team : (k : κ) → Program AuthCall AuthCall.Answer (Except AuthError (ops k).Result)}

/-- A member's operation, and then the rest with the other members as they were. -/
theorem delegated_operation {β : Type} (k : κ) (op : Operation) {f : op.Result → Auth β}
    (hop : ops k = op) (hteam : team k = (ops k).program config engine)
    (hrest : ∀ a, ∀ team' : (k : κ) → Program AuthCall AuthCall.Answer
        (Except AuthError (ops k).Result), (∀ k', k' ≠ k → team' k' = team k') →
      DelegatedBy team' (f a)) : DelegatedBy team (op.code config engine >>= f) := by
  subst hop
  exact delegated_bind k hteam fun a => hrest a _ fun k' hk' => Function.update_of_ne hk' _ _

theorem delegated_attempt_operation {β : Type} (k : κ) (op : Operation)
    {f : Except AuthError op.Result → Auth β} (hop : ops k = op)
    (hteam : team k = (ops k).program config engine)
    (hrest : ∀ r, ∀ team' : (k : κ) → Program AuthCall AuthCall.Answer
        (Except AuthError (ops k).Result), DelegatedBy team' (f r)) :
    DelegatedBy team (attempt (op.code config engine) >>= f) := by
  subst hop
  exact delegated_attempt k hteam fun r => hrest r _

end Teams

section Handlers

variable [Crates] [HttpCrates] {state : AppState} {request : HttpRequest} {draws : Draws}
  {ops : Option UserId → Operation}
  {team : (k : Option UserId) → Program AuthCall AuthCall.Answer (Except AuthError (ops k).Result)}

omit [Crates] [HttpCrates] in
theorem delegated_extract {T : Type} {extracted : Except ℕ T} {handler : T → Auth Reply}
    (h : ∀ value, extracted = .ok value → DelegatedBy team (handler value)) :
    DelegatedBy team (extract extracted handler) := by
  cases extracted with
  | error status => exact delegated_pure team _
  | ok value => exact h value rfl

/-- The check of an operator's session is the first operation. -/
theorem delegated_operator {csrfRequired : Bool} {rest : SessionPrincipal → Auth Reply}
    (hop : ops none = checkOperation request draws csrfRequired)
    (hteam : team none = (ops none).program state.config state.engine)
    (hrest : ∀ principal, ∀ team' : (k : Option UserId) → Program AuthCall AuthCall.Answer
        (Except AuthError (ops k).Result), (∀ k', k' ≠ none → team' k' = team k') →
      DelegatedBy team' (rest principal)) :
    DelegatedBy team (operator state request.headers csrfRequired draws.checkedAt >>= rest) := by
  rw [operator, Fallible.bind_assoc]
  refine delegated_ofExcept fun tokens htokens => ?_
  rw [checkOperation, htokens] at hop
  rw [Fallible.bind_assoc]
  refine delegated_operation none (.authenticateSession tokens.1 tokens.2 draws.checkedAt) hop hteam
    fun principal team' hothers => ?_
  rw [Fallible.bind_assoc]
  exact delegated_ensure fun _ => hrest principal team' hothers

theorem delegated_optionalSession {rest : Option SessionPrincipal → Auth Reply}
    (hop : ops none = Endpoint.publicCapabilities.operation request draws)
    (hteam : team none = (ops none).program state.config state.engine)
    (hrest : ∀ found, ∀ team' : (k : Option UserId) → Program AuthCall AuthCall.Answer
        (Except AuthError (ops k).Result), DelegatedBy team' (rest found)) :
    DelegatedBy team (optionalSession state request.headers draws.now >>= rest) := by
  rw [optionalSession]
  cases hvalue : cookieValue request.headers sessionCookie with
  | none => exact hrest none team
  | some value =>
      rw [Fallible.bind_assoc]
      refine delegated_ofExcept fun token htoken => ?_
      have hsession : sessionToken request.headers = .ok token := by
        rw [sessionToken, hvalue]
        exact htoken
      rw [Endpoint.operation, hsession] at hop
      rw [Fallible.bind_assoc]
      refine delegated_attempt_operation none (.authenticateSession token none draws.now) hop hteam
        fun r team' => ?_
      cases r with
      | ok principal => exact hrest (some principal) team'
      | error e =>
          cases e with
          | unauthenticated => exact hrest none team'
          | _ => exact delegated_throw team' _

/-- **A handler delegates to its operations.** -/
theorem delegated_handle (endpoint : Endpoint)
    (hfirst : ops none = endpoint.operation request draws)
    (hthen : ∀ userId, ops (some userId) = endpoint.operationFor request draws userId)
    (hteam : ∀ k, team k = (ops k).program state.config state.engine) :
    DelegatedBy team (handle state request draws endpoint) := by
  have hsecond : ∀ {team' : (k : Option UserId) → Program AuthCall AuthCall.Answer
      (Except AuthError (ops k).Result)} (userId : UserId),
      (∀ k', k' ≠ none → team' k' = team k') →
      team' (some userId) = (ops (some userId)).program state.config state.engine :=
    fun userId hothers => (hothers _ (Option.some_ne_none userId)).trans (hteam _)
  cases endpoint with
  | live => exact delegated_pure team _
  | ready => exact delegated_pure team _
  | publicCapabilities =>
      refine delegated_optionalSession hfirst (hteam none) fun found team' => ?_
      cases found with
      | none => exact delegated_pure team' _
      | some principal => exact delegated_pure team' _
  | sessionDiscovery =>
      change DelegatedBy team (sessionDiscovery state request draws)
      rw [sessionDiscovery]
      cases hvalue : cookieValue request.headers sessionCookie with
      | none => exact delegated_pure team _
      | some value =>
          refine delegated_ofExcept fun token htoken => ?_
          have hsession : sessionToken request.headers = .ok token := by
            rw [sessionToken, hvalue]
            exact htoken
          rw [Endpoint.operation, hsession] at hfirst
          refine delegated_attempt_operation none (.issueSessionCsrf token draws.now draws.csrf)
            hfirst (hteam none) fun r team' => ?_
          cases r with
          | ok granted => exact delegated_pure team' _
          | error e =>
              cases e with
              | unauthenticated => exact delegated_pure team' _
              | _ => exact delegated_throw team' _
  | loginStart =>
      refine delegated_ofExcept fun _ _ => ?_
      exact delegated_operation none (.startAuthentication draws.now draws.seed draws.id) hfirst
        (hteam none) fun started team' _ => delegated_pure team' _
  | loginFinish =>
      refine delegated_extract fun body hbody => delegated_ofExcept fun _ _ => ?_
      rw [Endpoint.operation, hbody] at hfirst
      refine delegated_operation none (.finishAuthentication body.ceremonyId body.credential draws.now
        draws.token draws.csrf draws.id) hfirst (hteam none) fun granted team' _ => ?_
      exact delegated_okOr fun cookie _ => delegated_pure team' _
  | logout =>
      refine delegated_ofExcept fun _ _ => delegated_ofExcept fun tokens htokens => ?_
      rw [Endpoint.operation, htokens] at hfirst
      refine delegated_operation none (.authenticateSession tokens.1 (some tokens.2) draws.checkedAt)
        hfirst (hteam none) fun principal team' hothers => ?_
      have hlogout := hthen principal.user.id
      rw [Endpoint.operationFor, htokens] at hlogout
      exact delegated_operation (some principal.user.id) (.logout tokens.1) hlogout
        (hsecond _ hothers) fun _ team'' _ => delegated_pure team'' _
  | setupStart =>
      refine delegated_extract fun body hbody => delegated_ofExcept fun _ _ => ?_
      refine delegated_ofExcept fun token htoken => ?_
      rw [Endpoint.operation, hbody] at hfirst
      change ops none = orIdle ((SecretToken.parse body.setupToken).toOption.bind _) at hfirst
      rw [htoken] at hfirst
      exact delegated_operation none (.startSetupRegistration token
        (if body.recovery then .recoverySetup else .setup) draws.now draws.seed draws.id) hfirst
        (hteam none) fun started team' _ => delegated_pure team' _
  | setupFinish =>
      refine delegated_extract fun body hbody => delegated_ofExcept fun _ _ => ?_
      rw [Endpoint.operation, hbody] at hfirst
      exact delegated_operation none
        (.finishRegistration body.ceremonyId .registration body.credential draws.now) hfirst
        (hteam none) fun _ team' _ => delegated_pure team' _
  | recoveryRequest =>
      refine delegated_extract fun body hbody => delegated_ofExcept fun _ _ => ?_
      refine delegated_ofExcept fun userId huser => ?_
      rw [Endpoint.operation, hbody] at hfirst
      change ops none = orIdle ((userIdOf body.userId).toOption.bind _) at hfirst
      rw [huser] at hfirst
      exact delegated_operation none (.requestRecovery userId draws.now) hfirst (hteam none)
        fun recovery team' _ => delegated_pure team' _
  | operatorBootstrapStart =>
      refine delegated_ofExcept fun _ _ => ?_
      exact delegated_operation none (.startOperatorBootstrap draws.now draws.seed draws.id) hfirst
        (hteam none) fun started team' _ => delegated_pure team' _
  | operatorBootstrapFinish =>
      refine delegated_extract fun body hbody => delegated_ofExcept fun _ _ => ?_
      refine delegated_ensure fun hkind => ?_
      rw [Endpoint.operation, hbody] at hfirst
      have hop := hfirst.trans (orIdle_guard hkind _)
      exact delegated_operation none (.finishRegistration body.ceremonyId
        (body.ceremonyKind.getD .operatorBootstrap) body.credential draws.now) hop (hteam none)
        fun _ team' _ => delegated_pure team' _
  | pendingRecoveries =>
      refine delegated_operator hfirst (hteam none) fun principal team' hothers => ?_
      exact delegated_operation (some principal.user.id) .pendingRecoveries (hthen _)
        (hsecond _ hothers) fun recoveries team'' _ => delegated_pure team'' _
  | approveRecovery =>
      refine delegated_extract fun id hid => delegated_ofExcept fun _ _ => ?_
      refine delegated_operator hfirst (hteam none) fun principal team' hothers => ?_
      have happrove := hthen principal.user.id
      rw [Endpoint.operationFor, hid] at happrove
      exact delegated_operation (some principal.user.id)
        (.approveRecovery id principal.user.id draws.now) happrove (hsecond _ hothers)
        fun _ team'' _ => delegated_pure team'' _
  | issueRecoverySetup =>
      refine delegated_extract fun id hid => delegated_extract fun body hbody => ?_
      refine delegated_ofExcept fun _ _ => ?_
      refine delegated_operator hfirst (hteam none) fun principal team' hothers => ?_
      refine delegated_ofExcept fun userId huser => ?_
      have hissue := hthen principal.user.id
      rw [Endpoint.operationFor, hid, hbody] at hissue
      change ops (some _) = orIdle ((userIdOf body.userId).toOption.bind _) at hissue
      rw [huser] at hissue
      exact delegated_operation (some principal.user.id) (.issueRecoverySetup id principal.user.id
        userId draws.now draws.token draws.id) hissue (hsecond _ hothers)
        fun token team'' _ => delegated_pure team'' _
  | approveUser =>
      refine delegated_extract fun body hbody => delegated_ofExcept fun _ _ => ?_
      refine delegated_operator hfirst (hteam none) fun principal team' hothers => ?_
      refine delegated_ofExcept fun userId huser => ?_
      have happrove := hthen principal.user.id
      rw [Endpoint.operationFor, hbody] at happrove
      change ops (some _) = orIdle ((userIdOf body.userId).toOption.bind _) at happrove
      rw [huser] at happrove
      exact delegated_operation (some principal.user.id) (.approveUserAndIssueSetup principal.user.id
        userId body.email body.displayName draws.now draws.token draws.handle draws.id) happrove
        (hsecond _ hothers) fun token team'' _ => delegated_pure team'' _
  | operatorCapabilities =>
      exact delegated_operator hfirst (hteam none) fun principal team' _ => delegated_pure team' _

end Handlers

/-! ## Clients -/

/-- A request to one of the listeners, or a command of the operator's machine. -/
inductive Client where
  | visit (visit : Visit)
  | command (cli : Cli) (host : Host)

namespace Client

/-- What the client gets. -/
def Result : Client → Type
  | visit _ => Reply
  | command .. => Except CommandError (Option AppState)

section

variable [Crates] [HttpCrates]

/-- The operations of a client. A command has one. -/
def operation : Client → Option UserId → Operation
  | visit v, k => v.operation k
  | command cli host, _ => cli.operation host

variable [WebauthnCrates] (state : AppState)

def program : (client : Client) → Program AuthCall AuthCall.Answer client.Result
  | visit v => v.program state
  | command cli host => (cli.main host).run

end

end Client

section Refinement

variable [Crates] [HttpCrates] [WebauthnCrates] {state : AppState}

omit [HttpCrates] [WebauthnCrates] in
theorem delegated_orExit {ops : Option UserId → Operation} (op : Operation) (hop : ops none = op) :
    DelegatedBy (fun k => (ops k).program state.config state.engine)
      (orExit (op.code state.config state.engine)) := by
  subst hop
  exact Delegated.member none rfl

omit [HttpCrates] in
/-- **A command delegates to its operation.** -/
theorem delegated_command {ops : Option UserId → Operation} {cli : Cli} {host : Host}
    (hop : ops none = cli.operation host) :
    DelegatedBy (fun k => (ops k).program state.config state.engine) (cli.main host) := by
  refine delegated_ofExcept fun url _ => ?_
  cases hcommand : cli.command with
  | serve args => exact delegated_ofExcept fun state' _ => delegated_pure _ _
  | breakGlass args =>
      rw [Cli.operation, hcommand] at hop
      refine delegated_map (delegated_ensure fun _ => delegated_ensure fun hreason => ?_) _
      refine delegated_ensure fun hwindow => delegated_ofExcept fun userId huser => ?_
      have hop := (hop.trans (orIdle_guard hreason _)).trans (orIdle_guard hwindow _)
      rw [huser] at hop
      refine delegated_ofExcept fun _ _ => ?_
      exact delegated_orExit (.breakGlass args.revokeCredential
        (Cli.recoveryCapability userId args.windowMinutes host) host.now (trim args.reason)) hop
  | seedOperator args =>
      rw [Cli.operation, hcommand] at hop
      refine delegated_map (delegated_ensure fun _ => delegated_ofExcept fun userId huser => ?_) _
      change ops none = orIdle ((Cli.operatorId args.operatorUserId).toOption.bind _) at hop
      rw [huser] at hop
      refine delegated_ofExcept fun _ _ => delegated_ofExcept fun _ _ => ?_
      refine delegated_ofExcept fun _ _ => ?_
      exact delegated_orExit
        (.seedOperator userId args.email args.displayName host.now host.handle) hop
  | rotateAuthEpoch args =>
      rw [Cli.operation, hcommand] at hop
      refine delegated_map (delegated_ensure fun _ => delegated_ofExcept fun _ _ => ?_) _
      exact delegated_ofExcept fun _ _ =>
        delegated_orExit (.rotateAllAuthEpochs host.now args.reason) hop

omit [WebauthnCrates] in
theorem delegated_visit (visit : Visit) :
    Delegated (fun k => (visit.operation k).program state.config state.engine)
      (visit.program state) := by
  rw [Visit.program, Http.serve]
  cases hendpoint : endpointOf visit.request visit.listener.router with
  | none => exact .done _ _
  | some endpoint =>
      have hfound : visit.endpoint = some endpoint := hendpoint
      have hhandle : DelegatedBy (fun k => (visit.operation k).program state.config state.engine)
          (handle state visit.request visit.draws endpoint) := by
        refine delegated_handle endpoint ?_ (fun userId => ?_) fun k => rfl
        · rw [Visit.operation, hfound]
          rfl
        · rw [Visit.operation, hfound]
          rfl
      refine Delegated.andThen hhandle fun r => ?_
      cases r with
      | ok reply => exact ⟨reply, rfl⟩
      | error e => exact ⟨.ofError e, rfl⟩

theorem Client.delegated (client : Client) :
    Delegated (fun k => (client.operation k).program state.config state.engine)
      (client.program state) := by
  cases client with
  | visit v => exact delegated_visit v
  | command cli host => exact delegated_command rfl

end Refinement

/-! ## What is checked before an operation runs -/

/-- What handlers and commands see to before they run an operation. -/
def Operation.Checked : Operation → Prop
  | .startSetupRegistration _ purpose _ _ _ => purpose = .setup ∨ purpose = .recoverySetup
  | .finishRegistration _ kind _ _ => kind ≠ .authentication
  | .breakGlass _ opened now reason =>
      opened.purpose = .operatorRecovery ∧ now + minutes 1 ≤ opened.expiresAt ∧
        opened.expiresAt ≤ now + minutes 15 ∧ 12 ≤ reason.utf8ByteSize
  | _ => True

theorem orIdle_bind_checked {α : Type} {o : Option α} {operation : α → Option Operation}
    (h : ∀ a, (orIdle (operation a)).Checked) : (orIdle (o >>= operation)).Checked := by
  cases o with
  | none => trivial
  | some a => exact h a

theorem orIdle_guard_checked {p : Prop} [Decidable p] {operation : Unit → Option Operation}
    (h : p → (orIdle (operation ())).Checked) : (orIdle (guard p >>= operation)).Checked := by
  by_cases hp : p
  · rw [orIdle_guard hp]
    exact h hp
  · rw [guard, if_neg hp]
    trivial

section Checked

variable [HttpCrates] {request : HttpRequest} {draws : Draws}

theorem Http.checkOperation_checked (csrfRequired : Bool) :
    (checkOperation request draws csrfRequired).Checked :=
  orIdle_bind_checked fun _ => trivial

theorem Http.Endpoint.operation_checked (endpoint : Endpoint) :
    (endpoint.operation request draws).Checked := by
  cases endpoint with
  | setupStart =>
      refine orIdle_bind_checked fun body => orIdle_bind_checked fun token => ?_
      cases hrecovery : body.recovery with
      | true => exact Or.inr rfl
      | false => exact Or.inl rfl
  | setupFinish => exact orIdle_bind_checked fun body => CeremonyKind.noConfusion
  | operatorBootstrapFinish =>
      refine orIdle_bind_checked fun body => orIdle_guard_checked fun hkind => ?_
      rcases hkind with hkind | hkind
      · exact fun hother => CeremonyKind.noConfusion (hkind.symm.trans hother)
      · exact fun hother => CeremonyKind.noConfusion (hkind.symm.trans hother)
  | pendingRecoveries => exact checkOperation_checked false
  | approveRecovery => exact checkOperation_checked true
  | issueRecoverySetup => exact checkOperation_checked true
  | approveUser => exact checkOperation_checked true
  | operatorCapabilities => exact checkOperation_checked false
  | recoveryRequest =>
      exact orIdle_bind_checked fun body => orIdle_bind_checked fun userId => trivial
  | publicCapabilities => exact orIdle_bind_checked fun _ => trivial
  | sessionDiscovery => exact orIdle_bind_checked fun _ => trivial
  | loginFinish => exact orIdle_bind_checked fun _ => trivial
  | logout => exact orIdle_bind_checked fun _ => trivial
  | _ => trivial

theorem Http.Endpoint.operationFor_checked (endpoint : Endpoint) (userId : UserId) :
    (endpoint.operationFor request draws userId).Checked := by
  cases endpoint with
  | logout => exact orIdle_bind_checked fun _ => trivial
  | approveRecovery => exact orIdle_bind_checked fun _ => trivial
  | issueRecoverySetup =>
      refine orIdle_bind_checked fun id => orIdle_bind_checked fun body => ?_
      exact orIdle_bind_checked fun owner => trivial
  | approveUser => exact orIdle_bind_checked fun body => orIdle_bind_checked fun newUser => trivial
  | _ => trivial

theorem Visit.operation_checked (visit : Visit) (k : Option UserId) :
    (visit.operation k).Checked := by
  cases hendpoint : visit.endpoint with
  | none =>
      cases k with
      | none =>
          rw [Visit.operation, hendpoint]
          trivial
      | some userId =>
          rw [Visit.operation, hendpoint]
          trivial
  | some endpoint =>
      cases k with
      | none =>
          rw [Visit.operation, hendpoint]
          exact endpoint.operation_checked
      | some userId =>
          rw [Visit.operation, hendpoint]
          exact endpoint.operationFor_checked userId

omit [HttpCrates] in
theorem Cli.operation_checked [Crates] (cli : Cli) (host : Host) : (cli.operation host).Checked := by
  rw [Cli.operation]
  cases cli.command with
  | serve args => trivial
  | breakGlass args =>
      refine orIdle_guard_checked fun hreason => orIdle_guard_checked fun hwindow => ?_
      refine orIdle_bind_checked fun userId => ⟨rfl, ?_, ?_, Nat.le_of_not_lt hreason⟩
      · exact Int.add_le_add_left (Int.mul_le_mul_of_nonneg_right hwindow.1 (by decide)) host.now
      · exact Int.add_le_add_left (Int.mul_le_mul_of_nonneg_right hwindow.2 (by decide)) host.now
  | seedOperator args => exact orIdle_bind_checked fun _ => trivial
  | rotateAuthEpoch args => trivial

theorem Client.operation_checked [Crates] (client : Client) (k : Option UserId) :
    (client.operation k).Checked := by
  cases client with
  | visit v => exact v.operation_checked k
  | command cli host => exact cli.operation_checked host

end Checked

/-- A run of the console's clients, from an empty database. -/
def ConsoleRun [DecidableEq τ] [Crates] [HttpCrates] [WebauthnCrates] (state : AppState)
    (clients : τ → Client) (tr : List (AuthEvent τ)) (db : Database) : Prop :=
  StoreRun (fun t => (clients t).program state) tr db

/-- **The console runs operations of the service, and nothing else.** In any run of requests and
    commands the same store calls are made, with the same answers and on the same states, as in a run
    of operations whose arguments have been checked. -/
theorem console_runs [DecidableEq τ] [Crates] [HttpCrates] [WebauthnCrates] {state : AppState}
    {clients : τ → Client} {tr : List (AuthEvent τ)} {db : Database}
    (h : ConsoleRun state clients tr db) :
    ∃ tr', History state.config state.engine
        (fun m : τ × Option UserId => (clients m.1).operation m.2) tr' db ∧
      tr'.map (Event.forClient Prod.fst) = tr ∧
      ∀ t k, ((clients t).operation k).Checked := by
  obtain ⟨pool, run⟩ := h
  obtain ⟨tr', pool', run', htrace, -⟩ := run.split fun t => (clients t).delegated
  exact ⟨tr', ⟨pool', run'⟩, htrace, fun t k => (clients t).operation_checked k⟩

section Sample

attribute [local instance] Reference.crates sampleWebauthn

/-- The body of a request, if it is one of the given texts. -/
def sampleBody {T : Type} (texts : List (String × T)) (request : HttpRequest) : Except ℕ T :=
  match texts.find? fun text => asBytes text.1 = request.body with
  | some text => .ok text.2
  | none => .error 400

/-- The crates on the requests of one console. -/
@[reducible] def consoleHttp : HttpCrates where
  toStr := sampleHttp.toStr
  fromStr text := some (asBytes text)
  urlDecode text := Reference.base64Decode (asBytes (text ++ "="))
  urlEncode bytes :=
    String.ofList (((Reference.base64Encode bytes).map fun byte => Char.ofNat byte.toNat).filter
      (· ≠ '='))
  dateTimeText _ := ""
  matchesPath route path := route = path
  pathId _ := .error 400
  ceremonyFinish := sampleBody
    [("\x7b\"ceremony_id\":\"00000000-0000-0000-0000-00000000000a\",\"credential\":\"5\"\x7d",
        ⟨10, .string "5", none⟩),
      ("\x7b\"ceremony_id\":\"00000000-0000-0000-0000-00000000000b\",\"credential\":\"6\"\x7d",
        ⟨11, .string "6", none⟩)]
  setupStart _ := .error 400
  recoveryRequestBody _ := .error 400
  recoverySetupBody _ := .error 400
  approveUserBody := sampleBody
    [("\x7b\"user_id\":\"nobody\",\"email\":\"user@example.com\",\"display_name\":\"User\"\x7d",
        ⟨"nobody", "user@example.com", "User"⟩)]

attribute [local instance] consoleHttp

def consoleState : AppState where
  config := .default
  engine := webauthnEngine ()
  browserOrigin := productionOrigin

def commandHost (now : DateTime) : Host where
  readToString _ := .ok "postgres:///console"
  connect _ _ := .ok ()
  migrate := .ok ()
  bind _ := .ok ()
  now
  token := sampleToken 9
  id := 40
  handle := 1

/-- A request with JSON from the origin. -/
def samplePost (listener : Listener) (path body : String) (cookies : HeaderMap) (draws : Draws) :
    Client :=
  .visit ⟨listener, ⟨.post, path, [("origin", asBytes productionOrigin),
    ("content-type", asBytes "application/json")] ++ cookies, asBytes body⟩, draws⟩

/-- An operator is seeded, registers, logs in and approves a user. -/
def consoleClients : ℕ → Client
  | 0 => .command ⟨"/run/secrets/database-url", .seedOperator ⟨true, "operator",
      "operator@example.com", "Operator", "SEED FIRST OPERATOR"⟩⟩ (commandHost 0)
  | 1 => samplePost .privateListen "/v1/operator/bootstrap/start" "" []
      ⟨1, 1, 5, 10, 0, sampleToken 1, sampleToken 2, true⟩
  | 2 => samplePost .privateListen "/v1/operator/bootstrap/finish"
      "\x7b\"ceremony_id\":\"00000000-0000-0000-0000-00000000000a\",\"credential\":\"5\"\x7d" []
      ⟨2, 2, 0, 20, 0, sampleToken 1, sampleToken 2, true⟩
  | 3 => samplePost .publicListen "/v1/auth/login/start" "" []
      ⟨3, 3, 6, 11, 0, sampleToken 1, sampleToken 2, true⟩
  | 4 => samplePost .publicListen "/v1/auth/login/finish"
      "\x7b\"ceremony_id\":\"00000000-0000-0000-0000-00000000000b\",\"credential\":\"6\"\x7d" []
      ⟨4, 4, 0, 12, 0, sampleToken 1, sampleToken 2, true⟩
  | _ => samplePost .privateListen "/v1/operator/users"
      "\x7b\"user_id\":\"nobody\",\"email\":\"user@example.com\",\"display_name\":\"User\"\x7d"
      [("cookie", asBytes ("__Host-rs_session=" ++ (sampleToken 1).expose)),
        ("x-csrf-token", asBytes (sampleToken 2).expose)]
      ⟨5, 5, 0, 50, 51, sampleToken 3, sampleToken 4, true⟩

def consoleServed :=
  play perform Database.empty (fun t => (consoleClients t).program consoleState)
    ([0, 0, 0, 1, 1, 1, 2, 2, 3, 4, 4, 4, 4, 5, 5, 5].map fun t => (t, sampleEnv 30))

/-- The run is one of operations. -/
theorem console_runs_sample :
    ∃ tr', History consoleState.config consoleState.engine
        (fun m : ℕ × Option UserId => (consoleClients m.1).operation m.2) tr' consoleServed.state ∧
      tr'.map (Event.forClient Prod.fst) = consoleServed.trace := by
  obtain ⟨tr', h, htrace, -⟩ := @console_runs _ _ Reference.crates consoleHttp sampleWebauthn
    consoleState consoleClients _ _ ⟨_, play_run perform Database.empty _ _⟩
  exact ⟨tr', h, htrace⟩

end Sample

end RsConsole
