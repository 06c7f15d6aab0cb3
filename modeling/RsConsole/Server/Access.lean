import RsConsole.Library.Alone
import RsConsole.Server.Admission

set_option autoImplicit false

/-! # Everybody gets in

`store_answers_iff` and the theorems after it say what is accepted. Here this is put together: on a
database that executes every statement, whoever has a device that the engine accepts gets in, from
every state and by every way that the console has. An approved user enrols with the setup link, a user
who has lost the passkey recovers, and an operator gets back in with the break-glass command. -/

namespace RsConsole

open Library Library.Table Library.Fallible Database PgAuthStore

/-! ## A database that executes every statement -/

/-- The call is performed on a connection that lasts, with new ids and tokens, and no epoch is at the
    end of its range. -/
def Executes (c : AuthCall) (db : Database) (r : c.Answer) (db' : Database) : Prop :=
  ∃ env, env.left = none ∧ perform env c db = (r, db') ∧ c.Draws env db ∧
    (∀ k ∈ db.passkeyCredentials, k.id ≠ env.fresh) ∧ db.EpochsBounded

/-- The client has ended with `outcome`, and nobody else has made a call since it began. -/
def EndsAlone {α : Type} (client : Auth α) (db : Database) (outcome : Except AuthError α) : Prop :=
  ∃ tr db' pool, Run Executes db (fun _ : Unit => client.run) tr db' pool ∧
    pool () = .done outcome

theorem EndsAlone.ok {α : Type} {client : Auth α} {db : Database} {outcome : Except AuthError α}
    {P : α → Prop} (h : EndsAlone client db outcome)
    (hsucceeds : Succeeds Executes (fun v _ => P v) client db) : ∃ v, outcome = .ok v ∧ P v := by
  obtain ⟨tr, db', pool, run, hdone⟩ := h
  have hensures := run.ensures (t := ()) hsucceeds.ensures fun _ _ => rfl
  rw [hdone] at hensures
  exact hensures

/-- The database holds the maps `s`, and the credential ids in `new` have never been stored. -/
structure Holds (new : List (List UInt8)) (s : LiveStore) (db : Database) : Prop where
  abstracts : db.Abstracts s
  unstored : ∀ k ∈ db.passkeyCredentials, k.credentialId ∉ new

theorem Database.Abstracts.holds {db : Database} {s : LiveStore} {credentialId : List UInt8}
    (hs : db.Abstracts s) (hunstored : ∀ k ∈ db.passkeyCredentials, k.credentialId ≠ credentialId) :
    Holds [credentialId] s db :=
  ⟨hs, fun k hk hmem => hunstored k hk (List.mem_singleton.1 hmem)⟩

section Rules

variable {db : Database} {s : LiveStore} {new : List (List UInt8)}

/-- An answered call that registers none of the new credentials. -/
theorem Holds.step (h : Holds new s db) {env : Env} {c : AuthCall} {a : c.Reply} {db' : Database}
    (hregisters : ∀ id ∈ new, ∀ userId, ¬ c.RegistersPasskey db userId id)
    (hperform : perform env c db = (.ok a, db')) : ∃ s', s.Does c a s' ∧ Holds new s' db' := by
  obtain ⟨s', hdoes, hs'⟩ := h.abstracts.step hperform
  refine ⟨s', hdoes, hs', fun k hk hmem => ?_⟩
  have hbefore : ¬ ∃ k₀ ∈ db.passkeyCredentials, k₀.credentialId = k.credentialId := by
    rintro ⟨k₀, hk₀, hid⟩
    exact h.unstored k₀ hk₀ (hid ▸ hmem)
  obtain ⟨-, userId, hregistered⟩ :=
    (perform_ok hperform).credential_stored h.abstracts.legible hbefore ⟨k, hk, rfl⟩
  exact hregisters _ hmem userId hregistered

/-- A call that the specification has an answer to. -/
theorem succeeds_ask {c : AuthCall} {Q : c.Reply → Database → Prop} (h : Holds new s db)
    (hregisters : ∀ id ∈ new, ∀ userId, ¬ c.RegistersPasskey db userId id)
    (hready : ∀ env, c.Draws env db → (∀ k ∈ db.passkeyCredentials, k.id ≠ env.fresh) →
      db.EpochsBounded → c.Fits env db ∧ ∃ a s', s.Does c a s')
    (hnext : ∀ a s' db', s.Does c a s' → Holds new s' db' → Q a db') :
    Succeeds Executes Q (ask c) db := by
  refine succeeds_await ?_
  rintro r db' ⟨env, hlasts, hperform, hdraws, hfresh, hepochs⟩
  obtain ⟨hfits, a, s', hdoes⟩ := hready env hdraws hfresh hepochs
  have hok := answered_of_does hperform hlasts h.abstracts hfits hdoes
  cases r with
  | error e => cases hok
  | ok a =>
      obtain ⟨s', hdone, hheld⟩ := h.step hregisters hperform
      exact ⟨a, rfl, hnext a s' db' hdone hheld⟩

/-- A query changes nothing. -/
theorem query_post {env : Env} {c : AuthCall} {a : c.Reply} {db' : Database}
    (hc : c.queries = true) (hperform : perform env c db = (.ok a, db')) : db' = db := by
  cases perform_ok hperform with
  | unchanged => rfl
  | _ => cases hc

/-- A query is always answered. -/
theorem succeeds_query {c : AuthCall} {Q : c.Reply → Database → Prop} (h : Holds new s db)
    (hc : c.queries = true) (hnext : ∀ a, s.Does c a s → Q a db) :
    Succeeds Executes Q (ask c) db := by
  have hreads : c.reads = true := by
    cases c <;> first | rfl | cases hc
  refine succeeds_await ?_
  rintro r db' ⟨env, hlasts, hperform, -⟩
  have hok : r.isOk = true :=
    perform_of_lasts hperform hlasts (answered_reads env h.abstracts.legible c hreads)
  cases r with
  | error e => cases hok
  | ok a =>
      obtain rfl := query_post hc hperform
      obtain ⟨s', hdone, -⟩ := h.abstracts.step hperform
      obtain rfl := hdone.unchanged hc
      exact ⟨a, rfl, hnext a hdone⟩

end Rules

/-! ## The operations -/

namespace LiveStore

variable (s : LiveStore)

def startCeremony (ceremony : Ceremony) : LiveStore :=
  { s with ceremonies := Function.update s.ceremonies ceremony.id (some ceremony) }

variable {s}

theorem invalidateUser_users (userId : UserId) {id : UserId} {user : User}
    (huser : s.users id = some user) :
    (s.invalidateUser userId).users id = some (if user.id = userId then user.next else user) := by
  change (s.users id).map _ = _
  rw [huser]
  rfl

end LiveStore

section Operations

variable [Crates] {config : AuthConfig} {engine : CeremonyEngine} {db : Database} {s : LiveStore}
  {new : List (List UInt8)} {now : DateTime} {id : Uuid} {user : User}

omit [Crates] in
theorem Holds.weaken {new' : List (List UInt8)} (h : Holds new s db) (hsub : new' ⊆ new) :
    Holds new' s db :=
  ⟨h.abstracts, fun k hk hmem => h.unstored k hk (hsub hmem)⟩

omit [Crates] in
theorem Holds.unheld (h : Holds new s db) {rowId : Uuid} {held : StoredCredential}
    (hheld : s.credentials rowId = some held) : held.credentialId ∉ new := by
  obtain ⟨-, k, hk, hkept⟩ := (h.abstracts.shows.credentials _ _).1 hheld
  rw [← (StoredCredential.row_of_tryFrom hkept.2).2.2.1]
  exact h.unstored k hk

omit [Crates] in
theorem Holds.hasUser (h : Holds new s db) (huser : s.users user.id = some user) :
    db.hasUser user.id.value = true :=
  hasUser_of_entry h.abstracts.shows huser

omit [Crates] in
theorem succeeds_insertCeremony {Q : Unit → Database → Prop} (h : Holds new s db)
    {ceremony : Ceremony} (hstate : storable ceremony.state = true)
    (howner : ∀ userId, ceremony.userId = some userId → ∃ user, s.users userId = some user)
    (hnext : ∀ db', Holds new (s.startCeremony ceremony) db' → Q () db') :
    Succeeds Executes Q (ask (.insertCeremony ceremony)) db := by
  refine succeeds_ask h (fun _ _ _ => not_false) (fun env hdraws _ _ => ?_) ?_
  · refine ⟨⟨hstate, hdraws, ?_⟩, (), _, h.abstracts.shows.ceremonies_fresh hdraws, rfl⟩
    cases hid : ceremony.userId with
    | none => rfl
    | some userId =>
        obtain ⟨user, huser⟩ := howner userId hid
        exact hasUser_of_entry h.abstracts.shows huser
  · rintro a s' db' ⟨-, rfl⟩ hheld
    exact hnext db' hheld

theorem succeeds_startSetupRegistration {token : SecretToken} {given : Capability} {seed : ℕ}
    {Q : Uuid × Value → Database → Prop} (hengine : engine.Serves) (h : Holds new s db)
    (hgiven : s.capabilities token.hash = some given) (hlive : now < given.expiresAt)
    (huser : s.users given.userId = some user) (henabled : user.enabled = true)
    (hstart : ∀ credentials : List StoredCredential,
      (∀ c ∈ credentials, s.credentials c.id = some c ∧ c.userId = user.id) →
      ∃ drawn, engine.startRegistration seed user credentials = .ok drawn)
    (hnext : ∀ credentials challenge state db', (∀ c ∈ credentials, s.credentials c.id = some c) →
      engine.startRegistration seed user credentials = .ok (challenge, state) →
      Holds new (s.startCeremony ⟨id, .registration, some user.id, some token.hash, state,
        now + config.ceremonyTtl⟩) db' → Q (id, challenge) db') :
    Succeeds Executes Q
      (AuthService.startSetupRegistration config engine token given.purpose now seed id) db := by
  have huserId : user.id = given.userId := h.abstracts.shows.users.key_of_entry huser
  have hhash : given.tokenHash = token.hash := h.abstracts.shows.capabilities.key_of_entry hgiven
  refine succeeds_bind (succeeds_query h rfl fun found hfound => ?_)
  obtain ⟨rfl, -⟩ := hfound
  refine succeeds_bind (succeeds_okOr (v := given) ?_ ?_)
  · rw [hgiven, Option.filter_some, if_pos (decide_eq_true ⟨rfl, hlive⟩)]
  refine succeeds_bind (succeeds_query h rfl fun found hfound => ?_)
  obtain ⟨rfl, -⟩ := hfound
  refine succeeds_bind (succeeds_okOr (v := user) ?_ ?_)
  · rw [huser, Option.filter_some, if_pos henabled]
  refine succeeds_bind (succeeds_query h rfl fun credentials hfound => ?_)
  obtain ⟨⟨challenge, state⟩, hdrawn⟩ :=
    hstart credentials fun c hc => (hfound.2.1 c).1 hc
  refine succeeds_bind (succeeds_ofExcept hdrawn ?_)
  refine succeeds_bind (succeeds_insertCeremony h ?_ ?_ fun db₁ h₁ => ?_)
  · exact hengine.registrationState _ _ _ _ _ hdrawn
  · intro userId howner
    cases howner
    exact ⟨user, huserId ▸ huser⟩
  · rw [hhash] at h₁
    exact succeeds_pure (hnext credentials challenge state db₁
      (fun c hc => ((hfound.2.1 c).1 hc).1) hdrawn h₁)

omit [Crates] in
theorem succeeds_finishRegistration {kind : CeremonyKind} {response : Value} {ceremony : Ceremony}
    {credential : VerifiedCredential} {Q : Unit → Database → Prop} (hengine : engine.Serves)
    (h : Holds [credential.credentialId] s db) (hceremony : s.ceremonies id = some ceremony)
    (hkind : ceremony.kind = kind) (hlive : now < ceremony.expiresAt)
    (howner : ceremony.userId = some user.id) (huser : s.users user.id = some user)
    (hverified : engine.finishRegistration response ceremony.state = .ok credential)
    (hbootstrap : kind = .operatorBootstrap → ¬ s.OperatorRegistered)
    (hcapability : ∀ hash, ceremony.capabilityHash = some hash →
      ∃ given, s.capabilities hash = some given ∧ now < given.expiresAt)
    (hnext : ∀ rowId db', s.credentials rowId = none →
      Holds [] (s.register id ceremony.capabilityHash
        ⟨rowId, user.id, credential.credentialId, credential.publicData, none⟩ (some user.id)) db' →
      Q () db') :
    Succeeds Executes Q (AuthService.finishRegistration engine id kind response now) db := by
  obtain rfl : ceremony.id = id := h.abstracts.shows.ceremonies.key_of_entry hceremony
  refine succeeds_bind (succeeds_query h rfl fun found hfound => ?_)
  obtain ⟨rfl, -⟩ := hfound
  refine succeeds_bind (succeeds_okOr (v := ceremony) ?_ ?_)
  · rw [hceremony, Option.filter_some, if_pos (decide_eq_true ⟨hkind, hlive⟩)]
  refine succeeds_bind (succeeds_ofExcept hverified ?_)
  refine succeeds_bind (succeeds_okOr howner ?_)
  have hexists := h.hasUser huser
  have hunstored : ∀ k ∈ db.passkeyCredentials, k.credentialId ≠ credential.credentialId :=
    fun k hk hid => h.unstored k hk (List.mem_singleton.2 hid)
  refine succeeds_ask (h.weaken (List.nil_subset _)) (fun _ hid => absurd hid List.not_mem_nil)
    (fun env _ hfresh _ => ⟨⟨⟨?_, ?_, ⟨hexists, hexists⟩, ?_⟩, ?_⟩, ?_⟩) ?_
  · exact hengine.credential _ _ _ hverified
  · simp only [AuthService.registered]
    cases kind <;> decide
  · intro k hk hid
    obtain ⟨-, r, hr, hkept⟩ := (h.abstracts.shows.ceremonies _ _).1 hceremony
    obtain ⟨hrid, -, hruser, -⟩ := Ceremony.row_of_tryFrom hkept.2
    obtain rfl := h.abstracts.consistent.ceremonyIds.eq_of_mem hk hr (hid.trans hrid.symm)
    rw [howner] at hruser
    exact ⟨_, hruser, hexists⟩
  · exact fun k hk => ⟨hfresh k hk, hunstored k hk⟩
  · refine ⟨(), _, ceremony, user.id, env.fresh, hceremony, hlive, howner,
      fun hk => hbootstrap (hkind ▸ hk), hcapability,
      h.abstracts.shows.credentials_fresh hfresh, fun held hheld hid => ?_, rfl⟩
    exact h.unheld hheld (List.mem_singleton.2 hid)
  · rintro a s' db' ⟨ceremony', userId, rowId, hceremony', -, howner', -, -, hnew, -, rfl⟩ hheld
    obtain rfl : ceremony = ceremony' := Option.some.inj (hceremony.symm.trans hceremony')
    obtain rfl : user.id = userId := Option.some.inj (howner.symm.trans howner')
    exact hnext rowId db' hnew hheld

omit [Crates] in
theorem succeeds_startAuthentication {seed : ℕ} {Q : Uuid × Value → Database → Prop}
    (hengine : engine.Serves) (h : Holds new s db)
    (hstart : ∃ drawn, engine.startAuthentication seed = .ok drawn)
    (hnext : ∀ challenge state db', engine.startAuthentication seed = .ok (challenge, state) →
      Holds new (s.startCeremony ⟨id, .authentication, none, none, state, now + config.ceremonyTtl⟩)
        db' → Q (id, challenge) db') :
    Succeeds Executes Q (AuthService.startAuthentication config engine now seed id) db := by
  obtain ⟨⟨challenge, state⟩, hdrawn⟩ := hstart
  refine succeeds_bind (succeeds_ofExcept hdrawn ?_)
  refine succeeds_bind (succeeds_insertCeremony h ?_ ?_ fun db₁ h₁ => ?_)
  · exact hengine.authenticationState _ _ _ hdrawn
  · intro userId howner
    cases howner
  · exact succeeds_pure (hnext challenge state db₁ hdrawn h₁)

theorem succeeds_finishAuthentication {response : Value} {token csrf : SecretToken} {sessionId : Uuid}
    {ceremony : Ceremony} {credential : StoredCredential}
    {Q : SessionGrant × User → Database → Prop} (hengine : engine.Serves) (h : Holds new s db)
    (hceremony : s.ceremonies id = some ceremony) (hkind : ceremony.kind = .authentication)
    (hlive : now < ceremony.expiresAt)
    (hhandle : engine.authenticationUserHandle response = .ok user.webauthnHandle)
    (huser : s.users user.id = some user) (henabled : user.enabled = true)
    (hheld : s.credentials credential.id = some credential) (howner : credential.userId = user.id)
    (hverify : ∀ credentials : List StoredCredential,
      (∀ c, c ∈ credentials ↔ s.credentials c.id = some c ∧ c.userId = user.id) →
      ∃ verification, engine.finishAuthentication response ceremony.state credentials =
        .ok verification ∧ verification.credentialId = credential.credentialId)
    (hnext : ∀ verification db',
      Holds new (s.logIn id verification
        (AuthService.newSession config user now token csrf sessionId)) db' →
      Q (⟨token, csrf, AuthService.newSession config user now token csrf sessionId⟩, user) db') :
    Succeeds Executes Q
      (AuthService.finishAuthentication config engine id response now token csrf sessionId) db := by
  refine succeeds_bind (succeeds_query h rfl fun found hfound => ?_)
  obtain ⟨rfl, -⟩ := hfound
  refine succeeds_bind (succeeds_okOr (v := ceremony) ?_ ?_)
  · rw [hceremony, Option.filter_some, if_pos (decide_eq_true ⟨hkind, hlive⟩)]
  refine succeeds_bind (succeeds_ofExcept hhandle ?_)
  refine succeeds_bind (succeeds_query h rfl fun found hfound => ?_)
  obtain rfl : found = some user := (hfound.1 user).2 ⟨huser, rfl⟩
  refine succeeds_bind (succeeds_okOr (v := user) ?_ ?_)
  · rw [Option.filter_some, if_pos henabled]
  refine succeeds_bind (succeeds_query h rfl fun credentials hfound => ?_)
  obtain ⟨verification, hverified, hid⟩ := hverify credentials hfound.2.1
  refine succeeds_bind (succeeds_ofExcept hverified ?_)
  have hexists := h.hasUser huser
  refine succeeds_bind (succeeds_ask h (fun _ _ _ => not_false) (fun env hdraws _ _ => ⟨?_, ?_⟩) ?_)
  · exact ⟨hengine.verification _ _ _ _ hverified, rfl, ⟨hexists, hexists⟩, hexists, hdraws⟩
  · exact ⟨(), _, ⟨ceremony, hceremony, hkind, hlive⟩, ⟨credential, hheld, howner, hid.symm⟩,
      h.abstracts.shows.sessions_fresh fun r hr => (hdraws r hr).2, rfl⟩
  · rintro a s' db₁ ⟨-, -, -, rfl⟩ h₁
    exact succeeds_pure (hnext verification db₁ h₁)

theorem succeeds_authenticateSession {token csrf : SecretToken} {record : SessionRecord}
    {Q : SessionPrincipal → Database → Prop} (h : Holds new s db)
    (hrecord : s.sessions token.hash = some record) (huser : s.users record.userId = some user)
    (henabled : user.enabled = true) (hepoch : record.authEpoch = user.authEpoch)
    (hcsrf : record.csrfHash = csrf.hash) (hidle : now < record.idleExpiresAt)
    (habsolute : now < record.absoluteExpiresAt)
    (hnext : ∀ principal db', principal.user = user → Q principal db') :
    Succeeds Executes Q (AuthService.authenticateSession config token (some csrf) now) db := by
  have hlive : s.liveSession token.hash now = some (record, user) := by
    simp [LiveStore.liveSession, hrecord, huser, henabled, hepoch, hidle, habsolute]
  refine succeeds_bind (succeeds_ask h (fun _ _ _ => not_false)
    (fun _ _ _ _ => ⟨trivial, _, _, rfl, rfl⟩)
    fun found s₁ db₁ hfound h₁ => ?_)
  obtain ⟨rfl, -⟩ := hfound
  refine succeeds_bind (succeeds_okOr (by rw [LiveStore.principal, hlive]; rfl) ?_)
  refine succeeds_bind (succeeds_ensure ?_ (succeeds_pure (hnext _ db₁ rfl)))
  rintro c ⟨⟩
  exact hcsrf.symm

end Operations

/-! ## Logging in and enrolling -/

/-- What keeps a passkey: it answers the challenges of registrations and of logins, and names its
    user by the handle. -/
structure Device where
  handle : Uuid
  credential : VerifiedCredential
  create : Value → Value
  get : Value → Value

namespace Device

/-- The credential is the device's. -/
def Keeps (device : Device) (c : StoredCredential) : Prop :=
  c.credentialId = device.credential.credentialId ∧ c.publicData = device.credential.publicData

/-- The credentials that the user has, and the device's own. -/
def Beside (device : Device) (s : LiveStore) (userId : UserId) (c : StoredCredential) : Prop :=
  c.userId = userId ∧ (s.credentials c.id = some c ∨ device.Keeps c)

/-- The engine accepts what the device answers, for a user with its handle whose credentials are all
    `known`. -/
structure Accepted (device : Device) (engine : CeremonyEngine) (known : StoredCredential → Prop) :
    Prop where
  starts : ∀ seed (user : User) credentials, user.webauthnHandle = device.handle →
    (∀ c ∈ credentials, known c) → ∃ drawn, engine.startRegistration seed user credentials = .ok drawn
  registers : ∀ seed (user : User) credentials challenge state,
    user.webauthnHandle = device.handle →
    (∀ c ∈ credentials, c.credentialId ≠ device.credential.credentialId) →
    engine.startRegistration seed user credentials = .ok (challenge, state) →
      engine.finishRegistration (device.create challenge) state = .ok device.credential
  asks : ∀ seed, ∃ drawn, engine.startAuthentication seed = .ok drawn
  names : ∀ seed challenge state, engine.startAuthentication seed = .ok (challenge, state) →
    engine.authenticationUserHandle (device.get challenge) = .ok device.handle
  logsIn : ∀ seed challenge state credentials,
    engine.startAuthentication seed = .ok (challenge, state) → (∀ c ∈ credentials, known c) →
    (∃ c ∈ credentials, device.Keeps c) →
      ∃ verification, engine.finishAuthentication (device.get challenge) state credentials =
        .ok verification ∧ verification.credentialId = device.credential.credentialId

end Device

/-- When the steps of a login are taken, and what is drawn for it. -/
structure LoginPlan where
  startAt : DateTime
  finishAt : DateTime
  useAt : DateTime
  seed : ℕ
  ceremonyId : Uuid
  sessionId : Uuid
  token : SecretToken
  csrf : SecretToken

structure LoginPlan.InTime (plan : LoginPlan) (config : AuthConfig) : Prop where
  ceremony : plan.finishAt < plan.startAt + config.ceremonyTtl
  idle : plan.useAt < plan.finishAt + config.sessionIdleTtl
  absolute : plan.useAt < plan.finishAt + config.sessionAbsoluteTtl

/-- When the steps of a registration and of the login after it are taken, and what is drawn. -/
structure EnrolmentPlan where
  startAt : DateTime
  finishAt : DateTime
  seed : ℕ
  ceremonyId : Uuid
  login : LoginPlan

/-- The capability that the registration spends expires at `expiresAt`. -/
structure EnrolmentPlan.InTime (plan : EnrolmentPlan) (config : AuthConfig) (expiresAt : DateTime) :
    Prop where
  start : plan.startAt < expiresAt
  finish : plan.finishAt < expiresAt
  ceremony : plan.finishAt < plan.startAt + config.ceremonyTtl
  login : plan.login.InTime config

section GettingIn

variable [Crates] (config : AuthConfig) (engine : CeremonyEngine) (device : Device)

/-- Log in with the device and use the session. -/
def Device.logIn (plan : LoginPlan) : Auth SessionPrincipal := do
  let (ceremonyId, challenge) ←
    AuthService.startAuthentication config engine plan.startAt plan.seed plan.ceremonyId
  let (grant, _) ← AuthService.finishAuthentication config engine ceremonyId (device.get challenge)
    plan.finishAt plan.token plan.csrf plan.sessionId
  AuthService.authenticateSession config grant.token (some grant.csrf) plan.useAt

/-- Register the device with a setup link and log in with it. -/
def Device.enrol (token : SecretToken) (purpose : CapabilityPurpose) (plan : EnrolmentPlan) :
    Auth SessionPrincipal := do
  let (ceremonyId, challenge) ← AuthService.startSetupRegistration config engine token purpose
    plan.startAt plan.seed plan.ceremonyId
  AuthService.finishRegistration engine ceremonyId .registration (device.create challenge)
    plan.finishAt
  device.logIn config engine plan.login

/-- Register the device at the bootstrap endpoint and log in with it. -/
def Device.bootstrap (plan : EnrolmentPlan) : Auth SessionPrincipal := do
  let (ceremonyId, challenge, kind) ←
    AuthService.startOperatorBootstrap config engine plan.startAt plan.seed plan.ceremonyId
  AuthService.finishRegistration engine ceremonyId kind (device.create challenge) plan.finishAt
  device.logIn config engine plan.login

variable {config engine device} {known : StoredCredential → Prop} {db : Database} {s : LiveStore}
  {user : User}

theorem succeeds_logIn {new : List (List UInt8)} {plan : LoginPlan} {credential : StoredCredential}
    (hengine : engine.Serves) (hdevice : device.Accepted engine known) (hplan : plan.InTime config)
    (h : Holds new s db) (huser : s.users user.id = some user) (henabled : user.enabled = true)
    (hhandle : user.webauthnHandle = device.handle)
    (hheld : s.credentials credential.id = some credential) (howner : credential.userId = user.id)
    (hkeeps : device.Keeps credential)
    (hknown : ∀ c, s.credentials c.id = some c → c.userId = user.id → known c) :
    Succeeds Executes (fun principal _ => principal.user = user)
      (device.logIn config engine plan) db := by
  refine succeeds_bind (succeeds_startAuthentication hengine h (hdevice.asks _)
    fun challenge state db₁ hdrawn h₁ => ?_)
  refine succeeds_bind (succeeds_finishAuthentication hengine h₁ (Function.update_self ..) rfl
    hplan.ceremony ?_ huser henabled hheld howner ?_ fun verification db₂ h₂ => ?_)
  · rw [hhandle]
    exact hdevice.names _ _ _ hdrawn
  · intro credentials hcredentials
    obtain ⟨verification, hverified, hid⟩ := hdevice.logsIn _ _ _ credentials hdrawn
      (fun c hc => hknown c ((hcredentials c).1 hc).1 ((hcredentials c).1 hc).2)
      ⟨credential, (hcredentials credential).2 ⟨hheld, howner⟩, hkeeps⟩
    exact ⟨verification, hverified, hid.trans hkeeps.1.symm⟩
  · refine succeeds_authenticateSession h₂ (Function.update_self ..) huser henabled rfl rfl
      hplan.idle hplan.absolute fun principal _ hprincipal => hprincipal

/-- Registration and login, once a ceremony has been started for the device. -/
theorem succeeds_registered {plan : EnrolmentPlan} {kind : CeremonyKind}
    {hash : SecretHash} {given : Capability} {challenge state : Value} {seed : ℕ}
    {credentials : List StoredCredential}
    (hengine : engine.Serves) (hdevice : device.Accepted engine known)
    (hplan : plan.InTime config given.expiresAt)
    (hdrawn : engine.startRegistration seed user credentials = .ok (challenge, state))
    (hunheld : ∀ c ∈ credentials, c.credentialId ≠ device.credential.credentialId)
    (h : Holds [device.credential.credentialId] (s.startCeremony ⟨plan.ceremonyId, kind,
      some user.id, some hash, state, plan.startAt + config.ceremonyTtl⟩) db)
    (hkind : kind ≠ .operatorBootstrap) (hgiven : s.capabilities hash = some given)
    (huser : s.users user.id = some user) (henabled : user.enabled = true)
    (hhandle : user.webauthnHandle = device.handle)
    (hknown : ∀ c, s.credentials c.id = some c → c.userId = user.id → known c)
    (hkeeps : ∀ c, device.Keeps c → c.userId = user.id → known c) :
    Succeeds Executes (fun principal _ => principal.user = user) (do
      AuthService.finishRegistration engine plan.ceremonyId kind (device.create challenge)
        plan.finishAt
      device.logIn config engine plan.login) db := by
  refine succeeds_bind (succeeds_finishRegistration hengine h (Function.update_self ..) rfl
    hplan.ceremony rfl huser (hdevice.registers _ _ _ _ _ hhandle hunheld hdrawn)
    (fun hbootstrap => absurd hbootstrap hkind) ?_ fun rowId db₁ hnew h₁ => ?_)
  · rintro _ ⟨⟩
    exact ⟨given, hgiven, hplan.finish⟩
  · refine succeeds_logIn hengine hdevice hplan.login h₁ huser henabled hhandle
      (Function.update_self ..) rfl ⟨rfl, rfl⟩ fun c hc howner => ?_
    rcases (update_eq_some_iff StoredCredential.id hnew).1 hc with rfl | hold
    · exact hkeeps _ ⟨rfl, rfl⟩ howner
    · exact hknown c hold howner

theorem succeeds_enrol {plan : EnrolmentPlan} {token : SecretToken} {given : Capability}
    (hengine : engine.Serves) (hdevice : device.Accepted engine known)
    (hplan : plan.InTime config given.expiresAt)
    (h : Holds [device.credential.credentialId] s db)
    (hgiven : s.capabilities token.hash = some given) (howner : given.userId = user.id)
    (huser : s.users user.id = some user) (henabled : user.enabled = true)
    (hhandle : user.webauthnHandle = device.handle)
    (hknown : ∀ c, s.credentials c.id = some c → c.userId = user.id → known c)
    (hkeeps : ∀ c, device.Keeps c → c.userId = user.id → known c) :
    Succeeds Executes (fun principal _ => principal.user = user)
      (device.enrol config engine token given.purpose plan) db := by
  refine succeeds_bind (succeeds_startSetupRegistration hengine h hgiven hplan.start
    (howner ▸ huser) henabled ?_ fun credentials challenge state db₁ hstored hdrawn h₁ => ?_)
  · exact fun credentials hmem =>
      hdevice.starts _ _ _ hhandle fun c hc => hknown c (hmem c hc).1 (hmem c hc).2
  · exact succeeds_registered hengine hdevice hplan hdrawn
      (fun c hc hid => h.unheld (hstored c hc) (List.mem_singleton.2 hid)) h₁ (by decide) hgiven huser
      henabled hhandle hknown hkeeps

/-! ## The ways in -/

variable (config engine device)

/-- The operator approves a user, who enrols with the setup link. -/
def Device.join (operatorId userId : UserId) (email displayName : String) (now : DateTime)
    (token : SecretToken) (id : Uuid) (plan : EnrolmentPlan) : Auth SessionPrincipal := do
  let setup ← AuthService.approveUserAndIssueSetup config operatorId userId email displayName now
    token device.handle id
  device.enrol config engine setup .setup plan

/-- When the steps of a recovery before the enrolment are taken. -/
structure RecoveryTimes where
  requestAt : DateTime
  approveAt : DateTime
  issueAt : DateTime

/-- A user requests a recovery, the operator approves it and issues a setup link, and the user enrols
    with it. -/
def Device.recover (operatorId userId : UserId) (times : RecoveryTimes) (token : SecretToken)
    (id : Uuid) (plan : EnrolmentPlan) : Auth SessionPrincipal := do
  let request ← AuthService.requestRecovery userId times.requestAt
  AuthService.approveRecovery request.id operatorId times.approveAt
  let setup ← AuthService.issueRecoverySetup config request.id operatorId userId times.issueAt token
    id
  device.enrol config engine setup .recoverySetup plan

/-- The call of the break-glass command, and the registration that it opens. -/
def Device.breakGlass (credentialId : Uuid) (given : Capability) (now : DateTime) (reason : String)
    (plan : EnrolmentPlan) : Auth SessionPrincipal := do
  ask (.breakGlass credentialId given now reason)
  device.bootstrap config engine plan

variable {config engine device}

-- unification must not evaluate the checks of a person
attribute [local irreducible] trim

theorem succeeds_approveUser {operatorId userId : UserId} {email displayName : String}
    {now : DateTime} {token : SecretToken} {handle id : Uuid} {operator : User}
    {new : List (List UInt8)} {Q : SecretToken → Database → Prop} (h : Holds new s db)
    (hperson : AuthService.validPerson (trim email) (trim displayName))
    (htexts : storableText email = true ∧ storableText displayName = true)
    (hnew : s.users userId = none)
    (hothers : ∀ u ∈ db.humanUsers, u.webauthnHandle ≠ handle ∧ u.email ≠ trim email)
    (hoperator : s.users operatorId = some operator)
    (hnext : ∀ db', Holds new
      ((s.addUser ⟨userId, handle, trim email, trim displayName, .user, true, 1⟩).addCapability
        ⟨id, userId, .setup, token.hash, now + config.capabilityTtl⟩) db' → Q token db') :
    Succeeds Executes Q (AuthService.approveUserAndIssueSetup config operatorId userId email
      displayName now token handle id) db := by
  refine succeeds_bind (succeeds_ensure hperson ?_)
  refine succeeds_bind (succeeds_query h rfl fun found hfound => ?_)
  obtain ⟨rfl, -⟩ := hfound
  refine succeeds_bind (succeeds_ensure (by rw [hnew]; rfl) ?_)
  refine succeeds_bind (succeeds_ask h (fun _ _ _ => not_false) (fun env hdraws _ _ => ⟨?_, ?_⟩) ?_)
  · refine ⟨⟨storableText_trim htexts.1, storableText_trim htexts.2, Int.one_pos, rfl, hdraws⟩,
      hothers, ?_⟩
    exact (hasUser_withUser _ _).2 (Or.inl (hasUser_of_entry h.abstracts.shows hoperator))
  · exact ⟨(), _, hnew, h.abstracts.shows.capabilities_fresh fun k hk => (hdraws k hk).2, rfl⟩
  · rintro a s' db' ⟨-, -, rfl⟩ hheld
    exact succeeds_pure (hnext db' hheld)

theorem succeeds_join {operatorId userId : UserId} {email displayName : String} {now : DateTime}
    {token : SecretToken} {id : Uuid} {plan : EnrolmentPlan} {operator : User}
    (hengine : engine.Serves) (hdevice : device.Accepted engine known)
    (hplan : plan.InTime config (now + config.capabilityTtl))
    (h : Holds [device.credential.credentialId] s db)
    (hperson : AuthService.validPerson (trim email) (trim displayName))
    (htexts : storableText email = true ∧ storableText displayName = true)
    (hnew : s.users userId = none)
    (hothers : ∀ u ∈ db.humanUsers, u.webauthnHandle ≠ device.handle ∧ u.email ≠ trim email)
    (hoperator : s.users operatorId = some operator)
    (hknown : ∀ c, s.credentials c.id = some c → c.userId = userId → known c)
    (hkeeps : ∀ c, device.Keeps c → c.userId = userId → known c) :
    Succeeds Executes (fun principal _ => principal.user =
        ⟨userId, device.handle, trim email, trim displayName, .user, true, 1⟩)
      (device.join config engine operatorId userId email displayName now token id plan) db := by
  refine succeeds_bind (succeeds_approveUser h hperson htexts hnew hothers hoperator
    fun db₁ h₁ => ?_)
  exact succeeds_enrol hengine hdevice hplan h₁ (Function.update_self ..) rfl
    (Function.update_self ..) rfl rfl hknown hkeeps

omit [Crates] in
/-- The requester of a recovery's row exists when the one of its entry does. -/
theorem Holds.requesterExists {new : List (List UInt8)} (h : Holds new s db) {recovery : OpenRecovery}
    {recoveryId : Uuid} (hentry : s.recoveries recoveryId = some recovery)
    (huser : s.users recovery.request.userId = some user) : db.RequesterExists recoveryId := by
  intro r hr hid
  obtain ⟨hkey, r', hr', -, hkept, -⟩ := (h.abstracts.shows.recoveries _ _).1 hentry
  obtain ⟨hrid, hruser, -⟩ := RecoveryRequest.row_of_tryFrom hkept
  obtain rfl := h.abstracts.consistent.recoveryIds.eq_of_mem hr hr' (hid.trans (hrid.trans hkey).symm)
  rw [hruser]
  exact hasUser_of_entry h.abstracts.shows huser

omit [Crates] in
theorem succeeds_requestRecovery {new : List (List UInt8)} {now : DateTime}
    {Q : RecoveryRequest → Database → Prop} (h : Holds new s db)
    (huser : s.users user.id = some user)
    (hnone : ∀ recovery, s.recoveries recovery.request.id = some recovery →
      recovery.request.userId = user.id → recovery.request.approvedAt ≠ none)
    (hnext : ∀ request db', request.userId = user.id → request.approvedAt = none →
      Holds new (s.setRecovery request.id ⟨request, false⟩) db' → Q request db') :
    Succeeds Executes Q (AuthService.requestRecovery user.id now) db := by
  refine succeeds_ask h (fun _ _ _ => not_false) (fun env hdraws _ _ => ⟨hdraws, ?_⟩) ?_
  · exact ⟨⟨env.fresh, user.id, now, none⟩, _, rfl, rfl, rfl, by rw [huser]; rfl, hnone,
      h.abstracts.shows.recoveries_fresh hdraws, rfl⟩
  · rintro request s' db' ⟨howner, -, hpending, -, -, -, rfl⟩ hheld
    exact hnext request db' howner hpending hheld

omit [Crates] in
theorem succeeds_approveRecovery {new : List (List UInt8)} {now : DateTime} {recoveryId : Uuid}
    {operatorId : UserId} {operator : User} {recovery : OpenRecovery}
    {Q : Unit → Database → Prop} (h : Holds new s db)
    (hentry : s.recoveries recoveryId = some recovery) (hpending : recovery.request.approvedAt = none)
    (huser : s.users recovery.request.userId = some user)
    (hoperator : s.users operatorId = some operator)
    (hnext : ∀ db', Holds new ((s.setRecovery recoveryId (recovery.approved now)).invalidateUser
      recovery.request.userId) db' → Q () db') :
    Succeeds Executes Q (AuthService.approveRecovery recoveryId operatorId now) db := by
  refine succeeds_ask h (fun _ _ _ => not_false) (fun env _ _ hepochs => ⟨?_, ?_⟩) ?_
  · exact ⟨hepochs, hasUser_of_entry h.abstracts.shows hoperator, h.requesterExists hentry huser⟩
  · exact ⟨(), _, recovery, hentry, hpending, rfl⟩
  · rintro _ s' db' ⟨recovery', hentry', -, rfl⟩ hheld
    obtain rfl : recovery = recovery' := Option.some.inj (hentry.symm.trans hentry')
    exact hnext db' hheld

theorem succeeds_issueRecoverySetup {new : List (List UInt8)} {now : DateTime} {recoveryId id : Uuid}
    {operatorId userId : UserId} {operator : User} {recovery : OpenRecovery} {token : SecretToken}
    {Q : SecretToken → Database → Prop} (h : Holds new s db)
    (hentry : s.recoveries recoveryId = some recovery)
    (happroved : recovery.request.approvedAt ≠ none)
    (hunissued : recovery.setupIssued = false) (howner : recovery.request.userId = userId)
    (huser : s.users userId = some user) (hoperator : s.users operatorId = some operator)
    (hnext : ∀ db', Holds new
      ((s.setRecovery recoveryId { recovery with setupIssued := true }).addCapability
        ⟨id, userId, .recoverySetup, token.hash, now + config.capabilityTtl⟩) db' → Q token db') :
    Succeeds Executes Q (AuthService.issueRecoverySetup config recoveryId operatorId userId now token
      id) db := by
  refine succeeds_bind (succeeds_ask h (fun _ _ _ => not_false) (fun env hdraws _ _ => ⟨?_, ?_⟩) ?_)
  · exact ⟨hdraws, hasUser_of_entry h.abstracts.shows hoperator,
      h.requesterExists hentry (howner ▸ huser)⟩
  · exact ⟨(), _, recovery, hentry, happroved, hunissued, howner,
      h.abstracts.shows.capabilities_fresh fun k hk => (hdraws k hk).2, rfl⟩
  · rintro _ s' db' ⟨recovery', hentry', -, -, -, -, rfl⟩ hheld
    obtain rfl : recovery = recovery' := Option.some.inj (hentry.symm.trans hentry')
    exact succeeds_pure (hnext db' hheld)

theorem succeeds_recover {operatorId : UserId} {times : RecoveryTimes} {token : SecretToken}
    {id : Uuid} {plan : EnrolmentPlan} {operator : User}
    (hengine : engine.Serves) (hdevice : device.Accepted engine known)
    (hplan : plan.InTime config (times.issueAt + config.capabilityTtl))
    (h : Holds [device.credential.credentialId] s db) (huser : s.users user.id = some user)
    (henabled : user.enabled = true) (hhandle : user.webauthnHandle = device.handle)
    (hoperator : s.users operatorId = some operator)
    (hnone : ∀ recovery, s.recoveries recovery.request.id = some recovery →
      recovery.request.userId = user.id → recovery.request.approvedAt ≠ none)
    (hknown : ∀ c, s.credentials c.id = some c → c.userId = user.id → known c)
    (hkeeps : ∀ c, device.Keeps c → c.userId = user.id → known c) :
    Succeeds Executes (fun principal _ => principal.user = user.next)
      (device.recover config engine operatorId user.id times token id plan) db := by
  refine succeeds_bind (succeeds_requestRecovery h huser hnone
    fun request db₁ howner hpending h₁ => ?_)
  have hrequester : s.users request.userId = some user := howner ▸ huser
  refine succeeds_bind (succeeds_approveRecovery h₁ (Function.update_self ..) hpending hrequester
    hoperator fun db₂ h₂ => ?_)
  -- the approval has put the user into the next epoch
  have huser' := LiveStore.invalidateUser_users (s := (s.setRecovery request.id
    ⟨request, false⟩).setRecovery request.id (OpenRecovery.approved ⟨request, false⟩ times.approveAt))
    request.userId huser
  rw [if_pos howner.symm] at huser'
  refine succeeds_bind (succeeds_issueRecoverySetup h₂ (Function.update_self ..)
    (Option.some_ne_none _) rfl howner
    huser' (LiveStore.invalidateUser_users _ hoperator) fun db₃ h₃ => ?_)
  exact succeeds_enrol hengine hdevice hplan h₃ (Function.update_self ..) rfl huser' henabled hhandle
    hknown hkeeps

omit [Crates] in
theorem succeeds_breakGlass {new : List (List UInt8)} {now : DateTime} {credentialId : Uuid}
    {given : Capability} {reason : String} {credential : StoredCredential}
    {Q : Unit → Database → Prop} (h : Holds new s db)
    (hheld : s.credentials credentialId = some credential)
    (howner : credential.userId = given.userId) (huser : s.users given.userId = some user)
    (hrole : user.role = .operator) (hfresh : db.FreshCapability given)
    (hreason : storableText reason = true)
    (hnext : ∀ db', Holds new
      (((s.dropCredential credentialId).invalidateUser given.userId).addCapability given) db' →
      Q () db') :
    Succeeds Executes Q (ask (.breakGlass credentialId given now reason)) db := by
  refine succeeds_ask h (fun _ _ _ => not_false) (fun env _ _ hepochs => ⟨?_, ?_⟩) ?_
  · exact ⟨hfresh, hreason, hepochs⟩
  · exact ⟨(), _, ⟨credential, user, hheld, howner, huser, hrole⟩,
      h.abstracts.shows.capabilities_fresh fun k hk => (hfresh k hk).2, rfl⟩
  · rintro _ s' db' ⟨-, -, rfl⟩ hheld
    exact hnext db' hheld

omit [Crates] in
/-- A bootstrap in the only recovery window. -/
theorem succeeds_startOperatorBootstrap {new : List (List UInt8)} {now : DateTime} {seed : ℕ}
    {id : Uuid} {hash : SecretHash} {Q : Uuid × Value × CeremonyKind → Database → Prop}
    (hengine : engine.Serves) (h : Holds new s db) (hwindow : s.Window now user hash)
    (honly : ∀ user' hash', s.Window now user' hash' → user' = user ∧ hash' = hash)
    (hstart : ∃ drawn, engine.startRegistration seed user [] = .ok drawn)
    (hnext : ∀ challenge state db',
      engine.startRegistration seed user [] = .ok (challenge, state) →
      Holds new (s.startCeremony ⟨id, .operatorRecovery, some user.id, some hash, state,
        now + config.ceremonyTtl⟩) db' → Q (id, challenge, .operatorRecovery) db') :
    Succeeds Executes Q (AuthService.startOperatorBootstrap config engine now seed id) db := by
  obtain ⟨⟨challenge, state⟩, hdrawn⟩ := hstart
  refine succeeds_bind (succeeds_bind (succeeds_query h rfl fun found hfound => ?_))
  cases found with
  | none => exact absurd hwindow (hfound.2.1 rfl user hash)
  | some candidate =>
      obtain ⟨user', hash'⟩ := candidate
      obtain ⟨rfl, rfl⟩ := honly user' hash' (hfound.1 user' hash' rfl)
      refine succeeds_pure (succeeds_bind (succeeds_ofExcept hdrawn ?_))
      refine succeeds_bind (succeeds_insertCeremony h ?_ ?_ fun db₁ h₁ => ?_)
      · exact hengine.registrationState _ _ _ _ _ hdrawn
      · intro userId howner
        cases howner
        obtain ⟨given, -, -, -, huser, -⟩ := hwindow
        exact ⟨_, h.abstracts.shows.users.key_of_entry huser ▸ huser⟩
      · exact succeeds_pure (hnext challenge state db₁ hdrawn h₁)

theorem succeeds_breakGlass_bootstrap {now : DateTime} {credentialId : Uuid} {given : Capability}
    {reason : String} {plan : EnrolmentPlan} {credential : StoredCredential}
    (hengine : engine.Serves) (hdevice : device.Accepted engine known)
    (hplan : plan.InTime config given.expiresAt)
    (h : Holds [device.credential.credentialId] s db)
    (hheld : s.credentials credentialId = some credential)
    (howner : credential.userId = user.id) (hgiven : given.userId = user.id)
    (hpurpose : given.purpose = .operatorRecovery) (huser : s.users user.id = some user)
    (hrole : user.role = .operator) (henabled : user.enabled = true)
    (hhandle : user.webauthnHandle = device.handle) (hfresh : db.FreshCapability given)
    (hreason : storableText reason = true)
    (honly : ∀ hash other, s.capabilities hash = some other → other.purpose = .operatorRecovery →
      plan.startAt < other.expiresAt → other.userId = user.id)
    (hknown : ∀ c, c.id ≠ credentialId → s.credentials c.id = some c → c.userId = user.id → known c)
    (hkeeps : ∀ c, device.Keeps c → c.userId = user.id → known c) :
    Succeeds Executes (fun principal _ => principal.user = user.next)
      (device.breakGlass config engine credentialId given now reason plan) db := by
  refine succeeds_bind (succeeds_breakGlass h hheld (howner.trans hgiven.symm)
    (hgiven.symm ▸ huser) hrole hfresh hreason fun db₁ h₁ => ?_)
  have huser' := LiveStore.invalidateUser_users (s := s.dropCredential credentialId) given.userId
    huser
  rw [if_pos hgiven.symm] at huser'
  have hdropped : ∀ c : StoredCredential,
      Function.update s.credentials credentialId none c.id = some c →
      c.id ≠ credentialId ∧ s.credentials c.id = some c := by
    intro c hc
    by_cases hid : c.id = credentialId
    · rw [hid, Function.update_self] at hc
      cases hc
    · rw [Function.update_of_ne hid] at hc
      exact ⟨hid, hc⟩
  have hwindow : (((s.dropCredential credentialId).invalidateUser given.userId).addCapability
      given).Window plan.startAt user.next given.tokenHash :=
    ⟨given, Function.update_self .., hpurpose, hplan.start, hgiven ▸ huser', hrole, henabled⟩
  refine succeeds_bind (succeeds_startOperatorBootstrap hengine h₁ hwindow ?_
    (hdevice.starts _ _ _ hhandle ?_) fun challenge state db₂ hdrawn h₂ => ?_)
  · rintro user' hash' ⟨other, hother, hpurpose', hlive, hwindow, -⟩
    change Function.update _ given.tokenHash _ hash' = _ at hother
    by_cases hhash : hash' = given.tokenHash
    · rw [hhash, Function.update_self] at hother
      cases hother
      exact ⟨Option.some.inj (hwindow.symm.trans (hgiven ▸ huser')), hhash⟩
    · -- the command has ended the windows that the operator had
      rw [Function.update_of_ne hhash] at hother
      obtain ⟨hother, hkept⟩ := Option.filter_eq_some_iff.1 hother
      have hsame := honly hash' other hother hpurpose' hlive
      exact absurd (hsame.trans hgiven.symm) (of_decide_eq_true hkept)
  · exact fun c hc => absurd hc List.not_mem_nil
  · exact succeeds_registered hengine hdevice hplan hdrawn
      (fun c hc => absurd hc List.not_mem_nil) h₂ (by decide) (Function.update_self ..) huser'
      henabled hhandle (fun c hc howner => hknown c (hdropped c hc).1 (hdropped c hc).2 howner) hkeeps

/-- **An approved user gets in**, as the person that the operator has named. -/
theorem approved_user_gets_in {operatorId userId : UserId} {email displayName : String}
    {now : DateTime} {token : SecretToken} {id : Uuid} {plan : EnrolmentPlan} {operator : User}
    {outcome : Except AuthError SessionPrincipal}
    (hengine : engine.Serves) (hs : db.Abstracts s)
    (hdevice : device.Accepted engine (device.Beside s userId))
    (hunstored : ∀ k ∈ db.passkeyCredentials, k.credentialId ≠ device.credential.credentialId)
    (hplan : plan.InTime config (now + config.capabilityTtl))
    (hperson : AuthService.validPerson (trim email) (trim displayName))
    (htexts : storableText email = true ∧ storableText displayName = true)
    (hnew : s.users userId = none)
    (hothers : ∀ u ∈ db.humanUsers, u.webauthnHandle ≠ device.handle ∧ u.email ≠ trim email)
    (hoperator : s.users operatorId = some operator)
    (hends : EndsAlone (device.join config engine operatorId userId email displayName now token id
      plan) db outcome) :
    ∃ principal, outcome = .ok principal ∧ principal.user =
      ⟨userId, device.handle, trim email, trim displayName, .user, true, 1⟩ :=
  hends.ok (succeeds_join hengine hdevice hplan (hs.holds hunstored) hperson htexts hnew hothers
    hoperator (fun _ hc howner => ⟨howner, Or.inl hc⟩)
    fun _ hkeeps howner => ⟨howner, Or.inr hkeeps⟩)

/-- **A user who has lost the passkey gets in again** when the operator approves it, in the next
    epoch. -/
theorem recovered_user_gets_in {operatorId : UserId} {times : RecoveryTimes} {token : SecretToken}
    {id : Uuid} {plan : EnrolmentPlan} {operator : User} {outcome : Except AuthError SessionPrincipal}
    (hengine : engine.Serves) (hs : db.Abstracts s)
    (hdevice : device.Accepted engine (device.Beside s user.id))
    (hunstored : ∀ k ∈ db.passkeyCredentials, k.credentialId ≠ device.credential.credentialId)
    (hplan : plan.InTime config (times.issueAt + config.capabilityTtl))
    (huser : s.users user.id = some user) (henabled : user.enabled = true)
    (hhandle : user.webauthnHandle = device.handle)
    (hoperator : s.users operatorId = some operator)
    (hnone : ∀ recovery, s.recoveries recovery.request.id = some recovery →
      recovery.request.userId = user.id → recovery.request.approvedAt ≠ none)
    (hends : EndsAlone (device.recover config engine operatorId user.id times token id plan) db
      outcome) :
    ∃ principal, outcome = .ok principal ∧ principal.user = user.next :=
  hends.ok (succeeds_recover hengine hdevice hplan (hs.holds hunstored) huser henabled hhandle
    hoperator hnone (fun _ hc howner => ⟨howner, Or.inl hc⟩)
    fun _ hkeeps howner => ⟨howner, Or.inr hkeeps⟩)

/-- **An operator gets back in with the break-glass command**, which revokes the lost passkey, and
    without anybody's approval. -/
theorem break_glass_gets_in {now : DateTime} {credentialId : Uuid} {given : Capability}
    {reason : String} {plan : EnrolmentPlan} {credential : StoredCredential}
    {outcome : Except AuthError SessionPrincipal}
    (hengine : engine.Serves) (hs : db.Abstracts s)
    (hdevice : device.Accepted engine (device.Beside (s.dropCredential credentialId) user.id))
    (hunstored : ∀ k ∈ db.passkeyCredentials, k.credentialId ≠ device.credential.credentialId)
    (hplan : plan.InTime config given.expiresAt)
    (hheld : s.credentials credentialId = some credential)
    (howner : credential.userId = user.id) (hgiven : given.userId = user.id)
    (hpurpose : given.purpose = .operatorRecovery) (huser : s.users user.id = some user)
    (hrole : user.role = .operator) (henabled : user.enabled = true)
    (hhandle : user.webauthnHandle = device.handle) (hfresh : db.FreshCapability given)
    (hreason : storableText reason = true)
    (honly : ∀ hash other, s.capabilities hash = some other → other.purpose = .operatorRecovery →
      plan.startAt < other.expiresAt → other.userId = user.id)
    (hends : EndsAlone (device.breakGlass config engine credentialId given now reason plan) db
      outcome) :
    ∃ principal, outcome = .ok principal ∧ principal.user = user.next := by
  refine hends.ok (succeeds_breakGlass_bootstrap hengine hdevice hplan (hs.holds hunstored) hheld
    howner hgiven hpurpose huser hrole henabled hhandle hfresh hreason honly
    (fun c hid hc howner => ⟨howner, Or.inl ?_⟩) fun c hkeeps howner => ⟨howner, Or.inr hkeeps⟩)
  exact (Function.update_of_ne hid ..).trans hc

end GettingIn

/-! ## One device -/

section Sample

attribute [local instance] Reference.crates

/-- A device that `steadyEngine` accepts. -/
def sampleDevice : Device := ⟨1, ⟨asBytes "d", .null⟩, fun _ => .string "d", fun _ => .null⟩

theorem sampleDevice_accepted {known : StoredCredential → Prop}
    (h : ∀ c, known c → sampleDevice.Keeps c) : sampleDevice.Accepted steadyEngine known where
  starts _ _ _ _ _ := ⟨_, rfl⟩
  registers := by
    rintro seed user credentials challenge state hhandle hunheld hdrawn
    rfl
  asks _ := ⟨_, rfl⟩
  names _ _ _ _ := rfl
  logsIn := by
    rintro seed challenge state credentials hdrawn hknown ⟨c, hc, hkeeps⟩
    cases credentials with
    | nil => cases hc
    | cons first rest => exact ⟨_, rfl, (h first (hknown first List.mem_cons_self)).1⟩

def samplePlan : EnrolmentPlan :=
  ⟨10, 11, 0, 50, ⟨12, 13, 14, 0, 51, 52, sampleToken 1, sampleToken 2⟩⟩

theorem samplePlan_inTime : samplePlan.InTime .default 100 := by
  refine ⟨?_, ?_, ?_, ?_, ?_, ?_⟩ <;> decide

instance AuthCall.decidableDraws (env : Env) (db : Database) :
    (c : AuthCall) → Decidable (c.Draws env db)
  | .insertCeremony started =>
      inferInstanceAs (Decidable (∀ k ∈ db.authCeremonies, k.id ≠ started.id))
  | .completeAuthentication _ _ created _ _ =>
      inferInstanceAs (Decidable (∀ s ∈ db.authSessions,
        s.id ≠ created.id ∧ s.tokenHash ≠ created.tokenHash.asBytes))
  | .approveUserWithSetup _ issued _ _ | .issueRecoverySetup _ issued _ _ =>
      inferInstanceAs (Decidable (∀ k ∈ db.authCapabilities,
        k.id ≠ issued.id ∧ k.tokenHash ≠ issued.tokenHash.asBytes))
  | .createRecovery .. => inferInstanceAs (Decidable (∀ r ∈ db.recoveryRequests, r.id ≠ env.fresh))
  | .userById _ | .userByHandle _ | .credentialsForUser _ | .operatorWithoutCredential
  | .operatorExists | .operatorRecoveryWindow _ | .capability .. | .insertCapability _
  | .insertUser .. | .rotateAllAuthEpochs .. | .ceremony .. | .completeRegistration ..
  | .session .. | .rotateSessionCsrf .. | .deleteSession _ | .pendingRecoveries
  | .approveRecovery .. | .breakGlass .. => .isTrue trivial

/-- `Executes` as a test of the environment. -/
def executes (env : Env) (c : AuthCall) (db : Database) : Bool :=
  decide (env.left = none ∧ c.Draws env db ∧ (∀ k ∈ db.passkeyCredentials, k.id ≠ env.fresh) ∧
    ∀ u ∈ db.humanUsers, u.authEpoch < 2 ^ 63 - 1)

theorem executes_of_test (env : Env) (c : AuthCall) (db : Database) (h : executes env c db = true) :
    Executes c db (perform env c db).1 (perform env c db).2 := by
  obtain ⟨hlasts, hdraws, hfresh, hepochs⟩ := of_decide_eq_true h
  exact ⟨env, hlasts, rfl, hdraws, hfresh, hepochs⟩

theorem endsAlone_of_some {client : Auth SessionPrincipal} {db : Database} (ids : List Uuid)
    (h : (client.run.alone perform executes db (ids.map sampleEnv)).isSome = true) :
    ∃ outcome, EndsAlone client db outcome := by
  obtain ⟨outcome, houtcome⟩ := Option.isSome_iff_exists.1 h
  have hinit : Run Executes db (fun _ : Unit => client.run) [] db fun _ => client.run := .init
  obtain ⟨tr, db', pool, run, hdone⟩ := hinit.of_alone (t := ()) executes_of_test houtcome
  exact ⟨outcome, tr, db', pool, run, hdone⟩

def seededOperator (handle : Uuid) : User :=
  ⟨sampleOperator, handle, "operator@example.com", "Operator", .operator, true, 1⟩

def sampleSeeding (handle : Uuid) : AuthCall :=
  .insertUser (seededOperator handle) 0
    ⟨"operator.seeded", none, some sampleOperator, .object []⟩

/-- The migrated database with one operator. -/
def seededDatabase (handle : Uuid) : Database :=
  (perform (sampleEnv 0) (sampleSeeding handle) .empty).2

theorem seededDatabase_abstracts {handle : Uuid}
    (hperform : perform (sampleEnv 0) (sampleSeeding handle) .empty =
      (.ok (), seededDatabase handle)) :
    (seededDatabase handle).Abstracts (LiveStore.empty.addUser (seededOperator handle)) := by
  obtain ⟨s, ⟨-, rfl⟩, hs⟩ := abstracts_empty.step hperform
  exact hs

def sampleJoin : Auth SessionPrincipal :=
  sampleDevice.join .default steadyEngine sampleOperator sampleNobody "user@example.com" "User" 9
    (sampleToken 3) 60 samplePlan

/-- Whoever had no passkey has only the device's. -/
theorem keeps_of_beside {handle : Uuid} {userId : UserId} {c : StoredCredential}
    (h : sampleDevice.Beside (LiveStore.empty.addUser (seededOperator handle)) userId c) :
    sampleDevice.Keeps c := by
  obtain ⟨-, hheld | hkeeps⟩ := h
  · cases hheld
  · exact hkeeps

/-- The operator approves a second user, who gets in. -/
theorem approved_user_gets_in_sample :
    ∃ outcome, EndsAlone sampleJoin (seededDatabase 2) outcome ∧
      ∃ principal, outcome = .ok principal ∧ principal.user.id = sampleNobody := by
  obtain ⟨outcome, hends⟩ : ∃ outcome, EndsAlone sampleJoin (seededDatabase 2) outcome :=
    endsAlone_of_some (List.range 14) (by decide +kernel)
  have hplan : samplePlan.InTime .default (9 + AuthConfig.default.capabilityTtl) :=
    ⟨by decide, by decide, by decide, samplePlan_inTime.login⟩
  obtain ⟨principal, hok, huser⟩ := approved_user_gets_in steadyEngine_serves
    (seededDatabase_abstracts rfl) (sampleDevice_accepted fun c => keeps_of_beside)
    (fun k hk => absurd hk List.not_mem_nil) hplan (by decide) ⟨by decide, by decide⟩ rfl (by decide)
    rfl hends
  exact ⟨outcome, hends, principal, hok, congrArg User.id huser⟩

def sampleTimes : RecoveryTimes := ⟨7, 8, 9⟩

def sampleRecover : Auth SessionPrincipal :=
  sampleDevice.recover .default steadyEngine sampleOperator (seededOperator 1).id sampleTimes
    (sampleToken 3) 60 samplePlan

/-- The operator recovers. -/
theorem recovered_user_gets_in_sample :
    ∃ outcome, EndsAlone sampleRecover (seededDatabase 1) outcome ∧
      ∃ principal, outcome = .ok principal ∧ principal.user = (seededOperator 1).next := by
  obtain ⟨outcome, hends⟩ : ∃ outcome, EndsAlone sampleRecover (seededDatabase 1) outcome :=
    endsAlone_of_some (List.range 15) (by decide +kernel)
  have hplan : samplePlan.InTime .default (sampleTimes.issueAt + AuthConfig.default.capabilityTtl) :=
    ⟨by decide, by decide, by decide, samplePlan_inTime.login⟩
  have huser : (LiveStore.empty.addUser (seededOperator 1)).users (seededOperator 1).id =
      some (seededOperator 1) := rfl
  have hin := recovered_user_gets_in steadyEngine_serves (seededDatabase_abstracts rfl)
    (sampleDevice_accepted fun c => keeps_of_beside) (fun k hk => absurd hk List.not_mem_nil) hplan
    huser rfl rfl huser
    (fun recovery hrecovery => absurd hrecovery (Option.some_ne_none _).symm) hends
  exact ⟨outcome, hends, hin⟩

/-- An operator has registered the passkey "k". -/
def registeredDatabase : Database := (admissionRun [0, 0, 0, 1, 1, 1, 2, 2]).state

def sampleRescue : Auth SessionPrincipal :=
  sampleDevice.breakGlass .default steadyEngine 30 ⟨60, sampleOperator, .operatorRecovery,
    (sampleToken 7).hash, 100⟩ 9 "lost platform passkey" samplePlan

/-- The operator has lost the passkey "k". -/
theorem break_glass_gets_in_sample :
    ∃ outcome, EndsAlone sampleRescue registeredDatabase outcome ∧
      ∃ principal, outcome = .ok principal ∧ principal.user = (seededOperator 1).next := by
  obtain ⟨outcome, hends⟩ : ∃ outcome, EndsAlone sampleRescue registeredDatabase outcome :=
    endsAlone_of_some (List.range 11) (by decide +kernel)
  obtain ⟨s, hs⟩ : ∃ s, registeredDatabase.Abstracts s :=
    (admissionRun_history [0, 0, 0, 1, 1, 1, 2, 2]).storeRun.abstracts
  -- one user with one passkey, and no capability
  have huser : s.users (seededOperator 1).id = some (seededOperator 1) :=
    (hs.shows.users _ _).2 ⟨rfl, _, List.mem_singleton_self _, rfl⟩
  have hheld : s.credentials 30 = some ⟨30, sampleOperator, asBytes "k", .null, none⟩ :=
    (hs.shows.credentials _ _).2 ⟨rfl, _, List.mem_singleton_self _, rfl, rfl⟩
  have honly : ∀ c : StoredCredential, s.credentials c.id = some c → c.id = 30 := by
    intro c hc
    obtain ⟨-, k, hk, hkept⟩ := (hs.shows.credentials _ _).1 hc
    obtain rfl := List.mem_singleton.1 hk
    exact (StoredCredential.row_of_tryFrom hkept.2).1.symm
  have hnone : ∀ hash, s.capabilities hash = none := by
    intro hash
    refine Option.eq_none_iff_forall_ne_some.2 fun given hgiven => ?_
    obtain ⟨-, k, hk, -⟩ := (hs.shows.capabilities _ _).1 hgiven
    exact List.not_mem_nil hk
  have hdevice : ∀ c, sampleDevice.Beside (s.dropCredential 30) sampleOperator c →
      sampleDevice.Keeps c := by
    rintro c ⟨-, hc | hkeeps⟩
    · -- the command revokes the only one
      change Function.update s.credentials 30 none c.id = _ at hc
      by_cases hid : c.id = 30
      · rw [hid, Function.update_self] at hc
        cases hc
      · rw [Function.update_of_ne hid] at hc
        exact absurd (honly c hc) hid
    · exact hkeeps
  have hin := break_glass_gets_in steadyEngine_serves hs (sampleDevice_accepted hdevice)
     (by decide +kernel) samplePlan_inTime hheld rfl rfl rfl huser rfl
    rfl rfl (fun k hk => absurd hk List.not_mem_nil) (by decide)
    (fun hash other hother => absurd ((hnone hash).symm.trans hother) (Option.some_ne_none _).symm)
    hends
  exact ⟨outcome, hends, hin⟩

end Sample

end RsConsole
