import RsConsole.Server.Failures
import RsConsole.Server.Grants

set_option autoImplicit false

/-! # What the store does not refuse

`store_refines` says that whatever the repository answers is allowed by the store's specification. It
would also hold of a repository that refuses everything. Here the converse: on a connection that
lasts, with values that the tables can take (`AuthCall.Fits`), a call is refused only when the
specification has no answer to it. So what a registration, a login or a break-glass needs can be said
of the maps, and of the events that made them. -/

namespace RsConsole

open Library Library.Table Database PgAuthStore

/-- Nobody else has the handle or the email. -/
def Database.NewPerson (db : Database) (user : User) : Prop :=
  ∀ u ∈ db.humanUsers, u.webauthnHandle ≠ user.webauthnHandle ∧ u.email ≠ user.email

/-- A credential that is not stored, also not as a revoked one, and a new id for its row. -/
def Database.NewCredential (db : Database) (id : Uuid) (credential : VerifiedCredential) : Prop :=
  ∀ k ∈ db.passkeyCredentials, k.id ≠ id ∧ k.credentialId ≠ credential.credentialId

/-- No epoch is at the end of its range. -/
def Database.EpochsBounded (db : Database) : Prop := ∀ u ∈ db.humanUsers, u.authEpoch < 2 ^ 63 - 1

/-- The database with a new user. -/
def Database.withUser (db : Database) (user : User) (now : DateTime) : Database :=
  { db with humanUsers := db.humanUsers ++ [user.row now] }

/-- Whoever requested the recovery exists. -/
def Database.RequesterExists (db : Database) (recoveryId : Uuid) : Prop :=
  ∀ r ∈ db.recoveryRequests, r.id = recoveryId → db.hasUser r.userId = true

/-- The tables take the call's values: beyond what makes the call `Ready`, what has been drawn is new
    and the users that are named exist. The calls of the command line have their own conditions. -/
def AuthCall.Fits (env : Env) (db : Database) : AuthCall → Prop
  | .insertCapability given => db.FreshCapability given ∧ db.hasUser given.userId.value = true
  | .insertUser user now audit =>
      storableText user.email = true ∧ storableText user.displayName = true ∧ 0 < user.authEpoch ∧
        db.NewPerson user ∧ storable audit.data = true ∧ (db.withUser user now).Attributes audit
  | .rotateAllAuthEpochs _ reason => storableText reason = true ∧ db.EpochsBounded
  | .breakGlass _ given _ reason =>
      db.FreshCapability given ∧ storableText reason = true ∧ db.EpochsBounded
  | .approveUserWithSetup user given operatorId now =>
      (AuthCall.approveUserWithSetup user given operatorId now).Ready env db ∧ db.NewPerson user ∧
        (db.withUser user now).hasUser operatorId.value = true
  | .completeRegistration ceremonyId capabilityHash credential now audit =>
      (AuthCall.completeRegistration ceremonyId capabilityHash credential now audit).Ready env db ∧
        db.NewCredential env.fresh credential
  | .approveRecovery recoveryId operatorId now =>
      (AuthCall.approveRecovery recoveryId operatorId now).Ready env db ∧
        db.hasUser operatorId.value = true ∧ db.RequesterExists recoveryId
  | .issueRecoverySetup recoveryId given operatorId now =>
      (AuthCall.issueRecoverySetup recoveryId given operatorId now).Ready env db ∧
        db.hasUser operatorId.value = true ∧ db.RequesterExists recoveryId
  | c => c.Ready env db

/-- The result is not an error. -/
def IsAnswer {α : Type} (r : Except AuthError α) (_ : Database) : Prop := r.isOk = true

section Methods

variable {env : Env} {db : Database} {s s' : LiveStore} {now idle : DateTime}

/-! ## Users that exist -/

theorem hasUser_of_entry (h : db.Shows s) {id : UserId} {user : User}
    (hentry : s.users id = some user) : db.hasUser id.value = true := by
  obtain ⟨rfl, u, hu, hkept⟩ := (h.users _ _).1 hentry
  exact hasUser_iff.2 ⟨u, hu, (User.row_of_tryFrom hkept).1⟩

theorem hasUser_withUser (user : User) (id : String) :
    (db.withUser user now).hasUser id = true ↔ db.hasUser id = true ∨ id = user.id.value :=
  hasUser_append db user now id

/-! ## Methods that cannot be refused -/

theorem lasts_readable {α β : Type} {query : Database → α} {decode : α → Except AuthError β}
    (h : ∀ e, decode (query db) ≠ .error e) :
    Tx.Lasts (fetch query >>= fun rows => Tx.ofExcept (decode rows)) IsAnswer db := by
  refine Tx.lasts_bind (Repo.lasts_fetch (Tx.lasts_ofExcept ?_))
  cases hr : decode (query db) with
  | error e => exact absurd hr (h e)
  | ok b => rfl

theorem lasts_used {tokenHash : SecretHash} {touch : AuthSession → Statement Unit}
    {principal : AuthSession × HumanUser → Except AuthError SessionPrincipal}
    (htouch : ∀ s, ∃ db', touch s db = .ok ((), db'))
    (hprincipal : ∀ row, Database.session tokenHash.asBytes now db = some row →
      ∃ p, principal row = .ok p) :
    Tx.Lasts (useSession tokenHash now touch principal) IsAnswer db := by
  refine Tx.lasts_bind (Tx.lasts_transaction (Tx.lasts_bind (Repo.lasts_fetch ?_)))
  cases hfound : Database.session tokenHash.asBytes now db with
  | none => exact Tx.lasts_pure (Tx.lasts_ofExcept rfl)
  | some row =>
      obtain ⟨db', htouched⟩ := htouch row.1
      obtain ⟨p, hp⟩ := hprincipal row hfound
      refine Tx.lasts_bind (Repo.lasts_execute htouched (Tx.lasts_pure (Tx.lasts_ofExcept ?_)))
      rw [transpose, hp]
      rfl

theorem Legible.principal_decodes (hd : db.Legible) {hash : List UInt8}
    {row : AuthSession × HumanUser} (hrow : Database.session hash now db = some row) :
    (∃ p, sessionPrincipal row = .ok p) ∧ ∀ csrfHash, ∃ p, rotatedPrincipal csrfHash row = .ok p := by
  have hmem := List.mem_of_head? hrow
  rw [mem_join] at hmem
  obtain ⟨user, huser⟩ := hd.users row.2 hmem.2.1
  obtain ⟨record, hrecord⟩ := hd.sessions row.1 hmem.1
  simp only [sessionPrincipal, rotatedPrincipal, huser, hrecord.csrfHash,
    SecretHash.fromSlice_asBytes]
  exact ⟨⟨_, rfl⟩, fun _ => ⟨_, rfl⟩⟩

theorem answered_session (hd : db.Legible) (hash : SecretHash) :
    Tx.Lasts (PgAuthStore.session hash now idle) IsAnswer db :=
  lasts_used (fun _ => ⟨_, rfl⟩) fun _ hrow => (Legible.principal_decodes hd hrow).1

theorem answered_rotateSessionCsrf (hd : db.Legible) (hash csrfHash : SecretHash) :
    Tx.Lasts (PgAuthStore.rotateSessionCsrf hash csrfHash now idle) IsAnswer db := by
  refine lasts_used (fun s => ?_) fun _ hrow => (Legible.principal_decodes hd hrow).2 csrfHash
  rw [touchSessionCsrf, if_pos csrfHash.length_asBytes]
  exact ⟨_, rfl⟩

variable (env) in
/-- The queries decode what they find. -/
theorem answered_reads (hd : db.Legible) : ∀ c : AuthCall, c.reads = true →
    Tx.Lasts (method env c) IsAnswer db := by
  intro c hreads
  cases c with
  | userById id =>
      refine lasts_readable fun e => ?_
      exact transpose_ne_error fun u hu => hd.users u (List.mem_of_find?_eq_some hu)
  | userByHandle handle =>
      refine lasts_readable fun e => ?_
      exact transpose_ne_error fun u hu => hd.users u (List.mem_of_find?_eq_some hu)
  | credentialsForUser userId =>
      refine lasts_readable fun e => mapM_ne_error fun k hk => hd.credentials k ?_
      rw [Database.credentialsForUser, mem_orderBy, List.mem_filter] at hk
      exact hk.1
  | operatorWithoutCredential =>
      refine lasts_readable fun e => transpose_ne_error fun u hu => hd.users u ?_
      have hmem := List.mem_of_head? hu
      rw [mem_orderBy, List.mem_filter] at hmem
      exact hmem.1
  | operatorExists => exact Repo.lasts_fetch rfl
  | operatorRecoveryWindow now =>
      refine lasts_readable fun e => transpose_ne_error fun row hrow => ?_
      have hmem := List.mem_of_head? hrow
      rw [mem_join, mem_orderBy, List.mem_filter, List.mem_filter] at hmem
      obtain ⟨user, huser⟩ := hd.users row.2 hmem.2.1.1
      obtain ⟨given, hgiven⟩ := hd.capabilities row.1 hmem.1.1
      have hhash := SecretHash.fromSlice_asBytes given.tokenHash
      rw [← (Capability.row_of_tryFrom hgiven).2.2.1] at hhash
      rw [recoveryWindow, hhash, huser]
      exact ⟨_, rfl⟩
  | capability hash purpose now =>
      refine lasts_readable fun e => ?_
      exact transpose_ne_error fun k hk => hd.capabilities k (List.mem_of_find?_eq_some hk)
  | ceremony id kind now =>
      refine lasts_readable fun e => ?_
      exact transpose_ne_error fun k hk => hd.ceremonies k (List.mem_of_find?_eq_some hk)
  | session hash now idle => exact answered_session hd hash
  | rotateSessionCsrf hash csrfHash now idle => exact answered_rotateSessionCsrf hd hash csrfHash
  | pendingRecoveries =>
      refine lasts_readable fun e => mapM_ne_error fun r hr => hd.recoveries r ?_
      rw [Database.pendingRecoveries, mem_orderBy, List.mem_filter] at hr
      exact hr.1
  | _ => cases hreads

/-! ## Users -/

/-- A user whom the maps do not have is stored under none of the keys. -/
theorem untaken_of_new (h : db.Shows s) (hd : db.Legible) {user : User}
    (hnew : s.users user.id = none) (hperson : db.NewPerson user) : db.Untaken user := by
  intro u hu
  refine ⟨fun hid => ?_, hperson u hu⟩
  obtain ⟨held, hheld⟩ := hd.users u hu
  have hkey : held.id = user.id :=
    OpaqueId.value_injective ((User.row_of_tryFrom hheld).1.symm.trans hid)
  exact h.users.no_row hnew hu hheld hkey

theorem insertHumanUser_new (h : db.Shows s) (hd : db.Legible) {user : User}
    (hemail : storableText user.email = true) (hname : storableText user.displayName = true)
    (hepoch : 0 < user.authEpoch) (hnew : s.users user.id = none) (hperson : db.NewPerson user) :
    insertHumanUser (user.row now) db = .ok ((), db.withUser user now) := by
  rcases insertHumanUser_eq now hemail hname hepoch with ⟨-, hinsert⟩ | ⟨htaken, -⟩
  · exact hinsert
  · exact absurd (untaken_of_new h hd hnew hperson) htaken

theorem answered_insertUser (h : db.Abstracts s) {user : User} {audit : AuditEvent}
    (hfits : (AuthCall.insertUser user now audit).Fits env db)
    (hdoes : s.Does (.insertUser user now audit) () s') :
    Tx.Lasts (insertUser user now audit) IsAnswer db := by
  obtain ⟨hemail, hname, hepoch, hperson, hdata, hnames⟩ := hfits
  refine Tx.lasts_transaction (Tx.lasts_bind (Tx.lasts_exec_of_ok
    (insertHumanUser_new h.shows h.legible hemail hname hepoch hdoes.1 hperson) ?_))
  exact lasts_insertAudit hdata (fun _ => rfl) fun hnot => absurd hnames hnot

theorem answered_approveUserWithSetup (h : db.Abstracts s) {user : User} {given : Capability}
    {operatorId : UserId}
    (hfits : (AuthCall.approveUserWithSetup user given operatorId now).Fits env db)
    (hdoes : s.Does (.approveUserWithSetup user given operatorId now) () s') :
    Tx.Lasts (approveUserWithSetup env user given operatorId now) IsAnswer db := by
  obtain ⟨⟨hemail, hname, hepoch, howner, hfresh⟩, hperson, hoperator⟩ := hfits
  have huser : (db.withUser user now).hasUser user.id.value = true :=
    (hasUser_withUser user _).2 (Or.inr rfl)
  refine Tx.lasts_transaction (Tx.lasts_bind (Tx.lasts_exec_of_ok
    (insertHumanUser_new h.shows h.legible hemail hname hepoch hdoes.1 hperson) ?_))
  refine Tx.lasts_bind (Repo.lasts_execute (insertAuthCapability_fresh hfresh ?_) ?_)
  · exact howner ▸ huser
  · exact lasts_insertAudit (storable_ofId _ (by decide)) (fun _ => rfl)
      fun hnot => absurd ⟨hoperator, huser⟩ hnot

/-! ## Invalidation -/

theorem answered_rotateAllAuthEpochs {reason : String}
    (hfits : (AuthCall.rotateAllAuthEpochs now reason).Fits env db) :
    Tx.Lasts (rotateAllAuthEpochs now reason) IsAnswer db := by
  obtain ⟨hreason, hepochs⟩ := hfits
  have hbound : db.humanUsers.any (fun u => true && decide (2 ^ 63 ≤ u.authEpoch + 1)) = false := by
    rw [List.any_eq_false]
    intro u hu
    have := hepochs u hu
    simp only [Bool.true_and, decide_eq_true_eq]
    omega
  have hadvance : ∃ n db', advanceEpochs (fun _ => true) now db = .ok (n, db') := by
    unfold advanceEpochs
    rw [hbound]
    exact ⟨_, _, rfl⟩
  obtain ⟨n, db', hadvance⟩ := hadvance
  refine Tx.lasts_transaction (Tx.lasts_bind (Repo.lasts_execute hadvance ?_))
  refine Tx.lasts_bind (Repo.lasts_execute rfl ?_)
  refine Tx.lasts_bind (Repo.lasts_execute rfl ?_)
  refine Tx.lasts_bind (Repo.lasts_execute rfl ?_)
  refine Tx.lasts_bind (lasts_insertAudit ?_ (fun _ => Tx.lasts_pure rfl) fun hnot => ?_)
  · have hkeys : storableText "reason" = true ∧ storableText "users" = true := by decide
    simp [storable, storableMembers, hkeys, hreason, usizeNumber]
  · exact absurd ⟨rfl, rfl⟩ hnot

theorem answered_approveRecovery (h : db.Abstracts s) {recoveryId : Uuid} {operatorId : UserId}
    (hfits : (AuthCall.approveRecovery recoveryId operatorId now).Fits env db)
    (hdoes : s.Does (.approveRecovery recoveryId operatorId now) () s') :
    Tx.Lasts (approveRecovery recoveryId operatorId now) IsAnswer db := by
  obtain ⟨hepochs, hoperator, hrequester⟩ := hfits
  obtain ⟨recovery, hentry, happroved, -⟩ := hdoes
  obtain ⟨hid, r, hr, hkept⟩ := (h.shows.recoveries _ _).1 hentry
  obtain ⟨hrid, huser, hra⟩ := RecoveryRequest.row_of_tryFrom hkept.2.1
  have hfound : db.recoveryRequests.filter (fun r => decide (r.id = recoveryId ∧ r.Pending)) = [r] := by
    refine h.consistent.recoveryIds.filter_eq hr fun r' hr' => ?_
    rw [decide_eq_true_eq]
    refine ⟨fun hsel => h.consistent.recoveryIds.eq_of_mem hr' hr
      (hsel.1.trans (hrid.trans hid).symm), ?_⟩
    rintro rfl
    exact ⟨hrid.trans hid, hra.trans happroved, hkept.1⟩
  have howner : db.hasUser r.userId = true := hrequester r hr (hrid.trans hid)
  obtain ⟨userId, hparse, -⟩ := except_bind_ok hkept.2.1
  refine Tx.lasts_transaction (Tx.lasts_bind (Tx.lasts_exec ?_ ?_))
  · rintro approved db₁ happrove
    obtain ⟨rfl, rfl⟩ := approveRequest_ok happrove
    rw [hfound]
    refine Tx.lasts_bind (Tx.lasts_pure (Tx.lasts_bind (lasts_invalidateUserAuth hepochs ?_)))
    refine Tx.lasts_bind (Tx.lasts_ofExcept ?_)
    rw [hparse]
    refine lasts_insertAudit (storable_ofId _ (by decide)) (fun _ => rfl) fun hnot => ?_
    -- the invalidation keeps the users
    refine absurd ⟨?_, ?_⟩ hnot
    · exact (hasUser_invalidated ..).trans hoperator
    · rw [parseUserId_ok hparse] at howner
      exact (hasUser_invalidated ..).trans howner
  · intro d happrove
    unfold approveRequest at happrove
    simp only [hoperator, Bool.not_true, Bool.and_false, Bool.false_eq_true, if_false] at happrove
    cases happrove

theorem answered_issueRecoverySetup (h : db.Abstracts s) {recoveryId : Uuid} {given : Capability}
    {operatorId : UserId}
    (hfits : (AuthCall.issueRecoverySetup recoveryId given operatorId now).Fits env db)
    (hdoes : s.Does (.issueRecoverySetup recoveryId given operatorId now) () s') :
    Tx.Lasts (issueRecoverySetup env recoveryId given operatorId now) IsAnswer db := by
  obtain ⟨hfresh, hoperator, hrequester⟩ := hfits
  obtain ⟨recovery, hentry, happroved, hissued, huser, -⟩ := hdoes
  obtain ⟨hid, r, hr, hkept⟩ := (h.shows.recoveries _ _).1 hentry
  obtain ⟨hrid, hruser, hra⟩ := RecoveryRequest.row_of_tryFrom hkept.2.1
  have howner : db.hasUser given.userId.value = true := by
    rw [← huser, ← hruser]
    exact hrequester r hr (hrid.trans hid)
  refine Tx.lasts_transaction (Tx.lasts_bind (Repo.lasts_execute rfl ?_))
  refine Tx.lasts_bind (Tx.lasts_ensure (fun _ => ?_) fun hnot => absurd ?_ hnot)
  · refine Tx.lasts_bind (Repo.lasts_execute (insertAuthCapability_fresh hfresh howner) ?_)
    exact lasts_insertAudit (storable_ofId _ (by decide)) (fun _ => rfl)
      fun hnot => absurd ⟨hoperator, howner⟩ hnot
  · refine h.consistent.recoveryIds.length_filter_one hr fun r' hr' => ?_
    rw [decide_eq_true_eq]
    refine ⟨fun hsel => h.consistent.recoveryIds.eq_of_mem hr' hr
      (hsel.1.trans (hrid.trans hid).symm), ?_⟩
    rintro rfl
    have hnotIssued : r'.setupIssuedAt = none := by
      rw [hkept.2.2] at hissued
      exact Option.isSome_eq_false_iff.1 hissued |> Option.isNone_iff_eq_none.1
    exact ⟨hrid.trans hid, fun hnone => happroved (hra.symm.trans hnone), hnotIssued, hkept.1,
      hruser.trans (congrArg _ huser)⟩

theorem answered_createRecovery (h : db.Abstracts s) {userId : UserId}
    {a : RsConsole.RecoveryRequest} (hfits : (AuthCall.createRecovery userId now).Fits env db)
    (hdoes : s.Does (.createRecovery userId now) a s') :
    Tx.Lasts (createRecovery env userId now) IsAnswer db := by
  obtain ⟨-, -, -, hexists, hnone, -, -⟩ := hdoes
  obtain ⟨user, hentry⟩ := Option.isSome_iff_exists.1 hexists
  have howner : db.hasUser userId.value = true := hasUser_of_entry h.shows hentry
  have hfree : db.recoveryRequests.any (fun r => decide (env.fresh = r.id ∨
      ((⟨env.fresh, userId.value, now, none, none, none, none⟩ : Database.RecoveryRequest).Pending ∧
        r.Pending ∧ userId.value = r.userId))) = false := by
    rw [List.any_eq_false]
    intro r hr
    rw [decide_eq_true_eq]
    rintro (hid | ⟨-, hpending, huser⟩)
    · exact hfits r hr hid.symm
    · obtain ⟨request, hrequest⟩ := h.legible.recoveries r hr
      obtain ⟨hrid, hruser, hra⟩ := RecoveryRequest.row_of_tryFrom hrequest
      have hopen := h.shows.recoveries.entry hr
        (v := ⟨request, r.setupIssuedAt.isSome⟩) ⟨hpending.2, hrequest, rfl⟩
      refine hnone _ hopen (OpaqueId.value_injective (hruser.symm.trans huser.symm)) ?_
      exact hra.symm.trans hpending.1
  have hinsert : ∃ db', insertRecoveryRequest
      { id := env.fresh, userId := userId.value, requestedAt := now } db = .ok ((), db') := by
    unfold insertRecoveryRequest
    rw [insertRow_valid]
    simp only
    rw [hfree, howner]
    exact ⟨_, rfl⟩
  obtain ⟨db', hinsert⟩ := hinsert
  exact Tx.lasts_bind (Tx.lasts_exec_of_ok hinsert (Tx.lasts_pure rfl))

/-! ## Completions -/

/-- The only row that a completion spends. -/
theorem filter_ceremony (h : db.Abstracts s) {id : Uuid} {ceremony : Ceremony}
    (hentry : s.ceremonies id = some ceremony) (hlive : now < ceremony.expiresAt) :
    ∃ r ∈ db.authCeremonies, ceremony.KeptIn r ∧ r.id = id ∧ r.Live now ∧
      ∀ r' ∈ db.authCeremonies, r'.id = id → r' = r := by
  obtain ⟨hid, r, hr, hkept⟩ := (h.shows.ceremonies _ _).1 hentry
  obtain ⟨hrid, -, -, hexpires⟩ := Ceremony.row_of_tryFrom hkept.2
  refine ⟨r, hr, hkept, hrid.trans hid, ⟨hkept.1, hexpires ▸ hlive⟩, fun r' hr' hid' => ?_⟩
  exact h.consistent.ceremonyIds.eq_of_mem hr' hr (hid'.trans (hrid.trans hid).symm)

theorem insertPasskeyCredential_new {credential : VerifiedCredential} {id : Uuid} {userId : String}
    (hnew : db.NewCredential id credential) (hstorable : storable credential.publicData = true)
    (howner : db.hasUser userId = true) :
    insertPasskeyCredential (credential.row id userId now) db =
      .ok ((), { db with
        passkeyCredentials := db.passkeyCredentials ++ [credential.row id userId now] }) := by
  have hnone : db.passkeyCredentials.any (fun k => decide ((credential.row id userId now).id = k.id ∨
      (credential.row id userId now).credentialId = k.credentialId)) = false := by
    simp only [List.any_eq_false, decide_eq_true_eq, not_or]
    exact fun k hk => ⟨(hnew k hk).1.symm, (hnew k hk).2.symm⟩
  have hdata : storable (credential.row id userId now).publicData = true := hstorable
  have hrefers : db.hasUser (credential.row id userId now).userId = true := howner
  unfold insertPasskeyCredential
  rw [hdata, insertRow_valid, hnone, hrefers]
  rfl

theorem lasts_checkBootstrap_ok {kind : String} {Q : Except AuthError Unit → Database → Prop}
    (hfree : kind = "operator_bootstrap" → db.operatorCredentials = []) (hok : Q (.ok ()) db) :
    Tx.Lasts (checkBootstrap kind) Q db := by
  unfold checkBootstrap
  split
  · next hkind =>
      refine Tx.lasts_bind (Repo.lasts_fetch (Tx.lasts_ensure (fun _ => hok) fun hnot => ?_))
      exact absurd (List.length_eq_zero_iff.2 (hfree hkind)) hnot
  · exact Tx.lasts_pure hok

theorem lasts_spendCapability_ok {capabilityHash : Option SecretHash}
    {Q : Except AuthError Unit → Database → Prop}
    (hlive : ∀ hash, capabilityHash = some hash → (db.authCapabilities.filter
      fun k => decide (k.tokenHash = hash.asBytes ∧ k.Live now)).length = 1)
    (hok : ∀ authCapabilities, Q (.ok ()) { db with authCapabilities }) :
    Tx.Lasts (spendCapability capabilityHash now) Q db := by
  cases capabilityHash with
  | none => exact Tx.lasts_pure (hok db.authCapabilities)
  | some hash =>
      refine Tx.lasts_bind (Repo.lasts_execute rfl (Tx.lasts_ensure (fun _ => hok _) fun hnot => ?_))
      exact absurd (hlive hash rfl) hnot

theorem filter_capability (h : db.Abstracts s) {hash : SecretHash} {given : Capability}
    (hentry : s.capabilities hash = some given) (hlive : now < given.expiresAt) :
    (db.authCapabilities.filter
      fun k => decide (k.tokenHash = hash.asBytes ∧ k.Live now)).length = 1 := by
  obtain ⟨htoken, k, hk, hkept⟩ := (h.shows.capabilities _ _).1 hentry
  obtain ⟨-, -, hkhash, hexpires⟩ := Capability.row_of_tryFrom hkept.2
  have hmatch : k.tokenHash = hash.asBytes := hkhash.trans (congrArg _ htoken)
  refine h.consistent.capabilityHashes.length_filter_one hk fun k' hk' => ?_
  rw [decide_eq_true_eq]
  refine ⟨fun hsel => h.consistent.capabilityHashes.eq_of_mem hk' hk (hsel.1.trans hmatch.symm), ?_⟩
  rintro rfl
  exact ⟨hmatch, hkept.1, hexpires ▸ hlive⟩

theorem answered_completeRegistration (h : db.Abstracts s) {ceremonyId : Uuid}
    {capabilityHash : Option SecretHash} {credential : VerifiedCredential} {audit : AuditEvent}
    (hfits : (AuthCall.completeRegistration ceremonyId capabilityHash credential now audit).Fits env
      db)
    (hdoes : s.Does (.completeRegistration ceremonyId capabilityHash credential now audit) () s') :
    Tx.Lasts (completeRegistration env ceremonyId capabilityHash credential now audit) IsAnswer
      db := by
  obtain ⟨⟨hcredential, haudit, hnames, howned⟩, hnew⟩ := hfits
  obtain ⟨ceremony, userId, _, hentry, hlive, howner, hbootstrap, hcapability, -⟩ := hdoes
  obtain ⟨r, hr, hkept, hrid, hrlive, honly⟩ := filter_ceremony h hentry hlive
  obtain ⟨-, hkind, hruser, -⟩ := Ceremony.row_of_tryFrom hkept.2
  have hfound : db.authCeremonies.filter
      (fun k => decide (k.id = ceremonyId ∧ k.Live now)) = [r] := by
    refine h.consistent.ceremonyIds.filter_eq hr fun r' hr' => ?_
    rw [decide_eq_true_eq]
    refine ⟨fun hsel => honly r' hr' hsel.1, ?_⟩
    rintro rfl
    exact ⟨hrid, hrlive⟩
  have huser : db.hasUser userId.value = true := by
    obtain ⟨owner, howner', hexists⟩ := howned r hr hrid
    rw [hruser, howner] at howner'
    cases howner'
    exact hexists
  refine Tx.lasts_transaction (Tx.lasts_bind (Repo.lasts_fetch (Tx.lasts_bind
    (Repo.lasts_execute rfl (Tx.lasts_bind ?_)))))
  rw [hfound]
  simp only [List.head?_cons, Option.map_some, hruser, howner]
  refine Tx.lasts_pure (Tx.lasts_bind (lasts_checkBootstrap_ok (fun hk => ?_) ?_))
  · refine of_not_not fun hsome => ?_
    exact hbootstrap (ceremonyName_injective (hkind.symm.trans hk))
      ((h.shows.registered_iff h.legible).2 hsome)
  refine Tx.lasts_bind (lasts_spendCapability_ok (fun hash hhash => ?_) fun authCapabilities => ?_)
  · obtain ⟨given, hgiven, hunexpired⟩ := hcapability hash hhash
    exact filter_capability h hgiven hunexpired
  · -- the statements before the credential is stored leave its table and the users alone
    refine Tx.lasts_bind (Tx.lasts_exec_of_ok
      (insertPasskeyCredential_new hnew hcredential huser) ?_)
    refine Tx.lasts_bind (Repo.lasts_execute rfl ?_)
    exact lasts_insertAudit haudit (fun _ => rfl) fun hnot => absurd hnames hnot

theorem answered_completeAuthentication (env : Env) (h : db.Abstracts s) {ceremonyId : Uuid}
    {verification : AuthenticationVerification} {created : SessionRecord} {audit : AuditEvent}
    (hfits : (AuthCall.completeAuthentication ceremonyId verification created now audit).Fits env
      db)
    (hdoes : s.Does (.completeAuthentication ceremonyId verification created now audit) () s') :
    Tx.Lasts (completeAuthentication ceremonyId verification created now audit) IsAnswer db := by
  obtain ⟨hdata, haudit, hnames, huser, hfresh⟩ := hfits
  obtain ⟨⟨ceremony, hentry, hkind, hlive⟩, ⟨credential, hcredential, howner, hid⟩, -, -⟩ := hdoes
  obtain ⟨r, hr, hkept, hrid, hrlive, honly⟩ := filter_ceremony h hentry hlive
  obtain ⟨-, hrkind, -⟩ := Ceremony.row_of_tryFrom hkept.2
  obtain ⟨-, k, hk, hunrevoked, hdecodes⟩ := (h.shows.credentials _ _).1 hcredential
  obtain ⟨-, hkuser, hkid, -⟩ := StoredCredential.row_of_tryFrom hdecodes
  refine Tx.lasts_transaction (Tx.lasts_bind (Repo.lasts_execute rfl ?_))
  refine Tx.lasts_bind (Tx.lasts_ensure (fun _ => ?_) fun hnot => absurd ?_ hnot)
  · refine Tx.lasts_bind (Tx.lasts_exec (fun used db₁ huse => ?_) fun d huse => ?_)
    · obtain ⟨hused, rfl⟩ := useCredential_ok huse
      refine Tx.lasts_bind (Tx.lasts_ensure (fun _ => ?_) fun hnot => absurd ?_ hnot)
      · refine Tx.lasts_bind (Repo.lasts_execute (insertAuthSession_fresh hfresh huser) ?_)
        exact lasts_insertAudit haudit (fun _ => rfl) fun hnot => absurd hnames hnot
      · rw [hused]
        refine h.consistent.credentialIds.length_filter_one hk fun k' hk' => ?_
        rw [decide_eq_true_eq]
        refine ⟨fun hsel => h.consistent.credentialIds.eq_of_mem hk' hk
          (hsel.2.1.trans (hkid.trans hid).symm), ?_⟩
        rintro rfl
        exact ⟨hkuser.trans (congrArg _ howner), hkid.trans hid, hunrevoked⟩
    · unfold useCredential at huse
      simp only [hdata] at huse
      cases huse
  · refine h.consistent.ceremonyIds.length_filter_one hr fun r' hr' => ?_
    rw [decide_eq_true_eq]
    refine ⟨fun hsel => honly r' hr' hsel.1, ?_⟩
    rintro rfl
    exact ⟨hrid, hrkind.trans (congrArg _ hkind), hrlive⟩

/-- An invalidation takes no id and no token. -/
theorem freshCapability_invalidated {p : String → Bool} {q : Option String → Bool}
    {given : Capability} (hfresh : db.FreshCapability given) :
    (db.invalidated p q now).FreshCapability given := by
  intro k' hk'
  obtain ⟨k, hk, rfl⟩ := mem_updateWhere.1 hk'
  split
  · exact hfresh k hk
  · exact hfresh k hk

theorem answered_breakGlass (h : db.Abstracts s) {credentialId : Uuid} {given : Capability}
    {reason : String} (hfits : (AuthCall.breakGlass credentialId given now reason).Fits env db)
    (hdoes : s.Does (.breakGlass credentialId given now reason) () s') :
    Tx.Lasts (breakGlass env credentialId given now reason) IsAnswer db := by
  obtain ⟨hfresh, hreason, hepochs⟩ := hfits
  obtain ⟨⟨credential, user, hcredential, howner, hentry, hrole⟩, -, -⟩ := hdoes
  obtain ⟨hid, k, hk, hunrevoked, hdecodes⟩ := (h.shows.credentials _ _).1 hcredential
  obtain ⟨hkid, hkuser, -⟩ := StoredCredential.row_of_tryFrom hdecodes
  obtain ⟨huid, u, hu, hukept⟩ := (h.shows.users _ _).1 hentry
  obtain ⟨huserId, -, hurole, -⟩ := User.row_of_tryFrom hukept
  have hkowner : k.userId = given.userId.value := hkuser.trans (congrArg _ howner)
  have hselected : k.id = credentialId ∧ k.revokedAt = none ∧
      ∃ u ∈ db.humanUsers, u.id = k.userId ∧ u.role = "operator" :=
    ⟨hkid.trans hid, hunrevoked, u, hu,
      huserId.trans ((congrArg _ huid).trans hkowner.symm), hurole.trans (congrArg _ hrole)⟩
  have hfound : db.passkeyCredentials.filter (fun c => decide (c.id = credentialId ∧
      c.revokedAt = none ∧ ∃ u ∈ db.humanUsers, u.id = c.userId ∧ u.role = "operator")) = [k] := by
    refine h.consistent.credentialRowIds.filter_eq hk fun k' hk' => ?_
    rw [decide_eq_true_eq]
    refine ⟨fun hsel => h.consistent.credentialRowIds.eq_of_mem hk' hk
      (hsel.1.trans hselected.1.symm), ?_⟩
    rintro rfl
    exact hselected
  refine Tx.lasts_transaction (Tx.lasts_bind (Repo.lasts_execute rfl ?_))
  rw [hfound]
  refine Tx.lasts_bind (Tx.lasts_pure (Tx.lasts_bind (Tx.lasts_ensure (fun _ => ?_) fun hnot => ?_)))
  · refine Tx.lasts_bind (lasts_invalidateUserAuth hepochs ?_)
    have hexists : db.hasUser given.userId.value = true := hasUser_of_entry h.shows hentry
    have howned : ∀ db' : Database, db'.humanUsers = db.humanUsers →
        (db'.invalidatedUser k.userId now).hasUser given.userId.value = true := by
      intro db' husers
      refine (hasUser_invalidated ..).trans ?_
      rw [← hexists]
      exact hasUser_of_ids (congrArg _ husers) _
    refine Tx.lasts_bind (Repo.lasts_execute
      (insertAuthCapability_fresh (freshCapability_invalidated hfresh) (howned _ rfl)) ?_)
    refine lasts_insertAudit ?_ (fun _ => rfl) fun hnot => absurd ⟨rfl, howned _ rfl⟩ hnot
    have hkeys : storableText "credential_id" = true ∧ storableText "reason" = true := by decide
    simp [storable, storableMembers, hkeys, storableText_uuidText, hreason]
  · exact absurd hkowner.symm hnot

/-! ## Calls -/

theorem answered_method {c : AuthCall} {a : c.Reply} (h : db.Abstracts s)
    (hfits : c.Fits env db) (hdoes : s.Does c a s') : Tx.Lasts (method env c) IsAnswer db := by
  cases c with
  | insertCapability => exact Repo.lasts_execute (insertAuthCapability_fresh hfits.1 hfits.2) rfl
  | insertUser => exact answered_insertUser h hfits hdoes
  | approveUserWithSetup => exact answered_approveUserWithSetup h hfits hdoes
  | rotateAllAuthEpochs => exact answered_rotateAllAuthEpochs hfits
  | insertCeremony started =>
      obtain ⟨hstate, hfresh, howner⟩ := hfits
      exact Repo.lasts_execute (insertAuthCeremony_fresh hstate hfresh howner) rfl
  | deleteSession tokenHash =>
      have hrevoked : revokeSessions (fun s => s.tokenHash = tokenHash.asBytes) env.clock db =
          .ok ((), _) := rfl
      exact Repo.lasts_execute hrevoked rfl
  | completeRegistration => exact answered_completeRegistration h hfits hdoes
  | completeAuthentication => exact answered_completeAuthentication env h hfits hdoes
  | createRecovery => exact answered_createRecovery h hfits hdoes
  | approveRecovery => exact answered_approveRecovery h hfits hdoes
  | issueRecoverySetup => exact answered_issueRecoverySetup h hfits hdoes
  | breakGlass => exact answered_breakGlass h hfits hdoes
  | userById => exact answered_reads env h.legible _ rfl
  | userByHandle => exact answered_reads env h.legible _ rfl
  | credentialsForUser => exact answered_reads env h.legible _ rfl
  | operatorWithoutCredential => exact answered_reads env h.legible _ rfl
  | operatorExists => exact answered_reads env h.legible .operatorExists rfl
  | operatorRecoveryWindow => exact answered_reads env h.legible _ rfl
  | capability => exact answered_reads env h.legible _ rfl
  | ceremony => exact answered_reads env h.legible _ rfl
  | session => exact answered_reads env h.legible _ rfl
  | rotateSessionCsrf => exact answered_reads env h.legible _ rfl
  | pendingRecoveries => exact answered_reads env h.legible _ rfl

/-- A call that the specification allows is answered. -/
theorem answered_of_does {c : AuthCall} {a : c.Reply} {r : c.Answer} {db' : Database}
    (hperform : perform env c db = (r, db')) (hlasts : env.left = none) (h : db.Abstracts s)
    (hfits : c.Fits env db) (hdoes : s.Does c a s') : r.isOk = true :=
  perform_of_lasts hperform hlasts (answered_method h hfits hdoes)

end Methods

theorem answered_iff {env : Env} {db db' : Database} {c : AuthCall} {r : c.Answer} {s : LiveStore}
    (hperform : perform env c db = (r, db')) (hlasts : env.left = none) (h : db.Abstracts s)
    (hfits : c.Fits env db) : r.isOk = true ↔ ∃ a s', s.Does c a s' := by
  constructor
  · intro hok
    obtain ⟨s', heffect, -⟩ := h.step hperform
    cases r with
    | error e => cases hok
    | ok a => exact ⟨a, s', heffect⟩
  · rintro ⟨a, s', hdoes⟩
    exact answered_of_does hperform hlasts h hfits hdoes

section Sample

attribute [local instance] Reference.crates

end Sample

end RsConsole
