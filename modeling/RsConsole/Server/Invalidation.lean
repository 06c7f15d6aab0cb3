import RsConsole.Server.Completions

set_option autoImplicit false

/-! # Invalidation

Approving a recovery, opening the break-glass window and rotating all epochs invalidate what a user
was authenticated by. Sessions die with the user's epoch: a session records the epoch that its
login had read, so it is dead even when it is inserted after the invalidation. Ceremonies die by
their user, which a login ceremony does not have; such a ceremony survives. -/

namespace RsConsole

open Library Library.Table Database PgAuthStore

variable {τ : Type}

/-- The event committed an invalidation of user `u`. -/
inductive InvalidatesUser (e : AuthEvent τ) (u : String) : Prop
  | approveRecovery (recoveryId : Uuid) (operatorId : UserId) (now : DateTime)
      (request : Database.RecoveryRequest)
      (approved : Succeeded e (.approveRecovery recoveryId operatorId now) ())
      (mem : request ∈ e.pre.recoveryRequests) (id : request.id = recoveryId)
      (user : request.userId = u)
  | breakGlass (credentialId : Uuid) (capability : Capability) (now : DateTime) (reason : String)
      (opened : Succeeded e (.breakGlass credentialId capability now reason) ())
      (user : capability.userId.value = u)
  | rotateAllAuthEpochs (now : DateTime) (reason : String) (users : ℕ)
      (rotated : Succeeded e (.rotateAllAuthEpochs now reason) users)

/-- The event returned the principal `p` for a session with the token hash `hash`. -/
inductive ReturnsSession (e : AuthEvent τ) (hash : SecretHash) (p : SessionPrincipal) : Prop
  | session (now idleExpiresAt : DateTime)
      (found : Succeeded e (.session hash now idleExpiresAt) (some p))
  | rotateSessionCsrf (csrfHash : SecretHash) (now idleExpiresAt : DateTime)
      (found : Succeeded e (.rotateSessionCsrf hash csrfHash now idleExpiresAt) (some p))

/-- The event added a credential or a session of user `u`. -/
def AddsFor (u : String) (e : AuthEvent τ) : Prop :=
  (∃ c ∈ e.post.passkeyCredentials, c.userId = u ∧ ∀ a ∈ e.pre.passkeyCredentials, a.id ≠ c.id) ∨
    ∃ s ∈ e.post.authSessions, s.userId = u ∧ ∀ a ∈ e.pre.authSessions, a.id ≠ s.id

theorem Succeeded.unique {e : AuthEvent τ} {c c' : AuthCall} {a : c.Reply} {a' : c'.Reply}
    (h : Succeeded e c a) (h' : Succeeded e c' a') : c = c' :=
  congrArg Exchange.call (h.symm.trans h')

namespace History

variable [DecidableEq τ] [Crates] {config : AuthConfig} {engine : CeremonyEngine}
  {ops : τ → Operation} {tr : List (AuthEvent τ)} {db : Database} {e e₀ e₁ e₂ e₃ : AuthEvent τ}
  {u : String}

theorem invalidates (h : History config engine ops tr db) (he : e ∈ tr)
    (hinv : InvalidatesUser e u) : Invalidates u e.pre e.post := by
  cases hinv with
  | approveRecovery recoveryId operatorId now request approved mem id user =>
      obtain ⟨env, hperform⟩ := h.succeeded he approved
      obtain ⟨r, hr, hid, -, hinvalidates⟩ := approveRecovery_committed hperform
      obtain rfl : r = request :=
        (h.consistent_pre he).recoveryIds.eq_of_mem hr mem (hid.trans id.symm)
      rwa [← user]
  | breakGlass credentialId capability now reason opened user =>
      obtain ⟨env, hperform⟩ := h.succeeded he opened
      rw [← user]
      exact (breakGlass_committed hperform).1
  | rotateAllAuthEpochs now reason users rotated =>
      obtain ⟨env, hperform⟩ := h.succeeded he rotated
      exact rotateAllAuthEpochs_committed hperform u

theorem returned_session (h : History config engine ops tr db) (he : e ∈ tr) {hash : SecretHash}
    {p : SessionPrincipal} (hreturns : ReturnsSession e hash p) :
    ∃ now, ∃ s ∈ e.pre.authSessions, ∃ user ∈ e.pre.humanUsers, s.id = p.sessionId ∧
      SessionFound hash.asBytes now s user := by
  cases hreturns with
  | session now idleExpiresAt found =>
      obtain ⟨env, hperform⟩ := h.succeeded he found
      exact ⟨now, session_found hperform⟩
  | rotateSessionCsrf csrfHash now idleExpiresAt found =>
      obtain ⟨env, hperform⟩ := h.succeeded he found
      exact ⟨now, rotateSessionCsrf_found hperform⟩

/-! ## Sessions -/

/-- A login records the epoch that it had read, and no call of it precedes that read but the one
    that read its ceremony. -/
theorem login_session (h : History config engine ops tr db) (he₀ : e₀ ∈ tr) (he₂ : e₂ ∈ tr)
    (htid : e₂.tid = e₀.tid) {handle : Uuid} {user : User}
    (hread : Succeeded e₀ (.userByHandle handle) (some user)) {ceremonyId : Uuid}
    {verification : AuthenticationVerification} {session : SessionRecord} {now : DateTime}
    {audit : AuditEvent}
    (hlogin : Succeeded e₂ (.completeAuthentication ceremonyId verification session now audit) ()) :
    Precedes tr e₀ e₂ ∧ session.userId = user.id ∧ session.authEpoch = user.authEpoch := by
  have hprec : Precedes tr e₀ e₂ := by
    rcases precedes_total he₀ he₂ with rfl | hprec | hprec
    · cases hread.unique hlogin
    · exact hprec
    · obtain ⟨past, hpast, -, hforth⟩ := h.explained_of_succeeded he₀ hread
      -- the login is the operation's last call, so it cannot come before the read
      obtain ⟨id, now', hcall⟩ := hpast _ (hforth e₂ hprec htid)
      rw [hlogin] at hcall
      cases hcall
  obtain ⟨past, ⟨response, token, csrf, id, ceremony, handle', user', credentials, -, hpast, -,
    hsession, -⟩, -, hforth⟩ := h.explained_of_succeeded he₂ hlogin
  have hmem := hforth e₀ hprec htid.symm
  rw [hread, hpast] at hmem
  simp only [List.mem_cons, Exchange.mk.injEq, reduceCtorEq, AuthCall.userByHandle.injEq,
    false_and, false_or, or_false, List.not_mem_nil] at hmem
  obtain ⟨rfl, hanswer⟩ := hmem
  cases eq_of_heq hanswer
  rw [hsession]
  exact ⟨hprec, rfl, rfl⟩

/-- The user's epoch is larger after an invalidation than whatever was read before it. -/
theorem epoch_raised (h : History config engine ops tr db) (h₀₁ : Precedes tr e₀ e₁)
    (h₁₃ : Precedes tr e₁ e₃) {handle : Uuid} {user : User}
    (hread : Succeeded e₀ (.userByHandle handle) (some user))
    (hinv : InvalidatesUser e₁ user.id.value) :
    ∃ row ∈ e₃.pre.humanUsers, row.id = user.id.value ∧ user.authEpoch < row.authEpoch := by
  obtain ⟨env, hperform⟩ := h.succeeded h₀₁.left_mem hread
  obtain ⟨row₀, hrow₀, -, hdecodes⟩ := userByHandle_found hperform
  obtain ⟨row₁, hrow₁, h₀⟩ := ((h.evolves_event h₀₁.left_mem).trans
    (h.evolves_between h₀₁)).humanUsers.exists_of_mem hrow₀
  obtain ⟨row₂, hrow₂, h₁, hlt⟩ := (h.invalidates h₁₃.left_mem hinv).epoch row₁ hrow₁
    (by rw [h₀.fixed]; exact hdecodes.id)
  obtain ⟨row₃, hrow₃, h₂⟩ := (h.evolves_between h₁₃).humanUsers.exists_of_mem hrow₂
  refine ⟨row₃, hrow₃, ?_, ?_⟩
  · rw [h₂.fixed, h₁.fixed, h₀.fixed]
    exact hdecodes.id
  · calc user.authEpoch = row₀.authEpoch := hdecodes.authEpoch.symm
      _ ≤ row₁.authEpoch := h₀.epoch
      _ < row₂.authEpoch := hlt
      _ ≤ row₃.authEpoch := h₂.epoch

/-- A session of a login that had read the user before an invalidation is not returned after it. -/
theorem not_returned_after_invalidation (h : History config engine ops tr db)
    (h₀₁ : Precedes tr e₀ e₁) (h₁₃ : Precedes tr e₁ e₃) (h₂₃ : Precedes tr e₂ e₃)
    (htid : e₂.tid = e₀.tid) {handle : Uuid} {user : User}
    (hread : Succeeded e₀ (.userByHandle handle) (some user))
    (hinv : InvalidatesUser e₁ user.id.value) {ceremonyId : Uuid}
    {verification : AuthenticationVerification} {session : SessionRecord} {now : DateTime}
    {audit : AuditEvent}
    (hlogin : Succeeded e₂ (.completeAuthentication ceremonyId verification session now audit) ())
    {hash : SecretHash} {p : SessionPrincipal} (hreturns : ReturnsSession e₃ hash p) :
    p.sessionId ≠ session.id := by
  intro hid
  obtain ⟨-, huser, hepoch⟩ := h.login_session h₀₁.left_mem h₂₃.left_mem htid hread hlogin
  obtain ⟨row, hrow, hrowid, hlt⟩ := h.epoch_raised h₀₁ h₁₃ hread hinv
  obtain ⟨now', s, hs, owner, howner, hsid, hsuser, -, -, -, -, -, hsame⟩ :=
    h.returned_session h₂₃.right_mem hreturns
  -- the returned session is the one that the login inserted
  obtain ⟨env, hperform⟩ := h.succeeded h₂₃.left_mem hlogin
  obtain ⟨ceremony, hdone⟩ := completeAuthentication_committed hperform
  have hinserted : session.row now ∈ e₂.post.authSessions := by
    rw [hdone.added]
    exact List.mem_append_right _ (List.mem_singleton_self _)
  have hbecomes : (session.row now).Becomes s := (h.evolves_between h₂₃).becomes_of_sessionId
    (h.consistent_pre h₂₃.right_mem) hinserted hs (hsid.trans hid)
  have hsepoch : s.authEpoch = user.authEpoch := by
    rw [hbecomes.fixed, ← hepoch]
    rfl
  have hsowner : s.userId = user.id.value := by
    rw [hbecomes.fixed, ← huser]
    rfl
  obtain rfl : owner = row := (h.consistent_pre h₂₃.right_mem).userIds.eq_of_mem howner hrow
    (hsuser.trans (hsowner.trans hrowid.symm))
  exact absurd (hsepoch.symm.trans hsame) hlt.ne

/-- A session that exists when its token is logged out is not returned any more. -/
theorem not_returned_after_delete (h : History config engine ops tr db)
    (h₁₃ : Precedes tr e₁ e₃) {hash : SecretHash}
    (hdelete : Succeeded e₁ (.deleteSession hash) ()) {s : AuthSession}
    (hs : s ∈ e₁.pre.authSessions) (htoken : s.tokenHash = hash.asBytes) {hash' : SecretHash}
    {p : SessionPrincipal} (hreturns : ReturnsSession e₃ hash' p) :
    p.sessionId ≠ s.id ∧ hash' ≠ hash := by
  obtain ⟨env, hperform⟩ := h.succeeded h₁₃.left_mem hdelete
  obtain ⟨b, hb, hsb, hrevoked⟩ := deleteSession_committed hperform s hs htoken
  obtain ⟨c, hc, hbc⟩ := (h.evolves_between h₁₃).authSessions.exists_of_mem hb
  obtain ⟨now, r, hr, owner, -, hrid, -, hrhash, hrlive, -⟩ :=
    h.returned_session h₁₃.right_mem hreturns
  have hkeys := h.consistent_pre h₁₃.right_mem
  -- the row stays revoked, and a returned session's row is not
  have hdead : c.revokedAt ≠ none := by rwa [hbc.revoked hrevoked]
  constructor
  · intro hid
    obtain rfl : r = c := hkeys.sessionIds.eq_of_mem hr hc
      (by rw [hrid, hid, hbc.fixed, hsb.fixed])
    exact hdead hrlive
  · rintro rfl
    obtain rfl : r = c := hkeys.sessionHashes.eq_of_mem hr hc
      (by rw [hrhash, hbc.fixed, hsb.fixed, ← htoken])
    exact hdead hrlive

/-- A session that is returned for a token after its logout was created by a login after the
    logout. -/
theorem created_after_delete (h : History config engine ops tr db) (h₁₃ : Precedes tr e₁ e₃)
    {hash : SecretHash} (hdelete : Succeeded e₁ (.deleteSession hash) ()) {p : SessionPrincipal}
    (hreturns : ReturnsSession e₃ hash p) :
    ∃ e₂ ceremonyId verification session now audit, Precedes tr e₁ e₂ ∧ Precedes tr e₂ e₃ ∧
      Succeeded e₂ (.completeAuthentication ceremonyId verification session now audit) () ∧
      session.id = p.sessionId ∧ session.tokenHash = hash := by
  obtain ⟨now, r, hr, owner, -, hrid, -, hrhash, hrlive, -⟩ :=
    h.returned_session h₁₃.right_mem hreturns
  obtain ⟨newer, older, heq⟩ := List.append_of_mem h₁₃.right_mem
  have holder : History config engine ops older e₃.pre := (heq ▸ h).older
  obtain ⟨e₂, he₂, ceremonyId, verification, session, now', audit, hlogin, hbecomes, -⟩ :=
    holder.session_origin hr
  have h₂₃ : Precedes tr e₂ e₃ := precedes_iff_split.2 ⟨newer, older, heq, he₂⟩
  have htoken : session.tokenHash = hash := by
    apply SecretHash.asBytes_injective
    rw [← hrhash, hbecomes.fixed]
    rfl
  refine ⟨e₂, ceremonyId, verification, session, now', audit, ?_, h₂₃, hlogin, ?_, htoken⟩
  · rcases precedes_total h₁₃.left_mem h₂₃.left_mem with rfl | h₁₂ | h₂₁
    · cases hdelete.unique hlogin
    · exact h₁₂
    · -- the session existed at the logout
      obtain ⟨env, hperform⟩ := h.succeeded h₂₁.left_mem hlogin
      obtain ⟨ceremony, hdone⟩ := completeAuthentication_committed hperform
      have hinserted : session.row now' ∈ e₂.post.authSessions := by
        rw [hdone.added]
        exact List.mem_append_right _ (List.mem_singleton_self _)
      obtain ⟨s, hs, hsbecomes⟩ := (h.evolves_between h₂₁).authSessions.exists_of_mem hinserted
      have hstoken : s.tokenHash = hash.asBytes := by
        rw [hsbecomes.fixed, ← htoken]
        rfl
      exact absurd rfl (h.not_returned_after_delete h₁₃ hdelete hs hstoken hreturns).2
  · rw [← hrid, hbecomes.fixed]
    rfl

end History

/-- **Invalidation kills every session, including those still being created.** -/
theorem invalidation_kills_sessions [DecidableEq τ] [Crates] {config : AuthConfig}
    {engine : CeremonyEngine} {ops : τ → Operation} {tr : List (AuthEvent τ)} {db : Database}
    (h : History config engine ops tr db) :
    (∀ e₀ e₁ e₂ e₃ handle user ceremonyId verification session now audit hash p,
      Succeeded e₀ (.userByHandle handle) (some user) →
      InvalidatesUser e₁ user.id.value → Precedes tr e₀ e₁ →
      Succeeded e₂ (.completeAuthentication ceremonyId verification session now audit) () →
      e₂.tid = e₀.tid → Precedes tr e₁ e₃ → Precedes tr e₂ e₃ →
      ReturnsSession e₃ hash p → p.sessionId ≠ session.id) ∧
    (∀ e₁ e₃ hash hash' s p, Succeeded e₁ (.deleteSession hash) () →
      s ∈ e₁.pre.authSessions → s.tokenHash = hash.asBytes → Precedes tr e₁ e₃ →
      ReturnsSession e₃ hash' p → p.sessionId ≠ s.id ∧ hash' ≠ hash) ∧
    ∀ e₁ e₃ hash p, Succeeded e₁ (.deleteSession hash) () → Precedes tr e₁ e₃ →
      ReturnsSession e₃ hash p →
      ∃ e₂ ceremonyId verification session now audit, Precedes tr e₁ e₂ ∧ Precedes tr e₂ e₃ ∧
        Succeeded e₂ (.completeAuthentication ceremonyId verification session now audit) () ∧
        session.id = p.sessionId ∧ session.tokenHash = hash := by
  refine ⟨?_, ?_, ?_⟩
  · intro e₀ e₁ e₂ e₃ handle user ceremonyId verification session now audit hash p hread hinv h₀₁
      hlogin htid h₁₃ h₂₃ hreturns
    exact h.not_returned_after_invalidation h₀₁ h₁₃ h₂₃ htid hread hinv hlogin hreturns
  · intro e₁ e₃ hash hash' s p hdelete hs htoken h₁₃ hreturns
    exact h.not_returned_after_delete h₁₃ hdelete hs htoken hreturns
  · intro e₁ e₃ hash p hdelete h₁₃ hreturns
    exact h.created_after_delete h₁₃ hdelete hreturns

section Sample

attribute [local instance] Reference.crates

/-! Tests of events. -/

/-- The event read the user `u` by their handle. -/
def readsUser (u : String) (e : AuthEvent τ) : Bool :=
  match e.exchange with
  | ⟨.userByHandle _, .ok (some user)⟩ => user.id.value = u
  | _ => false

/-- The event approved a recovery of user `u`. -/
def approvesFor (u : String) (e : AuthEvent τ) : Bool :=
  match e.exchange with
  | ⟨.approveRecovery recoveryId _ _, .ok _⟩ =>
      e.pre.recoveryRequests.any (fun r => r.id = recoveryId ∧ r.userId = u)
  | _ => false

/-- The event logged in with the session `id`. -/
def createsSession (id : Uuid) (e : AuthEvent τ) : Bool :=
  match e.exchange with
  | ⟨.completeAuthentication _ _ record _ _, .ok _⟩ => record.id = id
  | _ => false

/-- The event found a session for its token. -/
def findsSession (e : AuthEvent τ) : Bool :=
  match e.exchange with
  | ⟨.session _ _ _, .ok (some _)⟩ => true
  | _ => false

theorem readsUser_cases {u : String} {e : AuthEvent τ} (h : readsUser u e = true) :
    ∃ handle user, Succeeded e (.userByHandle handle) (some user) ∧ user.id.value = u := by
  unfold readsUser at h
  split at h
  · next handle user he => exact ⟨handle, user, he, of_decide_eq_true h⟩
  · cases h

theorem approvesFor_cases {u : String} {e : AuthEvent τ} (h : approvesFor u e = true) :
    (∃ recoveryId operatorId now, Succeeded e (.approveRecovery recoveryId operatorId now) ()) ∧
      InvalidatesUser e u := by
  unfold approvesFor at h
  split at h
  · next recoveryId operatorId now a he =>
      obtain ⟨r, hr, hu⟩ := List.any_eq_true.1 h
      obtain ⟨hid, huser⟩ := of_decide_eq_true hu
      exact ⟨⟨recoveryId, operatorId, now, he⟩,
        .approveRecovery recoveryId operatorId now r he hr hid huser⟩
  · cases h

theorem createsSession_cases {id : Uuid} {e : AuthEvent τ} (h : createsSession id e = true) :
    ∃ ceremonyId verification session now audit,
      Succeeded e (.completeAuthentication ceremonyId verification session now audit) () ∧
      session.id = id := by
  unfold createsSession at h
  split at h
  · next ceremonyId verification session now audit a he =>
      exact ⟨ceremonyId, verification, session, now, audit, he, of_decide_eq_true h⟩
  · cases h

theorem findsSession_cases {e : AuthEvent τ} (h : findsSession e = true) :
    ∃ hash p, ReturnsSession e hash p := by
  unfold findsSession at h
  split at h
  · next hash now idleExpiresAt p he => exact ⟨hash, p, .session now idleExpiresAt he⟩
  · cases h

/-- An operator logs in as session 20, has a recovery approved, and logs in again as session 21. -/
def sampleLogins : List Operation :=
  sampleRegistration "k" ++
    [.startAuthentication 3 0 11,
      .finishAuthentication 11 (.string "k") 4 (sampleToken 1) (sampleToken 2) 20,
      .requestRecovery sampleOperator 5,
      .approveRecovery 40 sampleOperator 6,
      .startAuthentication 7 0 12,
      .finishAuthentication 12 (.string "k") 8 (sampleToken 3) (sampleToken 4) 21,
      .authenticateSession (sampleToken 3) none 9]

/-- The approval lands in the first login, after it has read the user. -/
def sampleLoginSchedule : List (ℕ × Uuid) :=
  [(0, 0), (0, 0), (0, 0), (1, 0), (1, 0), (1, 0), (2, 0), (2, 30), (3, 0), (4, 0), (4, 0),
    (5, 40), (6, 0), (4, 0), (4, 0), (7, 0), (8, 0), (8, 0), (8, 0), (8, 0), (9, 0)]

/-- Login 20, under way at the approval, is not what the second login's token gives. -/
theorem invalidation_kills_sessions_sample :
    ∃ e₁ e₂ e₃ p hash, InvalidatesUser e₁ "operator" ∧ createsSession 20 e₂ = true ∧
      Precedes (sampleRun sampleLogins sampleLoginSchedule).trace e₁ e₂ ∧
      Precedes (sampleRun sampleLogins sampleLoginSchedule).trace e₂ e₃ ∧
      ReturnsSession e₃ hash p ∧ p.sessionId ≠ 20 := by
  have hrun : hasChain [findsSession, fun e => e.tid = 4 ∧ createsSession 20 e = true,
      approvesFor "operator", fun e => e.tid = 4 ∧ readsUser "operator" e = true]
      (sampleRun sampleLogins sampleLoginSchedule).trace = true := by decide +kernel
  obtain ⟨es, hchain, hall⟩ := exists_chain hrun
  obtain ⟨e₃, es₃, h₃, hall₃, rfl⟩ := List.forall₂_cons_left_iff.1 hall
  obtain ⟨e₂, es₂, h₂, hall₂, rfl⟩ := List.forall₂_cons_left_iff.1 hall₃
  obtain ⟨e₁, es₁, h₁, hall₁, rfl⟩ := List.forall₂_cons_left_iff.1 hall₂
  obtain ⟨e₀, es₀, h₀, hall₀, rfl⟩ := List.forall₂_cons_left_iff.1 hall₁
  simp only [List.pairwise_cons, List.mem_cons, forall_eq_or_imp] at hchain
  obtain ⟨⟨h₂₃, h₁₃, -⟩, ⟨h₁₂, -⟩, ⟨h₀₁, -⟩, -⟩ := hchain
  obtain ⟨htid₀, h₀⟩ := of_decide_eq_true h₀
  obtain ⟨htid₂, h₂⟩ := of_decide_eq_true h₂
  obtain ⟨handle, user, hread, huser⟩ := readsUser_cases h₀
  obtain ⟨ceremonyId, v, session, now, audit, hlogin, hid⟩ := createsSession_cases h₂
  obtain ⟨hash, p, hreturns⟩ := findsSession_cases h₃
  have hinv := (approvesFor_cases h₁).2
  refine ⟨e₁, e₂, e₃, p, hash, hinv, h₂, h₁₂, h₂₃, hreturns, ?_⟩
  rw [← hid]
  exact (invalidation_kills_sessions (sampleRun_history _ _)).1 e₀ e₁ e₂ e₃ handle user ceremonyId
    v session now audit hash p hread (by rwa [huser]) h₀₁ hlogin (htid₂.trans htid₀.symm) h₁₃ h₂₃
    hreturns

end Sample

/-! ## Ceremonies -/

section Ceremonies

variable [DecidableEq τ] [Crates] {config : AuthConfig} {engine : CeremonyEngine}
  {ops : τ → Operation} {tr : List (AuthEvent τ)} {db : Database} {e₁ e₂ : AuthEvent τ}
  {u : String}

/-- A ceremony that is consumed at some event is not completed later. -/
theorem History.not_completes_consumed (h : History config engine ops tr db)
    (hprec : Precedes tr e₁ e₂) {row : AuthCeremony} (hrow : row ∈ e₁.post.authCeremonies)
    (hconsumed : row.consumedAt ≠ none) : completes row.id e₂ = false := by
  rw [Bool.eq_false_iff]
  intro hc
  obtain ⟨c, hc, hid, hunspent, -⟩ := h.completes_spends hprec.right_mem hc
  have hbecomes : row.Becomes c := (h.evolves_between hprec).becomes_of_ceremonyId
    (h.consistent_pre hprec.right_mem) hrow hc hid
  rw [hbecomes.consumed hconsumed] at hunspent
  exact hconsumed hunspent

/-- What a completion adds belongs to the user of its ceremony, unless it is a login. -/
theorem History.adds_for_owner (h : History config engine ops tr db) {e : AuthEvent τ} (he : e ∈ tr)
    {row : AuthCeremony} (hrow : row ∈ e.pre.authCeremonies) (hkind : row.kind ≠ "authentication")
    (hc : completes row.id e = true) (hadds : AddsFor u e) : row.userId = some u := by
  have hkeys := (h.consistent_pre he).ceremonyIds
  rcases completes_cases hc with ⟨hash, credential, now, audit, hc⟩ | ⟨v, session, now, audit, hc⟩
  · obtain ⟨env, hperform⟩ := h.succeeded he hc
    obtain ⟨ceremony, id, userId, hreg⟩ := completeRegistration_committed hperform
    obtain rfl : row = ceremony := hkeys.eq_of_mem hrow hreg.mem hreg.ceremony_id.symm
    rcases hadds with ⟨c, hmem, rfl, hnew⟩ | ⟨s, hmem, -, hnew⟩
    · rw [hreg.added, List.mem_append, List.mem_singleton] at hmem
      rcases hmem with hmem | rfl
      · exact absurd rfl (hnew c hmem)
      · exact hreg.owner
    · -- a registration adds no session
      have hcount : e.post.authSessions.length = e.pre.authSessions.length :=
        perform_rowCount (t := .authSessions) hperform (by simp [AuthCall.inserts])
      obtain ⟨a, ha, hbecomes⟩ := (h.evolves_event he).authSessions.exists_old hcount hmem
      exact absurd (by rw [hbecomes.fixed]) (hnew a ha)
  · obtain ⟨env, hperform⟩ := h.succeeded he hc
    obtain ⟨ceremony, hlogin⟩ := completeAuthentication_committed hperform
    obtain rfl : row = ceremony := hkeys.eq_of_mem hrow hlogin.mem hlogin.ceremony_id.symm
    exact absurd hlogin.kind hkind

/-- **Invalidation ends every ceremony but the logins that are under way.** -/
theorem invalidation_ends_ceremonies (h : History config engine ops tr db)
    (hprec : Precedes tr e₁ e₂) (hinv : InvalidatesUser e₁ u) {row : AuthCeremony}
    (hrow : row ∈ e₁.pre.authCeremonies)
    (hlogin : ¬ (row.kind = "authentication" ∧ row.consumedAt = none))
    (hc : completes row.id e₂ = true) : ¬ AddsFor u e₂ := by
  intro hadds
  obtain ⟨later, hlater, hbecomes⟩ :=
    (h.evolves_event hprec.left_mem).authCeremonies.exists_of_mem hrow
  have hid : later.id = row.id := by rw [hbecomes.fixed]
  rw [← hid] at hc
  by_cases hconsumed : row.consumedAt = none
  · have hkind : row.kind ≠ "authentication" := fun hkind => hlogin ⟨hkind, hconsumed⟩
    obtain ⟨last, hlast, hbecomes'⟩ := (h.evolves_between hprec).authCeremonies.exists_of_mem hlater
    have howner := h.adds_for_owner hprec.right_mem hlast
      (by rw [hbecomes'.fixed, hbecomes.fixed]; exact hkind)
      (by rw [hbecomes'.fixed]; exact hc) hadds
    -- the ceremony is the user's own, so the invalidation consumed it
    obtain ⟨b, hb, hrowb, hspent⟩ := (h.invalidates hprec.left_mem hinv).ceremonies row hrow
      (by rw [← howner, hbecomes'.fixed, hbecomes.fixed])
    have hnot := h.not_completes_consumed hprec hb hspent
    rw [hrowb.fixed, ← hid, hc] at hnot
    cases hnot
  · have hnot := h.not_completes_consumed hprec hlater (by rwa [hbecomes.consumed hconsumed])
    rw [hc] at hnot
    cases hnot

end Ceremonies

section Sample

attribute [local instance] Reference.crates

/-- A login that is under way while its user's recovery is approved still completes. -/
theorem login_completed_after_recovery :
    ∃ e₁ e₂ row, History .default sampleEngine (sampleOperations sampleLogins)
        (sampleRun sampleLogins sampleLoginSchedule).trace
        (sampleRun sampleLogins sampleLoginSchedule).state ∧
      Precedes (sampleRun sampleLogins sampleLoginSchedule).trace e₁ e₂ ∧
      (∃ recoveryId operatorId now,
        Succeeded e₁ (.approveRecovery recoveryId operatorId now) ()) ∧
      InvalidatesUser e₁ "operator" ∧ row ∈ e₁.pre.authCeremonies ∧ completes row.id e₂ = true ∧
      AddsFor "operator" e₂ := by
  have hrun : hasChain [fun e => completes 11 e = true ∧ e.pre.authSessions.length = 0 ∧
        e.post.authSessions.any (·.userId = "operator"),
      fun e => approvesFor "operator" e = true ∧ e.pre.authCeremonies.any (·.id = 11)]
      (sampleRun sampleLogins sampleLoginSchedule).trace = true := by decide +kernel
  obtain ⟨e₁, e₂, hprec, h₁, h₂⟩ := exists_precedes hrun
  obtain ⟨happroves, hany⟩ := of_decide_eq_true h₁
  obtain ⟨hcompletes, hnone, hsome⟩ := of_decide_eq_true h₂
  obtain ⟨hcall, hinv⟩ := approvesFor_cases happroves
  obtain ⟨row, hrow, hid⟩ := List.any_eq_true.1 hany
  obtain ⟨s, hs, huser⟩ := List.any_eq_true.1 hsome
  refine ⟨e₁, e₂, row, sampleRun_history _ _, hprec, hcall, hinv, hrow, ?_,
    Or.inr ⟨s, hs, of_decide_eq_true huser, ?_⟩⟩
  · rw [of_decide_eq_true hid]
    exact hcompletes
  · simp [List.length_eq_zero_iff.1 hnone]

def sampleColleague : UserId := ⟨"alice", by decide⟩

/-- The registration of another user is under way while a recovery of the operator is approved. -/
def sampleEnrolment : List Operation :=
  [.seedOperator sampleOperator "operator@example.com" "Operator" 0 1,
    .approveUserAndIssueSetup sampleOperator sampleColleague "alice@example.com" "Alice" 1
      (sampleToken 5) 2 50,
    .startSetupRegistration (sampleToken 5) .setup 2 0 10,
    .requestRecovery sampleOperator 3,
    .approveRecovery 40 sampleOperator 4,
    .finishRegistration 10 .registration (.string "a") 5]

def sampleEnrolmentSchedule : List (ℕ × Uuid) :=
  [(0, 0), (0, 0), (0, 0), (1, 0), (1, 0), (2, 0), (2, 0), (2, 0), (2, 0), (3, 40), (5, 0),
    (4, 0), (5, 30)]

/-- It completes, and adds nothing for the operator. -/
theorem invalidation_ends_ceremonies_sample :
    ∃ e₁ e₂ row, Precedes (sampleRun sampleEnrolment sampleEnrolmentSchedule).trace e₁ e₂ ∧
      InvalidatesUser e₁ "operator" ∧ row ∈ e₁.pre.authCeremonies ∧ completes row.id e₂ = true ∧
      ¬ AddsFor "operator" e₂ := by
  have hrun : hasChain [completes 10, fun e => approvesFor "operator" e = true ∧
        e.pre.authCeremonies.any (fun c => c.id = 10 ∧ c.kind = "registration")]
      (sampleRun sampleEnrolment sampleEnrolmentSchedule).trace = true := by decide +kernel
  obtain ⟨e₁, e₂, hprec, h₁, h₂⟩ := exists_precedes hrun
  obtain ⟨happroves, hany⟩ := of_decide_eq_true h₁
  obtain ⟨row, hrow, hrow'⟩ := List.any_eq_true.1 hany
  obtain ⟨hid, hkind⟩ := of_decide_eq_true hrow'
  have hinv := (approvesFor_cases happroves).2
  have hcompletes : completes row.id e₂ = true := by rwa [hid]
  refine ⟨e₁, e₂, row, hprec, hinv, hrow, hcompletes, ?_⟩
  exact invalidation_ends_ceremonies (sampleRun_history _ _) hprec hinv hrow
    (by simp [hkind]) hcompletes

end Sample

end RsConsole
