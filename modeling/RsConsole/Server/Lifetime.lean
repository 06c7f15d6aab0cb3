import RsConsole.Server.IdleExpiry
import RsConsole.Server.Refinement
import RsConsole.Server.Restore

set_option autoImplicit false

/-! # How long a session is found

`session_lifetime` bounds how long a session may be used. Here the bound is exact: whether a token
gives its session is settled by the events alone, the login and what it had read, the uses and the
invalidations. One direction collects what ends a session; for the other, what would end it was
brought about by an event (`History.origin_since`), and only few commits can: `epoch_advanced` for
the user, `session_revoked` and `History.idle_ge` for the session. -/

namespace RsConsole

open Library Library.Table Database PgAuthStore

variable {τ : Type}

/-- The token and the time of a call that looks a session up. -/
def AuthCall.lookup : AuthCall → Option (SecretHash × DateTime)
  | .session hash now _ => some (hash, now)
  | .rotateSessionCsrf hash _ now _ => some (hash, now)
  | _ => none

/-- The call ends what the user `u` is authenticated by. -/
def AuthCall.Invalidates (db : Database) (u : String) : AuthCall → Prop
  | .approveRecovery recoveryId _ _ =>
      ∃ r ∈ db.recoveryRequests, r.id = recoveryId ∧ r.userId = u
  | .breakGlass _ given _ _ => given.userId.value = u
  | .rotateAllAuthEpochs .. => True
  | _ => False

/-- What the session `id` stands on: a login at `c`, and the user as the login had read them. Since
    the read nothing has invalidated the user, and since the login nobody has logged out with the
    token. -/
def Stands (tr : List (AuthEvent τ)) (hash : SecretHash) (id : Uuid) (c : DateTime) : Prop :=
  ∃ read login handle user ceremonyId verification session audit, Precedes tr read login ∧
    login.tid = read.tid ∧ Succeeded read (.userByHandle handle) (some user) ∧
    Succeeded login (.completeAuthentication ceremonyId verification session c audit) () ∧
    session.tokenHash = hash ∧ session.id = id ∧
    (∀ e, Precedes tr read e → ¬ InvalidatesUser e user.id.value) ∧
    ∀ e, Precedes tr login e → ¬ Succeeded e (.deleteSession hash) ()

theorem AuthCall.Invalidates.invalidatesUser {e : AuthEvent τ} {u : String}
    (h : e.call.Invalidates e.pre u) (hok : e.resp.isOk = true) : InvalidatesUser e u := by
  obtain ⟨tid, call, resp, pre, post⟩ := e
  cases resp with
  | error error => cases hok
  | ok a =>
      cases call with
      | approveRecovery recoveryId operatorId now =>
          obtain ⟨r, hr, hid, huser⟩ := h
          exact .approveRecovery recoveryId operatorId now r rfl hr hid huser
      | breakGlass credentialId capability now reason =>
          exact .breakGlass credentialId capability now reason rfl h
      | rotateAllAuthEpochs now reason => exact .rotateAllAuthEpochs now reason a rfl
      | _ => exact h.elim

/-! ## What ends a session -/

section Commits

variable {env : Env} {db db' : Database} {c : AuthCall}

/-- Only an invalidation of a user changes their epoch, and none disables them. -/
theorem Commits.epoch_advanced (h : Commits env db c db') (hc : db.Consistent) {u u' : HumanUser}
    (hu : u ∈ db.humanUsers) (hu' : u' ∈ db'.humanUsers) (hid : u'.id = u.id)
    (hne : u'.authEpoch ≠ u.authEpoch) : c.Invalidates db u.id := by
  have hsame : u' ∉ db.humanUsers := by
    intro hmem
    rw [hc.userIds.eq_of_mem hmem hu hid] at hne
    exact hne rfl
  have hadded : ∀ {user : User} {now : DateTime}, (∀ v ∈ db.humanUsers, v.id ≠ user.id.value) →
      u' ∉ db.humanUsers ++ [user.row now] := by
    intro user now habsent hmem
    rcases List.mem_append.1 hmem with hmem | hmem
    · exact hsame hmem
    · rw [List.mem_singleton.1 hmem] at hid
      exact habsent u hu hid.symm
  have hinvalidated : ∀ {p : String → Bool} {now : DateTime},
      u' ∈ updateWhere (fun v => p v.id) (advanced now) db.humanUsers → p u.id = true := by
    intro p now hmem
    obtain ⟨v, hv, rfl⟩ := mem_updateWhere.1 hmem
    split at hid
    · next hp => exact hid ▸ hp
    · next hp =>
        rw [if_neg hp] at hsame
        exact absurd hv hsame
  cases h with
  | insertUser user now audit absent => exact absurd hu' (hadded absent)
  | approveUserWithSetup user capability operatorId now absent => exact absurd hu' (hadded absent)
  | rotateAllAuthEpochs => exact True.intro
  | approveRecovery recoveryId operatorId now r subject mem id pending owner =>
      have hselected := hinvalidated (p := fun v => v = subject.value) hu'
      exact ⟨r, mem, id, owner.trans (of_decide_eq_true hselected).symm⟩
  | breakGlass credentialId capability =>
      have hselected := hinvalidated (p := fun v => v = capability.userId.value) hu'
      exact (of_decide_eq_true hselected).symm
  | _ => exact absurd hu' hsame

/-- Only a logout or an invalidation of its user revokes a session. -/
theorem Commits.session_revoked (h : Commits env db c db') {s' : AuthSession}
    (hs' : s' ∈ db'.authSessions) (hrevoked : s'.revokedAt ≠ none)
    (hnot : ∀ s ∈ db.authSessions, s.id = s'.id → s.revokedAt = none) :
    (∃ hash, c = .deleteSession hash ∧ s'.tokenHash = hash.asBytes) ∨
      c.Invalidates db s'.userId := by
  have hsame : s' ∉ db.authSessions := fun hmem => hrevoked (hnot s' hmem rfl)
  have hused : ∀ {s : AuthSession} {csrfHash : Option SecretHash} {idle now : DateTime},
      s' ∉ (db.used s csrfHash idle now).authSessions := by
    intro s csrfHash idle now hmem
    obtain ⟨s₀, hs₀, rfl⟩ := mem_updateWhere.1 hmem
    split at hrevoked
    · next hsel => exact hrevoked (hnot s₀ hs₀ (by rw [if_pos hsel]))
    · exact hrevoked (hnot s₀ hs₀ (by rw [if_neg ‹_›]))
  have hclosed : ∀ {p : AuthSession → Bool} {now : DateTime},
      s' ∈ updateWhere p (fun s => { s with revokedAt := some now }) db.authSessions →
      ∃ s ∈ db.authSessions, p s = true ∧ s' = { s with revokedAt := some now } := by
    intro p now hmem
    obtain ⟨s, hs, rfl⟩ := mem_updateWhere.1 hmem
    split at hrevoked
    · next hsel => exact ⟨s, hs, hsel, if_pos hsel⟩
    · next hsel =>
        rw [if_neg hsel] at hsame
        exact absurd hs hsame
  cases h with
  | completeAuthentication =>
      rcases List.mem_append.1 hs' with hmem | hmem
      · exact absurd hmem hsame
      · rw [List.mem_singleton.1 hmem] at hrevoked
        exact absurd rfl hrevoked
  | session => exact absurd hs' hused
  | rotateSessionCsrf => exact absurd hs' hused
  | deleteSession hash =>
      obtain ⟨s, -, hsel, rfl⟩ := hclosed hs'
      exact Or.inl ⟨hash, rfl, of_decide_eq_true (Bool.and_eq_true_iff.1 hsel).1⟩
  | rotateAllAuthEpochs => exact Or.inr True.intro
  | approveRecovery recoveryId operatorId now r subject mem id pending owner =>
      obtain ⟨s, -, hsel, rfl⟩ := hclosed hs'
      exact Or.inr ⟨r, mem, id,
        owner.trans (of_decide_eq_true (Bool.and_eq_true_iff.1 hsel).1).symm⟩
  | breakGlass =>
      obtain ⟨s, -, hsel, rfl⟩ := hclosed hs'
      exact Or.inr (of_decide_eq_true (Bool.and_eq_true_iff.1 hsel).1).symm
  | _ => exact absurd hs' hsame

end Commits

theorem AuthCall.Invalidates.not_reads {db : Database} {u : String} {c : AuthCall}
    (h : c.Invalidates db u) : c.reads = false := by
  cases c with
  | approveRecovery | breakGlass | rotateAllAuthEpochs => rfl
  | _ => exact h.elim

namespace History

variable [DecidableEq τ] [Crates] {config : AuthConfig} {engine : CeremonyEngine}
  {ops : τ → Operation} {tr newer older : List (AuthEvent τ)} {db : Database} {e e₀ : AuthEvent τ}
  {hash : SecretHash} {now c : DateTime} {id : Uuid}

theorem origin_since (h : History config engine ops (newer ++ e₀ :: older) db)
    {F : Database → Prop} (hnot : ¬ F e₀.post) (hs : F db) : ∃ e ∈ newer, ¬ F e.pre ∧ F e.post := by
  obtain ⟨pool, run⟩ := h
  exact run.origin_after hnot hs

/-- What an event changed it has committed. -/
theorem commits_of_changed (h : History config engine ops tr db) (he : e ∈ tr)
    (hchanged : e.post ≠ e.pre) :
    ∃ env, Commits env e.pre e.call e.post ∧ (e.call.reads = false → e.resp.isOk = true) := by
  obtain ⟨pool, run⟩ := h
  exact (run_commits run he).resolve_left hchanged

/-- A user whom nothing invalidates keeps their epoch. -/
theorem epoch_kept (h : History config engine ops (newer ++ e₀ :: older) db) {u : HumanUser}
    (hu : u ∈ e₀.post.humanUsers) (hnone : ∀ e ∈ newer, ¬ InvalidatesUser e u.id) :
    ∃ u' ∈ db.humanUsers, u.Becomes u' ∧ u'.authEpoch = u.authEpoch := by
  have he₀ : e₀ ∈ newer ++ e₀ :: older := List.mem_append_right _ List.mem_cons_self
  obtain ⟨u', hu', hbecomes⟩ := (h.evolves_end he₀).humanUsers.exists_of_mem hu
  refine ⟨u', hu', hbecomes, ?_⟩
  by_contra hne
  have hnot : ¬ ∃ v ∈ e₀.post.humanUsers, v.id = u.id ∧ v.authEpoch ≠ u.authEpoch := by
    rintro ⟨v, hv, hid, hdiffers⟩
    rw [(h.consistent_post he₀).userIds.eq_of_mem hv hu hid] at hdiffers
    exact hdiffers rfl
  obtain ⟨e, he, hbefore, v', hv', hid', hdiffers⟩ := h.origin_since
    (F := fun db => ∃ v ∈ db.humanUsers, v.id = u.id ∧ v.authEpoch ≠ u.authEpoch) hnot
    ⟨u', hu', by rw [hbecomes.fixed], hne⟩
  have hmem : e ∈ newer ++ e₀ :: older := List.mem_append_left _ he
  obtain ⟨v, hv, hbecomes'⟩ :=
    (h.evolves_between (precedes_of_mem_newer he)).humanUsers.exists_of_mem hu
  have hid : v.id = u.id := by rw [hbecomes'.fixed]
  have hsame : v.authEpoch = u.authEpoch := by
    by_contra hdiffers
    exact hbefore ⟨v, hv, hid, hdiffers⟩
  obtain ⟨env, hcommits, hok⟩ := h.commits_of_changed hmem fun heq =>
    hbefore ⟨v', heq ▸ hv', hid', hdiffers⟩
  have hinvalidates := hcommits.epoch_advanced (h.consistent_pre hmem) hv hv' (hid'.trans hid.symm)
    (hsame ▸ hdiffers)
  rw [hid] at hinvalidates
  exact hnone e he (hinvalidates.invalidatesUser (hok hinvalidates.not_reads))

/-- A session that nothing revokes stays as it is, but for its uses. -/
theorem session_kept (h : History config engine ops (newer ++ e₀ :: older) db) {s : AuthSession}
    (hs : s ∈ e₀.post.authSessions) (hunrevoked : s.revokedAt = none)
    (hlogout : ∀ e ∈ newer, ∀ hash, SecretHash.asBytes hash = s.tokenHash →
      ¬ Succeeded e (.deleteSession hash) ())
    (hnone : ∀ e ∈ newer, ¬ InvalidatesUser e s.userId) :
    ∃ s' ∈ db.authSessions, s.Becomes s' ∧ s'.revokedAt = none := by
  have he₀ : e₀ ∈ newer ++ e₀ :: older := List.mem_append_right _ List.mem_cons_self
  obtain ⟨s', hs', hbecomes⟩ := (h.evolves_end he₀).authSessions.exists_of_mem hs
  refine ⟨s', hs', hbecomes, ?_⟩
  by_contra hrevoked
  have hnot : ¬ ∃ s₁ ∈ e₀.post.authSessions, s₁.id = s.id ∧ s₁.revokedAt ≠ none := by
    rintro ⟨s₁, hs₁, hid, hrevoked₁⟩
    rw [(h.consistent_post he₀).sessionIds.eq_of_mem hs₁ hs hid] at hrevoked₁
    exact hrevoked₁ hunrevoked
  obtain ⟨e, he, hbefore, s₂, hs₂, hid₂, hrevoked₂⟩ := h.origin_since
    (F := fun db => ∃ s₁ ∈ db.authSessions, s₁.id = s.id ∧ s₁.revokedAt ≠ none) hnot
    ⟨s', hs', by rw [hbecomes.fixed], hrevoked⟩
  have hmem : e ∈ newer ++ e₀ :: older := List.mem_append_left _ he
  have hbecomes₂ : s.Becomes s₂ :=
    ((h.evolves_between (precedes_of_mem_newer he)).trans
      (h.evolves_event hmem)).becomes_of_sessionId (h.consistent_post hmem) hs hs₂ hid₂
  have htoken : s₂.tokenHash = s.tokenHash := by rw [hbecomes₂.fixed]
  have howner : s₂.userId = s.userId := by rw [hbecomes₂.fixed]
  obtain ⟨env, hcommits, hok⟩ := h.commits_of_changed hmem fun heq =>
    hbefore ⟨s₂, heq ▸ hs₂, hid₂, hrevoked₂⟩
  rcases hcommits.session_revoked hs₂ hrevoked₂ fun s₁ hs₁ hid₁ => by
      by_contra hrevoked₁
      exact hbefore ⟨s₁, hs₁, hid₁.trans hid₂, hrevoked₁⟩ with ⟨hash, hcall, hhash⟩ | hinvalidates
  · obtain ⟨a, hdeleted⟩ := succeeded_of_isOk hcall (hok (by rw [hcall]; rfl))
    exact hlogout e he hash (hhash.symm.trans htoken) hdeleted
  · rw [howner] at hinvalidates
    exact hnone e he (hinvalidates.invalidatesUser (hok hinvalidates.not_reads))

/-- A session that is not used keeps its idle expiry. -/
theorem idle_kept (h : History config engine ops (newer ++ e₀ :: older) db) {s s' : AuthSession}
    (hs : s ∈ e₀.post.authSessions) (hs' : s' ∈ db.authSessions) (hid : s'.id = s.id)
    (hunused : ∀ e ∈ newer, usedAt s.id e = none) : s'.idleExpiresAt = s.idleExpiresAt := by
  have he₀ : e₀ ∈ newer ++ e₀ :: older := List.mem_append_right _ List.mem_cons_self
  by_contra hmoved
  have hnot : ¬ ∃ s₁ ∈ e₀.post.authSessions, s₁.id = s.id ∧ s₁.idleExpiresAt ≠ s.idleExpiresAt := by
    rintro ⟨s₁, hs₁, hid₁, hmoved₁⟩
    rw [(h.consistent_post he₀).sessionIds.eq_of_mem hs₁ hs hid₁] at hmoved₁
    exact hmoved₁ rfl
  obtain ⟨e, he, hbefore, s₂, hs₂, hid₂, hmoved₂⟩ := h.origin_since
    (F := fun db => ∃ s₁ ∈ db.authSessions, s₁.id = s.id ∧ s₁.idleExpiresAt ≠ s.idleExpiresAt) hnot
    ⟨s', hs', hid, hmoved⟩
  have hmem : e ∈ newer ++ e₀ :: older := List.mem_append_left _ he
  rcases h.sessions_event hmem with ⟨ceremonyId, verification, session, now, audit, hc, hrows⟩ |
    ⟨s₁, p, csrfHash, now, hfound, huses⟩ | ⟨-, p, now, hrows⟩
  · -- the session had been created before
    obtain ⟨s₁, hs₁, hbecomes⟩ :=
      (h.evolves_between (precedes_of_mem_newer he)).authSessions.exists_of_mem hs
    rw [hrows, List.mem_append, List.mem_singleton] at hs₂
    rcases hs₂ with hs₂ | rfl
    · exact hbefore ⟨s₂, hs₂, hid₂, hmoved₂⟩
    · have hkeys := (h.consistent_post hmem).sessionIds
      rw [hrows] at hkeys
      exact hkeys.ne_of_append hs₁ (by rw [hbecomes.fixed]; exact hid₂.symm)
  · have hother : s₁.id ≠ s.id := by
      intro heq
      have hused := hunused e he
      simp [usedAt, hfound, huses.id, heq] at hused
    rw [huses.used] at hs₂
    obtain ⟨s₃, hs₃, rfl⟩ := mem_updateWhere.1 hs₂
    split at hmoved₂
    · next hsel =>
        rw [if_pos hsel] at hid₂
        exact hother ((of_decide_eq_true hsel).symm.trans hid₂)
    · next hsel =>
        rw [if_neg hsel] at hid₂
        exact hbefore ⟨s₃, hs₃, hid₂, hmoved₂⟩
  · rw [hrows] at hs₂
    obtain ⟨s₃, hs₃, rfl⟩ := mem_updateWhere.1 hs₂
    refine hbefore ⟨s₃, hs₃, ?_⟩
    split at hmoved₂
    · next hsel =>
        rw [if_pos hsel] at hid₂
        exact ⟨hid₂, hmoved₂⟩
    · next hsel =>
        rw [if_neg hsel] at hid₂
        exact ⟨hid₂, hmoved₂⟩

/-- The idle expiry of a session is counted from its last use, or from its creation. -/
theorem idle_ge (h : History config engine ops tr db) {s : AuthSession} (hs : s ∈ db.authSessions)
    (he₀ : e₀ ∈ tr) (hcreates : CreatesSession ops e₀ s.id c) :
    min ((lastUse s.id tr).getD c + config.sessionIdleTtl) s.absoluteExpiresAt ≤
      s.idleExpiresAt := by
  cases hlast : lastUse s.id tr with
  | none =>
      obtain ⟨newer, older, rfl⟩ := List.append_of_mem he₀
      obtain ⟨ceremonyId, response, token, csrf, verification, session, audit, -, hc, hid⟩ :=
        hcreates
      obtain ⟨env, hperform⟩ := h.succeeded he₀ hc
      obtain ⟨ceremony, hlogin⟩ := completeAuthentication_committed hperform
      have hrow : session.row c ∈ e₀.post.authSessions := by
        rw [hlogin.added]
        exact List.mem_append_right _ (List.mem_singleton_self _)
      have hunused : ∀ e ∈ newer, usedAt (session.row c).id e = none := by
        intro e he
        have hrowId : (session.row c).id = s.id := hid
        rw [hrowId]
        exact List.findSome?_eq_none_iff.1 hlast e (List.mem_append_left _ he)
      have hkept := h.idle_kept hrow hs hid.symm hunused
      have hidle : (session.row c).idleExpiresAt = c + config.sessionIdleTtl :=
        (h.createsSession he₀ hc).2.1
      rw [hkept, hidle]
      exact min_le_left _ _
  | some used =>
      obtain ⟨newer, e, older, rfl, hat, hnone⟩ := List.findSome?_eq_some_iff.1 hlast
      have he : e ∈ newer ++ e :: older := List.mem_append_right _ List.mem_cons_self
      obtain ⟨⟨p, now⟩, hfiltered, rfl⟩ := Option.map_eq_some_iff.1 hat
      obtain ⟨hfound, hid⟩ := Option.filter_eq_some_iff.1 hfiltered
      obtain ⟨s₁, csrfHash, huses⟩ := h.uses_of_found he hfound
      have hid : s₁.id = s.id := huses.id.symm.trans (of_decide_eq_true hid)
      have hrow : ∃ s₂ ∈ e.post.authSessions, s₂.id = s₁.id ∧
          s₂.idleExpiresAt = min (now + config.sessionIdleTtl) s₁.absoluteExpiresAt ∧
          s₂.absoluteExpiresAt = s₁.absoluteExpiresAt := by
        refine ⟨{ s₁ with
          csrfHash := (csrfHash.map (·.asBytes)).getD s₁.csrfHash
          idleExpiresAt := min (now + config.sessionIdleTtl) s₁.absoluteExpiresAt
          lastSeenAt := now }, ?_, rfl, rfl, rfl⟩
        rw [huses.used]
        exact mem_updateWhere.2 ⟨s₁, huses.mem, (if_pos (decide_eq_true rfl)).symm⟩
      obtain ⟨s₂, hs₂, hid₂, hidle₂, habsolute₂⟩ := hrow
      have hbecomes := (h.evolves_end he).becomes_of_sessionId h.consistent hs₂ hs
        (hid.symm.trans hid₂.symm)
      have habsolute : s.absoluteExpiresAt = s₂.absoluteExpiresAt := by rw [hbecomes.fixed]
      have hkept := h.idle_kept hs₂ hs (hid.symm.trans hid₂.symm) fun e' he' => by
        rw [hid₂, hid]
        exact hnone e' he'
      rw [hkept, hidle₂, habsolute, habsolute₂]
      exact le_rfl

/-- A lookup that is answered finds the session that is there. -/
theorem found_of_live (h : History config engine ops tr db) (he : e ∈ tr)
    (hlookup : e.call.lookup = some (hash, now)) (hok : e.resp.isOk = true) {s : AuthSession}
    {u : HumanUser} (hs : s ∈ e.pre.authSessions) (hu : u ∈ e.pre.humanUsers)
    (hfound : SessionFound hash.asBytes now s u) :
    ∃ p, foundSession e = some (p, now) ∧ p.sessionId = s.id := by
  have hkeyed := (h.consistent_pre he).sessionHashes
  obtain ⟨env, hperform⟩ := h.storeRun.performed he
  have hanswer : ∀ {touch : AuthSession → Statement Unit}
      {principal : AuthSession × HumanUser → Except AuthError SessionPrincipal}
      {r : Except AuthError (Option SessionPrincipal)},
      (∀ row q, principal row = .ok q → q.sessionId = row.1.id) →
      Tx.Yields (useSession hash now touch principal) e.pre r e.post → r.isOk = true →
      ∃ p, r = .ok (some p) ∧ p.sessionId = s.id := by
    intro touch principal r hprincipal hyields hisOk
    rcases useSession_outcome hyields with ⟨error, rfl, -⟩ | ⟨-, -, hno⟩ |
      ⟨s₁, hs₁, u₁, hu₁, hfound₁, -, rfl⟩
    · cases hisOk
    · exact absurd hfound (hno s hs u hu)
    · obtain rfl : s₁ = s := hkeyed.eq_of_mem hs₁ hs (hfound₁.2.1.trans hfound.2.1.symm)
      cases hp : principal (s₁, u₁) with
      | error error =>
          rw [hp] at hisOk
          cases hisOk
      | ok p => exact ⟨p, rfl, hprincipal _ p hp⟩
  obtain ⟨tid, call, resp, pre, post⟩ := e
  cases call with
  | session hash' now' idle =>
      obtain ⟨rfl, rfl⟩ := Prod.mk.inj (Option.some.inj hlookup)
      have hyields : Tx.Yields (PgAuthStore.session hash' now' idle) pre resp post :=
        yields_of_perform hperform
      unfold PgAuthStore.session at hyields
      obtain ⟨p, rfl, hid⟩ := hanswer (fun row q hq => by
        obtain ⟨user, -, hq⟩ := except_bind_ok hq
        obtain ⟨csrfHash, -, hq⟩ := except_bind_ok hq
        cases hq
        rfl) hyields hok
      exact ⟨p, rfl, hid⟩
  | rotateSessionCsrf hash' csrfHash now' idle =>
      obtain ⟨rfl, rfl⟩ := Prod.mk.inj (Option.some.inj hlookup)
      have hyields : Tx.Yields (PgAuthStore.rotateSessionCsrf hash' csrfHash now' idle) pre resp
          post :=
        yields_of_perform hperform
      unfold PgAuthStore.rotateSessionCsrf at hyields
      obtain ⟨p, rfl, hid⟩ := hanswer (fun row q hq => by
        obtain ⟨user, -, hq⟩ := except_bind_ok hq
        cases hq
        rfl) hyields hok
      exact ⟨p, rfl, hid⟩
  | _ => cases hlookup

/-- The user that a login has read was not disabled. -/
theorem login_enabled (h : History config engine ops tr db) (hprec : Precedes tr e₀ e)
    (htid : e.tid = e₀.tid) {handle : Uuid} {user : User}
    (hread : Succeeded e₀ (.userByHandle handle) (some user)) {ceremonyId : Uuid}
    {verification : AuthenticationVerification} {session : SessionRecord} {audit : AuditEvent}
    (hlogin : Succeeded e (.completeAuthentication ceremonyId verification session now audit) ()) :
    user.enabled = true := by
  obtain ⟨past, ⟨response, token, csrf, id, ceremony, handle', user', credentials, -, hpast,
    henabled, -, -⟩, -, hforth⟩ := h.explained_of_succeeded hprec.right_mem hlogin
  have hmem := hforth e₀ hprec htid.symm
  rw [hread, hpast] at hmem
  simp only [List.mem_cons, Exchange.mk.injEq, reduceCtorEq, AuthCall.userByHandle.injEq,
    false_and, false_or, or_false, List.not_mem_nil] at hmem
  obtain ⟨rfl, hanswer⟩ := hmem
  cases eq_of_heq hanswer
  exact henabled

/-- The user of a session that stands has the epoch of its login. -/
theorem user_of_read (h : History config engine ops tr db) {read : AuthEvent τ} (hread : read ∈ tr)
    {handle : Uuid} {user : User} (hc : Succeeded read (.userByHandle handle) (some user))
    (hnone : ∀ e, Precedes tr read e → ¬ InvalidatesUser e user.id.value) :
    ∃ u ∈ db.humanUsers, u.id = user.id.value ∧ u.enabled = user.enabled ∧
      u.authEpoch = user.authEpoch := by
  obtain ⟨newer, older, rfl⟩ := List.append_of_mem hread
  obtain ⟨env, hperform⟩ := h.succeeded hread hc
  obtain ⟨u, hu, -, hdecodes⟩ := userByHandle_found hperform
  rw [← (perform_ok hperform).same_of_reads rfl rfl] at hu
  obtain ⟨u', hu', hbecomes, hepoch⟩ := h.epoch_kept hu fun e he => by
    rw [hdecodes.id]
    exact hnone e (precedes_of_mem_newer he)
  refine ⟨u', hu', ?_, ?_, hepoch.trans hdecodes.authEpoch⟩
  · rw [hbecomes.fixed]
    exact hdecodes.id
  · rw [hbecomes.fixed]
    exact hdecodes.enabled

/-- What stands and has not expired is found. -/
theorem found_of_stands (h : History config engine ops (e :: older) e.post)
    (hlookup : e.call.lookup = some (hash, now)) (hok : e.resp.isOk = true)
    (hstands : Stands older hash id c) (habsolute : now < c + config.sessionAbsoluteTtl)
    (hidle : now < (lastUse id older).getD c + config.sessionIdleTtl) :
    ∃ p, foundSession e = some (p, now) ∧ p.sessionId = id := by
  have hsplit : History config engine ops ([] ++ e :: older) e.post := h
  have hpre : History config engine ops older e.pre := hsplit.older
  obtain ⟨read, login, handle, user, ceremonyId, verification, session, audit, hprec, htid, hread,
    hlogin, rfl, rfl, hinvalidates, hlogout⟩ := hstands
  obtain ⟨-, howner, hepoch⟩ :=
    hpre.login_session hprec.left_mem hprec.right_mem htid hread hlogin
  obtain ⟨u, hu, huid, henabled, huepoch⟩ := hpre.user_of_read hprec.left_mem hread hinvalidates
  obtain ⟨hcreates, -, habsolute₀⟩ := hpre.createsSession hprec.right_mem hlogin
  obtain ⟨env, hperform⟩ := hpre.succeeded hprec.right_mem hlogin
  obtain ⟨ceremony, hdone⟩ := completeAuthentication_committed hperform
  have hrow : session.row c ∈ login.post.authSessions := by
    rw [hdone.added]
    exact List.mem_append_right _ (List.mem_singleton_self _)
  obtain ⟨s, hs, hbecomes, hunrevoked⟩ : ∃ s ∈ e.pre.authSessions, (session.row c).Becomes s ∧
      s.revokedAt = none := by
    obtain ⟨newer, earlier, rfl, hearlier⟩ := precedes_iff_split.1 hprec
    refine hpre.session_kept hrow rfl (fun e' he' hash' hhash hdeleted => ?_) fun e' he' hinv => ?_
    · rw [SecretHash.asBytes_injective hhash] at hdeleted
      exact hlogout e' (precedes_of_mem_newer he') hdeleted
    · obtain ⟨later, between, rfl⟩ := List.append_of_mem he'
      have hprec' : Precedes ((later ++ e' :: between) ++ login :: earlier) read e' :=
        precedes_iff_split.2 ⟨later, between ++ login :: earlier, by simp,
          List.mem_append_right _ (List.mem_cons_of_mem _ hearlier)⟩
      have hinv : InvalidatesUser e' session.userId.value := hinv
      rw [howner] at hinv
      exact hinvalidates e' hprec' hinv
  have hsid : s.id = session.id := by rw [hbecomes.fixed]; rfl
  have habs : s.absoluteExpiresAt = c + config.sessionAbsoluteTtl := by
    rw [hbecomes.fixed]
    exact habsolute₀
  have hge := hpre.idle_ge hs hprec.right_mem (hsid ▸ hcreates)
  rw [hsid, habs] at hge
  obtain ⟨p, hfound, hp⟩ := h.found_of_live List.mem_cons_self hlookup hok hs hu
    ⟨by rw [huid, hbecomes.fixed, ← howner]; rfl, by rw [hbecomes.fixed]; rfl, hunrevoked,
      lt_of_lt_of_le (lt_min hidle habsolute) hge, habs.symm ▸ habsolute,
      henabled.trans (hpre.login_enabled hprec htid hread hlogin),
      by rw [huepoch, hbecomes.fixed, ← hepoch]; rfl⟩
  exact ⟨p, hfound, hp.trans hsid⟩

/-- What is found stands and has not expired. -/
theorem stands_of_found (h : History config engine ops (e :: older) e.post)
    (hlookup : e.call.lookup = some (hash, now)) {p : SessionPrincipal}
    (hfound : foundSession e = some (p, now)) :
    ∃ c, Stands older hash p.sessionId c ∧ now < c + config.sessionAbsoluteTtl ∧
      now < (lastUse p.sessionId older).getD c + config.sessionIdleTtl := by
  have hsplit : History config engine ops ([] ++ e :: older) e.post := h
  have hpre : History config engine ops older e.pre := hsplit.older
  have hreturns : ReturnsSession e hash p := by
    rcases foundSession_eq_some.1 hfound with ⟨hash', idle, hc⟩ | ⟨hash', csrfHash, idle, hc⟩
    · have hcall : e.call = .session hash' now idle := congrArg Exchange.call hc
      rw [hcall] at hlookup
      cases hlookup
      exact .session _ _ hc
    · have hcall : e.call = .rotateSessionCsrf hash' csrfHash now idle := congrArg Exchange.call hc
      rw [hcall] at hlookup
      cases hlookup
      exact .rotateSessionCsrf _ _ _ hc
  obtain ⟨s, csrfHash, huses⟩ := h.uses_of_found List.mem_cons_self hfound
  obtain ⟨now', s₁, hs₁, u, -, hid₁, -, hhash, -⟩ := h.returned_session List.mem_cons_self hreturns
  obtain rfl : s₁ = s := hpre.consistent.sessionIds.eq_of_mem hs₁ huses.mem (hid₁.trans huses.id)
  obtain ⟨⟨login, hmem, c, hcreates⟩, habsolute, hidle⟩ := hpre.timed s₁ hs₁
  refine ⟨c, ?_, habsolute login hmem c hcreates ▸ huses.beforeAbsolute, ?_⟩
  · obtain ⟨ceremonyId, response, token, csrf, verification, session, audit, -, hlogin, hid⟩ :=
      hcreates
    obtain ⟨env, hperform⟩ := hpre.succeeded hmem hlogin
    obtain ⟨ceremony, hdone⟩ := completeAuthentication_committed hperform
    have hrow : session.row c ∈ login.post.authSessions := by
      rw [hdone.added]
      exact List.mem_append_right _ (List.mem_singleton_self _)
    have hbecomes : (session.row c).Becomes s₁ :=
      (hpre.evolves_end hmem).becomes_of_sessionId hpre.consistent hrow hs₁ hid.symm
    have htoken : session.tokenHash = hash := by
      refine SecretHash.asBytes_injective (Eq.trans ?_ hhash)
      rw [hbecomes.fixed]
      rfl
    obtain ⟨past, ⟨_, _, _, _, _, handle, user, _, -, hpast, -⟩, hback, -⟩ :=
      hpre.explained_of_succeeded hmem hlogin
    obtain ⟨read, hprec, htid, hread⟩ := hback (.userByHandle handle) (some user)
      (by rw [hpast]; exact List.mem_cons_of_mem _ List.mem_cons_self)
    refine ⟨read, login, handle, user, ceremonyId, verification, session, audit, hprec, htid.symm,
      hread, hlogin, htoken, hid.trans hid₁, ?_, ?_⟩
    · intro e₁ hprec₁ hinv
      exact h.not_returned_after_invalidation (precedes_cons hprec₁) (precedes_head hprec₁.right_mem)
        (precedes_head hmem) htid.symm hread hinv hlogin hreturns (hid.trans hid₁).symm
    · intro e₁ hprec₁ hdeleted
      obtain ⟨s₂, hs₂, hbecomes₂⟩ := (hpre.evolves_between hprec₁).authSessions.exists_of_mem hrow
      refine (h.not_returned_after_delete (precedes_head hprec₁.right_mem) hdeleted hs₂ ?_
        hreturns).1 ?_
      · rw [hbecomes₂.fixed, ← htoken]
        rfl
      · rw [hbecomes₂.fixed, ← hid₁, ← hid]
        rfl
  · rw [← hid₁]
    exact huses.beforeIdle.trans_le (hidle login hmem c hcreates)

end History

/-- **A session is found exactly as long as it stands.** A lookup of a token that is answered finds
    the session `id` if and only if the session was created by a login with that token, nothing has
    invalidated its user since the login read them, nobody has logged out with the token since the
    login, and the time is before the end of its absolute time to live and before the end of its idle
    time to live, which is counted from the last time it was found. -/
theorem session_found_iff [DecidableEq τ] [Crates] {config : AuthConfig} {engine : CeremonyEngine}
    {ops : τ → Operation} {newer older : List (AuthEvent τ)} {db : Database} {e : AuthEvent τ}
    (h : History config engine ops (newer ++ e :: older) db) {hash : SecretHash} {now : DateTime}
    (hlookup : e.call.lookup = some (hash, now)) (hok : e.resp.isOk = true) (id : Uuid) :
    (∃ p, foundSession e = some (p, now) ∧ p.sessionId = id) ↔
      ∃ c, Stands older hash id c ∧ now < c + config.sessionAbsoluteTtl ∧
        now < (lastUse id older).getD c + config.sessionIdleTtl := by
  have hupto : History config engine ops (e :: older) e.post := h.storeRun.upto
  constructor
  · rintro ⟨p, hfound, rfl⟩
    exact hupto.stands_of_found hlookup hfound
  · rintro ⟨c, hstands, habsolute, hidle⟩
    exact hupto.found_of_stands hlookup hok hstands habsolute hidle

section Sample

attribute [local instance] Reference.crates

/-- The session of the login at 4 was found at 9, and it had never been found before. -/
theorem session_found_iff_sample :
    ∃ newer older e p, sampleRefusalRun.trace = newer ++ e :: older ∧
      e.call.lookup = some ((sampleToken 1).hash, 9) ∧ foundSession e = some (p, 9) ∧
      ∃ c, Stands older (sampleToken 1).hash p.sessionId c ∧
        9 < c + AuthConfig.default.sessionAbsoluteTtl ∧
        9 < (lastUse p.sessionId older).getD c + AuthConfig.default.sessionIdleTtl := by
  obtain ⟨e, older, p, htrace, hlookup, hok, hfound⟩ : ∃ e older p,
      sampleRefusalRun.trace = [] ++ e :: older ∧
      e.call.lookup = some ((sampleToken 1).hash, 9) ∧ e.resp.isOk = true ∧
      foundSession e = some (p, 9) :=
    ⟨_, _, _, rfl, rfl, rfl, rfl⟩
  have h := sampleRefusal_history
  rw [htrace] at h
  exact ⟨[], older, e, p, htrace, hlookup, hfound,
    (session_found_iff h hlookup hok p.sessionId).1 ⟨p, hfound, rfl⟩⟩

end Sample

end RsConsole
