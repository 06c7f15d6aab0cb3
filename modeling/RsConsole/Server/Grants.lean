import RsConsole.Library.Since
import RsConsole.Server.Lifetime

set_option autoImplicit false

/-! # How long a link and a ceremony are good

A capability and a ceremony are given by one event and ended by others, and nothing else decides
whether they are found but their expiry: so each is found exactly as long as an event has given it and
none has ended it since (`Run.holds_iff_since`). What a single call does to them is read off the
store's specification, `LiveStore.Does`. -/

namespace RsConsole

open Library Library.Table Database PgAuthStore

variable {τ : Type}

/-- The call spends the capability. -/
def AuthCall.Spends (hash : SecretHash) : AuthCall → Prop
  | .completeRegistration _ capabilityHash _ _ _ => capabilityHash = some hash
  | _ => False

/-- The call completes the ceremony. -/
def AuthCall.Completes (id : Uuid) : AuthCall → Prop
  | .completeRegistration ceremonyId _ _ _ _ => ceremonyId = id
  | .completeAuthentication ceremonyId _ _ _ _ => ceremonyId = id
  | _ => False

/-- The call ends what the user of a ceremony is authenticated by. A login belongs to nobody yet: only
    a rotation of all epochs ends it. -/
def AuthCall.InvalidatesOwner (db : Database) (c : AuthCall) : Option UserId → Prop
  | some userId => c.Invalidates db userId.value
  | none => ∃ now reason, c = .rotateAllAuthEpochs now reason

/-- A call that only reads. The use of a session prolongs it. -/
def AuthCall.queries : AuthCall → Bool
  | .session .. => false
  | .rotateSessionCsrf .. => false
  | c => c.reads

/-- The event gave the capability. -/
def GivesCapability (given : Capability) (e : AuthEvent τ) : Prop :=
  e.resp.isOk = true ∧ e.call.issued = some given

/-- The event spent the capability, or invalidated its user. -/
def EndsCapability (given : Capability) (e : AuthEvent τ) : Prop :=
  e.resp.isOk = true ∧
    (e.call.Spends given.tokenHash ∨ e.call.Invalidates e.pre given.userId.value)

/-- The event started the ceremony. -/
def StartsCeremony (ceremony : Ceremony) (e : AuthEvent τ) : Prop :=
  e.resp.isOk = true ∧ e.call = .insertCeremony ceremony

/-- The event completed the ceremony, or invalidated its user. -/
def EndsCeremony (ceremony : Ceremony) (e : AuthEvent τ) : Prop :=
  e.resp.isOk = true ∧
    (e.call.Completes ceremony.id ∨ e.call.InvalidatesOwner e.pre ceremony.userId)

/-! ## One call -/

namespace LiveStore

variable {s s' : LiveStore} {db : Database} {c : AuthCall} {a : c.Reply}

theorem Does.unchanged (h : s.Does c a s') (hc : c.queries = true) : s' = s := by
  cases c with
  | userById => exact h.2
  | userByHandle => exact h.2
  | credentialsForUser => exact h.2.2
  | operatorWithoutCredential => exact h.2.2
  | operatorExists => exact h.2
  | operatorRecoveryWindow => exact h.2.2
  | capability => exact h.2
  | ceremony => exact h.2
  | pendingRecoveries => exact h.2.2
  | _ => cases hc

theorem use_capabilities (hash : SecretHash) (csrfHash : Option SecretHash)
    (now idle : DateTime) : (s.use hash csrfHash now idle).capabilities = s.capabilities := by
  unfold use
  split
  · rfl
  · rfl

theorem use_ceremonies (hash : SecretHash) (csrfHash : Option SecretHash) (now idle : DateTime) :
    (s.use hash csrfHash now idle).ceremonies = s.ceremonies := by
  unfold use
  split
  · rfl
  · rfl

/-- The request that is approved is the one of the recovery. -/
theorem invalidates_approved (h : db.Abstracts s) {recoveryId : Uuid} {recovery : OpenRecovery}
    (hentry : s.recoveries recoveryId = some recovery) (userId operatorId : UserId)
    (now : DateTime) :
    (AuthCall.approveRecovery recoveryId operatorId now).Invalidates db userId.value ↔
      userId = recovery.request.userId := by
  obtain ⟨hid, r, hr, hkept⟩ := (h.shows.recoveries _ _).1 hentry
  obtain ⟨hrid, huser, -⟩ := RecoveryRequest.row_of_tryFrom hkept.2.1
  constructor
  · rintro ⟨r', hr', hrid', huser'⟩
    obtain rfl := h.consistent.recoveryIds.eq_of_mem hr' hr (hrid'.trans (hrid.trans hid).symm)
    exact OpaqueId.value_injective (huser'.symm.trans huser)
  · rintro rfl
    exact ⟨r, hr, hrid.trans hid, huser⟩

/-- A call that neither gives nor ends the capability. -/
theorem entry_kept {given : Capability} (hmap : s'.capabilities = s.capabilities)
    (hissued : c.issued = none) (hspends : ¬ c.Spends given.tokenHash)
    (hinvalidates : ¬ c.Invalidates db given.userId.value) :
    s'.capabilities given.tokenHash = some given ↔ c.issued = some given ∨
      (¬ (c.Spends given.tokenHash ∨ c.Invalidates db given.userId.value) ∧
        s.capabilities given.tokenHash = some given) := by
  rw [hmap, hissued]
  simp [hspends, hinvalidates]

/-- A call that gives a capability and ends none. -/
theorem entry_added {given added : Capability}
    (hmap : s'.capabilities = Function.update s.capabilities added.tokenHash (some added))
    (hnew : s.capabilities added.tokenHash = none) (hissued : c.issued = some added)
    (hspends : ¬ c.Spends given.tokenHash) (hinvalidates : ¬ c.Invalidates db given.userId.value) :
    s'.capabilities given.tokenHash = some given ↔ c.issued = some given ∨
      (¬ (c.Spends given.tokenHash ∨ c.Invalidates db given.userId.value) ∧
        s.capabilities given.tokenHash = some given) := by
  rw [hmap, update_eq_some_iff Capability.tokenHash hnew, hissued]
  simp [hspends, hinvalidates]

theorem Does.capability_iff (h : s.Does c a s') (hdb : db.Abstracts s) (given : Capability) :
    s'.capabilities given.tokenHash = some given ↔ c.issued = some given ∨
      (¬ (c.Spends given.tokenHash ∨ c.Invalidates db given.userId.value) ∧
        s.capabilities given.tokenHash = some given) := by
  cases c with
  | insertCapability added => exact entry_added (congrArg _ h.2) h.1 rfl id id
  | approveUserWithSetup user added =>
      exact entry_added (congrArg _ h.2.2) h.2.1 rfl id id
  | issueRecoverySetup recoveryId added =>
      obtain ⟨recovery, -, -, -, -, hnew, rfl⟩ := h
      exact entry_added rfl hnew rfl id id
  | breakGlass credentialId added =>
      obtain ⟨-, hnew, rfl⟩ := h
      refine (update_eq_some_iff Capability.tokenHash ?_).trans ?_
      · change (s.capabilities added.tokenHash).filter _ = none
        rw [hnew]
        rfl
      · simp [invalidateUser, invalidate, dropCredential, Option.filter_eq_some_iff,
          AuthCall.issued, AuthCall.Spends, AuthCall.Invalidates, and_comm,
          OpaqueId.value_injective.eq_iff, @eq_comm _ added.userId]
  | rotateAllAuthEpochs =>
      obtain ⟨-, rfl⟩ := h
      simp [invalidate, AuthCall.issued, AuthCall.Invalidates]
  | approveRecovery recoveryId operatorId now =>
      obtain ⟨recovery, hentry, -, rfl⟩ := h
      rw [invalidates_approved hdb hentry]
      simp [invalidateUser, invalidate, setRecovery, Option.filter_eq_some_iff, AuthCall.issued,
        AuthCall.Spends, and_comm]
  | completeRegistration ceremonyId capabilityHash =>
      obtain ⟨_, _, _, -, -, -, -, -, -, -, rfl⟩ := h
      cases capabilityHash with
      | none => exact entry_kept rfl rfl (nomatch ·) id
      | some hash =>
          change Function.update s.capabilities hash none given.tokenHash = some given ↔ _
          by_cases hhash : given.tokenHash = hash
          · rw [hhash, Function.update_self]
            simp [AuthCall.issued, AuthCall.Spends]
          · rw [Function.update_of_ne hhash]
            simp [AuthCall.issued, AuthCall.Spends, AuthCall.Invalidates, Ne.symm hhash]
  | session hash now idle =>
      exact entry_kept (h.2 ▸ use_capabilities ..) rfl id id
  | rotateSessionCsrf hash csrfHash now idle =>
      exact entry_kept (h.2 ▸ use_capabilities ..) rfl id id
  | insertUser => exact entry_kept (h.2 ▸ rfl) rfl id id
  | insertCeremony => exact entry_kept (h.2 ▸ rfl) rfl id id
  | completeAuthentication => exact entry_kept (h.2.2.2 ▸ rfl) rfl id id
  | deleteSession => exact entry_kept (h ▸ rfl) rfl id id
  | createRecovery => exact entry_kept (h.2.2.2.2.2.2 ▸ rfl) rfl id id
  | _ => exact entry_kept (h.unchanged rfl ▸ rfl) rfl id id

/-- A call that neither starts nor ends the ceremony. -/
theorem ceremony_kept {ceremony : Ceremony} (hmap : s'.ceremonies = s.ceremonies)
    (hstarts : c ≠ .insertCeremony ceremony) (hcompletes : ¬ c.Completes ceremony.id)
    (hinvalidates : ¬ c.InvalidatesOwner db ceremony.userId) :
    s'.ceremonies ceremony.id = some ceremony ↔ c = .insertCeremony ceremony ∨
      (¬ (c.Completes ceremony.id ∨ c.InvalidatesOwner db ceremony.userId) ∧
        s.ceremonies ceremony.id = some ceremony) := by
  rw [hmap]
  simp [hstarts, hcompletes, hinvalidates]

/-- A call that completes a ceremony and invalidates nobody. -/
theorem ceremony_spent {ceremony : Ceremony} {id : Uuid}
    (hmap : s'.ceremonies = Function.update s.ceremonies id none)
    (hstarts : c ≠ .insertCeremony ceremony) (hcompletes : c.Completes ceremony.id ↔ id = ceremony.id)
    (hinvalidates : ¬ c.InvalidatesOwner db ceremony.userId) :
    s'.ceremonies ceremony.id = some ceremony ↔ c = .insertCeremony ceremony ∨
      (¬ (c.Completes ceremony.id ∨ c.InvalidatesOwner db ceremony.userId) ∧
        s.ceremonies ceremony.id = some ceremony) := by
  rw [hmap]
  by_cases hid : ceremony.id = id
  · have hdone : c.Completes ceremony.id := hcompletes.2 hid.symm
    rw [hid, Function.update_self, ← hid]
    simp [hstarts, hdone]
  · rw [Function.update_of_ne hid]
    simp [hstarts, hcompletes, hinvalidates, Ne.symm hid]

/-- A call that invalidates the owner of a ceremony, and nobody else. -/
theorem ceremony_invalidated {ceremony : Ceremony} {userId : UserId}
    (hmap : s'.ceremonies = (s.invalidateUser userId).ceremonies)
    (hstarts : c ≠ .insertCeremony ceremony) (hcompletes : ¬ c.Completes ceremony.id)
    (hinvalidates : c.InvalidatesOwner db ceremony.userId ↔ ceremony.userId = some userId) :
    s'.ceremonies ceremony.id = some ceremony ↔ c = .insertCeremony ceremony ∨
      (¬ (c.Completes ceremony.id ∨ c.InvalidatesOwner db ceremony.userId) ∧
        s.ceremonies ceremony.id = some ceremony) := by
  rw [hmap, hinvalidates]
  simp [invalidateUser, invalidate, Option.filter_eq_some_iff, hstarts, hcompletes, and_comm]

theorem Does.ceremony_iff (h : s.Does c a s') (hdb : db.Abstracts s) (ceremony : Ceremony) :
    s'.ceremonies ceremony.id = some ceremony ↔ c = .insertCeremony ceremony ∨
      (¬ (c.Completes ceremony.id ∨ c.InvalidatesOwner db ceremony.userId) ∧
        s.ceremonies ceremony.id = some ceremony) := by
  have howner : ∀ {c : AuthCall}, (∀ u, ¬ c.Invalidates db u) →
      ¬ c.InvalidatesOwner db ceremony.userId := by
    intro c hnone howner
    cases huser : ceremony.userId with
    | none =>
        rw [huser] at howner
        obtain ⟨now, reason, rfl⟩ := howner
        exact hnone "" True.intro
    | some userId =>
        rw [huser] at howner
        exact hnone _ howner
  cases c with
  | insertCeremony started =>
      obtain ⟨hnew, rfl⟩ := h
      refine (update_eq_some_iff Ceremony.id hnew).trans ?_
      have hkept : ¬ (AuthCall.insertCeremony started).InvalidatesOwner db ceremony.userId :=
        howner fun _ => id
      simp [AuthCall.Completes, hkept]
  | completeRegistration ceremonyId =>
      obtain ⟨_, _, _, -, -, -, -, -, -, -, rfl⟩ := h
      exact ceremony_spent rfl nofun Iff.rfl (howner fun _ => id)
  | completeAuthentication ceremonyId =>
      exact ceremony_spent (h.2.2.2 ▸ rfl) nofun Iff.rfl (howner fun _ => id)
  | rotateAllAuthEpochs =>
      obtain ⟨-, rfl⟩ := h
      have hended : ∀ now reason, (AuthCall.rotateAllAuthEpochs now reason).InvalidatesOwner db
          ceremony.userId := by
        intro now reason
        cases ceremony.userId with
        | none => exact ⟨now, reason, rfl⟩
        | some userId => exact True.intro
      simp [invalidate, hended]
  | approveRecovery recoveryId operatorId now =>
      obtain ⟨recovery, hentry, -, rfl⟩ := h
      refine ceremony_invalidated rfl nofun id ?_
      cases ceremony.userId with
      | none => simp [AuthCall.InvalidatesOwner]
      | some userId => exact (invalidates_approved hdb hentry userId operatorId now).trans (Option.some_inj.symm)
  | breakGlass credentialId added =>
      obtain ⟨-, -, rfl⟩ := h
      refine ceremony_invalidated rfl nofun id ?_
      cases ceremony.userId with
      | none => simp [AuthCall.InvalidatesOwner]
      | some userId =>
          simp [AuthCall.InvalidatesOwner, AuthCall.Invalidates,
            OpaqueId.value_injective.eq_iff, @eq_comm _ userId]
  | session hash now idle =>
      exact ceremony_kept (h.2 ▸ use_ceremonies ..) nofun id (howner fun _ => id)
  | rotateSessionCsrf hash csrfHash now idle =>
      exact ceremony_kept (h.2 ▸ use_ceremonies ..) nofun id (howner fun _ => id)
  | insertCapability => exact ceremony_kept (h.2 ▸ rfl) nofun id (howner fun _ => id)
  | insertUser => exact ceremony_kept (h.2 ▸ rfl) nofun id (howner fun _ => id)
  | approveUserWithSetup => exact ceremony_kept (h.2.2 ▸ rfl) nofun id (howner fun _ => id)
  | deleteSession => exact ceremony_kept (h ▸ rfl) nofun id (howner fun _ => id)
  | createRecovery => exact ceremony_kept (h.2.2.2.2.2.2 ▸ rfl) nofun id (howner fun _ => id)
  | issueRecoverySetup =>
      obtain ⟨_, -, -, -, -, -, rfl⟩ := h
      exact ceremony_kept rfl nofun id (howner fun _ => id)
  | _ => exact ceremony_kept (h.unchanged rfl ▸ rfl) nofun id (howner fun _ => id)

end LiveStore

/-! ## Runs -/

def LiveStore.empty : LiveStore :=
  ⟨fun _ => none, fun _ => none, fun _ => none, fun _ => none, fun _ => none, fun _ => none⟩

theorem abstracts_empty : Database.empty.Abstracts LiveStore.empty :=
  ⟨legible_empty, consistent_empty, represents_nil, represents_nil, represents_nil, represents_nil,
    represents_nil, represents_nil⟩

theorem Database.Abstracts.unique {db : Database} {s s' : LiveStore} (h : db.Abstracts s)
    (h' : db.Abstracts s') : s = s' := by
  obtain ⟨users, credentials, capabilities, ceremonies, sessions, recoveries⟩ := s
  obtain rfl := h.shows.users.unique h'.shows.users
  obtain rfl := h.shows.credentials.unique h'.shows.credentials
  obtain rfl := h.shows.capabilities.unique h'.shows.capabilities
  obtain rfl := h.shows.ceremonies.unique h'.shows.ceremonies
  obtain rfl := h.shows.sessions.unique h'.shows.sessions
  obtain rfl := h.shows.recoveries.unique h'.shows.recoveries
  rfl

namespace StoreRun

variable [DecidableEq τ] {out : τ → Type}
  {start : (t : τ) → Program AuthCall AuthCall.Answer (out t)} {tr : List (AuthEvent τ)}
  {db : Database} {e : AuthEvent τ}

theorem abstracts (h : StoreRun start tr db) : ∃ s, db.Abstracts s :=
  (h.invariant legible_empty fun _ _ _ _ hcommits ha => ha.commits hcommits).abstracts h.consistent

/-- An event is a call of the specification between the maps before and after it. -/
theorem effect (h : StoreRun start tr db) (he : e ∈ tr) :
    ∃ s s', e.pre.Abstracts s ∧ LiveStore.Effect e.call s e.resp s' ∧ e.post.Abstracts s' := by
  obtain ⟨newer, older, rfl⟩ := List.append_of_mem he
  obtain ⟨s, hs⟩ := h.older.abstracts
  obtain ⟨env, hperform⟩ := h.performed he
  obtain ⟨s', heffect, hs'⟩ := hs.step hperform
  exact ⟨s, s', hs, heffect, hs'⟩

/-- What the answered calls give and end, a run keeps as long as it was given and not ended since. -/
theorem kept_iff_since (h : StoreRun start tr db) {s : LiveStore} (hs : db.Abstracts s)
    {G : LiveStore → Prop} {gives ends : Database → AuthCall → Prop} (hempty : ¬ G LiveStore.empty)
    (hstep : ∀ db s s' (c : AuthCall) (a : c.Reply), Database.Abstracts db s →
      LiveStore.Does s c a s' → (G s' ↔ gives db c ∨ (¬ ends db c ∧ G s))) :
    G s ↔ Since (fun e => e.resp.isOk = true ∧ gives e.pre e.call)
      (fun e => e.resp.isOk = true ∧ ends e.pre e.call) tr := by
  -- the maps are a function of the database
  have hholds : ∀ {db : Database} {s : LiveStore}, db.Abstracts s →
      ((∃ s, db.Abstracts s ∧ G s) ↔ G s) := by
    intro db s hs
    refine ⟨?_, fun hg => ⟨s, hs, hg⟩⟩
    rintro ⟨s', hs', hg⟩
    rw [hs.unique hs']
    exact hg
  have hrun := h
  obtain ⟨pool, run⟩ := h
  rw [← hholds hs]
  refine run.holds_iff_since (F := fun db => ∃ s, Database.Abstracts db s ∧ G s) ?_ fun e he => ?_
  · rw [hholds abstracts_empty]
    exact hempty
  · obtain ⟨s, s', hs, heffect, hs'⟩ := hrun.effect he
    rw [hholds hs, hholds hs']
    obtain ⟨tid, call, resp, pre, post⟩ := e
    cases resp with
    | error error =>
        obtain rfl : s' = s := heffect
        simp [Except.isOk, Except.toBool]
    | ok a =>
        refine (hstep pre s s' call a hs heffect).trans ?_
        simp [Except.isOk, Except.toBool]

theorem capability_kept_iff (h : StoreRun start tr db) {s : LiveStore} (hs : db.Abstracts s)
    (given : Capability) : s.capabilities given.tokenHash = some given ↔
      Since (GivesCapability given) (EndsCapability given) tr :=
  h.kept_iff_since hs (G := fun s => s.capabilities given.tokenHash = some given) nofun
    fun _ _ _ _ _ hs hdoes => hdoes.capability_iff hs given

theorem ceremony_kept_iff (h : StoreRun start tr db) {s : LiveStore} (hs : db.Abstracts s)
    (ceremony : Ceremony) : s.ceremonies ceremony.id = some ceremony ↔
      Since (StartsCeremony ceremony) (EndsCeremony ceremony) tr :=
  h.kept_iff_since hs (G := fun s => s.ceremonies ceremony.id = some ceremony) nofun
    fun _ _ _ _ _ hs hdoes => hdoes.ceremony_iff hs ceremony

end StoreRun

theorem succeeded_iff {tid : τ} {c : AuthCall} {a b : c.Reply} {pre post : Database} :
    Succeeded ⟨tid, c, .ok a, pre, post⟩ c b ↔ a = b := by
  constructor
  · intro h
    have hresp := eq_of_heq (Exchange.mk.inj h).2
    exact Except.ok.inj hresp
  · rintro rfl
    rfl

section Found

variable [DecidableEq τ] {out : τ → Type}
  {start : (t : τ) → Program AuthCall AuthCall.Answer (out t)} {newer older : List (AuthEvent τ)}
  {db : Database} {e : AuthEvent τ} {now : DateTime}

/-- **A link works exactly as long as it stands.** A lookup of a capability that is answered finds
    the capability `given` if and only if `given` is of that token and purpose and not expired, an
    earlier event gave it, and since then no registration has spent it and nothing has invalidated its
    user. -/
theorem capability_found_iff (h : StoreRun start (newer ++ e :: older) db) {hash : SecretHash}
    {purpose : CapabilityPurpose} (hcall : e.call = .capability hash purpose now)
    (hok : e.resp.isOk = true) (given : Capability) :
    Succeeded e (.capability hash purpose now) (some given) ↔
      given.tokenHash = hash ∧ given.purpose = purpose ∧ now < given.expiresAt ∧
        Since (GivesCapability given) (EndsCapability given) older := by
  obtain ⟨s, s', hs, heffect, -⟩ := h.effect (List.mem_append_right _ List.mem_cons_self)
  rw [← h.older.capability_kept_iff hs given]
  obtain ⟨tid, call, resp, pre, post⟩ := e
  obtain rfl : call = .capability hash purpose now := hcall
  cases resp with
  | error error => cases hok
  | ok a =>
      obtain ⟨rfl, -⟩ := heffect
      rw [succeeded_iff, Option.filter_eq_some_iff, decide_eq_true_eq]
      constructor
      · rintro ⟨hentry, hpurpose, hlive⟩
        have htoken := hs.shows.capabilities.key_of_entry hentry
        exact ⟨htoken, hpurpose, hlive, htoken ▸ hentry⟩
      · rintro ⟨rfl, hpurpose, hlive, hentry⟩
        exact ⟨hentry, hpurpose, hlive⟩

/-- **A ceremony can be completed exactly as long as it stands.** A lookup of a ceremony that is
    answered finds the ceremony `ceremony` if and only if `ceremony` is of that id and kind and not
    expired, an earlier event started it, and since then no event has completed it and nothing has
    invalidated its user; a login ceremony, which has no user, is only ended by a rotation of all
    epochs. -/
theorem ceremony_found_iff (h : StoreRun start (newer ++ e :: older) db) {id : Uuid}
    {kind : CeremonyKind} (hcall : e.call = .ceremony id kind now) (hok : e.resp.isOk = true)
    (ceremony : Ceremony) :
    Succeeded e (.ceremony id kind now) (some ceremony) ↔
      ceremony.id = id ∧ ceremony.kind = kind ∧ now < ceremony.expiresAt ∧
        Since (StartsCeremony ceremony) (EndsCeremony ceremony) older := by
  obtain ⟨s, s', hs, heffect, -⟩ := h.effect (List.mem_append_right _ List.mem_cons_self)
  rw [← h.older.ceremony_kept_iff hs ceremony]
  obtain ⟨tid, call, resp, pre, post⟩ := e
  obtain rfl : call = .ceremony id kind now := hcall
  cases resp with
  | error error => cases hok
  | ok a =>
      obtain ⟨rfl, -⟩ := heffect
      rw [succeeded_iff, Option.filter_eq_some_iff, decide_eq_true_eq]
      constructor
      · rintro ⟨hentry, hkind, hlive⟩
        have hid := hs.shows.ceremonies.key_of_entry hentry
        exact ⟨hid, hkind, hlive, hid ▸ hentry⟩
      · rintro ⟨rfl, hkind, hlive, hentry⟩
        exact ⟨hentry, hkind, hlive⟩

end Found

section Sample

attribute [local instance] Reference.crates

/-- The setup token of the run is good until a registration spends it. -/
theorem capability_found_iff_sample :
    ∃ newer e older given,
      (sampleRun sampleSetups sampleSetupSchedule).trace = newer ++ e :: older ∧
      Succeeded e (.capability (sampleToken 5).hash .setup 2) (some given) ∧
      Since (GivesCapability given) (EndsCapability given) older := by
  obtain ⟨newer, e, older, given, htrace, hfound⟩ : ∃ newer e older given,
      (sampleRun sampleSetups sampleSetupSchedule).trace = newer ++ e :: older ∧
      Succeeded e (.capability (sampleToken 5).hash .setup 2) (some given) :=
    ⟨[_, _, _, _, _, _, _], _, _, _, rfl, by rfl⟩
  have h := (sampleRun_history sampleSetups sampleSetupSchedule).storeRun
  rw [htrace] at h
  obtain ⟨-, -, -, hsince⟩ :=
    (capability_found_iff h (congrArg Exchange.call hfound) hfound.isOk given).1 hfound
  exact ⟨newer, e, older, given, htrace, hfound, hsince⟩

/-- The registration that is finished first reads the ceremony that was started for it. -/
theorem ceremony_found_iff_sample :
    ∃ newer e older ceremony,
      (sampleRun sampleSetups sampleSetupSchedule).trace = newer ++ e :: older ∧
      Succeeded e (.ceremony 10 .registration 3) (some ceremony) ∧
      Since (StartsCeremony ceremony) (EndsCeremony ceremony) older := by
  obtain ⟨newer, e, older, ceremony, htrace, hfound⟩ : ∃ newer e older ceremony,
      (sampleRun sampleSetups sampleSetupSchedule).trace = newer ++ e :: older ∧
      Succeeded e (.ceremony 10 .registration 3) (some ceremony) :=
    ⟨[_, _, _], _, _, _, rfl, by rfl⟩
  have h := (sampleRun_history sampleSetups sampleSetupSchedule).storeRun
  rw [htrace] at h
  obtain ⟨-, -, -, hsince⟩ :=
    (ceremony_found_iff h (congrArg Exchange.call hfound) hfound.isOk ceremony).1 hfound
  exact ⟨newer, e, older, ceremony, htrace, hfound, hsince⟩

end Sample

end RsConsole
