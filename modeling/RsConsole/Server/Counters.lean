import RsConsole.Server.Sessions

set_option autoImplicit false

/-! # Signature counters

`finish_authentication` reads the credentials of a user in one transaction, verifies the response
against them, and writes the new public data in another; the update checks the user, the credential
and that it is not revoked, but not that the public data is still what was read. So of two logins
with one passkey the older update can land last. -/

namespace RsConsole

open Library Library.Table Database PgAuthStore

variable {τ : Type}

/-! ## What a login verified -/

/-- How the operation that completes a login verified it. -/
theorem verified_of_asks [Crates] {config : AuthConfig} {engine : CeremonyEngine} {op : Operation}
    {past : AuthExchanges} {ceremonyId : Uuid} {verification : AuthenticationVerification}
    {session : SessionRecord} {now : DateTime} {audit : AuditEvent}
    (h : op.Asks config engine past
      (.completeAuthentication ceremonyId verification session now audit)) :
    ∃ response token csrf id state userId credentials,
      op = .finishAuthentication ceremonyId response now token csrf id ∧
      Answered past (.credentialsForUser userId) credentials ∧
      engine.finishAuthentication response state credentials = .ok verification := by
  obtain ⟨⟨response, token, csrf, id, _, _, _, _, rfl, -⟩⟩ := explained_of_asks h
  rcases AuthService.asks_finishAuthentication.1 h with
    ⟨-, hother⟩ | ⟨_, ceremony, rfl, handle, -, ⟨-, hother⟩ | ⟨_, user, rfl, -, h⟩⟩
  · cases hother
  · cases hother
  · rcases h with ⟨-, hother⟩ | ⟨credentials, rfl, verification, hverified, hcompletes⟩
    · cases hother
    · cases hcompletes
      refine ⟨response, token, csrf, id, ceremony.state, user.id, credentials, rfl, ?_, hverified⟩
      exact List.mem_cons_of_mem _ (List.mem_cons_of_mem _ List.mem_cons_self)

theorem mapM_ok {α β : Type} {f : α → Except AuthError β} {as : List α} {bs : List β}
    (h : as.mapM f = .ok bs) : ∀ b ∈ bs, ∃ a ∈ as, f a = .ok b := by
  induction as generalizing bs with
  | nil =>
      cases h
      exact fun b hb => nomatch hb
  | cons a as ih =>
      rw [List.mapM_cons] at h
      obtain ⟨b₀, hb₀, h⟩ := except_bind_ok h
      obtain ⟨bs₀, hbs₀, h⟩ := except_bind_ok h
      cases h
      intro b hb
      rcases List.mem_cons.1 hb with rfl | hb
      · exact ⟨a, List.mem_cons_self, hb₀⟩
      · obtain ⟨a', ha', hfa'⟩ := ih hbs₀ b hb
        exact ⟨a', List.mem_cons_of_mem _ ha', hfa'⟩

theorem credentialsForUser_found {env : Env} {userId : UserId} {credentials : List StoredCredential}
    {db db' : Database} (h : perform env (.credentialsForUser userId) db = (.ok credentials, db')) :
    db' = db ∧ ∀ c ∈ credentials, ∃ row ∈ db.passkeyCredentials,
      row.credentialId = c.credentialId ∧ row.publicData = c.publicData := by
  refine ⟨(perform_ok h).same_of_reads rfl rfl, ?_⟩
  obtain ⟨rows, db₁, hfetch, hdecode⟩ := Tx.yields_bind_ok (yields_of_perform h)
  obtain ⟨rfl, -⟩ := Repo.yields_fetch_ok hfetch
  obtain ⟨hdecode, -⟩ := Tx.yields_ofExcept hdecode
  intro c hc
  obtain ⟨row, hrow, hc⟩ := mapM_ok hdecode.symm c hc
  obtain ⟨id, -, hc⟩ := except_bind_ok hc
  cases hc
  rw [Database.credentialsForUser, mem_orderBy, List.mem_filter] at hrow
  exact ⟨row, hrow.1, rfl, rfl⟩

/-! ## Counters -/

/-- The engine verifies a response only when its signature counter is larger than the one in the
    public data of the credential it was given, and returns public data with that counter. -/
structure VerifiesCounter (engine : CeremonyEngine) (counter signCount : Value → ℕ) : Prop where
  larger : ∀ response state credentials verification,
    engine.finishAuthentication response state credentials = .ok verification →
    ∃ c ∈ credentials, c.credentialId = verification.credentialId ∧
      counter c.publicData < signCount response
  carried : ∀ response state credentials verification,
    engine.finishAuthentication response state credentials = .ok verification →
    counter verification.updatedPublicData = signCount response

/-- The event completed a login with the credential `k`, verified by `response`. -/
def LogsInWith (ops : τ → Operation) (e : AuthEvent τ) (k : List UInt8) (response : Value) : Prop :=
  ∃ ceremonyId now token csrf id verification session audit,
    ops e.tid = .finishAuthentication ceremonyId response now token csrf id ∧
    Succeeded e (.completeAuthentication ceremonyId verification session now audit) () ∧
    verification.credentialId = k

/-- The event did not lower the counter of the credential `k`. -/
def KeepsCounter (counter : Value → ℕ) (k : List UInt8) (e : AuthEvent τ) : Prop :=
  ∀ c ∈ e.pre.passkeyCredentials, ∀ c' ∈ e.post.passkeyCredentials, c.credentialId = k →
    c'.credentialId = k → counter c.publicData ≤ counter c'.publicData

/-- A login with the credential `k` completed after another one that completed since the first had
    read the credentials, and its response has the smaller counter. -/
def LoginOvertaken (ops : τ → Operation) (signCount : Value → ℕ) (k : List UInt8)
    (tr : List (AuthEvent τ)) : Prop :=
  ∃ read e₁ e₂ userId response₁ response₂, Precedes tr read e₁ ∧ Precedes tr e₁ e₂ ∧
    read.tid = e₂.tid ∧ read.call = .credentialsForUser userId ∧ LogsInWith ops e₁ k response₁ ∧
    LogsInWith ops e₂ k response₂ ∧ signCount response₂ < signCount response₁

/-! ## What commits do to public data -/

/-- Public data is written by a registration, for a new credential, and by a login. -/
theorem Commits.publicData_cases {env : Env} {db db' : Database} {call : AuthCall}
    (h : Commits env db call db') :
    ∀ c' ∈ db'.passkeyCredentials,
      (∃ c ∈ db.passkeyCredentials, c.credentialId = c'.credentialId ∧
        c.publicData = c'.publicData) ∨
      (∃ ceremonyId capabilityHash credential now audit id userId,
        call = .completeRegistration ceremonyId capabilityHash credential now audit ∧
        db'.passkeyCredentials = db.passkeyCredentials ++ [credential.row id userId now] ∧
        c' = credential.row id userId now) ∨
      ∃ ceremonyId verification session now audit,
        call = .completeAuthentication ceremonyId verification session now audit ∧
        verification.credentialId = c'.credentialId ∧
        c'.publicData = verification.updatedPublicData := by
  intro c' hc'
  cases h with
  | completeRegistration ceremonyId capabilityHash credential now audit ceremony userId =>
      rcases List.mem_append.1 hc' with hc' | hc'
      · exact Or.inl ⟨c', hc', rfl, rfl⟩
      · exact Or.inr (Or.inl ⟨ceremonyId, capabilityHash, credential, now, audit, _, userId, rfl,
          rfl, List.mem_singleton.1 hc'⟩)
  | completeAuthentication ceremonyId verification session now audit =>
      obtain ⟨c, hc, rfl⟩ := mem_updateWhere.1 hc'
      split
      · next hsel =>
          rw [decide_eq_true_eq] at hsel
          exact Or.inr (Or.inr ⟨ceremonyId, verification, session, now, audit, rfl, hsel.2.1.symm,
            rfl⟩)
      · exact Or.inl ⟨c, hc, rfl, rfl⟩
  | breakGlass =>
      obtain ⟨c, hc, rfl⟩ := mem_updateWhere.1 hc'
      refine Or.inl ⟨c, hc, ?_⟩
      split
      · exact ⟨rfl, rfl⟩
      · exact ⟨rfl, rfl⟩
  | _ => exact Or.inl ⟨c', hc', rfl, rfl⟩

namespace History

variable [DecidableEq τ] [Crates] {config : AuthConfig} {engine : CeremonyEngine}
  {ops : τ → Operation} {tr : List (AuthEvent τ)} {db : Database} {e e₁ e₂ : AuthEvent τ}
  {counter signCount : Value → ℕ} {k : List UInt8}

/-- A completed login had read the credentials it was verified against. -/
theorem verified (h : History config engine ops tr db) (he : e ∈ tr) {ceremonyId : Uuid}
    {verification : AuthenticationVerification} {session : SessionRecord} {now : DateTime}
    {audit : AuditEvent}
    (hc : Succeeded e (.completeAuthentication ceremonyId verification session now audit) ()) :
    ∃ response token csrf id state userId credentials read,
      ops e.tid = .finishAuthentication ceremonyId response now token csrf id ∧
      Precedes tr read e ∧ read.tid = e.tid ∧
      Succeeded read (.credentialsForUser userId) credentials ∧
      engine.finishAuthentication response state credentials = .ok verification := by
  obtain ⟨pool, run⟩ := h
  obtain ⟨past, hasks, hback, -⟩ := run.asks_of_mem he
  have hcall : e.call = .completeAuthentication ceremonyId verification session now audit :=
    congrArg Exchange.call hc
  have hop : (ops e.tid).Asks config engine past
      (.completeAuthentication ceremonyId verification session now audit) := hcall ▸ hasks
  obtain ⟨response, token, csrf, id, state, userId, credentials, hop, hread, hverified⟩ :=
    verified_of_asks hop
  obtain ⟨read, hprec, htid, hread⟩ := hback _ hread
  exact ⟨response, token, csrf, id, state, userId, credentials, read, hop, hprec, htid, hread,
    hverified⟩

/-- An event keeps the public data of a credential, or is a login with it. -/
theorem publicData_event (h : History config engine ops tr db)
    (hengine : VerifiesCounter engine counter signCount) (he : e ∈ tr) {c c' : PasskeyCredential}
    (hmem : c ∈ e.pre.passkeyCredentials) (hmem' : c' ∈ e.post.passkeyCredentials)
    (hc : c.credentialId = k) (hc' : c'.credentialId = k) :
    c'.publicData = c.publicData ∨
      ∃ response, LogsInWith ops e k response ∧ counter c'.publicData = signCount response := by
  have hkeys := (h.consistent_pre he).credentialIds
  rcases h.storeRun.commits_answered he with hsame | ⟨env, hcommits, hanswered⟩
  · rw [hsame] at hmem'
    obtain rfl : c' = c := hkeys.eq_of_mem hmem' hmem (hc'.trans hc.symm)
    exact Or.inl rfl
  rcases hcommits.publicData_cases c' hmem' with ⟨c₀, hc₀, hid, hdata⟩ |
    ⟨_, _, credential, now, _, id, userId, -, hrows, rfl⟩ |
    ⟨ceremonyId, verification, session, now, audit, hcall, hid, hdata⟩
  · obtain rfl : c₀ = c := hkeys.eq_of_mem hc₀ hmem (hid.trans (hc'.trans hc.symm))
    exact Or.inl hdata.symm
  · -- a registration inserts another credential
    have hpost := (h.consistent_post he).credentialIds
    rw [hrows] at hpost
    exact absurd (hc.trans hc'.symm) (hpost.ne_of_append hmem)
  · -- a login, answered with success: what it writes is what the ceremony verified
    obtain ⟨⟨⟩, hcompletes⟩ := hanswered _ hcall rfl
    obtain ⟨response, token, csrf, sid, state, userId, credentials, read, hop, -, -, -, hverified⟩ :=
      h.verified he hcompletes
    refine Or.inr ⟨response, ⟨ceremonyId, now, token, csrf, sid, verification, session, audit, hop,
      hcompletes, hid.trans hc'⟩, ?_⟩
    rw [hdata]
    exact hengine.carried _ _ _ _ hverified

/-- What had been read for a completed login, and what it leaves. -/
theorem logsInWith (h : History config engine ops tr db)
    (hengine : VerifiesCounter engine counter signCount) (he : e ∈ tr) {response : Value}
    (hlogin : LogsInWith ops e k response) :
    (∃ read userId, Precedes tr read e ∧ read.tid = e.tid ∧
      read.call = .credentialsForUser userId ∧ ∃ c ∈ read.post.passkeyCredentials,
        c.credentialId = k ∧ counter c.publicData < signCount response) ∧
      ∃ c ∈ e.post.passkeyCredentials, c.credentialId = k ∧
        counter c.publicData = signCount response := by
  obtain ⟨ceremonyId, now, token, csrf, id, verification, session, audit, hop, hc, rfl⟩ := hlogin
  obtain ⟨response', _, _, _, state, userId, credentials, read, hop', hprec, htid, hread, hverified⟩ :=
    h.verified he hc
  cases hop.symm.trans hop'
  constructor
  · obtain ⟨env, hperform⟩ := h.succeeded hprec.left_mem hread
    obtain ⟨hsame, hfound⟩ := credentialsForUser_found hperform
    obtain ⟨c, hc, hid, hlt⟩ := hengine.larger _ _ _ _ hverified
    obtain ⟨row, hrow, hrowId, hdata⟩ := hfound c hc
    refine ⟨read, userId, hprec, htid, congrArg Exchange.call hread, row, ?_, hrowId.trans hid, ?_⟩
    · rw [hsame]
      exact hrow
    · rw [hdata]
      exact hlt
  · -- the commit writes the verification's data over the row it names
    obtain ⟨env, hcommits⟩ := h.storeRun.committed he hc
    generalize hpost : e.post = db' at hcommits ⊢
    cases hcommits with
    | unchanged _ reads => cases reads
    | completeAuthentication _ _ _ _ _ ceremony c _ _ _ _ mem owner credentialId unrevoked =>
        refine ⟨_, mem_updateWhere.2 ⟨c, mem, rfl⟩, ?_⟩
        rw [if_pos (decide_eq_true ⟨owner, credentialId, unrevoked⟩)]
        exact ⟨credentialId, hengine.carried _ _ _ _ hverified⟩

/-- A credential is there after an event as before it. -/
theorem credential_kept (h : History config engine ops tr db) (he : e ∈ tr)
    {c : PasskeyCredential} (hc : c ∈ e.pre.passkeyCredentials) :
    ∃ c' ∈ e.post.passkeyCredentials, c'.credentialId = c.credentialId := by
  obtain ⟨c', hc', hbecomes⟩ := (h.evolves_event he).passkeyCredentials.exists_of_mem hc
  exact ⟨c', hc', by rw [hbecomes.fixed]⟩

end History

/-- The counter of the credential `k` is larger than `m`. -/
def Exceeds (counter : Value → ℕ) (k : List UInt8) (m : ℕ) (db : Database) : Prop :=
  ∃ c ∈ db.passkeyCredentials, c.credentialId = k ∧ m < counter c.publicData

namespace History

variable [DecidableEq τ] [Crates] {config : AuthConfig} {engine : CeremonyEngine}
  {ops : τ → Operation} {tr : List (AuthEvent τ)} {db : Database} {e e₁ e₂ : AuthEvent τ}
  {counter signCount : Value → ℕ} {k : List UInt8}

/-- A counter that a login lowers has been raised since that login read it. -/
theorem overtaken_of_lowered (h : History config engine ops tr db)
    (hengine : VerifiesCounter engine counter signCount) (he : e ∈ tr)
    (hlowers : ¬ KeepsCounter counter k e) : LoginOvertaken ops signCount k tr := by
  simp only [KeepsCounter, not_forall, not_le] at hlowers
  obtain ⟨c, hmem, c', hmem', hc, hc', hlt⟩ := hlowers
  rcases h.publicData_event hengine he hmem hmem' hc hc' with hdata | ⟨response, hlogin, hcount⟩
  · rw [hdata] at hlt
    exact absurd hlt (lt_irrefl _)
  obtain ⟨⟨read, userId, hprec, htid, hcall, c₀, hmem₀, hc₀, hread⟩, -⟩ :=
    h.logsInWith hengine he hlogin
  -- the read found a smaller counter than the one that the login overwrites
  have hbefore : ¬ Exceeds counter k (signCount response) read.post := by
    rintro ⟨c₁, hmem₁, hc₁, hlt₁⟩
    obtain rfl : c₁ = c₀ := (h.consistent_post hprec.left_mem).credentialIds.eq_of_mem hmem₁ hmem₀
      (hc₁.trans hc₀.symm)
    exact absurd hlt₁ (lt_asymm hread)
  have hafter : Exceeds counter k (signCount response) e.pre := ⟨c, hmem, hc, hcount ▸ hlt⟩
  obtain ⟨newer, older, rfl, holder⟩ := precedes_iff_split.1 hprec
  obtain ⟨later, earlier, rfl⟩ := List.append_of_mem holder
  obtain ⟨pool, run⟩ := h.older
  obtain ⟨e₁, he₁, hnot, c₁, hmem₁, hc₁, hlt₁⟩ := run.origin_after hbefore hafter
  have hread₁ : Precedes (newer ++ e :: (later ++ read :: earlier)) read e₁ := by
    have hlater : Precedes (later ++ read :: earlier) read e₁ := precedes_of_mem_newer he₁
    exact hlater.trans ((List.sublist_cons_self _ _).trans (List.sublist_append_right _ _))
  have he₂ : Precedes (newer ++ e :: (later ++ read :: earlier)) e₁ e :=
    precedes_iff_split.2 ⟨newer, later ++ read :: earlier, rfl, List.mem_append_left _ he₁⟩
  -- the credential was there when it was read, so it was there before it was raised
  obtain ⟨c₂, hmem₂, hbecomes⟩ := (h.evolves_between hread₁).passkeyCredentials.exists_of_mem hmem₀
  have hc₂ : c₂.credentialId = k := by rw [hbecomes.fixed, hc₀]
  rcases h.publicData_event hengine hread₁.right_mem hmem₂ hmem₁ hc₂ hc₁ with
    hdata | ⟨response₁, hlogin₁, hcount₁⟩
  · rw [hdata] at hlt₁
    exact absurd ⟨c₂, hmem₂, hc₂, hlt₁⟩ hnot
  · exact ⟨read, e₁, e, userId, response₁, response, hread₁, he₂, htid, hcall, hlogin₁, hlogin,
      hcount₁ ▸ hlt₁⟩

/-- An overtaken login lowers the counter, if nothing has lowered it before. -/
theorem lowered_of_overtaken (h : History config engine ops tr db)
    (hengine : VerifiesCounter engine counter signCount)
    (hovertaken : LoginOvertaken ops signCount k tr) :
    ∃ e ∈ tr, ¬ KeepsCounter counter k e := by
  obtain ⟨read, e₁, e₂, userId, response₁, response₂, -, hprec, -, -, hlogin₁, hlogin₂, hlt⟩ :=
    hovertaken
  obtain ⟨-, c₁, hmem₁, hc₁, hcount₁⟩ := h.logsInWith hengine hprec.left_mem hlogin₁
  obtain ⟨-, c₂, hmem₂, hc₂, hcount₂⟩ := h.logsInWith hengine hprec.right_mem hlogin₂
  have hpost := (h.consistent_post hprec.right_mem).credentialIds
  obtain ⟨newer, older, rfl, holder⟩ := precedes_iff_split.1 hprec
  obtain ⟨later, earlier, rfl⟩ := List.append_of_mem holder
  obtain ⟨pool, run⟩ := h.storeRun.upto
  rw [← List.cons_append] at run
  -- after `e₁` the stored counter exceeds what `e₂` writes, after `e₂` not: one event lowers it
  have hexceeds : ¬ ¬ Exceeds counter k (signCount response₂) e₁.post :=
    not_not.2 ⟨c₁, hmem₁, hc₁, hcount₁ ▸ hlt⟩
  have hnot : ¬ Exceeds counter k (signCount response₂) e₂.post := by
    rintro ⟨c, hmem, hc, hgt⟩
    obtain rfl : c = c₂ := hpost.eq_of_mem hmem hmem₂ (hc.trans hc₂.symm)
    rw [hcount₂] at hgt
    exact lt_irrefl _ hgt
  obtain ⟨e, he, hpre, hlowered⟩ :=
    run.origin_after (F := fun db => ¬ Exceeds counter k (signCount response₂) db) hexceeds hnot
  obtain ⟨c, hmem, hc, hgt⟩ := not_not.1 hpre
  have hmem' : e ∈ newer ++ e₂ :: (later ++ e₁ :: earlier) := by
    rcases List.mem_cons.1 he with rfl | he
    · simp
    · simp [he]
  obtain ⟨c', hc'mem, hc'⟩ := h.credential_kept hmem' hmem
  refine ⟨e, hmem', fun hkeeps => hlowered ⟨c', hc'mem, hc'.trans hc, ?_⟩⟩
  exact hgt.trans_le (hkeeps c hmem c' hc'mem hc (hc'.trans hc))

end History

/-- **The counter of a credential never decreases exactly when no login with it is overtaken.** -/
theorem counter_never_decreases_iff [DecidableEq τ] [Crates] {config : AuthConfig}
    {engine : CeremonyEngine} {ops : τ → Operation} {tr : List (AuthEvent τ)} {db : Database}
    {counter signCount : Value → ℕ} (hengine : VerifiesCounter engine counter signCount)
    (h : History config engine ops tr db) (k : List UInt8) :
    (∀ e ∈ tr, KeepsCounter counter k e) ↔ ¬ LoginOvertaken ops signCount k tr := by
  constructor
  · intro hkeeps hovertaken
    obtain ⟨e, he, hlowers⟩ := h.lowered_of_overtaken hengine hovertaken
    exact hlowers (hkeeps e he)
  · intro hovertaken e he
    by_contra hlowers
    exact hovertaken (h.overtaken_of_lowered hengine he hlowers)

section Sample

attribute [local instance] Reference.crates

instance (counter : Value → ℕ) (k : List UInt8) (e : AuthEvent τ) :
    Decidable (KeepsCounter counter k e) :=
  inferInstanceAs (Decidable (∀ c ∈ _, ∀ c' ∈ _, _))

/-- Responses and public data that are just a signature counter. -/
def sampleCounter : Value → ℕ
  | .number (.posInt n _) => n
  | _ => 0

/-- `sampleEngine`, but a login is verified by the counter of its response. -/
def countingEngine : CeremonyEngine :=
  { sampleEngine with
    finishAuthentication := fun response _ credentials =>
      match credentials with
      | [] => .error .verification
      | c :: _ =>
          if sampleCounter c.publicData < sampleCounter response then
            .ok ⟨c.credentialId, response⟩
          else .error .verification }

theorem countingEngine_verifies : VerifiesCounter countingEngine sampleCounter sampleCounter := by
  have hverified : ∀ response state credentials verification,
      countingEngine.finishAuthentication response state credentials = .ok verification →
      ∃ c ∈ credentials, sampleCounter c.publicData < sampleCounter response ∧
        verification = ⟨c.credentialId, response⟩ := by
    intro response state credentials verification h
    cases credentials with
    | nil => cases h
    | cons c credentials =>
        simp only [countingEngine] at h
        split at h
        · next hlt =>
            cases h
            exact ⟨c, List.mem_cons_self, hlt, rfl⟩
        · cases h
  constructor
  · intro response state credentials verification h
    obtain ⟨c, hc, hlt, rfl⟩ := hverified response state credentials verification h
    exact ⟨c, hc, rfl, hlt⟩
  · intro response state credentials verification h
    obtain ⟨c, -, -, rfl⟩ := hverified response state credentials verification h
    rfl

/-- Two logins with the passkey "k", each with its own ceremony, verified by the counters 5 and 6. -/
def sampleCounters : List Operation :=
  sampleRegistration "k" ++
    [.startAuthentication 3 0 11,
      .startAuthentication 3 0 12,
      .finishAuthentication 11 (usizeNumber 5) 4 (sampleToken 1) (sampleToken 2) 20,
      .finishAuthentication 12 (usizeNumber 6) 4 (sampleToken 3) (sampleToken 4) 21]

def countingRun (schedule : List ℕ) :=
  play perform Database.empty
    (fun t => (sampleOperations sampleCounters t).program .default countingEngine)
    (([0, 0, 0, 1, 1, 1, 2, 2, 3, 4] ++ schedule).map (fun t => (t, sampleEnv 30)))

theorem countingRun_history (schedule : List ℕ) :
    History .default countingEngine (sampleOperations sampleCounters) (countingRun schedule).trace
      (countingRun schedule).state :=
  ⟨_, play_run perform Database.empty _ _⟩

/-- One login after the other, none is overtaken. -/
theorem counter_never_decreases_iff_sample :
    ¬ LoginOvertaken (sampleOperations sampleCounters) sampleCounter (asBytes "k")
      (countingRun [5, 5, 5, 5, 6, 6, 6, 6]).trace :=
  (counter_never_decreases_iff countingEngine_verifies (countingRun_history _) _).1
    (by decide +kernel)

/-- Both logins read the counter 0; the second one stores 6, and then the first one 5. -/
theorem counter_lowered :
    VerifiesCounter countingEngine sampleCounter sampleCounter ∧
      History .default countingEngine (sampleOperations sampleCounters)
        (countingRun [5, 5, 5, 6, 6, 6, 6, 5]).trace (countingRun [5, 5, 5, 6, 6, 6, 6, 5]).state ∧
      ∃ e ∈ (countingRun [5, 5, 5, 6, 6, 6, 6, 5]).trace,
        ¬ KeepsCounter sampleCounter (asBytes "k") e := by
  refine ⟨countingEngine_verifies, countingRun_history _, ?_⟩
  have hlowers : (countingRun [5, 5, 5, 6, 6, 6, 6, 5]).trace.any
      (fun e => ¬ KeepsCounter sampleCounter (asBytes "k") e) = true := by
    decide +kernel
  obtain ⟨e, he, hlowers⟩ := List.any_eq_true.1 hlowers
  exact ⟨e, he, of_decide_eq_true hlowers⟩

end Sample

end RsConsole
