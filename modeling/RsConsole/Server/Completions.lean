import RsConsole.Reference
import RsConsole.Server.Ceremonies

set_option autoImplicit false

/-! # A ceremony is completed once

`ceremony` reads a ceremony in one transaction and `complete_registration` or
`complete_authentication` spends it in another, before several checks that can still fail. Since a
completion finds its ceremony unconsumed and leaves it consumed, and nothing ever clears the mark,
at most one completion of a ceremony is answered with `Ok`, however many run at the same time. -/

namespace RsConsole

open Library Library.Table Database PgAuthStore

variable {τ : Type}

/-- The event completed the ceremony `id`. -/
def completes (id : Uuid) (e : AuthEvent τ) : Bool :=
  match e.exchange with
  | ⟨.completeRegistration ceremonyId _ _ _ _, .ok _⟩ => ceremonyId = id
  | ⟨.completeAuthentication ceremonyId _ _ _ _, .ok _⟩ => ceremonyId = id
  | _ => false

theorem completes_cases {id : Uuid} {e : AuthEvent τ} (h : completes id e = true) :
    (∃ capabilityHash credential now audit,
      Succeeded e (.completeRegistration id capabilityHash credential now audit) ()) ∨
    ∃ verification session now audit,
      Succeeded e (.completeAuthentication id verification session now audit) () := by
  unfold completes at h
  split at h
  · next ceremonyId capabilityHash credential now audit a he =>
      cases of_decide_eq_true h
      exact Or.inl ⟨capabilityHash, credential, now, audit, he⟩
  · next ceremonyId verification session now audit a he =>
      cases of_decide_eq_true h
      exact Or.inr ⟨verification, session, now, audit, he⟩
  · cases h

namespace History

variable [DecidableEq τ] [Crates] {config : AuthConfig} {engine : CeremonyEngine}
  {ops : τ → Operation} {tr : List (AuthEvent τ)} {db : Database} {e : AuthEvent τ}

/-- A completion finds its ceremony unconsumed and leaves it consumed. -/
theorem completes_spends (h : History config engine ops tr db) (he : e ∈ tr) {id : Uuid}
    (hc : completes id e = true) :
    ∃ ceremony ∈ e.pre.authCeremonies, ceremony.id = id ∧ ceremony.consumedAt = none ∧
      ∃ b ∈ e.post.authCeremonies, ceremony.Becomes b ∧ b.consumedAt ≠ none := by
  rcases completes_cases hc with ⟨hash, credential, now, audit, hc⟩ | ⟨v, session, now, audit, hc⟩
  · obtain ⟨env, hperform⟩ := h.succeeded he hc
    obtain ⟨ceremony, _, _, hreg⟩ := completeRegistration_committed hperform
    exact ⟨ceremony, hreg.mem, hreg.ceremony_id, hreg.live.1, hreg.spentCeremony⟩
  · obtain ⟨env, hperform⟩ := h.succeeded he hc
    obtain ⟨ceremony, hlogin⟩ := completeAuthentication_committed hperform
    exact ⟨ceremony, hlogin.mem, hlogin.ceremony_id, hlogin.live.1, hlogin.spentCeremony⟩

/-- After a completion there is none. -/
theorem not_completes_twice (h : History config engine ops tr db) {e₁ e₂ : AuthEvent τ}
    (hprec : Precedes tr e₁ e₂) {id : Uuid} (h₁ : completes id e₁ = true) :
    completes id e₂ = false := by
  rw [Bool.eq_false_iff]
  intro h₂
  obtain ⟨c₁, -, hid₁, -, b, hb, hbecomes, hspent⟩ := h.completes_spends hprec.left_mem h₁
  obtain ⟨c₂, hmem₂, hid₂, hunspent, -⟩ := h.completes_spends hprec.right_mem h₂
  have hlater : b.Becomes c₂ := (h.evolves_between hprec).becomes_of_ceremonyId
    (h.consistent_pre hprec.right_mem) hb hmem₂ (by rw [hid₂, hbecomes.fixed, ← hid₁])
  rw [hlater.consumed hspent] at hunspent
  exact hspent hunspent

theorem length_completes_le (h : History config engine ops tr db) (id : Uuid) :
    (tr.filter (completes id)).length ≤ 1 :=
  length_filter_le_one (fun _ _ hprec h₁ => h.not_completes_twice hprec h₁)

end History

/-- **A ceremony yields at most one result, together with which it is consumed.** -/
theorem ceremony_completed_once [DecidableEq τ] [Crates] {config : AuthConfig}
    {engine : CeremonyEngine} {ops : τ → Operation} {tr : List (AuthEvent τ)} {db : Database}
    (h : History config engine ops tr db) (id : Uuid) :
    (tr.filter (completes id)).length ≤ 1 ∧
    (∀ e ∈ tr, ∀ capabilityHash credential now audit,
      Succeeded e (.completeRegistration id capabilityHash credential now audit) () →
      ∃ ceremony ∈ e.pre.authCeremonies, ceremony.id = id ∧ ceremony.consumedAt = none ∧
        now < ceremony.expiresAt ∧
        (∃ b ∈ e.post.authCeremonies, ceremony.Becomes b ∧ b.consumedAt ≠ none) ∧
        (∃ kind response, ops e.tid = .finishRegistration id kind response now ∧
          ceremony.kind = ceremonyName kind ∧ kind ≠ .authentication) ∧
        (∃ row, e.post.passkeyCredentials = e.pre.passkeyCredentials ++ [row] ∧
          ceremony.userId = some row.userId) ∧
        ∀ t, t ≠ .passkeyCredentials → t ≠ .authAuditEvents →
          e.post.rowCount t = e.pre.rowCount t) ∧
    (∀ e ∈ tr, ∀ verification session now audit,
      Succeeded e (.completeAuthentication id verification session now audit) () →
      ∃ ceremony ∈ e.pre.authCeremonies, ceremony.id = id ∧ ceremony.consumedAt = none ∧
        now < ceremony.expiresAt ∧
        (∃ b ∈ e.post.authCeremonies, ceremony.Becomes b ∧ b.consumedAt ≠ none) ∧
        (∃ response token csrf sessionId,
          ops e.tid = .finishAuthentication id response now token csrf sessionId) ∧
        ceremony.kind = ceremonyName .authentication ∧
        (∃ row, e.post.authSessions = e.pre.authSessions ++ [row]) ∧
        ∀ t, t ≠ .authSessions → t ≠ .authAuditEvents →
          e.post.rowCount t = e.pre.rowCount t) ∧
    ∀ e ∈ tr,
      ((∃ capabilityHash credential now audit,
          Failed e (.completeRegistration id capabilityHash credential now audit)) ∨
        ∃ verification session now audit,
          Failed e (.completeAuthentication id verification session now audit)) →
      e.post = e.pre := by
  refine ⟨h.length_completes_le id, ?_, ?_, ?_⟩
  · intro e he capabilityHash credential now audit hc
    obtain ⟨env, hperform⟩ := h.succeeded he hc
    obtain ⟨ceremony, rowId, userId, kind, hdone⟩ := h.completed he hc
    obtain ⟨response, hop⟩ := hdone.operation
    refine ⟨ceremony, hdone.mem, hdone.ceremony_id, hdone.live.1, hdone.live.2,
      hdone.spentCeremony, ⟨kind, response, hop, hdone.kind_eq, hdone.kind_ne⟩,
      ⟨_, hdone.added, hdone.owner⟩, fun t ht₁ ht₂ => perform_rowCount hperform ?_⟩
    simp [AuthCall.inserts, ht₁, ht₂]
  · intro e he verification session now audit hc
    obtain ⟨env, hperform⟩ := h.succeeded he hc
    obtain ⟨ceremony, hlogin⟩ := completeAuthentication_committed hperform
    obtain ⟨past, ⟨response, token, csrf, sessionId, _, _, _, _, hop, -⟩, -⟩ :=
      h.explained_of_succeeded he hc
    refine ⟨ceremony, hlogin.mem, hlogin.ceremony_id, hlogin.live.1, hlogin.live.2,
      hlogin.spentCeremony, ⟨response, token, csrf, sessionId, hop⟩, hlogin.kind,
      ⟨_, hlogin.added⟩, fun t ht₁ ht₂ => perform_rowCount hperform ?_⟩
    simp [AuthCall.inserts, ht₁, ht₂]
  · -- a failure rolls its transaction back
    rintro e he (⟨capabilityHash, credential, now, audit, hc⟩ | ⟨v, session, now, audit, hc⟩)
    · obtain ⟨env, error, hperform⟩ := h.failed he hc
      exact completeRegistration_failed hperform
    · obtain ⟨env, error, hperform⟩ := h.failed he hc
      exact completeAuthentication_failed hperform

section Sample

attribute [local instance] Reference.crates

/-- An engine that takes the text of a response as the new credential's id, and logs the user with
    handle 1 in by their first credential. -/
def sampleEngine : CeremonyEngine where
  startRegistration _ _ _ := .ok (.null, .null)
  finishRegistration
    | .string s, _ => .ok ⟨asBytes s, .null⟩
    | _, _ => .error .verification
  startAuthentication _ := .ok (.null, .null)
  authenticationUserHandle _ := .ok 1
  finishAuthentication
    | _, _, [] => .error .verification
    | _, _, c :: _ => .ok ⟨c.credentialId, c.publicData⟩

def sampleOperator : UserId := ⟨"operator", by decide⟩

def sampleToken (n : UInt8) : SecretToken := ⟨Vector.replicate 32 n⟩

/-- A database that executes every statement and draws the id `fresh`. -/
def sampleEnv (fresh : Uuid) : Env := ⟨0, fun _ => 0, fresh, none⟩

/-- The operations of a list, numbered. -/
def sampleOperations (operations : List Operation) (t : ℕ) : Operation :=
  operations.getD t .pendingRecoveries

/-- The operations run in the order of a schedule, which names for every call its operation and the
    id that the database draws. -/
def sampleRun (operations : List Operation) (schedule : List (ℕ × Uuid)) :=
  play perform Database.empty
    (fun t => (sampleOperations operations t).program .default sampleEngine)
    (schedule.map (fun m => (m.1, sampleEnv m.2)))

theorem sampleRun_history (operations : List Operation) (schedule : List (ℕ × Uuid)) :
    History .default sampleEngine (sampleOperations operations)
      (sampleRun operations schedule).trace (sampleRun operations schedule).state :=
  ⟨_, play_run perform Database.empty _ _⟩

/-- Seed an operator and register the passkey `credential` for them, ceremony 10. -/
def sampleRegistration (credential : String) : List Operation :=
  [.seedOperator sampleOperator "operator@example.com" "Operator" 0 1,
    .startOperatorBootstrap 1 0 10,
    .finishRegistration 10 .operatorBootstrap (.string credential) 2]

/-- Two clients finish the same registration at the same time: both read the ceremony before either
    spends it. -/
def sampleRace : List (ℕ × Uuid) :=
  [(0, 0), (0, 0), (0, 0), (1, 0), (1, 0), (1, 0), (2, 0), (3, 0), (2, 20), (3, 21)]

/-- One of the two registrations succeeds. -/
theorem ceremony_completed_once_sample :
    ((sampleRun (sampleRegistration "k" ++
      [.finishRegistration 10 .operatorBootstrap (.string "l") 2]) sampleRace).trace.filter
        (completes 10)).length = 1 :=
  le_antisymm (ceremony_completed_once (sampleRun_history _ _) 10).1 (by decide +kernel)

end Sample

end RsConsole
