import RsConsole.Api.Convergence
import RsConsole.Policy.Manifests

set_option autoImplicit false

/-! # What a generation says about a manifest

`poll` compares digests when the reported generation is the desired one. Along the history of one
policy the generation determines the peers, so two manifests of the same generation agree in
everything but `generated_at`. The digest covers `generated_at` too: with the same timestamp the
manifests are the same and `poll` answers that nothing is to be done, with another one `poll`
reports a conflict. -/

namespace RsConsole

open Library GatewaySyncService

section Generations

variable [Crates] {policy policy' : VpnPolicy}

/-- A manifest of a reachable policy lists its peers. -/
theorem manifest_ok {generatedAt : String} {manifest : PeerManifest}
    (h : Reachable policy) (hm : policy.manifest generatedAt = some (.ok manifest)) :
    manifest = ⟨schemaVersion, wgUsersInterface, policy.generation, generatedAt,
      policy.values.map GatewayPeer.ofPeer⟩ := by
  obtain ⟨valid, hvalid⟩ := validUtcTimestamp_total generatedAt
  rw [h.consistent.manifest_eq, hvalid, Option.map_some, Option.some.injEq] at hm
  cases valid with
  | false => cases hm
  | true => exact (Except.ok.inj hm).symm

/-- Two points of one history of a policy. -/
def SameHistory (policy policy' : VpnPolicy) : Prop :=
  Reachable policy ∧ Leads policy policy' ∨ Reachable policy' ∧ Leads policy' policy

theorem SameHistory.reachable (h : SameHistory policy policy') :
    Reachable policy ∧ Reachable policy' := by
  rcases h with ⟨hp, run⟩ | ⟨hp, run⟩
  · exact ⟨hp, hp.trans run⟩
  · exact ⟨hp.trans run, hp⟩

theorem SameHistory.peers_eq (h : SameHistory policy policy')
    (hgeneration : policy.generation = policy'.generation) : policy.peers = policy'.peers := by
  have hvalue := congrArg Generation.value hgeneration
  rcases h with ⟨-, run⟩ | ⟨-, run⟩
  · exact (step_versions.content_eq run hvalue.symm).symm
  · exact step_versions.content_eq run hvalue

/-- The answer to a gateway that reports a manifest of the desired generation. -/
theorem poll_same_generation (rules : JsonRules) {store : InMemoryGatewayStateStore}
    {report : GatewayStateReport} {entry : AppliedInterface} {m m' : PeerManifest}
    (hopen : store.Open) (hsupported : report.isSupported = true)
    (hdesired : store.desired.value report.gatewayId = some m')
    (hentry : report.wgUsers = some entry) (hgeneration : entry.generation = m'.generation)
    (hdigest : m.digest = .ok entry.manifestDigest) :
    (m.digest = m'.digest → atOnce (poll report) store = (.ok none, store)) ∧
      (m.digest ≠ m'.digest → atOnce (poll report) store = (.error .appliedConflict, store)) := by
  obtain ⟨d, hd⟩ := PeerDelivery.new_total rules report.gatewayId m'
  have hd' := (PeerDelivery.new_eq_ok hd).2.2
  have hpoll := poll_configured hopen hsupported hdesired hd' hd
  have hequal : compare entry.generation.value m'.generation.value = .eq :=
    Nat.compare_eq_eq.2 (congrArg Generation.value hgeneration)
  rw [hdigest, hd', hpoll, answer, hentry]
  simp only [hequal, ne_eq, Except.ok.injEq]
  exact ⟨fun hsame => by rw [if_pos hsame], fun hother => by rw [if_neg hother]⟩

/-- **A generation determines a manifest up to its timestamp.** Two manifests of one policy with
    the same generation agree in schema, interface and peers; they are the same manifest if their
    timestamps are the same, and otherwise share their digest only through a collision. A gateway
    that applied the one is told that nothing is to be done when the other is desired and has the
    same timestamp, and is refused with `AppliedConflict` when it has another. -/
theorem generation_determines_manifest (rules : JsonRules) (h : SameHistory policy policy')
    {t t' : String} {m m' : PeerManifest} (hm : policy.manifest t = some (.ok m))
    (hm' : policy'.manifest t' = some (.ok m')) (hgeneration : m.generation = m'.generation) :
    (m.schemaVersion = m'.schemaVersion ∧ m.interface = m'.interface ∧ m.peers = m'.peers ∧
      m.generatedAt = t ∧ m'.generatedAt = t') ∧
    (t = t' → m = m' ∧ m.digest = m'.digest) ∧
    (NoCollision m m' → (m.digest = m'.digest ↔ t = t')) ∧
    (∀ (store : InMemoryGatewayStateStore) (report : GatewayStateReport)
      (entry : AppliedInterface), store.Open → report.isSupported = true →
      store.desired.value report.gatewayId = some m' → report.wgUsers = some entry →
      entry.generation = m.generation → m.digest = .ok entry.manifestDigest →
      (t = t' → atOnce (poll report) store = (.ok none, store)) ∧
      (t ≠ t' → NoCollision m m' →
        atOnce (poll report) store = (.error .appliedConflict, store))) := by
  have hform := manifest_ok h.reachable.1 hm
  have hform' := manifest_ok h.reachable.2 hm'
  subst hform hform'
  have hpeers := h.peers_eq hgeneration
  have hvalues : policy.values = policy'.values := by rw [VpnPolicy.values, hpeers, VpnPolicy.values]
  dsimp only at hgeneration
  -- the generation fixes the peers, so only the generation time can differ
  have hsame : t = t' → (⟨schemaVersion, wgUsersInterface, policy.generation, t,
      policy.values.map GatewayPeer.ofPeer⟩ : PeerManifest) =
        ⟨schemaVersion, wgUsersInterface, policy'.generation, t',
          policy'.values.map GatewayPeer.ofPeer⟩ := by
    rintro rfl
    rw [hgeneration, hvalues]
  refine ⟨⟨rfl, rfl, by rw [hvalues], rfl, rfl⟩, ?_, ?_, ?_⟩
  · intro ht
    exact ⟨hsame ht, congrArg PeerManifest.digest (hsame ht)⟩
  · intro hno
    refine ⟨fun hdigest => ?_, fun ht => congrArg PeerManifest.digest (hsame ht)⟩
    exact congrArg PeerManifest.generatedAt (digest_injective rules hno hdigest)
  · intro store report entry hopen hsupported hdesired hentry hreported hdigest
    have hpoll := poll_same_generation rules hopen hsupported hdesired hentry
      (hreported.trans hgeneration) hdigest
    refine ⟨fun ht => hpoll.1 (congrArg PeerManifest.digest (hsame ht)), fun ht hno => ?_⟩
    exact hpoll.2 fun heq =>
      ht (congrArg PeerManifest.generatedAt (digest_injective rules hno heq))

end Generations

section Sample

attribute [local instance] Reference.crates

theorem default_manifest :
    VpnPolicy.default.manifest "2026-08-01T20:00:00Z" =
        some (.ok (sampleManifest "2026-08-01T20:00:00Z")) ∧
      VpnPolicy.default.manifest "2026-08-01T20:00:01Z" =
        some (.ok (sampleManifest "2026-08-01T20:00:01Z")) :=
  ⟨rfl, rfl⟩

theorem generation_determines_manifest_sample :
    (sampleManifest "2026-08-01T20:00:00Z").peers =
        (sampleManifest "2026-08-01T20:00:01Z").peers ∧
      ((sampleManifest "2026-08-01T20:00:00Z").digest =
          (sampleManifest "2026-08-01T20:00:01Z").digest ↔
        "2026-08-01T20:00:00Z" = "2026-08-01T20:00:01Z") := by
  have h := generation_determines_manifest Reference.jsonRules (Or.inl ⟨.refl, .refl⟩)
    default_manifest.1 default_manifest.2 rfl
  exact ⟨h.1.2.2.1, h.2.2.1 sampleManifest_noCollision⟩

/-- The same policy, asked for its manifest twice within a second: the generations are equal, the
    digests are not, and the gateway that applied the first is refused when the second is set. -/
theorem same_generation_conflict :
    ∃ (m m' : PeerManifest) (digest : ManifestDigest),
      VpnPolicy.default.manifest "2026-08-01T20:00:00Z" = some (.ok m) ∧
      VpnPolicy.default.manifest "2026-08-01T20:00:01Z" = some (.ok m') ∧
      m.generation = m'.generation ∧ m.digest ≠ m'.digest ∧ m.digest = .ok digest ∧
      (atOnce (poll (.new sampleGateway [.wgUsers m.generation digest]))
        (InMemoryGatewayStateStore.perform (.setDesired sampleGateway m') .default).2).1 =
          .error .appliedConflict := by
  obtain ⟨digest, hdigest⟩ := digest_total Reference.jsonRules
    (sampleManifest "2026-08-01T20:00:00Z")
  refine ⟨_, _, digest, default_manifest.1, default_manifest.2, rfl, sampleManifest_digest_ne,
    hdigest, ?_⟩
  have hpoll := @poll_same_generation _ Reference.jsonRules
    (InMemoryGatewayStateStore.perform
      (.setDesired sampleGateway (sampleManifest "2026-08-01T20:00:01Z")) .default).2
    (.new sampleGateway [.wgUsers VpnPolicy.default.generation digest]) _ _ _
    ⟨rfl, rfl⟩ (by rfl) rfl rfl rfl hdigest
  exact congrArg Prod.fst (hpoll.2 sampleManifest_digest_ne)

end Sample

end RsConsole
