import RsConsole.Api.Acknowledgements
import RsConsole.Library.Parts

set_option autoImplicit false

/-! # Which acknowledgements are accepted

For every gateway with a desired manifest there is one acknowledgement that the service accepts, the
one that the delivery of that manifest makes; `Matches` compares all seven fields, so it is equality
(`matches_iff`). Everything the service does for a gateway concerns the two entries of that gateway:
these entries are a part of the store (`gateway_part`), and each operation asks only calls on the
part of the gateway it names (`asks_gateway`). So what happens to one gateway does not depend on the
operations that name another. -/

namespace RsConsole

open Library GatewaySyncService
open InMemoryGatewayStateStore (perform)

/-! ## Locks -/

namespace RwLock

variable {α β : Type}

theorem read_map (lock : RwLock α) (f : α → β) :
    lock.read.map f = if lock.poisoned then .error .unavailable else .ok (f lock.value) := by
  unfold RwLock.read
  split <;> rfl

@[simp] theorem write_poisoned (lock : RwLock α) (f : α → α) :
    (lock.write f).2.poisoned = lock.poisoned := by
  unfold RwLock.write
  split <;> rfl

/-- One entry of a lock that another entry is written to. -/
theorem write_entry [DecidableEq α] (lock : RwLock (α → Option β)) (a b : α) (new : β) :
    (lock.write (Function.update · a (some new))).2.value b =
      if lock.poisoned = false ∧ a = b then some new else lock.value b := by
  unfold RwLock.write
  split
  · next hpoisoned => simp [hpoisoned]
  · next hopen =>
      by_cases hab : a = b
      · subst hab
        simp [hopen]
      · simp [hab, Function.update_of_ne (Ne.symm hab)]

end RwLock

section Exactness

variable [Crates]

/-! ## One acknowledgement -/

/-- **The acknowledgement that matches a delivery is the one it makes.** -/
theorem GatewayAcknowledgement.matches_iff {acknowledgement : GatewayAcknowledgement}
    {delivery : PeerDelivery} :
    acknowledgement.Matches delivery ↔ acknowledgement = .applied delivery := by
  constructor
  · obtain ⟨schemaVersion, gatewayId, deliveryId, interface, generation, digest, outcome⟩ :=
      acknowledgement
    rintro ⟨rfl, rfl, rfl, rfl, rfl, rfl, rfl⟩
    rfl
  · rintro rfl
    exact ⟨rfl, rfl, rfl, rfl, rfl, rfl, rfl⟩

variable {store : InMemoryGatewayStateStore}

theorem acknowledge_unserialized (hopen : store.Open) {acknowledgement : GatewayAcknowledgement}
    {desired : PeerManifest} {e : PolicyError}
    (hsome : store.desired.value acknowledgement.gatewayId = some desired)
    (hdelivery : PeerDelivery.new acknowledgement.gatewayId desired = .error e) :
    atOnce (acknowledge acknowledgement) store = (.error (.policy e), store) := by
  have hpolicy : Fallible.exec perform
      (ofPolicy (PeerDelivery.new acknowledgement.gatewayId desired)) store =
        (.error (.policy e), store) := by
    rw [hdelivery]
    rfl
  rw [atOnce, acknowledge, Fallible.exec_bind_ok (exec_desiredManifest hopen _),
    Fallible.exec_bind_ok (Fallible.exec_okOr_some _ hsome), Fallible.exec_bind_error hpolicy]

/-- The acknowledgement is the one that the delivery of the desired manifest makes. -/
def Acknowledges (acknowledgement : GatewayAcknowledgement) (store : InMemoryGatewayStateStore)
    (manifest : PeerManifest) (delivery : PeerDelivery) : Prop :=
  store.desired.value acknowledgement.gatewayId = some manifest ∧
    PeerDelivery.new acknowledgement.gatewayId manifest = .ok delivery ∧
    acknowledgement = .applied delivery

theorem acknowledge_accepted (hopen : store.Open) {acknowledgement : GatewayAcknowledgement}
    {manifest : PeerManifest} {delivery : PeerDelivery}
    (h : Acknowledges acknowledgement store manifest delivery) :
    atOnce (acknowledge acknowledgement) store =
      (.ok (), recorded store acknowledgement.gatewayId manifest delivery.manifestDigest) := by
  obtain ⟨hdesired, hdelivery, happlied⟩ := h
  rw [acknowledge_configured hopen hdesired hdelivery,
    if_pos (GatewayAcknowledgement.matches_iff.2 happlied)]

theorem acknowledge_refused (hopen : store.Open) {acknowledgement : GatewayAcknowledgement}
    (h : ¬ ∃ manifest delivery, Acknowledges acknowledgement store manifest delivery) :
    ∃ e, atOnce (acknowledge acknowledgement) store = (.error e, store) := by
  cases hdesired : store.desired.value acknowledgement.gatewayId with
  | none => exact ⟨_, acknowledge_unconfigured hopen hdesired⟩
  | some manifest =>
      cases hdelivery : PeerDelivery.new acknowledgement.gatewayId manifest with
      | error e => exact ⟨_, acknowledge_unserialized hopen hdesired hdelivery⟩
      | ok delivery =>
          have hnot : ¬ acknowledgement.Matches delivery := fun hmatches =>
            h ⟨manifest, delivery, hdesired, hdelivery,
              GatewayAcknowledgement.matches_iff.1 hmatches⟩
          refine ⟨.acknowledgementMismatch, ?_⟩
          rw [acknowledge_configured hopen hdesired hdelivery, if_neg hnot]

/-! ## The part of a gateway -/

/-- The gateway that a call of the store names. -/
def StateCall.gateway : StateCall → GatewayId
  | .desiredManifest gatewayId => gatewayId
  | .recordApplied gatewayId _ _ => gatewayId
  | .setDesired gatewayId _ => gatewayId
  | .applied gatewayId => gatewayId

/-- The gateway that an operation names. -/
def SyncOperation.gateway : SyncOperation → GatewayId
  | .poll report => report.gatewayId
  | .acknowledge acknowledgement => acknowledgement.gatewayId
  | .setDesired gatewayId _ => gatewayId

/-- What the store holds for one gateway, and whether it can be read. -/
structure GatewayEntries where
  desired : Option PeerManifest
  desiredPoisoned : Bool
  applied : Option (PeerManifest × ManifestDigest)
  appliedPoisoned : Bool

def entries (g : GatewayId) (store : InMemoryGatewayStateStore) : GatewayEntries :=
  ⟨store.desired.value g, store.desired.poisoned, store.applied.value g, store.applied.poisoned⟩

/-- **The entries of a gateway are a part of the store.** -/
theorem gateway_part (g : GatewayId) :
    Part perform (fun c => c.gateway = g) (entries g) where
  reads {c s s'} hown hview := by
    obtain ⟨hdesired, hdesired', happlied, happlied'⟩ := GatewayEntries.mk.inj hview
    cases c with
    | desiredManifest gatewayId =>
        obtain rfl : gatewayId = g := hown
        simp only [perform, RwLock.read_map, hdesired, hdesired']
    | recordApplied gatewayId manifest digest =>
        simp only [perform, RwLock.write, happlied']
        split <;> rfl
    | setDesired gatewayId manifest =>
        simp only [perform, RwLock.write, hdesired']
        split <;> rfl
    | applied gatewayId =>
        obtain rfl : gatewayId = g := hown
        simp only [perform, RwLock.read_map, happlied, happlied']
  changes {c s s'} _ hview := by
    obtain ⟨hdesired, hdesired', happlied, happlied'⟩ := GatewayEntries.mk.inj hview
    cases c with
    | desiredManifest gatewayId | applied gatewayId => exact hview
    | recordApplied gatewayId manifest digest =>
        simp only [entries, perform, RwLock.write_entry, RwLock.write_poisoned, hdesired, hdesired',
          happlied, happlied']
    | setDesired gatewayId manifest =>
        simp only [entries, perform, RwLock.write_entry, RwLock.write_poisoned, hdesired, hdesired',
          happlied, happlied']
  keeps {c s} hother := by
    cases c with
    | desiredManifest gatewayId | applied gatewayId => rfl
    | recordApplied gatewayId manifest digest =>
        have hne : gatewayId ≠ g := hother
        simp only [entries, perform, RwLock.write_entry, RwLock.write_poisoned, hne,
          and_false, if_false]
    | setDesired gatewayId manifest =>
        have hne : gatewayId ≠ g := hother
        simp only [entries, perform, RwLock.write_entry, RwLock.write_poisoned, hne,
          and_false, if_false]

theorem asksOnly_ofPolicy {α : Type} (P : StateCall → Prop) (x : Except PolicyError α) :
    Fallible.AsksOnly P (ofPolicy x) :=
  Fallible.asksOnly_ofExcept _

/-- An operation asks only for the gateway it names. -/
theorem asks_gateway (op : SyncOperation) :
    Fallible.AsksOnly (fun c => c.gateway = op.gateway) op.code := by
  cases op with
  | poll report =>
      refine Fallible.asksOnly_bind (Fallible.asksOnly_ensure _ _) fun _ => ?_
      refine Fallible.asksOnly_bind (Fallible.asksOnly_awaitMap _ rfl) fun assigned => ?_
      refine Fallible.asksOnly_bind (Fallible.asksOnly_okOr _ _) fun desired => ?_
      refine Fallible.asksOnly_bind (asksOnly_ofPolicy _ _) fun digest => ?_
      split
      · exact asksOnly_ofPolicy _ _
      · split
        · exact asksOnly_ofPolicy _ _
        · exact Fallible.asksOnly_throw _
        · split
          · exact Fallible.asksOnly_pure _
          · exact Fallible.asksOnly_throw _
  | acknowledge acknowledgement =>
      refine Fallible.asksOnly_bind (Fallible.asksOnly_awaitMap _ rfl) fun assigned => ?_
      refine Fallible.asksOnly_bind (Fallible.asksOnly_okOr _ _) fun desired => ?_
      refine Fallible.asksOnly_bind (asksOnly_ofPolicy _ _) fun delivery => ?_
      exact Fallible.asksOnly_bind (Fallible.asksOnly_ensure _ _) fun _ =>
        Fallible.asksOnly_awaitMap _ rfl
  | setDesired gatewayId manifest => exact Fallible.asksOnly_awaitMap _ rfl

/-- A run of the operations over an empty store, with what each of them has left. -/
abbrev SyncRun {τ : Type} [DecidableEq τ] (ops : τ → SyncOperation) :=
  SoleRun perform InMemoryGatewayStateStore.default (fun t => (ops t).code.run)

/-- **Exactly one acknowledgement is accepted per configured gateway, and gateways do not
    interfere.** The first part is about the store after any interleaving of operations; the second
    compares two interleavings that serve the operations of one gateway in the same order. -/
theorem acknowledgement_exact {τ : Type} [DecidableEq τ] (ops : τ → SyncOperation) :
    (∀ tr store, SyncHistory ops tr store → ∀ acknowledgement : GatewayAcknowledgement,
      ((atOnce (acknowledge acknowledgement) store).1 = .ok () ↔
        ∃ manifest delivery, Acknowledges acknowledgement store manifest delivery) ∧
      (∀ manifest delivery, Acknowledges acknowledgement store manifest delivery →
        ∃ digest store', manifest.digest = .ok digest ∧
          (atOnce (acknowledge acknowledgement) store).2 = store' ∧
          store'.applied.value acknowledgement.gatewayId = some (manifest, digest) ∧
          (∀ g, g ≠ acknowledgement.gatewayId →
            store'.applied.value g = store.applied.value g) ∧
          store'.desired = store.desired) ∧
      ((¬ ∃ manifest delivery, Acknowledges acknowledgement store manifest delivery) →
        ∃ e, atOnce (acknowledge acknowledgement) store = (.error e, store))) ∧
    (∀ g tr₁ store₁ pool₁ tr₂ store₂ pool₂, SyncRun ops tr₁ store₁ pool₁ →
      SyncRun ops tr₂ store₂ pool₂ →
      (tr₁.map Event.tid).filter (fun t => (ops t).gateway = g) =
        (tr₂.map Event.tid).filter (fun t => (ops t).gateway = g) →
      store₁.desired.value g = store₂.desired.value g ∧
      store₁.applied.value g = store₂.applied.value g ∧
      ∀ t, (ops t).gateway = g →
        pool₁ t = pool₂ t ∧ exchanges tr₁ t = exchanges tr₂ t) := by
  constructor
  · intro tr store h acknowledgement
    have hopen := h.locks
    refine ⟨⟨fun hok => ?_, ?_⟩, ?_, fun hnot => acknowledge_refused hopen hnot⟩
    · by_contra hnot
      obtain ⟨e, herror⟩ := acknowledge_refused hopen hnot
      rw [herror] at hok
      cases hok
    · rintro ⟨manifest, delivery, hexact⟩
      rw [acknowledge_accepted hopen hexact]
    · intro manifest delivery hexact
      refine ⟨delivery.manifestDigest, _, (PeerDelivery.new_eq_ok hexact.2.1).2.2, rfl, ?_⟩
      rw [acknowledge_accepted hopen hexact]
      exact ⟨Function.update_self .., fun g hg => Function.update_of_ne hg .., rfl⟩
  · intro g tr₁ store₁ pool₁ tr₂ store₂ pool₂ run₁ run₂ horder
    have hmine : ∀ t past c, Program.Asks (ops t).code.run past c →
        (c.gateway = g ↔ (ops t).gateway = g) := by
      intro t past c hasks
      have hcall : c.gateway = (ops t).gateway := asks_gateway (ops t) past c hasks
      rw [hcall]
    obtain ⟨hview, hclients⟩ := (gateway_part g).same_outcome hmine run₁ run₂ horder
    obtain ⟨hdesired, -, happlied, -⟩ := GatewayEntries.mk.inj hview
    exact ⟨hdesired, happlied, hclients⟩

end Exactness

section Sample

attribute [local instance] Reference.crates

/-- The acknowledgement of the manifest that was set is accepted. -/
theorem acknowledgement_exact_sample :
    ∃ delivery, PeerDelivery.new sampleGateway (sampleDesired false) = .ok delivery ∧
      (atOnce (acknowledge (.applied delivery)) (sampleSyncRun [0]).state).1 = .ok () := by
  obtain ⟨delivery, hdelivery⟩ :=
    PeerDelivery.new_total Reference.jsonRules sampleGateway (sampleDesired false)
  obtain ⟨hgateway, -, -⟩ := PeerDelivery.new_eq_ok hdelivery
  refine ⟨delivery, hdelivery, ?_⟩
  refine ((acknowledgement_exact sampleSync).1 _ _ (sampleSyncRun_history [0]) _).1.2
    ⟨sampleDesired false, delivery, ?_, ?_, rfl⟩
  · show (sampleSyncRun [0]).state.desired.value delivery.gatewayId = some (sampleDesired false)
    rw [hgateway]
    rfl
  · show PeerDelivery.new delivery.gatewayId (sampleDesired false) = .ok delivery
    rw [hgateway]
    exact hdelivery

end Sample

end RsConsole
