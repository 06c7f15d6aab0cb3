import RsConsole.Library.Program
import RsConsole.Policy.Contract

set_option autoImplicit false

/-! # The gateway synchronisation service

`api/src/lib.rs`: a gateway polls with a report of what it has applied and is told nothing, is
delivered the desired manifest, or is refused; it acknowledges what it applied. The service is a
program over the calls of its state store, and `InMemoryGatewayStateStore` performs each call under
a lock. -/

namespace RsConsole

open Library

/-- `StoreError` -/
inductive StoreError where
  | unavailable
  deriving DecidableEq

/-- `SyncError` -/
inductive SyncError where
  | invalidReport
  | unconfiguredGateway
  | gatewayAhead
  | appliedConflict
  | acknowledgementMismatch
  | policy (e : PolicyError)
  | store (e : StoreError)
  deriving DecidableEq

/-- `std::sync::RwLock`: a value, unavailable once a writer has panicked. -/
structure RwLock (α : Type) where
  value : α
  poisoned : Bool

namespace RwLock

variable {α : Type}

def read (lock : RwLock α) : Except StoreError α :=
  if lock.poisoned then .error .unavailable else .ok lock.value

/-- Update the value under the write lock. -/
def write (lock : RwLock α) (f : α → α) : Except StoreError Unit × RwLock α :=
  if lock.poisoned then (.error .unavailable, lock) else (.ok (), { lock with value := f lock.value })

theorem read_eq {lock : RwLock α} (h : lock.poisoned = false) : lock.read = .ok lock.value := by
  simp [read, h]

theorem write_eq {lock : RwLock α} (h : lock.poisoned = false) (f : α → α) :
    lock.write f = (.ok (), { lock with value := f lock.value }) := by
  simp [write, h]

end RwLock

section Sync

variable [Crates]

/-! ## The store -/

/-- The methods of `GatewayStateStore`, and the two that only the in-memory store has. -/
inductive StateCall where
  | desiredManifest (gatewayId : GatewayId)
  | recordApplied (gatewayId : GatewayId) (manifest : PeerManifest) (digest : ManifestDigest)
  | setDesired (gatewayId : GatewayId) (manifest : PeerManifest)
  | applied (gatewayId : GatewayId)

abbrev StateCall.Reply : StateCall → Type
  | .desiredManifest _ => Option PeerManifest
  | .recordApplied .. => Unit
  | .setDesired .. => Unit
  | .applied _ => Option (PeerManifest × ManifestDigest)

structure InMemoryGatewayStateStore where
  desired : RwLock (GatewayId → Option PeerManifest)
  applied : RwLock (GatewayId → Option (PeerManifest × ManifestDigest))

namespace InMemoryGatewayStateStore

/-- `InMemoryGatewayStateStore::default` -/
def default : InMemoryGatewayStateStore := ⟨⟨fun _ => none, false⟩, ⟨fun _ => none, false⟩⟩

/-- Perform one call under its lock. -/
def perform : (c : StateCall) → InMemoryGatewayStateStore →
    Except StoreError c.Reply × InMemoryGatewayStateStore
  | .desiredManifest gatewayId, store => (store.desired.read.map (· gatewayId), store)
  | .recordApplied gatewayId manifest digest, store =>
      let (result, applied) := store.applied.write
        (Function.update · gatewayId (some (manifest, digest)))
      (result, { store with applied })
  | .setDesired gatewayId manifest, store =>
      let (result, desired) := store.desired.write (Function.update · gatewayId (some manifest))
      (result, { store with desired })
  | .applied gatewayId, store => (store.applied.read.map (· gatewayId), store)

end InMemoryGatewayStateStore

/-! ## The service -/

/-- Service code: a program over the store's calls that stops at the first `SyncError`. -/
abbrev Sync (α : Type) : Type :=
  ExceptT SyncError (Program StateCall (fun c => Except StoreError c.Reply)) α

/-- A call of the store, with `From<StoreError>`. -/
def askStore (c : StateCall) : Sync c.Reply := Fallible.awaitMap .store c

/-- A result of the policy crate, with `From<PolicyError>`. -/
def ofPolicy {α : Type} (x : Except PolicyError α) : Sync α := Fallible.ofExcept (x.mapError .policy)

namespace GatewaySyncService

def poll (report : GatewayStateReport) : Sync (Option PeerDelivery) := do
  Fallible.ensure (report.isSupported = true) .invalidReport
  let assigned ← askStore (.desiredManifest report.gatewayId)
  let desired ← Fallible.okOr .unconfiguredGateway assigned
  let desiredDigest ← ofPolicy desired.digest
  match report.wgUsers with
  | none => ofPolicy ((PeerDelivery.new report.gatewayId desired).map some)
  | some applied =>
      match compare applied.generation.value desired.generation.value with
      | .lt => ofPolicy ((PeerDelivery.new report.gatewayId desired).map some)
      | .gt => throw .gatewayAhead
      | .eq => if applied.manifestDigest = desiredDigest then pure none else throw .appliedConflict

def acknowledge (acknowledgement : GatewayAcknowledgement) : Sync Unit := do
  let assigned ← askStore (.desiredManifest acknowledgement.gatewayId)
  let desired ← Fallible.okOr .unconfiguredGateway assigned
  let delivery ← ofPolicy (PeerDelivery.new acknowledgement.gatewayId desired)
  Fallible.ensure (acknowledgement.Matches delivery) .acknowledgementMismatch
  -- the manifest read above is recorded, though another may be desired by now
  askStore (.recordApplied acknowledgement.gatewayId desired delivery.manifestDigest)

end GatewaySyncService

/-- A request that is served without interruption. -/
def atOnce {α : Type} (x : Sync α) (store : InMemoryGatewayStateStore) :
    Except SyncError α × InMemoryGatewayStateStore :=
  Fallible.exec InMemoryGatewayStateStore.perform x store

/-! ## What a request does when it is served without interruption -/

/-- Both locks can be taken, as long as no thread panics while it holds one. -/
def InMemoryGatewayStateStore.Open (store : InMemoryGatewayStateStore) : Prop :=
  store.desired.poisoned = false ∧ store.applied.poisoned = false

namespace GatewaySyncService

open InMemoryGatewayStateStore (perform)

variable {store : InMemoryGatewayStateStore}

theorem exec_desiredManifest (hopen : store.Open) (gatewayId : GatewayId) :
    Fallible.exec perform (askStore (.desiredManifest gatewayId)) store =
      (.ok (store.desired.value gatewayId), store) := by
  rw [askStore, Fallible.exec_awaitMap]
  simp only [perform, RwLock.read_eq hopen.1]
  rfl

theorem exec_ofPolicy {α : Type} {x : Except PolicyError α} {a : α} (h : x = .ok a) :
    Fallible.exec perform (ofPolicy x) store = (.ok a, store) := by
  rw [h]
  rfl

/-- What `poll` answers once it knows the desired manifest. -/
def answer (report : GatewayStateReport) (desired : PeerManifest) (digest : ManifestDigest)
    (delivery : PeerDelivery) : Except SyncError (Option PeerDelivery) :=
  match report.wgUsers with
  | none => .ok (some delivery)
  | some applied =>
      match compare applied.generation.value desired.generation.value with
      | .lt => .ok (some delivery)
      | .gt => .error .gatewayAhead
      | .eq => if applied.manifestDigest = digest then .ok none else .error .appliedConflict

theorem poll_unsupported {report : GatewayStateReport} (h : ¬ report.isSupported = true) :
    atOnce (poll report) store = (.error .invalidReport, store) :=
  Fallible.exec_bind_error (Fallible.exec_ensure_false _ h) _

theorem poll_unconfigured (hopen : store.Open) {report : GatewayStateReport}
    (h : report.isSupported = true) (hnone : store.desired.value report.gatewayId = none) :
    atOnce (poll report) store = (.error .unconfiguredGateway, store) := by
  rw [atOnce, poll, Fallible.exec_bind_ok (Fallible.exec_ensure_true _ h),
    Fallible.exec_bind_ok (exec_desiredManifest hopen _),
    Fallible.exec_bind_error (Fallible.exec_okOr_none _ hnone)]

theorem poll_configured (hopen : store.Open) {report : GatewayStateReport}
    {desired : PeerManifest} {digest : ManifestDigest} {delivery : PeerDelivery}
    (h : report.isSupported = true) (hsome : store.desired.value report.gatewayId = some desired)
    (hdigest : desired.digest = .ok digest)
    (hdelivery : PeerDelivery.new report.gatewayId desired = .ok delivery) :
    atOnce (poll report) store = (answer report desired digest delivery, store) := by
  rw [atOnce, poll, Fallible.exec_bind_ok (Fallible.exec_ensure_true _ h),
    Fallible.exec_bind_ok (exec_desiredManifest hopen _),
    Fallible.exec_bind_ok (Fallible.exec_okOr_some _ hsome),
    Fallible.exec_bind_ok (exec_ofPolicy hdigest), answer]
  have hdeliver : Fallible.exec perform
      (ofPolicy ((PeerDelivery.new report.gatewayId desired).map some)) store =
        (.ok (some delivery), store) := by
    rw [hdelivery]
    rfl
  split
  · exact hdeliver
  · split
    · exact hdeliver
    · rfl
    · split <;> rfl

theorem acknowledge_unconfigured (hopen : store.Open) {acknowledgement : GatewayAcknowledgement}
    (hnone : store.desired.value acknowledgement.gatewayId = none) :
    atOnce (acknowledge acknowledgement) store = (.error .unconfiguredGateway, store) := by
  rw [atOnce, acknowledge, Fallible.exec_bind_ok (exec_desiredManifest hopen _),
    Fallible.exec_bind_error (Fallible.exec_okOr_none _ hnone)]

/-- The store after an acknowledged manifest is recorded. -/
def recorded (store : InMemoryGatewayStateStore) (gatewayId : GatewayId) (manifest : PeerManifest)
    (digest : ManifestDigest) : InMemoryGatewayStateStore :=
  { store with applied :=
      { store.applied with
        value := Function.update store.applied.value gatewayId (some (manifest, digest)) } }

theorem acknowledge_configured (hopen : store.Open) {acknowledgement : GatewayAcknowledgement}
    {desired : PeerManifest} {delivery : PeerDelivery}
    (hsome : store.desired.value acknowledgement.gatewayId = some desired)
    (hdelivery : PeerDelivery.new acknowledgement.gatewayId desired = .ok delivery) :
    atOnce (acknowledge acknowledgement) store =
      if acknowledgement.Matches delivery then
        (.ok (), recorded store acknowledgement.gatewayId desired delivery.manifestDigest)
      else (.error .acknowledgementMismatch, store) := by
  rw [atOnce, acknowledge, Fallible.exec_bind_ok (exec_desiredManifest hopen _),
    Fallible.exec_bind_ok (Fallible.exec_okOr_some _ hsome),
    Fallible.exec_bind_ok (exec_ofPolicy hdelivery)]
  split
  · next hmatches =>
      rw [Fallible.exec_bind_ok (Fallible.exec_ensure_true _ hmatches), askStore,
        Fallible.exec_awaitMap]
      simp only [perform, RwLock.write_eq hopen.2]
      rfl
  · next hmatches =>
      rw [Fallible.exec_bind_error (Fallible.exec_ensure_false _ hmatches)]

end GatewaySyncService

end Sync

end RsConsole
