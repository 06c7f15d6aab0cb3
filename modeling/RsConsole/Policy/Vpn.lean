import Mathlib.Data.List.Nodup
import RsConsole.Crates

set_option autoImplicit false

/-! # The VPN policy

`policy/src/vpn.rs`: the values a policy is made of, each with its validity as a field, and the
four operations that change a policy. `Generation::next` panics when the counter is exhausted, so an
operation returns `none` where the code panics, and otherwise its result and the policy after
it. -/

namespace RsConsole

open Library

/-- `PolicyError` -/
inductive PolicyError where
  | invalidIdentifier
  | invalidPublicKey
  | invalidAddress
  | invalidGeneration
  | invalidGeneratedAt
  | tooManyPeers
  | duplicatePeerIdentity
  | peerAlreadyExists
  | peerNotFound
  | addressPoolExhausted
  | serialization
  deriving DecidableEq, Repr

/-! ## Identifiers -/

def validOpaqueId (value : String) : Bool :=
  match value.toList with
  | [] => false
  | first :: characters =>
      value.utf8ByteSize ≤ 128
        && first.isAlphanum
        && characters.all (fun c =>
          c.isAlphanum || c = '_' || c = '.' || c = ':' || c = '-')

/-- The two types that the macro `opaque_id` defines. -/
inductive IdKind where
  | user
  | peer

structure OpaqueId (kind : IdKind) where
  value : String
  valid : validOpaqueId value = true
  deriving DecidableEq

abbrev UserId := OpaqueId .user

abbrev PeerId := OpaqueId .peer

namespace OpaqueId

variable {kind : IdKind}

def new (value : String) : Except PolicyError (OpaqueId kind) :=
  if h : validOpaqueId value = true then .ok ⟨value, h⟩ else .error .invalidIdentifier

theorem value_injective : Function.Injective (value : OpaqueId kind → String) := by
  rintro ⟨v, hv⟩ ⟨w, hw⟩ h
  cases h
  rfl

instance : Ord (OpaqueId kind) := ⟨fun a b => compare a.value b.value⟩

theorem compare_def (a b : OpaqueId kind) : compare a b = compare a.value b.value := rfl

instance : Std.TransOrd (OpaqueId kind) where
  eq_swap {a b} := @Std.OrientedCmp.eq_swap String compare _ a.value b.value
  isLE_trans {a b c} h₁ h₂ :=
    @Std.TransCmp.isLE_trans String compare _ a.value b.value c.value h₁ h₂

instance : Std.LawfulEqOrd (OpaqueId kind) where
  compare_self {a} := @Std.ReflCmp.compare_self String compare _ a.value
  eq_of_compare {a b} h := value_injective (@Std.LawfulEqCmp.eq_of_compare String compare _ a.value b.value h)

end OpaqueId

/-! ## Keys and addresses -/

section Key

variable [Crates]

/-- `WireGuardPublicKey`: 44 characters of base64, padded, for 32 bytes. -/
structure WireGuardPublicKey where
  value : String
  valid : ∃ decoded, Crates.base64Decode (asBytes value) = some decoded ∧
    value.utf8ByteSize = 44 ∧ value.toList.getLast? = some '=' ∧ decoded.length = 32

namespace WireGuardPublicKey

def new (value : String) : Except PolicyError WireGuardPublicKey :=
  match h : Crates.base64Decode (asBytes value) with
  | none => .error .invalidPublicKey
  | some decoded =>
      if hv : value.utf8ByteSize = 44 ∧ value.toList.getLast? = some '=' ∧ decoded.length = 32 then
        .ok ⟨value, decoded, h, hv⟩
      else .error .invalidPublicKey

theorem value_injective : Function.Injective (value : WireGuardPublicKey → String) := by
  rintro ⟨v, hv⟩ ⟨w, hw⟩ h
  cases h
  rfl

instance : DecidableEq WireGuardPublicKey :=
  fun _ _ => decidable_of_iff _ value_injective.eq_iff

/-- The key itself, as `base64Decode` reads it. -/
def decoded (key : WireGuardPublicKey) : List UInt8 :=
  (Crates.base64Decode (asBytes key.value)).getD []

theorem decoded_eq (key : WireGuardPublicKey) :
    Crates.base64Decode (asBytes key.value) = some key.decoded := by
  obtain ⟨d, hd, -⟩ := key.valid
  rw [decoded, hd, Option.getD_some]

theorem length_decoded (key : WireGuardPublicKey) : key.decoded.length = 32 := by
  obtain ⟨d, hd, -, -, hlen⟩ := key.valid
  rw [decoded, hd, Option.getD_some, hlen]

/-- Two texts for the same key are the same text, when only the canonical one is accepted. -/
theorem decoded_injective (h : Base64Canonical) :
    Function.Injective (decoded : WireGuardPublicKey → List UInt8) := by
  intro k l heq
  obtain ⟨encode, hencode⟩ := h
  have hk := hencode _ _ k.decoded_eq
  have hl := hencode _ _ l.decoded_eq
  rw [heq, ← hl] at hk
  exact value_injective (asBytes_injective hk)

end WireGuardPublicKey

end Key

/-- `std::net::Ipv4Addr` -/
structure Ipv4Addr where
  a : UInt8
  b : UInt8
  c : UInt8
  d : UInt8
  deriving DecidableEq

/-- `OverlayAddress`: a host `2..=254` of `10.100.0.0/24`. -/
structure OverlayAddress where
  addr : Ipv4Addr
  usable : addr.a = 10 ∧ addr.b = 100 ∧ addr.c = 0 ∧ 2 ≤ addr.d ∧ addr.d ≤ 254
  deriving DecidableEq

namespace OverlayAddress

def new (host : UInt8) : Except PolicyError OverlayAddress :=
  if h : 2 ≤ host ∧ host ≤ 254 then .ok ⟨⟨10, 100, 0, host⟩, rfl, rfl, rfl, h.1, h.2⟩
  else .error .invalidAddress

def host (address : OverlayAddress) : UInt8 := address.addr.d

theorem host_injective : Function.Injective host := by
  rintro ⟨x, hx⟩ ⟨y, hy⟩ h
  have haddr : x = y := by
    cases x
    cases y
    exact (Ipv4Addr.mk.injEq ..).mpr
      ⟨hx.1.trans hy.1.symm, hx.2.1.trans hy.2.1.symm, hx.2.2.1.trans hy.2.2.1.symm, h⟩
  cases haddr
  rfl

theorem host_bounds (address : OverlayAddress) :
    2 ≤ address.host.toNat ∧ address.host.toNat ≤ 254 := by
  obtain ⟨-, -, -, hlow, hhigh⟩ := address.usable
  exact ⟨hlow, hhigh⟩

theorem host_of_new {host : UInt8} {address : OverlayAddress} (h : new host = .ok address) :
    address.host = host := by
  unfold new at h
  split at h
  · cases h
    rfl
  · cases h

end OverlayAddress

/-! ## Peers and policies -/

inductive HealthPolicy where
  | required
  | onDemand
  deriving DecidableEq

inductive Permission where
  | egress
  | games
  deriving DecidableEq

/-- `Generation`: a positive `u64`. -/
structure Generation where
  value : ℕ
  pos : 0 < value
  bound : value < 2 ^ 64
  deriving DecidableEq

namespace Generation

/-- `next` panics at `u64::MAX`. -/
def next (generation : Generation) : Option Generation :=
  if h : generation.value + 1 < 2 ^ 64 then some ⟨generation.value + 1, Nat.succ_pos _, h⟩
  else none

@[simp] theorem next_eq_some {g g' : Generation} :
    g.next = some g' ↔ g'.value = g.value + 1 := by
  obtain ⟨v, hv, hb⟩ := g'
  unfold next
  split
  · simp [eq_comm]
  · next h =>
      simp only [reduceCtorEq, false_iff]
      omega

theorem value_injective : Function.Injective value := by
  rintro ⟨v, hv, hv'⟩ ⟨w, hw, hw'⟩ h
  cases h
  rfl

end Generation

section Policy

variable [Crates]

structure VpnPeer where
  userId : UserId
  peerId : PeerId
  publicKey : WireGuardPublicKey
  address : OverlayAddress
  healthPolicy : HealthPolicy
  games : Bool
  deriving DecidableEq

def VpnPeer.permissions (peer : VpnPeer) : List Permission :=
  if peer.games then [.egress, .games] else [.egress]

abbrev Peers := Std.ExtTreeMap PeerId VpnPeer compare

structure VpnPolicy where
  generation : Generation
  peers : Peers

namespace VpnPolicy

/-- `VpnPolicy::default` -/
def default : VpnPolicy where
  generation := ⟨1, Nat.one_pos, by decide⟩
  peers := ∅

/-- The peers in the order of their identifiers, as `peers().values()` yields them. -/
def values (policy : VpnPolicy) : List VpnPeer := policy.peers.toList.map Prod.snd

def allocateAddress (policy : VpnPolicy) : Except PolicyError OverlayAddress :=
  let used := policy.values.map (fun peer => peer.address.host)
  let hosts := (List.range' 2 253).map UInt8.ofNat
  match hosts.find? (fun host => host ∉ used) with
  | some host => OverlayAddress.new host
  | none => .error .addressPoolExhausted

def enroll (policy : VpnPolicy) (userId : UserId) (peerId : PeerId)
    (publicKey : WireGuardPublicKey) (games : Bool) :
    Option (Except PolicyError VpnPeer × VpnPolicy) :=
  if policy.peers.contains peerId
      || policy.values.any (fun peer => peer.publicKey = publicKey) then
    some (.error .peerAlreadyExists, policy)
  else
    match policy.allocateAddress with
    | .error e => some (.error e, policy)
    | .ok address =>
        let peer : VpnPeer := ⟨userId, peerId, publicKey, address, .onDemand, games⟩
        policy.generation.next.map fun generation =>
          (.ok peer, ⟨generation, policy.peers.insert peerId peer⟩)

def setGames (policy : VpnPolicy) (peerId : PeerId) (enabled : Bool) :
    Option (Except PolicyError Bool × VpnPolicy) :=
  match policy.peers[peerId]? with
  | none => some (.error .peerNotFound, policy)
  | some peer =>
      -- no change keeps the generation
      if peer.games = enabled then some (.ok false, policy)
      else
        policy.generation.next.map fun generation =>
          (.ok true, ⟨generation, policy.peers.insert peerId { peer with games := enabled }⟩)

def rotateKey (policy : VpnPolicy) (peerId : PeerId) (publicKey : WireGuardPublicKey) :
    Option (Except PolicyError Bool × VpnPolicy) :=
  if policy.peers.toList.any (fun entry => entry.1 ≠ peerId && entry.2.publicKey = publicKey) then
    some (.error .duplicatePeerIdentity, policy)
  else
    match policy.peers[peerId]? with
    | none => some (.error .peerNotFound, policy)
    | some peer =>
        if peer.publicKey = publicKey then some (.ok false, policy)
        else
          policy.generation.next.map fun generation =>
            (.ok true, ⟨generation, policy.peers.insert peerId { peer with publicKey }⟩)

def revoke (policy : VpnPolicy) (peerId : PeerId) :
    Option (Except PolicyError VpnPeer × VpnPolicy) :=
  match policy.peers[peerId]? with
  | none => some (.error .peerNotFound, policy)
  | some peer =>
      policy.generation.next.map fun generation =>
        (.ok peer, ⟨generation, policy.peers.erase peerId⟩)

end VpnPolicy

end Policy

end RsConsole
