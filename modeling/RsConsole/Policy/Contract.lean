import Mathlib.Data.List.Dedup
import RsConsole.Policy.Vpn

set_option autoImplicit false

/-! # The gateway contract

`policy/src/contract.rs`: what console and gateway exchange. A manifest is built from the peers of
a policy, its digest is the SHA-256 of its canonical JSON text, and a delivery, an acknowledgement
and a state report name a manifest by generation and digest. The timestamp check slices bytes and
multiplies in `u32`; it returns `none` where such a step would panic. -/

namespace RsConsole

open Library

/-- `SCHEMA_VERSION` -/
def schemaVersion : UInt8 := 1

/-- `WG_USERS` -/
def wgUsersInterface : String := "wg-users"

/-- `WG_NODES` -/
def wgNodesInterface : String := "wg-nodes"

/-! ## Timestamps -/

/-- `bytes[start..stop]` -/
def slice (bytes : List UInt8) (start stop : ℕ) : Option (List UInt8) :=
  if start ≤ stop ∧ stop ≤ bytes.length then some ((bytes.take stop).drop start) else none

def isAsciiDigit (byte : UInt8) : Bool := 48 ≤ byte && byte ≤ 57

/-- The fold of `decimal` from `value` on. -/
def decimalFrom (value : ℕ) : List UInt8 → Option (Option ℕ)
  | [] => some (some value)
  | byte :: bytes =>
      if isAsciiDigit byte then
        if value * 10 + (byte.toNat - 48) < 2 ^ 32 then
          decimalFrom (value * 10 + (byte.toNat - 48)) bytes
        else none
      else some none

def decimal (bytes : List UInt8) : Option (Option ℕ) := decimalFrom 0 bytes

def daysInMonth (year month : ℕ) : Option ℕ :=
  let leapYear := year % 4 = 0 ∧ (year % 100 ≠ 0 ∨ year % 400 = 0)
  match month with
  | 1 | 3 | 5 | 7 | 8 | 10 | 12 => some 31
  | 4 | 6 | 9 | 11 => some 30
  | 2 => if leapYear then some 29 else some 28
  | _ => none

/-- The bytes `-`, `T`, `:`, `.` are 45, 84, 58 and 46. -/
def validUtcTimestamp (value : String) : Option Bool :=
  let bytes := asBytes value
  if bytes.length < 20 ∨ value.toList.getLast? ≠ some 'Z' ∨ bytes[4]? ≠ some 45
      ∨ bytes[7]? ≠ some 45 ∨ bytes[10]? ≠ some 84 ∨ bytes[13]? ≠ some 58
      ∨ bytes[16]? ≠ some 58 then
    some false
  else do
    let fraction ← slice bytes 19 (bytes.length - 1)
    if fraction ≠ [] ∧ (fraction.head? ≠ some 46 ∨ fraction.length = 1
        ∨ ¬ fraction.tail.all isAsciiDigit) then
      return false
    let some year ← (slice bytes 0 4).bind decimal | return false
    let some month ← (slice bytes 5 7).bind decimal | return false
    let some day ← (slice bytes 8 10).bind decimal | return false
    let some hour ← (slice bytes 11 13).bind decimal | return false
    let some minute ← (slice bytes 14 16).bind decimal | return false
    let some second ← (slice bytes 17 19).bind decimal | return false
    let some days := daysInMonth year month | return false
    return year > 0 ∧ (1 ≤ day ∧ day ≤ days) ∧ hour ≤ 23 ∧ minute ≤ 59 ∧ second ≤ 59

/-! ## Digests -/

def isLowerHex (c : Char) : Bool := c.isDigit || ('a' ≤ c && c ≤ 'f')

/-- `ManifestDigest`: 64 lower-case hexadecimal digits. -/
structure ManifestDigest where
  value : String
  valid : value.utf8ByteSize = 64 ∧ value.toList.all isLowerHex = true
  deriving DecidableEq

theorem ManifestDigest.value_injective : Function.Injective ManifestDigest.value := by
  rintro ⟨v, hv⟩ ⟨w, hw⟩ h
  cases h
  rfl

/-- `format!("{digest:x}")` -/
def lowerHex (bytes : List UInt8) : List Char :=
  bytes.flatMap (fun byte => [Json.hexDigit (byte.toNat / 16), Json.hexDigit (byte.toNat % 16)])

theorem hexDigit_lower {n : ℕ} (h : n < 16) :
    isLowerHex (Json.hexDigit n) = true ∧ (Json.hexDigit n).utf8Size = 1 := by
  decide +revert

theorem lowerHex_cons (byte : UInt8) (bytes : List UInt8) :
    lowerHex (byte :: bytes) =
      Json.hexDigit (byte.toNat / 16) :: Json.hexDigit (byte.toNat % 16) :: lowerHex bytes :=
  rfl

theorem lowerHex_valid (bytes : List UInt8) :
    (String.ofList (lowerHex bytes)).utf8ByteSize = 2 * bytes.length ∧
      (lowerHex bytes).all isLowerHex = true := by
  induction bytes with
  | nil => decide
  | cons byte bytes ih =>
      have hbyte := byte.toNat_lt
      have hhigh := @hexDigit_lower (byte.toNat / 16) (by omega)
      have hlow := @hexDigit_lower (byte.toNat % 16) (by omega)
      simp only [lowerHex_cons, String.ofList_cons, String.utf8ByteSize_append,
        String.utf8ByteSize_singleton, hhigh.2, hlow.2, ih.1, List.all_cons, hhigh.1, hlow.1, ih.2,
        Bool.and_self, and_true, List.length_cons]
      omega

/-! ## Manifests -/

structure GatewayId where
  id : PeerId
  deriving DecidableEq

def GatewayId.new (value : String) : Except PolicyError GatewayId :=
  (OpaqueId.new value).map GatewayId.mk

section Manifest

variable [Crates]

structure GatewayPeer where
  peerId : PeerId
  publicKey : WireGuardPublicKey
  address : OverlayAddress
  healthPolicy : HealthPolicy
  permissions : List Permission
  deriving DecidableEq

/-- `From<VpnPeer>` -/
def GatewayPeer.ofPeer (peer : VpnPeer) : GatewayPeer where
  peerId := peer.peerId
  publicKey := peer.publicKey
  address := peer.address
  healthPolicy := peer.healthPolicy
  permissions := peer.permissions

structure PeerManifest where
  schemaVersion : UInt8
  interface : String
  generation : Generation
  generatedAt : String
  peers : List GatewayPeer
  deriving DecidableEq

/-- The loop of `PeerManifest::new` over the peers, with the sets it has filled so far. -/
def insertAll (peerIds : List PeerId) (publicKeys : List WireGuardPublicKey)
    (addresses : List OverlayAddress) : List GatewayPeer → Bool
  | [] => true
  | peer :: rest =>
      if peer.peerId ∈ peerIds ∨ peer.publicKey ∈ publicKeys ∨ peer.address ∈ addresses then false
      else
        insertAll (peer.peerId :: peerIds) (peer.publicKey :: publicKeys)
          (peer.address :: addresses) rest

def PeerManifest.new (generation : Generation) (generatedAt : String) (peers : List VpnPeer) :
    Option (Except PolicyError PeerManifest) :=
  (validUtcTimestamp generatedAt).map fun valid =>
    if valid = false then .error .invalidGeneratedAt
    else if peers.length > 253 then .error .tooManyPeers
    else
      let peers := (peers.map GatewayPeer.ofPeer).insertionSort
        (fun left right => (compare left.peerId right.peerId).isLE)
      if insertAll [] [] [] peers then
        .ok ⟨RsConsole.schemaVersion, wgUsersInterface, generation, generatedAt, peers⟩
      else .error .duplicatePeerIdentity

/-- `VpnPolicy::manifest` -/
def VpnPolicy.manifest (policy : VpnPolicy) (generatedAt : String) :
    Option (Except PolicyError PeerManifest) :=
  PeerManifest.new policy.generation generatedAt policy.values

/-! ## Serialization -/

/-- `Display` of an address. -/
def OverlayAddress.text (address : OverlayAddress) : String :=
  s!"{address.addr.a.toNat}.{address.addr.b.toNat}.{address.addr.c.toNat}.{address.addr.d.toNat}/32"

def HealthPolicy.text : HealthPolicy → String
  | .required => "required"
  | .onDemand => "on_demand"

def Permission.text : Permission → String
  | .egress => "egress"
  | .games => "games"

def Generation.toValue (generation : Generation) : Value :=
  .number (.posInt generation.value generation.bound)

def GatewayPeer.toValue (peer : GatewayPeer) : Value :=
  .object [("peer_id", .string peer.peerId.value), ("public_key", .string peer.publicKey.value),
    ("address", .string peer.address.text), ("health_policy", .string peer.healthPolicy.text),
    ("permissions", .array (peer.permissions.map (fun p => .string p.text)))]

/-- `serde_json::to_value` of a manifest. -/
def PeerManifest.toValue (manifest : PeerManifest) : Value :=
  .object [("schema_version", .number (.posInt manifest.schemaVersion.toNat
      (manifest.schemaVersion.toNat_lt.trans (by decide)))),
    ("interface", .string manifest.interface), ("generation", manifest.generation.toValue),
    ("generated_at", .string manifest.generatedAt),
    ("peers", .array (manifest.peers.map GatewayPeer.toValue))]

/-! ## Canonical text and digest -/

/-- The loop over a sequence: a comma before every element but the first. -/
def commaSeparated (index : ℕ) : List (List Char) → List Char
  | [] => []
  | t :: ts => (if index > 0 then [','] else []) ++ t ++ commaSeparated (index + 1) ts

def writeString (value : String) : Except PolicyError (List Char) :=
  match Crates.stringText value with
  | some text => .ok text
  | none => .error .serialization

mutual

/-- What `write_canonical_json` appends to its output. The members of an object are sorted by
    their keys; they are written before they are sorted here, which no result tells apart. -/
def writeCanonicalJson : Value → Except PolicyError (List Char)
  | .null => .ok "null".toList
  | .bool value => .ok (if value then "true" else "false").toList
  | .number value => .ok (Crates.numberText value)
  | .string value => writeString value
  | .array values => do
      let texts ← writeValues values
      return '[' :: (commaSeparated 0 texts ++ [']'])
  | .object values => do
      let texts ← writeMembers values
      let sorted := texts.insertionSort (fun m m' => m.1 ≤ m'.1)
      return '{' :: (commaSeparated 0 (sorted.map Prod.snd) ++ ['}'])

def writeValues : List Value → Except PolicyError (List (List Char))
  | [] => return []
  | value :: values => do
      let text ← writeCanonicalJson value
      let texts ← writeValues values
      return text :: texts

def writeMembers : List (String × Value) → Except PolicyError (List (String × List Char))
  | [] => return []
  | (key, value) :: members => do
      let name ← writeString key
      let text ← writeCanonicalJson value
      let texts ← writeMembers members
      return (key, name ++ ':' :: text) :: texts

end

/-- The digest of a text. -/
def digestOf (text : List Char) : ManifestDigest where
  value := String.ofList (lowerHex (Crates.sha256 (asBytes (String.ofList text))).toList)
  valid := by
    rw [String.toList_ofList]
    have h := lowerHex_valid (Crates.sha256 (asBytes (String.ofList text))).toList
    rwa [Vector.length_toList] at h

namespace PeerManifest

/-- The text that is hashed. -/
def canonicalText (manifest : PeerManifest) : Except PolicyError (List Char) :=
  writeCanonicalJson manifest.toValue

def digest (manifest : PeerManifest) : Except PolicyError ManifestDigest :=
  manifest.canonicalText.map digestOf

end PeerManifest

/-! ## Reports, deliveries and acknowledgements -/

structure AppliedInterface where
  interface : String
  generation : Generation
  manifestDigest : ManifestDigest
  deriving DecidableEq

namespace AppliedInterface

def wgUsers (generation : Generation) (manifestDigest : ManifestDigest) : AppliedInterface :=
  ⟨wgUsersInterface, generation, manifestDigest⟩

def isWgUsers (state : AppliedInterface) : Bool := state.interface = wgUsersInterface

end AppliedInterface

structure GatewayStateReport where
  schemaVersion : UInt8
  gatewayId : GatewayId
  applied : List AppliedInterface

namespace GatewayStateReport

def new (gatewayId : GatewayId) (applied : List AppliedInterface) : GatewayStateReport :=
  ⟨RsConsole.schemaVersion, gatewayId, applied⟩

def wgUsers (report : GatewayStateReport) : Option AppliedInterface :=
  report.applied.find? (fun state => state.isWgUsers)

def isSupported (report : GatewayStateReport) : Bool :=
  let interfaces := (report.applied.map AppliedInterface.interface).dedup
  report.schemaVersion = RsConsole.schemaVersion
    && report.applied.length ≤ 2
    && interfaces.length = report.applied.length
    && interfaces.all (fun interface =>
      interface = wgUsersInterface || interface = wgNodesInterface)

end GatewayStateReport

structure PeerDelivery where
  schemaVersion : UInt8
  gatewayId : GatewayId
  deliveryId : String
  manifestDigest : ManifestDigest
  manifest : PeerManifest
  deriving DecidableEq

def PeerDelivery.new (gatewayId : GatewayId) (manifest : PeerManifest) :
    Except PolicyError PeerDelivery :=
  manifest.digest.map fun manifestDigest =>
    { schemaVersion := RsConsole.schemaVersion
      gatewayId
      deliveryId := s!"wg-users-{manifest.generation.value}-" ++
        String.ofList (manifestDigest.value.toList.take 12)
      manifestDigest
      manifest }

structure GatewayAcknowledgement where
  schemaVersion : UInt8
  gatewayId : GatewayId
  deliveryId : String
  interface : String
  generation : Generation
  manifestDigest : ManifestDigest
  outcome : String
  deriving DecidableEq

namespace GatewayAcknowledgement

def applied (delivery : PeerDelivery) : GatewayAcknowledgement where
  schemaVersion := RsConsole.schemaVersion
  gatewayId := delivery.gatewayId
  deliveryId := delivery.deliveryId
  interface := wgUsersInterface
  generation := delivery.manifest.generation
  manifestDigest := delivery.manifestDigest
  outcome := "applied"

def Matches (acknowledgement : GatewayAcknowledgement) (delivery : PeerDelivery) : Prop :=
  acknowledgement.schemaVersion = RsConsole.schemaVersion ∧
    acknowledgement.gatewayId = delivery.gatewayId ∧
    acknowledgement.deliveryId = delivery.deliveryId ∧
    acknowledgement.interface = wgUsersInterface ∧
    acknowledgement.generation = delivery.manifest.generation ∧
    acknowledgement.manifestDigest = delivery.manifestDigest ∧
    acknowledgement.outcome = "applied"

instance (acknowledgement : GatewayAcknowledgement) (delivery : PeerDelivery) :
    Decidable (acknowledgement.Matches delivery) :=
  inferInstanceAs (Decidable (_ ∧ _))

end GatewayAcknowledgement

end Manifest

end RsConsole
