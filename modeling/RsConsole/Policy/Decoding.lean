import Mathlib.Data.Nat.Digits.Defs
import RsConsole.Library.Decoding
import RsConsole.Policy.Digest

set_option autoImplicit false

/-! # Decoding manifests and deliveries

`PeerManifest` and `PeerDelivery` derive `Deserialize`: their fields are decoded one by one, by the
decoders of `vpn.rs` and `contract.rs` that go through the constructors of the field types. Every
manifest and every delivery is read back from what it is written as. -/

namespace RsConsole

open Library

/-! ## Fields -/

/-- The integer of a JSON number; a negative number or one with a fraction is refused. -/
def decodeUnsigned : Value → Option ℕ
  | .number (.posInt n _) => some n
  | _ => none

/-- `u8::deserialize` -/
def decodeU8 (v : Value) : Option UInt8 := do
  let n ← decodeUnsigned v
  if n < 256 then some (UInt8.ofNat n) else none

def Generation.new (value : ℕ) : Except PolicyError Generation :=
  if h : 0 < value ∧ value < 2 ^ 64 then .ok ⟨value, h.1, h.2⟩ else .error .invalidGeneration

def Generation.decode (v : Value) : Option Generation := do
  let value ← decodeUnsigned v
  (Generation.new value).toOption

def OpaqueId.decode {kind : IdKind} (v : Value) : Option (OpaqueId kind) := do
  let value ← Json.decodeString v
  (OpaqueId.new value).toOption

def GatewayId.decode (v : Value) : Option GatewayId := do
  let value ← Json.decodeString v
  (GatewayId.new value).toOption

def HealthPolicy.decode (v : Value) : Option HealthPolicy := do
  let name ← Json.variantName v
  if name = "required" then some .required
  else if name = "on_demand" then some .onDemand
  else none

def Permission.decode (v : Value) : Option Permission := do
  let name ← Json.variantName v
  if name = "egress" then some .egress
  else if name = "games" then some .games
  else none

/-! ## Addresses -/

/-- The digits of a decimal number, the lowest first. -/
def decimalDigits (text : List Char) : List ℕ := (text.map (fun c => c.toNat - 48)).reverse

/-- One number of an address: up to three digits without a leading zero, at most 255. -/
def parseOctet (text : List Char) : Option UInt8 :=
  if text ≠ [] ∧ text.length ≤ 3 ∧ text.all Json.isDigit = true ∧
      (text.head? = some '0' → text = ['0']) ∧ Nat.ofDigits 10 (decimalDigits text) < 256 then
    some (UInt8.ofNat (Nat.ofDigits 10 (decimalDigits text)))
  else none

/-- `Ipv4Addr::from_str` -/
def Ipv4Addr.parse (text : List Char) : Option Ipv4Addr :=
  match text.splitOn '.' with
  | [a, b, c, d] => do
      let a ← parseOctet a
      let b ← parseOctet b
      let c ← parseOctet c
      let d ← parseOctet d
      some ⟨a, b, c, d⟩
  | _ => none

/-- `str::strip_suffix` -/
def stripSuffix (suffix text : List Char) : Option (List Char) :=
  if suffix <:+ text then some (text.take (text.length - suffix.length)) else none

/-- `OverlayAddress::from_str` -/
def OverlayAddress.fromStr (value : String) : Except PolicyError OverlayAddress :=
  match (stripSuffix ['/', '3', '2'] value.toList).bind Ipv4Addr.parse with
  | none => .error .invalidAddress
  | some addr =>
      if h : addr.a = 10 ∧ addr.b = 100 ∧ addr.c = 0 ∧ 2 ≤ addr.d ∧ addr.d ≤ 254 then .ok ⟨addr, h⟩
      else .error .invalidAddress

def OverlayAddress.decode (v : Value) : Option OverlayAddress := do
  let value ← Json.decodeString v
  (OverlayAddress.fromStr value).toOption

/-! ## Structs -/

section Structs

variable [Crates]

def WireGuardPublicKey.decode (v : Value) : Option WireGuardPublicKey := do
  let value ← Json.decodeString v
  (WireGuardPublicKey.new value).toOption

def GatewayPeer.fields : List String :=
  ["peer_id", "public_key", "address", "health_policy", "permissions"]

def GatewayPeer.decode (v : Value) : Option GatewayPeer :=
  match Json.structFields GatewayPeer.fields v with
  | some [peerId, publicKey, address, healthPolicy, permissions] => do
      let peerId ← OpaqueId.decode peerId
      let publicKey ← WireGuardPublicKey.decode publicKey
      let address ← OverlayAddress.decode address
      let healthPolicy ← HealthPolicy.decode healthPolicy
      let permissions ← (Json.sequence permissions).bind (Json.decodeAll Permission.decode)
      some { peerId, publicKey, address, healthPolicy, permissions }
  | _ => none

def PeerManifest.fields : List String :=
  ["schema_version", "interface", "generation", "generated_at", "peers"]

def PeerManifest.decode (v : Value) : Option PeerManifest :=
  match Json.structFields PeerManifest.fields v with
  | some [schemaVersion, interface, generation, generatedAt, peers] => do
      let schemaVersion ← decodeU8 schemaVersion
      let interface ← Json.decodeString interface
      let generation ← Generation.decode generation
      let generatedAt ← Json.decodeString generatedAt
      let peers ← (Json.sequence peers).bind (Json.decodeAll GatewayPeer.decode)
      some { schemaVersion, interface, generation, generatedAt, peers }
  | _ => none

def ManifestDigest.new (value : String) : Except PolicyError ManifestDigest :=
  if h : value.utf8ByteSize = 64 ∧ value.toList.all isLowerHex = true then .ok ⟨value, h⟩
  else .error .serialization

def ManifestDigest.decode (v : Value) : Option ManifestDigest := do
  let value ← Json.decodeString v
  (ManifestDigest.new value).toOption

def PeerDelivery.fields : List String :=
  ["schema_version", "gateway_id", "delivery_id", "manifest_digest", "manifest"]

def PeerDelivery.decode (v : Value) : Option PeerDelivery :=
  match Json.structFields PeerDelivery.fields v with
  | some [schemaVersion, gatewayId, deliveryId, manifestDigest, manifest] => do
      let schemaVersion ← decodeU8 schemaVersion
      let gatewayId ← GatewayId.decode gatewayId
      let deliveryId ← Json.decodeString deliveryId
      let manifestDigest ← ManifestDigest.decode manifestDigest
      let manifest ← PeerManifest.decode manifest
      some { schemaVersion, gatewayId, deliveryId, manifestDigest, manifest }
  | _ => none

end Structs

/-! ## What is written is read -/

theorem parseOctet_repr : ∀ n < 256, parseOctet (Nat.repr n).toList = some (UInt8.ofNat n) ∧
    '.' ∉ (Nat.repr n).toList := by
  decide +kernel

/-- An address is parsed at its dots. -/
theorem Ipv4Addr.parse_dots {a b c d : List Char} {octets : Ipv4Addr} (ha : '.' ∉ a) (hb : '.' ∉ b)
    (hc : '.' ∉ c) (hd : '.' ∉ d) (hoctets : parseOctet a = some octets.a ∧
      parseOctet b = some octets.b ∧ parseOctet c = some octets.c ∧ parseOctet d = some octets.d) :
    Ipv4Addr.parse (a ++ '.' :: (b ++ '.' :: (c ++ '.' :: d))) = some octets := by
  have hsplit : (a ++ '.' :: (b ++ '.' :: (c ++ '.' :: d))).splitOn '.' = [a, b, c, d] := by
    rw [List.splitOn_append_cons_self_of_not_mem ha, List.splitOn_append_cons_self_of_not_mem hb,
      List.splitOn_append_cons_self_of_not_mem hc, List.splitOn_eq_singleton hd]
  rw [Ipv4Addr.parse, hsplit]
  simp [hoctets]

theorem OverlayAddress.fromStr_text (address : OverlayAddress) :
    OverlayAddress.fromStr address.text = .ok address := by
  obtain ⟨hdigits, hdots⟩ := parseOctet_repr address.host.toNat address.host.toNat_lt
  have htext : address.text.toList =
      (['1', '0'] ++ '.' :: (['1', '0', '0'] ++ '.' :: (['0'] ++ '.' ::
        (Nat.repr address.host.toNat).toList))) ++ ['/', '3', '2'] := by
    rw [OverlayAddress.text_eq]
    simp
  have hparse : Ipv4Addr.parse (['1', '0'] ++ '.' :: (['1', '0', '0'] ++ '.' :: (['0'] ++ '.' ::
      (Nat.repr address.host.toNat).toList))) = some address.addr := by
    -- a usable address is `10.100.0.host`: three fixed octets and a written one
    obtain ⟨ha, hb, hc, -⟩ := address.usable
    refine Ipv4Addr.parse_dots (by decide) (by decide) (by decide) hdots ⟨?_, ?_, ?_, ?_⟩
    · rw [ha]
      decide
    · rw [hb]
      decide
    · rw [hc]
      decide
    · rw [hdigits, UInt8.ofNat_toNat]
      rfl
  have hstrip : stripSuffix ['/', '3', '2'] address.text.toList = some (['1', '0'] ++ '.' ::
      (['1', '0', '0'] ++ '.' :: (['0'] ++ '.' :: (Nat.repr address.host.toNat).toList))) := by
    rw [htext, stripSuffix, if_pos (List.suffix_append _ _)]
    simp
  unfold OverlayAddress.fromStr
  rw [hstrip, Option.bind_some, hparse]
  exact dif_pos address.usable

theorem OpaqueId.new_value {kind : IdKind} (id : OpaqueId kind) :
    OpaqueId.new id.value = .ok id := by
  rw [OpaqueId.new, dif_pos id.valid]

theorem Permission.decode_text (permission : Permission) :
    Permission.decode (.string permission.text) = some permission := by
  cases permission <;> rfl

theorem HealthPolicy.decode_text (healthPolicy : HealthPolicy) :
    HealthPolicy.decode (.string healthPolicy.text) = some healthPolicy := by
  cases healthPolicy <;> rfl

theorem Generation.decode_toValue (generation : Generation) :
    Generation.decode generation.toValue = some generation := by
  have hnew : Generation.new generation.value = .ok generation := by
    rw [Generation.new, dif_pos ⟨generation.pos, generation.bound⟩]
  simp [Generation.decode, Generation.toValue, decodeUnsigned, hnew, Except.toOption]

/-- A sequence of values that are read back is read back. -/
theorem decodeAll_map {α : Type} {decode : Value → Option α} {encode : α → Value}
    (h : ∀ a, decode (encode a) = some a) (items : List α) :
    Json.decodeAll decode (items.map encode) = some items := by
  rw [Json.decodeAll_eq_some, List.forall₂_map_left_iff]
  exact List.forall₂_same.2 fun a _ => h a

section RoundTrip

variable [Crates]

theorem WireGuardPublicKey.new_value (key : WireGuardPublicKey) :
    WireGuardPublicKey.new key.value = .ok key := by
  obtain ⟨value, decoded, hdecoded, hvalid⟩ := key
  unfold WireGuardPublicKey.new
  split
  · next hnone =>
      rw [hdecoded] at hnone
      cases hnone
  · next bytes hbytes =>
      obtain rfl : decoded = bytes := Option.some.inj (hdecoded.symm.trans hbytes)
      rw [dif_pos hvalid]

theorem GatewayPeer.decode_toValue (peer : GatewayPeer) :
    GatewayPeer.decode peer.toValue = some peer := by
  have hfields : Json.structFields GatewayPeer.fields peer.toValue =
      some [.string peer.peerId.value, .string peer.publicKey.value, .string peer.address.text,
        .string peer.healthPolicy.text, .array (peer.permissions.map (fun p => .string p.text))] := by
    rfl
  unfold GatewayPeer.decode
  rw [hfields]
  simp [OpaqueId.decode, WireGuardPublicKey.decode, OverlayAddress.decode, Json.decodeString,
    Json.sequence, OpaqueId.new_value, WireGuardPublicKey.new_value, OverlayAddress.fromStr_text,
    HealthPolicy.decode_text, decodeAll_map Permission.decode_text, Except.toOption]

/-- **A manifest is read back from what it is written as.** -/
theorem PeerManifest.decode_toValue (manifest : PeerManifest) :
    PeerManifest.decode manifest.toValue = some manifest := by
  have hfields : Json.structFields PeerManifest.fields manifest.toValue =
      some [.number (.posInt manifest.schemaVersion.toNat
          (manifest.schemaVersion.toNat_lt.trans (by decide))),
        .string manifest.interface, manifest.generation.toValue, .string manifest.generatedAt,
        .array (manifest.peers.map GatewayPeer.toValue)] := by
    rfl
  have hversion := manifest.schemaVersion.toNat_lt
  unfold PeerManifest.decode
  rw [hfields]
  simp [decodeU8, decodeUnsigned, Json.decodeString, Json.sequence, Generation.decode_toValue,
    decodeAll_map GatewayPeer.decode_toValue, hversion]

/-- `serde_json::to_value` of a delivery. -/
def PeerDelivery.toValue (delivery : PeerDelivery) : Value :=
  .object [("schema_version", .number (.posInt delivery.schemaVersion.toNat
      (delivery.schemaVersion.toNat_lt.trans (by decide)))),
    ("gateway_id", .string delivery.gatewayId.id.value),
    ("delivery_id", .string delivery.deliveryId),
    ("manifest_digest", .string delivery.manifestDigest.value),
    ("manifest", delivery.manifest.toValue)]

theorem PeerDelivery.decode_toValue (delivery : PeerDelivery) :
    PeerDelivery.decode delivery.toValue = some delivery := by
  have hfields : Json.structFields PeerDelivery.fields delivery.toValue =
      some [.number (.posInt delivery.schemaVersion.toNat
          (delivery.schemaVersion.toNat_lt.trans (by decide))),
        .string delivery.gatewayId.id.value, .string delivery.deliveryId,
        .string delivery.manifestDigest.value, delivery.manifest.toValue] := by
    rfl
  have hversion := delivery.schemaVersion.toNat_lt
  have hgateway : GatewayId.new delivery.gatewayId.id.value = .ok delivery.gatewayId := by
    rw [GatewayId.new, OpaqueId.new_value]
    rfl
  have hdigest : ManifestDigest.new delivery.manifestDigest.value = .ok delivery.manifestDigest := by
    rw [ManifestDigest.new, dif_pos delivery.manifestDigest.valid]
  unfold PeerDelivery.decode
  rw [hfields]
  simp [decodeU8, decodeUnsigned, Json.decodeString, GatewayId.decode, ManifestDigest.decode,
    hgateway, hdigest, PeerManifest.decode_toValue, hversion, Except.toOption]

end RoundTrip

end RsConsole
