import RsConsole.Policy.Documents

set_option autoImplicit false

/-! # Round trips over the wire

Everything that console and gateway exchange is written by a derived encoder and read by a derived
decoder whose leaves go through the constructors of the field types. Value by value the decoders
undo the encoders; `fromJson_toJson` carries this over to the JSON text, where the only numbers are
unsigned integers. -/

namespace RsConsole

open Library

/-! ## Reports and acknowledgements as values -/

def schemaVersionValue (version : UInt8) : Value :=
  .number (.posInt version.toNat (version.toNat_lt.trans (by decide)))

def AppliedInterface.toValue (state : AppliedInterface) : Value :=
  .object [("interface", .string state.interface), ("generation", state.generation.toValue),
    ("manifest_digest", .string state.manifestDigest.value)]

def AppliedInterface.fields : List String := ["interface", "generation", "manifest_digest"]

def AppliedInterface.decode (v : Value) : Option AppliedInterface :=
  match Json.structFields AppliedInterface.fields v with
  | some [interface, generation, manifestDigest] => do
      let interface ← Json.decodeString interface
      let generation ← Generation.decode generation
      let manifestDigest ← ManifestDigest.decode manifestDigest
      some { interface, generation, manifestDigest }
  | _ => none

def GatewayStateReport.toValue (report : GatewayStateReport) : Value :=
  .object [("schema_version", schemaVersionValue report.schemaVersion),
    ("gateway_id", .string report.gatewayId.id.value),
    ("applied", .array (report.applied.map AppliedInterface.toValue))]

def GatewayStateReport.fields : List String := ["schema_version", "gateway_id", "applied"]

def GatewayStateReport.decode (v : Value) : Option GatewayStateReport :=
  match Json.structFields GatewayStateReport.fields v with
  | some [schemaVersion, gatewayId, applied] => do
      let schemaVersion ← decodeU8 schemaVersion
      let gatewayId ← GatewayId.decode gatewayId
      let applied ← (Json.sequence applied).bind (Json.decodeAll AppliedInterface.decode)
      some { schemaVersion, gatewayId, applied }
  | _ => none

def GatewayAcknowledgement.toValue (acknowledgement : GatewayAcknowledgement) : Value :=
  .object [("schema_version", schemaVersionValue acknowledgement.schemaVersion),
    ("gateway_id", .string acknowledgement.gatewayId.id.value),
    ("delivery_id", .string acknowledgement.deliveryId),
    ("interface", .string acknowledgement.interface),
    ("generation", acknowledgement.generation.toValue),
    ("manifest_digest", .string acknowledgement.manifestDigest.value),
    ("outcome", .string acknowledgement.outcome)]

def GatewayAcknowledgement.fields : List String :=
  ["schema_version", "gateway_id", "delivery_id", "interface", "generation", "manifest_digest",
    "outcome"]

def GatewayAcknowledgement.decode (v : Value) : Option GatewayAcknowledgement :=
  match Json.structFields GatewayAcknowledgement.fields v with
  | some [schemaVersion, gatewayId, deliveryId, interface, generation, manifestDigest, outcome] => do
      let schemaVersion ← decodeU8 schemaVersion
      let gatewayId ← GatewayId.decode gatewayId
      let deliveryId ← Json.decodeString deliveryId
      let interface ← Json.decodeString interface
      let generation ← Generation.decode generation
      let manifestDigest ← ManifestDigest.decode manifestDigest
      let outcome ← Json.decodeString outcome
      some { schemaVersion, gatewayId, deliveryId, interface, generation, manifestDigest, outcome }
  | _ => none

/-! ## The decoders undo the encoders -/

theorem decodeU8_value (version : UInt8) : decodeU8 (schemaVersionValue version) = some version := by
  have hlt := version.toNat_lt
  simp [decodeU8, schemaVersionValue, decodeUnsigned, hlt]

theorem GatewayId.decode_value (gatewayId : GatewayId) :
    GatewayId.decode (.string gatewayId.id.value) = some gatewayId := by
  have hnew : GatewayId.new gatewayId.id.value = .ok gatewayId := by
    rw [GatewayId.new, OpaqueId.new_value]
    rfl
  simp [GatewayId.decode, Json.decodeString, hnew, Except.toOption]

theorem ManifestDigest.decode_value (digest : ManifestDigest) :
    ManifestDigest.decode (.string digest.value) = some digest := by
  have hnew : ManifestDigest.new digest.value = .ok digest := by
    rw [ManifestDigest.new, dif_pos digest.valid]
  simp [ManifestDigest.decode, Json.decodeString, hnew, Except.toOption]

theorem AppliedInterface.decode_toValue (state : AppliedInterface) :
    AppliedInterface.decode state.toValue = some state := by
  have hfields : Json.structFields AppliedInterface.fields state.toValue =
      some [.string state.interface, state.generation.toValue,
        .string state.manifestDigest.value] := by
    rfl
  unfold AppliedInterface.decode
  rw [hfields]
  simp [Json.decodeString, Generation.decode_toValue, ManifestDigest.decode_value]

theorem GatewayStateReport.decode_toValue (report : GatewayStateReport) :
    GatewayStateReport.decode report.toValue = some report := by
  have hfields : Json.structFields GatewayStateReport.fields report.toValue =
      some [schemaVersionValue report.schemaVersion, .string report.gatewayId.id.value,
        .array (report.applied.map AppliedInterface.toValue)] := by
    rfl
  unfold GatewayStateReport.decode
  rw [hfields]
  simp [decodeU8_value, GatewayId.decode_value, Json.sequence,
    decodeAll_map AppliedInterface.decode_toValue]

theorem GatewayAcknowledgement.decode_toValue (acknowledgement : GatewayAcknowledgement) :
    GatewayAcknowledgement.decode acknowledgement.toValue = some acknowledgement := by
  have hfields : Json.structFields GatewayAcknowledgement.fields acknowledgement.toValue =
      some [schemaVersionValue acknowledgement.schemaVersion,
        .string acknowledgement.gatewayId.id.value, .string acknowledgement.deliveryId,
        .string acknowledgement.interface, acknowledgement.generation.toValue,
        .string acknowledgement.manifestDigest.value, .string acknowledgement.outcome] := by
    rfl
  unfold GatewayAcknowledgement.decode
  rw [hfields]
  simp [decodeU8_value, GatewayId.decode_value, Json.decodeString, Generation.decode_toValue,
    ManifestDigest.decode_value]

/-! ## The numbers of the documents -/

/-- All numbers of the value are unsigned integers. -/
def OnlyUnsigned (v : Value) : Prop := ∀ n ∈ v.numbers, ∃ k h, n = .posInt k h

theorem numbersItems_eq (items : List Value) :
    Json.numbersItems items = items.flatMap Json.numbers := by
  induction items with
  | nil => rfl
  | cons v items ih => rw [Json.numbersItems, ih, List.flatMap_cons]

theorem OnlyUnsigned.string (s : String) : OnlyUnsigned (.string s) := by
  simp [OnlyUnsigned, Json.numbers]

theorem OnlyUnsigned.number (n : ℕ) (h : n < 2 ^ 64) :
    OnlyUnsigned (.number (.posInt n h)) := by
  intro x hx
  rw [Json.numbers, List.mem_singleton] at hx
  exact ⟨n, h, hx⟩

theorem OnlyUnsigned.array {items : List Value} (h : ∀ v ∈ items, OnlyUnsigned v) :
    OnlyUnsigned (.array items) := by
  intro n hn
  rw [Json.numbers, numbersItems_eq, List.mem_flatMap] at hn
  obtain ⟨v, hv, hn⟩ := hn
  exact h v hv n hn

theorem OnlyUnsigned.nil : OnlyUnsigned (.object []) := by
  simp [OnlyUnsigned, Json.numbers, Json.numbersMembers]

theorem OnlyUnsigned.cons {name : String} {v : Value} {members : List (String × Value)}
    (hv : OnlyUnsigned v) (hmembers : OnlyUnsigned (.object members)) :
    OnlyUnsigned (.object ((name, v) :: members)) := by
  intro n hn
  rw [Json.numbers, Json.numbersMembers] at hn
  rcases List.mem_append.1 hn with hn | hn
  · exact hv n hn
  · exact hmembers n hn

theorem AppliedInterface.onlyUnsigned (state : AppliedInterface) : OnlyUnsigned state.toValue :=
  .cons (.string _) (.cons (.number _ _) (.cons (.string _) .nil))

theorem GatewayStateReport.onlyUnsigned (report : GatewayStateReport) :
    OnlyUnsigned report.toValue := by
  refine .cons (.number _ _) (.cons (.string _) (.cons (.array fun v hv => ?_) .nil))
  obtain ⟨state, -, rfl⟩ := List.mem_map.1 hv
  exact state.onlyUnsigned

theorem GatewayAcknowledgement.onlyUnsigned (acknowledgement : GatewayAcknowledgement) :
    OnlyUnsigned acknowledgement.toValue :=
  .cons (.number _ _) (.cons (.string _) (.cons (.string _) (.cons (.string _)
    (.cons (.number _ _) (.cons (.string _) (.cons (.string _) .nil))))))

section Wire

variable [Crates]

theorem GatewayPeer.onlyUnsigned (peer : GatewayPeer) : OnlyUnsigned peer.toValue := by
  refine .cons (.string _) (.cons (.string _) (.cons (.string _) (.cons (.string _)
    (.cons (.array fun v hv => ?_) .nil))))
  obtain ⟨permission, -, rfl⟩ := List.mem_map.1 hv
  exact .string _

theorem PeerManifest.onlyUnsigned (manifest : PeerManifest) : OnlyUnsigned manifest.toValue := by
  refine .cons (.number _ _) (.cons (.string _) (.cons (.number _ _) (.cons (.string _)
    (.cons (.array fun v hv => ?_) .nil))))
  obtain ⟨peer, -, rfl⟩ := List.mem_map.1 hv
  exact peer.onlyUnsigned

theorem PeerDelivery.onlyUnsigned (delivery : PeerDelivery) : OnlyUnsigned delivery.toValue :=
  .cons (.number _ _) (.cons (.string _) (.cons (.string _) (.cons (.string _)
    (.cons delivery.manifest.onlyUnsigned .nil))))

/-! ## Text -/

/-- `serde_json::to_string` of a value that is encoded as `v`. -/
def toJson (v : Value) : List Char := Json.text Crates.numberText v

/-- `serde_json::from_str`, with the decoder of the type. -/
def fromJson {α : Type} (readNumber : List Char → Option Number) (decode : Value → Option α)
    (text : List Char) : Option α :=
  (Json.parse readNumber text).bind decode

/-- Unsigned integers are read back from what they are written as. -/
def ReadsUnsigned (readNumber : List Char → Option Number) : Prop :=
  ∀ n h, readNumber (Crates.numberText (.posInt n h)) = some (.posInt n h)

/-- **A value that is decoded from its encoding is read back from its text.** -/
theorem fromJson_toJson (rules : JsonRules) {readNumber : List Char → Option Number}
    (hread : ReadsUnsigned readNumber) {α : Type} {decode : Value → Option α} {v : Value} {a : α}
    (hunsigned : OnlyUnsigned v) (hdecode : decode v = some a) :
    fromJson readNumber decode (toJson v) = some a := by
  have hparse : Json.parse readNumber (toJson v) = some v := by
    refine Json.parse_eq rules.number_syntax v (fun n hn => ?_)
    obtain ⟨k, h, rfl⟩ := hunsigned n hn
    exact hread k h
  rw [fromJson, hparse, Option.bind_some, hdecode]

/-- **What is written is read back.** -/
theorem wire_round_trip (rules : JsonRules) {readNumber : List Char → Option Number}
    (hread : ReadsUnsigned readNumber) :
    (∀ generation generatedAt peers manifest,
      PeerManifest.new generation generatedAt peers = some (.ok manifest) →
      ∃ read, fromJson readNumber PeerManifest.decode (toJson manifest.toValue) = some read ∧
        read = manifest ∧ read.digest = manifest.digest) ∧
    (∀ gatewayId manifest delivery, PeerDelivery.new gatewayId manifest = .ok delivery →
      ∃ read, fromJson readNumber PeerDelivery.decode (toJson delivery.toValue) = some read ∧
        read = delivery ∧ read.manifest.digest = .ok delivery.manifestDigest) ∧
    (∀ delivery : PeerDelivery, fromJson readNumber GatewayAcknowledgement.decode
      (toJson (GatewayAcknowledgement.applied delivery).toValue) =
        some (GatewayAcknowledgement.applied delivery)) ∧
    (∀ gatewayId (entries : List (Generation × ManifestDigest)),
      let report := GatewayStateReport.new gatewayId
        (entries.map fun entry => AppliedInterface.wgUsers entry.1 entry.2)
      fromJson readNumber GatewayStateReport.decode (toJson report.toValue) = some report) ∧
    (∀ value address, OverlayAddress.fromStr value = .ok address → address.text = value) := by
  refine ⟨fun generation generatedAt peers manifest _ => ?_, fun gatewayId manifest delivery h => ?_,
    fun delivery => ?_, fun gatewayId entries => ?_, fun value address h => ?_⟩
  · exact ⟨manifest, fromJson_toJson rules hread manifest.onlyUnsigned manifest.decode_toValue, rfl,
      rfl⟩
  · obtain ⟨-, hmanifest, hdigest⟩ := PeerDelivery.new_eq_ok h
    refine ⟨delivery, fromJson_toJson rules hread delivery.onlyUnsigned delivery.decode_toValue,
      rfl, ?_⟩
    rw [hmanifest, hdigest]
  · exact fromJson_toJson rules hread (GatewayAcknowledgement.onlyUnsigned _)
      (GatewayAcknowledgement.decode_toValue _)
  · exact fromJson_toJson rules hread (GatewayStateReport.onlyUnsigned _)
      (GatewayStateReport.decode_toValue _)
  · exact OverlayAddress.fromStr_injective address.fromStr_text h

end Wire

section Sample

attribute [local instance] Reference.crates

/-- Decimal digits. -/
def sampleReadNumber (text : List Char) : Option Number :=
  if h : Nat.ofDigitChars 10 text 0 < 2 ^ 64 then some (.posInt (Nat.ofDigitChars 10 text 0) h)
  else none

theorem sampleReadNumber_reads : ReadsUnsigned sampleReadNumber := by
  intro n h
  have hvalue : Nat.ofDigitChars 10 (Nat.toDigits 10 n) 0 = n := Nat.ofDigitChars_ten_toDigits
  show sampleReadNumber (Nat.toDigits 10 n) = _
  unfold sampleReadNumber
  simp only [hvalue, dif_pos h]

/-- The manifest of a policy with two peers. -/
theorem wire_round_trip_sample :
    ∃ manifest, samplePolicy₂.manifest "2026-08-01T20:00:00Z" = some (.ok manifest) ∧
      ∃ read, fromJson sampleReadNumber PeerManifest.decode (toJson manifest.toValue) = some read ∧
        read = manifest ∧ read.digest = manifest.digest := by
  have hvalid : validUtcTimestamp "2026-08-01T20:00:00Z" = some true := by decide +kernel
  have hmanifest := samplePolicy₂_reachable.consistent.manifest_eq "2026-08-01T20:00:00Z"
  rw [hvalid, Option.map_some, if_pos rfl] at hmanifest
  exact ⟨_, hmanifest, (wire_round_trip Reference.jsonRules sampleReadNumber_reads).1 _ _ _ _
    hmanifest⟩

end Sample

end RsConsole
