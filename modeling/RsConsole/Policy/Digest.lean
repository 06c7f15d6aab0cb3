import Std.Data.String.ToNat
import RsConsole.Policy.Contract
import RsConsole.Reference

set_option autoImplicit false

/-! # What a digest binds

`write_canonical_json` writes the compact text of the value with its members in key order
(`writeCanonicalJson_eq`), so the text determines the value up to the order of members. Every leaf
of a manifest is written as a string or number that determines it, hence the canonical text
determines the manifest (`canonicalText_injective`), and two manifests share a digest only through
a SHA-256 collision. -/

namespace RsConsole

open Library

/-! ## The canonical writer -/

theorem textItems_eq (num : Number → List Char) (items : List Value) (index : ℕ) :
    Json.textItems num items =
      commaSeparated (index + 1) (items.map (Json.text num)) ++ [']'] := by
  induction items generalizing index with
  | nil => rfl
  | cons v items ih =>
      rw [Json.textItems, List.map_cons, commaSeparated, if_pos (Nat.succ_pos index),
        ih (index + 1)]
      simp only [List.append_assoc, List.cons_append, List.nil_append]

/-- The text of one member. -/
def memberText (num : Number → List Char) (m : String × Value) : List Char :=
  Json.quote m.1.toList ++ ':' :: Json.text num m.2

theorem textMembers_eq (num : Number → List Char) (members : List (String × Value)) (index : ℕ) :
    Json.textMembers num members =
      commaSeparated (index + 1) (members.map (memberText num)) ++ ['}'] := by
  induction members generalizing index with
  | nil => rfl
  | cons m members ih =>
      obtain ⟨k, v⟩ := m
      rw [Json.textMembers, List.map_cons, commaSeparated, if_pos (Nat.succ_pos index),
        ih (index + 1)]
      simp only [memberText, List.append_assoc, List.cons_append, List.nil_append]

theorem text_array (num : Number → List Char) (items : List Value) :
    Json.text num (.array items) =
      '[' :: (commaSeparated 0 (items.map (Json.text num)) ++ [']']) := by
  cases items with
  | nil => rfl
  | cons v items =>
      rw [Json.text, List.map_cons, commaSeparated, if_neg (Nat.lt_irrefl 0), textItems_eq num _ 0]
      simp only [List.append_assoc, List.nil_append]

theorem text_object (num : Number → List Char) (members : List (String × Value)) :
    Json.text num (.object members) =
      '{' :: (commaSeparated 0 (members.map (memberText num)) ++ ['}']) := by
  cases members with
  | nil => rfl
  | cons m members =>
      obtain ⟨k, v⟩ := m
      rw [Json.text, List.map_cons, commaSeparated, if_neg (Nat.lt_irrefl 0),
        textMembers_eq num _ 0]
      simp only [memberText, List.append_assoc, List.cons_append, List.nil_append]

section Writer

variable [Crates]

/-- A member's text, filed under its key. -/
def keyedText (m : String × Value) : String × List Char := (m.1, memberText Crates.numberText m)

theorem writeString_eq (rules : JsonRules) (s : String) : writeString s = .ok (Json.quote s.toList) := by
  rw [writeString, rules.string]

mutual

/-- **The canonical text is the compact text of the value with sorted members.** -/
theorem writeCanonicalJson_eq (rules : JsonRules) (v : Value) :
    writeCanonicalJson v = .ok (Json.text Crates.numberText v.sortKeys) := by
  cases v with
  | null => rfl
  | bool b => cases b <;> rfl
  | number n => rfl
  | string s => exact writeString_eq rules s
  | array items =>
      rw [writeCanonicalJson, writeValues_eq rules items, Json.sortKeys, text_array]
      rfl
  | object members =>
      have hsort : ((Json.sortKeysMembers members).map keyedText).insertionSort
            (fun m m' => m.1 ≤ m'.1) =
          ((Json.sortKeysMembers members).insertionSort (fun m m' => m.1 ≤ m'.1)).map keyedText :=
        (List.map_insertionSort _ _ keyedText _ (fun _ _ _ _ => Iff.rfl)).symm
      rw [writeCanonicalJson, writeMembers_eq rules members, Json.sortKeys, text_object]
      show Except.ok ('{' :: (commaSeparated 0 ((List.insertionSort _ _).map Prod.snd) ++ ['}'])) = _
      rw [hsort, List.map_map]
      rfl

theorem writeValues_eq (rules : JsonRules) (items : List Value) :
    writeValues items =
      .ok ((Json.sortKeysItems items).map (Json.text Crates.numberText)) := by
  cases items with
  | nil => rfl
  | cons v items =>
      rw [writeValues, writeCanonicalJson_eq rules v, writeValues_eq rules items]
      rfl

theorem writeMembers_eq (rules : JsonRules) (members : List (String × Value)) :
    writeMembers members = .ok ((Json.sortKeysMembers members).map keyedText) := by
  cases members with
  | nil => rfl
  | cons m members =>
      obtain ⟨k, v⟩ := m
      rw [writeMembers, writeString_eq rules, writeCanonicalJson_eq rules v, writeMembers_eq rules members]
      rfl

end

end Writer

/-! ## Injectivity of the serialization -/

theorem hexDigit_injective {m n : ℕ} (hm : m < 16) (hn : n < 16)
    (h : Json.hexDigit m = Json.hexDigit n) : m = n := by
  have hvalue := congrArg Json.hexValue h
  rwa [Json.hexValue_hexDigit hm, Json.hexValue_hexDigit hn, Option.some.injEq] at hvalue

theorem lowerHex_injective : Function.Injective lowerHex := by
  intro bytes bytes' h
  induction bytes generalizing bytes' with
  | nil =>
      cases bytes' with
      | nil => rfl
      | cons byte' bytes' => cases h
  | cons byte bytes ih =>
      cases bytes' with
      | nil => cases h
      | cons byte' bytes' =>
          simp only [lowerHex_cons, List.cons.injEq] at h
          have hlt := byte.toNat_lt
          have hlt' := byte'.toNat_lt
          have hhigh := hexDigit_injective (by omega) (by omega) h.1
          have hlow := hexDigit_injective (by omega) (by omega) h.2.1
          have hbyte : byte = byte' := UInt8.toNat_inj.1 (by omega)
          rw [hbyte, ih h.2.2]

/-- The bytes of a text that are hashed. -/
def hashed (text : List Char) : List UInt8 := asBytes (String.ofList text)

theorem HealthPolicy.text_injective : Function.Injective HealthPolicy.text := by
  intro p q h
  cases p <;> cases q <;> first | rfl | exact absurd h (by decide)

theorem Permission.text_injective : Function.Injective Permission.text := by
  intro p q h
  cases p <;> cases q <;> first | rfl | exact absurd h (by decide)

theorem OverlayAddress.text_eq (address : OverlayAddress) :
    address.text = "10.100.0." ++ Nat.repr address.host.toNat ++ "/32" := by
  obtain ⟨⟨a, b, c, d⟩, ha, hb, hc, -⟩ := address
  cases ha
  cases hb
  cases hc
  have hstart : toString (10 : UInt8).toNat ++ "." ++ toString (100 : UInt8).toNat ++ "." ++
      toString (0 : UInt8).toNat ++ "." = "10.100.0." := by decide
  exact congrArg (fun start => start ++ Nat.repr d.toNat ++ "/32") hstart

theorem OverlayAddress.text_injective : Function.Injective OverlayAddress.text := by
  intro x y h
  have hlist := congrArg String.toList h
  simp only [OverlayAddress.text_eq, String.toList_append, List.append_assoc,
    List.append_cancel_left_eq, List.append_cancel_right_eq, String.toList_inj] at hlist
  exact OverlayAddress.host_injective (UInt8.toNat_inj.1 (Nat.repr_injective hlist))

theorem Generation.toValue_injective : Function.Injective Generation.toValue := by
  intro g g' h
  simp only [Generation.toValue, Json.number.injEq, Number.posInt.injEq] at h
  exact Generation.value_injective h

section Manifest

variable [Crates]

theorem sortKeys_peer (peer : GatewayPeer) : peer.toValue.sortKeys =
    .object [("address", .string peer.address.text),
      ("health_policy", .string peer.healthPolicy.text), ("peer_id", .string peer.peerId.value),
      ("permissions", .array (peer.permissions.map (fun p => .string p.text))),
      ("public_key", .string peer.publicKey.value)] := by
  simp +decide [GatewayPeer.toValue, Json.sortKeys, Json.sortKeysMembers, Json.sortKeysItems_eq,
    List.insertionSort, List.orderedInsert]

theorem sortKeys_manifest (manifest : PeerManifest) : manifest.toValue.sortKeys =
    .object [("generated_at", .string manifest.generatedAt),
      ("generation", manifest.generation.toValue), ("interface", .string manifest.interface),
      ("peers", .array (manifest.peers.map (fun peer => peer.toValue.sortKeys))),
      ("schema_version", .number (.posInt manifest.schemaVersion.toNat
        (manifest.schemaVersion.toNat_lt.trans (by decide))))] := by
  simp +decide [PeerManifest.toValue, Generation.toValue, Json.sortKeys, Json.sortKeysMembers,
    Json.sortKeysItems_eq, List.insertionSort, List.orderedInsert]

/-- Every field of a peer can be read off its canonical form. -/
theorem sortKeys_peer_injective :
    Function.Injective (fun peer : GatewayPeer => peer.toValue.sortKeys) := by
  intro p q h
  simp only [sortKeys_peer, Json.object.injEq, List.cons.injEq, Prod.mk.injEq, true_and, and_true,
    Json.string.injEq, Json.array.injEq] at h
  obtain ⟨haddress, hhealth, hid, hpermissions, hkey⟩ := h
  have hpermission : Function.Injective (fun p : Permission => (Json.string p.text : Value)) :=
    fun a b hab => Permission.text_injective (Json.string.inj hab)
  cases p
  cases q
  exact (GatewayPeer.mk.injEq ..).mpr ⟨OpaqueId.value_injective hid,
    WireGuardPublicKey.value_injective hkey, OverlayAddress.text_injective haddress,
    HealthPolicy.text_injective hhealth, List.map_injective_iff.2 hpermission hpermissions⟩

/-- Every field of a manifest can be read off its canonical form. -/
theorem sortKeys_manifest_injective :
    Function.Injective (fun manifest : PeerManifest => manifest.toValue.sortKeys) := by
  intro m m' h
  simp only [sortKeys_manifest, Json.object.injEq, List.cons.injEq, Prod.mk.injEq, true_and,
    and_true, Json.string.injEq, Json.array.injEq, Json.number.injEq, Number.posInt.injEq] at h
  obtain ⟨hat, hgeneration, hinterface, hpeers, hschema⟩ := h
  cases m
  cases m'
  exact (PeerManifest.mk.injEq ..).mpr ⟨UInt8.toNat_inj.1 hschema, hinterface,
    Generation.toValue_injective hgeneration, hat,
    List.map_injective_iff.2 sortKeys_peer_injective hpeers⟩

/-! ## Digests -/

section Rules

variable (rules : JsonRules)

include rules in
theorem canonicalText_eq (manifest : PeerManifest) : manifest.canonicalText =
    .ok (Json.text Crates.numberText manifest.toValue.sortKeys) :=
  writeCanonicalJson_eq rules manifest.toValue

include rules in
/-- **The canonical text determines the manifest.** -/
theorem canonicalText_injective : Function.Injective PeerManifest.canonicalText := by
  intro m m' h
  rw [canonicalText_eq rules, canonicalText_eq rules] at h
  exact sortKeys_manifest_injective
    (Json.text_injective rules.number_syntax rules.number_injective (Except.ok.inj h))

end Rules

/-- Two different texts with the same SHA-256 hash. -/
def Collision (text text' : List Char) : Prop :=
  text ≠ text' ∧ Crates.sha256 (hashed text) = Crates.sha256 (hashed text')

theorem digestOf_value (text : List Char) :
    (digestOf text).value = String.ofList (lowerHex (Crates.sha256 (hashed text)).toList) :=
  rfl

theorem digestOf_eq_iff (text text' : List Char) :
    digestOf text = digestOf text' ↔
      Crates.sha256 (hashed text) = Crates.sha256 (hashed text') := by
  constructor
  · intro h
    have hvalue := congrArg ManifestDigest.value h
    exact Vector.toList_inj.1 (lowerHex_injective (String.ofList_injective hvalue))
  · intro h
    apply ManifestDigest.value_injective
    rw [digestOf_value, digestOf_value, h]

/-- **Two manifests share a digest only through a collision** of their canonical texts. -/
theorem digest_eq (rules : JsonRules) {m m' : PeerManifest} (h : m.digest = m'.digest) :
    m = m' ∨ ∃ text text', m.canonicalText = .ok text ∧ m'.canonicalText = .ok text' ∧
      Collision text text' := by
  have htext := canonicalText_eq rules m
  have htext' := canonicalText_eq rules m'
  rw [PeerManifest.digest, PeerManifest.digest, htext, htext'] at h
  have hhash := (digestOf_eq_iff _ _).1 (Except.ok.inj h)
  by_cases heq : m.canonicalText = m'.canonicalText
  · exact Or.inl (canonicalText_injective rules heq)
  · refine Or.inr ⟨_, _, htext, htext', fun hsame => heq ?_, hhash⟩
    rw [htext, htext', hsame]

/-- No two manifests have canonical texts that collide. -/
def NoCollision (m m' : PeerManifest) : Prop :=
  ∀ text text', m.canonicalText = .ok text → m'.canonicalText = .ok text' →
    ¬ Collision text text'

theorem digest_injective (rules : JsonRules) {m m' : PeerManifest} (hno : NoCollision m m')
    (h : m.digest = m'.digest) : m = m' := by
  rcases digest_eq rules h with heq | ⟨text, text', htext, htext', hcollision⟩
  · exact heq
  · exact absurd hcollision (hno text text' htext htext')

/-! ## Deliveries -/

theorem PeerDelivery.new_eq_ok {gatewayId : GatewayId} {manifest : PeerManifest}
    {delivery : PeerDelivery} (h : PeerDelivery.new gatewayId manifest = .ok delivery) :
    delivery.gatewayId = gatewayId ∧ delivery.manifest = manifest ∧
      manifest.digest = .ok delivery.manifestDigest := by
  rw [PeerDelivery.new] at h
  cases hdigest : manifest.digest with
  | error e =>
      rw [hdigest] at h
      cases h
  | ok digest =>
      rw [hdigest] at h
      cases h
      exact ⟨rfl, rfl, rfl⟩

theorem digest_total (rules : JsonRules) (manifest : PeerManifest) :
    ∃ digest, manifest.digest = .ok digest := by
  rw [PeerManifest.digest, canonicalText_eq rules]
  exact ⟨_, rfl⟩

theorem PeerDelivery.new_total (rules : JsonRules) (gatewayId : GatewayId)
    (manifest : PeerManifest) : ∃ delivery, PeerDelivery.new gatewayId manifest = .ok delivery := by
  obtain ⟨digest, hdigest⟩ := digest_total rules manifest
  rw [PeerDelivery.new, hdigest]
  exact ⟨_, rfl⟩

/-- An acknowledgement of a delivery matches that delivery. -/
theorem GatewayAcknowledgement.applied_matches (delivery : PeerDelivery) :
    (GatewayAcknowledgement.applied delivery).Matches delivery :=
  ⟨rfl, rfl, rfl, rfl, rfl, rfl, rfl⟩

/-- **The digest binds the whole manifest.** The canonical text determines every field; two
    manifests share a digest only through a SHA-256 collision of their texts; and without one, the
    acknowledgement of a delivery matches exactly the deliveries of the same manifest to the same
    gateway. -/
theorem digest_binds_manifest (rules : JsonRules) :
    (∀ m m' : PeerManifest, m.canonicalText = m'.canonicalText → m = m') ∧
    (∀ m m' : PeerManifest, m.digest = m'.digest → m ≠ m' →
      ∃ text text', m.canonicalText = .ok text ∧ m'.canonicalText = .ok text' ∧
        Collision text text') ∧
    (∀ (g g' : GatewayId) (m m' : PeerManifest) (d d' : PeerDelivery),
      PeerDelivery.new g m = .ok d → PeerDelivery.new g' m' = .ok d' → NoCollision m m' →
      ((GatewayAcknowledgement.applied d).Matches d' ↔
        d.gatewayId = d'.gatewayId ∧ d.manifest = d'.manifest)) := by
  refine ⟨fun m m' h => canonicalText_injective rules h, fun m m' h hne => ?_, ?_⟩
  · exact (digest_eq rules h).resolve_left hne
  · intro g g' m m' d d' hd hd' hno
    obtain ⟨hgateway, hmanifest, hdigest⟩ := PeerDelivery.new_eq_ok hd
    obtain ⟨hgateway', hmanifest', hdigest'⟩ := PeerDelivery.new_eq_ok hd'
    constructor
    · -- the gateway and the digest are compared; the manifest follows, with no collision
      rintro ⟨-, hg, -, -, -, hmd, -⟩
      refine ⟨hg, ?_⟩
      rw [hmanifest, hmanifest']
      refine digest_injective rules hno ?_
      rw [hdigest, hdigest']
      exact congrArg Except.ok hmd
    · rintro ⟨hg, hm⟩
      rw [hgateway, hgateway'] at hg
      rw [hmanifest, hmanifest'] at hm
      subst hg hm
      rw [hd, Except.ok.injEq] at hd'
      subst hd'
      exact GatewayAcknowledgement.applied_matches d

end Manifest

section Sample

attribute [local instance] Reference.crates

/-- The manifest of the initial policy. -/
def sampleManifest (generatedAt : String) : PeerManifest :=
  ⟨schemaVersion, wgUsersInterface, VpnPolicy.default.generation, generatedAt, []⟩

def sampleGateway : GatewayId := ⟨⟨"gateway-1", by decide⟩⟩

theorem sampleManifest_digest_ne :
    (sampleManifest "2026-08-01T20:00:00Z").digest ≠
      (sampleManifest "2026-08-01T20:00:01Z").digest := by
  decide +kernel

theorem sampleManifest_noCollision :
    NoCollision (sampleManifest "2026-08-01T20:00:00Z")
      (sampleManifest "2026-08-01T20:00:01Z") := by
  rintro text text' h h' ⟨-, hhash⟩
  refine sampleManifest_digest_ne ?_
  rw [PeerManifest.digest, PeerManifest.digest, h, h']
  exact congrArg Except.ok ((digestOf_eq_iff text text').2 hhash)

theorem digest_binds_manifest_sample :
    ∃ d d', PeerDelivery.new sampleGateway (sampleManifest "2026-08-01T20:00:00Z") = .ok d ∧
      PeerDelivery.new sampleGateway (sampleManifest "2026-08-01T20:00:01Z") = .ok d' ∧
      ¬ (GatewayAcknowledgement.applied d).Matches d' := by
  obtain ⟨d, hd⟩ := PeerDelivery.new_total Reference.jsonRules sampleGateway
    (sampleManifest "2026-08-01T20:00:00Z")
  obtain ⟨d', hd'⟩ := PeerDelivery.new_total Reference.jsonRules sampleGateway
    (sampleManifest "2026-08-01T20:00:01Z")
  refine ⟨d, d', hd, hd', ?_⟩
  rw [(digest_binds_manifest Reference.jsonRules).2.2 _ _ _ _ d d' hd hd'
    sampleManifest_noCollision]
  rintro ⟨-, hmanifest⟩
  rw [(PeerDelivery.new_eq_ok hd).2.1, (PeerDelivery.new_eq_ok hd').2.1] at hmanifest
  exact absurd hmanifest (by decide)

end Sample

end RsConsole
