import RsConsole.Policy.Decoding
import RsConsole.Policy.Manifests

set_option autoImplicit false

/-! # What a document proves

The decoders of the fields are all that a decoded manifest has passed. What `PeerManifest::new` checks
across the fields and the peers is not checked again, so a document decides by its texts alone whether
the constructor could have built its manifest (`decoded_manifest_iff`). Nor is the digest of a decoded
delivery compared with its manifest, so an acknowledgement of a decoded delivery proves the manifest
only of a delivery whose digest is true (`acknowledgement_proves_manifest_iff`). -/

namespace RsConsole

open Library

/-! ## What the field decoders accept -/

theorem toOption_eq_some {ε α : Type} {x : Except ε α} {a : α} (h : x.toOption = some a) :
    x = .ok a := by
  cases x with
  | error e => cases h
  | ok b =>
      cases h
      rfl

theorem decodeU8_eq_some {v : Value} {n : UInt8} (h : decodeU8 v = some n) :
    decodeUnsigned v = some n.toNat := by
  obtain ⟨m, hm, h⟩ := Option.bind_eq_some_iff.1 h
  split at h
  · next hlt =>
      cases h
      rw [hm, UInt8.toNat_ofNat_of_lt' hlt]
  · cases h

theorem OpaqueId.decode_eq_some {kind : IdKind} {v : Value} {id : OpaqueId kind}
    (h : OpaqueId.decode v = some id) : v = .string id.value := by
  obtain ⟨value, hvalue, h⟩ := Option.bind_eq_some_iff.1 h
  rw [Json.decodeString_eq_some] at hvalue
  have hnew := toOption_eq_some h
  unfold OpaqueId.new at hnew
  split at hnew
  · cases hnew
    exact hvalue
  · cases hnew

theorem Permission.decode_eq_some {v : Value} {permission : Permission}
    (h : Permission.decode v = some permission) :
    Json.variantName v = some permission.text := by
  obtain ⟨name, hname, h⟩ := Option.bind_eq_some_iff.1 h
  rw [hname]
  split at h
  · next heq =>
      cases h
      rw [heq]
      rfl
  · split at h
    · next heq =>
        cases h
        rw [heq]
        rfl
    · cases h

theorem OverlayAddress.decode_eq_some {v : Value} {address : OverlayAddress}
    (h : OverlayAddress.decode v = some address) :
    ∃ value, v = .string value ∧ OverlayAddress.fromStr value = .ok address := by
  obtain ⟨value, hvalue, h⟩ := Option.bind_eq_some_iff.1 h
  exact ⟨value, Json.decodeString_eq_some.1 hvalue, toOption_eq_some h⟩

/-! ## An address has one text -/

theorem decimalDigits_injective {text text' : List Char} (h : text.all Json.isDigit = true)
    (h' : text'.all Json.isDigit = true) (heq : decimalDigits text = decimalDigits text') :
    text = text' := by
  have hback : ∀ t : List Char, t.all Json.isDigit = true →
      (t.map (fun c => c.toNat - 48)).map (fun n => Char.ofNat (n + 48)) = t := by
    intro t ht
    rw [List.map_map]
    refine (List.map_congr_left fun c hc => ?_).trans (List.map_id t)
    have hdigit := List.all_eq_true.1 ht c hc
    simp only [Json.isDigit, Bool.and_eq_true, decide_eq_true_eq] at hdigit
    show Char.ofNat (c.toNat - 48 + 48) = c
    rw [Nat.sub_add_cancel hdigit.1, Char.ofNat_toNat]
  rw [decimalDigits, decimalDigits, List.reverse_inj] at heq
  rw [← hback text h, ← hback text' h', heq]

/-- The digits of an octet are its decimal digits, except that zero is written with one. -/
theorem parseOctet_digits {text : List Char} {octet : UInt8} (h : parseOctet text = some octet) :
    text.all Json.isDigit = true ∧ (text = ['0'] ∧ octet = 0 ∨
      text ≠ [] ∧ decimalDigits text = Nat.digits 10 octet.toNat) := by
  unfold parseOctet at h
  split at h
  · next hok =>
      obtain ⟨hne, -, hdigits, hzero, hlt⟩ := hok
      refine ⟨hdigits, ?_⟩
      cases h
      -- `0` is the one text with a leading zero, and `Nat.digits 10 0` is empty
      by_cases hhead : text.head? = some '0'
      · obtain rfl := hzero hhead
        exact Or.inl ⟨rfl, rfl⟩
      · refine Or.inr ⟨hne, ?_⟩
        rw [UInt8.toNat_ofNat_of_lt' hlt, Nat.digits_ofDigits 10 (by decide)]
        · intro d hd
          simp only [decimalDigits, List.mem_reverse, List.mem_map] at hd
          obtain ⟨c, hc, rfl⟩ := hd
          have hdigit := List.all_eq_true.1 hdigits c hc
          simp only [Json.isDigit, Bool.and_eq_true, decide_eq_true_eq] at hdigit
          omega
        · -- the highest digit is not zero
          intro hnil
          obtain ⟨c, rest, rfl⟩ := List.exists_cons_of_ne_nil hne
          have hdigit := List.all_eq_true.1 hdigits c List.mem_cons_self
          simp only [Json.isDigit, Bool.and_eq_true, decide_eq_true_eq] at hdigit
          simp only [decimalDigits, List.map_cons, List.reverse_cons, List.getLast_append_singleton]
          intro hzero
          have hc : c = '0' := Char.toNat_inj.1 (by
            show c.toNat = 48
            omega)
          exact hhead (by rw [hc]; rfl)
  · cases h

theorem parseOctet_injective {text text' : List Char} {octet : UInt8}
    (h : parseOctet text = some octet) (h' : parseOctet text' = some octet) : text = text' := by
  obtain ⟨hall, h⟩ := parseOctet_digits h
  obtain ⟨hall', h'⟩ := parseOctet_digits h'
  have hempty : ∀ t : List Char, t ≠ [] → decimalDigits t ≠ Nat.digits 10 (0 : UInt8).toNat := by
    intro t ht hdigits
    have hnil : decimalDigits t = [] := hdigits.trans (by simp)
    simp [decimalDigits] at hnil
    exact ht hnil
  rcases h with ⟨rfl, rfl⟩ | ⟨hne, hdigits⟩ <;> rcases h' with ⟨rfl, hzero⟩ | ⟨hne', hdigits'⟩
  · rfl
  · exact absurd hdigits' (hempty text' hne')
  · rw [hzero] at hdigits
    exact absurd hdigits (hempty text hne)
  · exact decimalDigits_injective hall hall' (hdigits.trans hdigits'.symm)

theorem Ipv4Addr.parse_injective {text text' : List Char} {addr : Ipv4Addr}
    (h : Ipv4Addr.parse text = some addr) (h' : Ipv4Addr.parse text' = some addr) :
    text = text' := by
  have hparts : ∀ t : List Char, Ipv4Addr.parse t = some addr → ∃ a b c d,
      t.splitOn '.' = [a, b, c, d] ∧ parseOctet a = some addr.a ∧ parseOctet b = some addr.b ∧
        parseOctet c = some addr.c ∧ parseOctet d = some addr.d := by
    intro t ht
    unfold Ipv4Addr.parse at ht
    split at ht
    · next a b c d hsplit =>
        simp only [Option.bind_eq_bind, Option.bind_eq_some_iff, Option.some.injEq] at ht
        obtain ⟨a', ha, b', hb, c', hc, d', hd, rfl⟩ := ht
        exact ⟨a, b, c, d, hsplit, ha, hb, hc, hd⟩
    · cases ht
  obtain ⟨a, b, c, d, hsplit, ha, hb, hc, hd⟩ := hparts text h
  obtain ⟨a', b', c', d', hsplit', ha', hb', hc', hd'⟩ := hparts text' h'
  have hjoin : ['.'].intercalate (text.splitOn '.') = text := List.intercalate_splitOn '.'
  have hjoin' : ['.'].intercalate (text'.splitOn '.') = text' := List.intercalate_splitOn '.'
  rw [← hjoin, ← hjoin', hsplit, hsplit', parseOctet_injective ha ha', parseOctet_injective hb hb',
    parseOctet_injective hc hc', parseOctet_injective hd hd']

theorem OverlayAddress.fromStr_injective {value value' : String} {address : OverlayAddress}
    (h : OverlayAddress.fromStr value = .ok address)
    (h' : OverlayAddress.fromStr value' = .ok address) : value = value' := by
  have hparts : ∀ v : String, OverlayAddress.fromStr v = .ok address → ∃ text,
      v.toList = text ++ ['/', '3', '2'] ∧ Ipv4Addr.parse text = some address.addr := by
    intro v hv
    unfold OverlayAddress.fromStr at hv
    split at hv
    · cases hv
    · next addr haddr =>
        split at hv
        · cases hv
          obtain ⟨text, hstrip, hparse⟩ := Option.bind_eq_some_iff.1 haddr
          refine ⟨text, ?_, hparse⟩
          unfold stripSuffix at hstrip
          split at hstrip
          · next hsuffix =>
              obtain ⟨front, hfront⟩ := hsuffix
              rw [← hfront] at hstrip ⊢
              simp at hstrip
              rw [hstrip]
          · cases hstrip
        · cases hv
  obtain ⟨text, heq, hparse⟩ := hparts value h
  obtain ⟨text', heq', hparse'⟩ := hparts value' h'
  rw [← String.toList_inj, heq, heq', Ipv4Addr.parse_injective hparse hparse']

/-! ## What a document says -/

/-- The texts of a peer in a document. -/
structure PeerDocument where
  peerId : String
  publicKey : String
  address : String
  permissions : List String

/-- The texts of a manifest in a document. -/
structure ManifestDocument where
  schemaVersion : ℕ
  interface : String
  generatedAt : String
  peers : List PeerDocument

def peerDocument (v : Value) : Option PeerDocument :=
  match Json.structFields GatewayPeer.fields v with
  | some [.string peerId, .string publicKey, .string address, _, .array permissions] => do
      let permissions ← Json.decodeAll Json.variantName permissions
      some { peerId, publicKey, address, permissions }
  | _ => none

def manifestDocument (v : Value) : Option ManifestDocument :=
  match Json.structFields PeerManifest.fields v with
  | some [schemaVersion, .string interface, _, .string generatedAt, .array peers] => do
      let schemaVersion ← decodeUnsigned schemaVersion
      let peers ← Json.decodeAll peerDocument peers
      some { schemaVersion, interface, generatedAt, peers }
  | _ => none

/-- The texts are those of the wire contract: schema version, interface, timestamp, at most 253 peers
    in the order of their identifiers, which share no key and no address, and the two lists of
    permissions. -/
structure ManifestDocument.WireContract (d : ManifestDocument) : Prop where
  schemaVersion : d.schemaVersion = 1
  interface : d.interface = "wg-users"
  generatedAt : validUtcTimestamp d.generatedAt = some true
  count : d.peers.length ≤ 253
  peers : d.peers.Pairwise (fun p q => p.peerId < q.peerId ∧ p.publicKey ≠ q.publicKey ∧
    p.address ≠ q.address)
  permissions : ∀ p ∈ d.peers, p.permissions = ["egress"] ∨ p.permissions = ["egress", "games"]

theorem decodePermissions_eq {items : List Value} {permissions : List Permission}
    (h : Json.decodeAll Permission.decode items = some permissions) :
    Json.decodeAll Json.variantName items = some (permissions.map Permission.text) := by
  rw [Json.decodeAll_eq_some] at h ⊢
  rw [List.forall₂_map_right_iff]
  exact h.imp fun _ _ hdecode => Permission.decode_eq_some hdecode

theorem peerId_lt_iff {p q : PeerId} : compare p q = .lt ↔ p.value < q.value := by
  rw [OpaqueId.compare_def]
  exact compareOfLessAndEq_eq_lt

section Documents

variable [Crates]

/-- The peer has the texts of the document. -/
structure PeerDocument.Describes (d : PeerDocument) (peer : GatewayPeer) : Prop where
  peerId : d.peerId = peer.peerId.value
  publicKey : d.publicKey = peer.publicKey.value
  address : OverlayAddress.fromStr d.address = .ok peer.address
  permissions : d.permissions = peer.permissions.map Permission.text

theorem WireGuardPublicKey.decode_eq_some {v : Value} {key : WireGuardPublicKey}
    (h : WireGuardPublicKey.decode v = some key) : v = .string key.value := by
  obtain ⟨value, hvalue, h⟩ := Option.bind_eq_some_iff.1 h
  rw [Json.decodeString_eq_some] at hvalue
  have hnew := toOption_eq_some h
  unfold WireGuardPublicKey.new at hnew
  split at hnew
  · cases hnew
  · split at hnew
    · cases hnew
      exact hvalue
    · cases hnew

theorem GatewayPeer.decode_eq_some {v : Value} {peer : GatewayPeer}
    (h : GatewayPeer.decode v = some peer) :
    ∃ d, peerDocument v = some d ∧ d.Describes peer := by
  unfold GatewayPeer.decode at h
  split at h
  · next peerId publicKey address healthPolicy permissions hfields =>
      simp only [Option.bind_eq_bind, Option.bind_eq_some_iff, Option.some.injEq,
        Json.sequence_eq_some] at h
      obtain ⟨id, hid, key, hkey, addr, haddr, health, -, ps, ⟨items, rfl, hps⟩, rfl⟩ := h
      obtain rfl := OpaqueId.decode_eq_some hid
      obtain rfl := WireGuardPublicKey.decode_eq_some hkey
      obtain ⟨text, rfl, htext⟩ := OverlayAddress.decode_eq_some haddr
      refine ⟨⟨id.value, key.value, text, ps.map Permission.text⟩, ?_, rfl, rfl, htext, rfl⟩
      simp [peerDocument, hfields, decodePermissions_eq hps]
  · cases h

/-- A decoded manifest has the texts of its document. -/
theorem PeerManifest.decode_eq_some {v : Value} {manifest : PeerManifest}
    (h : PeerManifest.decode v = some manifest) :
    ∃ d, manifestDocument v = some d ∧ d.schemaVersion = manifest.schemaVersion.toNat ∧
      d.interface = manifest.interface ∧ d.generatedAt = manifest.generatedAt ∧
      List.Forall₂ PeerDocument.Describes d.peers manifest.peers := by
  unfold PeerManifest.decode at h
  split at h
  · next schemaVersion interface generation generatedAt peers hfields =>
      simp only [Option.bind_eq_bind, Option.bind_eq_some_iff, Option.some.injEq,
        Json.sequence_eq_some, Json.decodeString_eq_some] at h
      obtain ⟨version, hversion, name, rfl, gen, -, at', rfl, ps, ⟨items, rfl, hps⟩, rfl⟩ := h
      obtain ⟨ds, hds, hall⟩ := Json.decodeAll_raw (fun _ _ => GatewayPeer.decode_eq_some) hps
      refine ⟨⟨version.toNat, name, at', ds⟩, ?_, rfl, rfl, rfl, hall⟩
      simp [manifestDocument, hfields, decodeU8_eq_some hversion, hds]
  · cases h

/-- The texts of a document keep the contract exactly when the decoded manifest has the constructor's
    guarantees. -/
theorem guaranteed_iff {d : ManifestDocument} {manifest : PeerManifest}
    (hversion : d.schemaVersion = manifest.schemaVersion.toNat)
    (hinterface : d.interface = manifest.interface)
    (hgeneratedAt : d.generatedAt = manifest.generatedAt)
    (hpeers : List.Forall₂ PeerDocument.Describes d.peers manifest.peers) :
    manifest.Guaranteed ↔ d.WireContract := by
  -- the two contracts say the same of every pair of peers, then of every peer
  have hpairwise := Json.pairwise_iff_of_forall₂
    (S := fun p q => p.peerId < q.peerId ∧ p.publicKey ≠ q.publicKey ∧ p.address ≠ q.address)
    (T := fun p q => compare p.peerId q.peerId = .lt ∧ p.publicKey ≠ q.publicKey ∧
      p.address ≠ q.address)
    (fun a p b q hap hbq => by
      have haddress : a.address = b.address ↔ p.address = q.address := by
        constructor
        · intro heq
          exact Except.ok.inj (hap.address.symm.trans (heq ▸ hbq.address))
        · intro heq
          exact OverlayAddress.fromStr_injective hap.address (heq ▸ hbq.address)
      rw [hap.peerId, hbq.peerId, hap.publicKey, hbq.publicKey, peerId_lt_iff, ne_eq, ne_eq,
        haddress, WireGuardPublicKey.value_injective.eq_iff]) hpeers
  have hpermissions := Json.forall_iff_of_forall₂
    (P := fun p => p.permissions = ["egress"] ∨ p.permissions = ["egress", "games"])
    (Q := fun p => p.permissions = [.egress] ∨ p.permissions = [.egress, .games])
    (fun a p hap => by
      have hegress : ["egress"] = [Permission.egress].map Permission.text := rfl
      have hgames : ["egress", "games"] = [Permission.egress, .games].map Permission.text := rfl
      rw [hap.permissions, hegress, hgames, (Permission.text_injective.list_map).eq_iff,
        (Permission.text_injective.list_map).eq_iff]) hpeers
  constructor
  · intro h
    exact ⟨by rw [hversion, h.schemaVersion]; rfl, hinterface.trans h.interface,
      hgeneratedAt ▸ h.generatedAt, hpeers.length_eq ▸ h.count, hpairwise.2 h.peers,
      hpermissions.2 h.permissions⟩
  · intro h
    exact ⟨UInt8.toNat_inj.1 (hversion.symm.trans h.schemaVersion), hinterface.symm.trans h.interface,
      hgeneratedAt ▸ h.generatedAt, hpeers.length_eq ▸ h.count, hpairwise.1 h.peers,
      hpermissions.1 h.permissions⟩

/-- **The decoder accepts a manifest that the constructor could have built exactly when its document
    keeps the wire contract.** -/
theorem decoded_manifest_iff {v : Value} {manifest : PeerManifest}
    (h : PeerManifest.decode v = some manifest) :
    ((∃ generation generatedAt peers,
      PeerManifest.new generation generatedAt peers = some (.ok manifest)) ↔
        ∃ d, manifestDocument v = some d ∧ d.WireContract) ∧
    (manifest.Guaranteed ↔ ∃ d, manifestDocument v = some d ∧ d.WireContract) := by
  obtain ⟨d, hd, hversion, hinterface, hgeneratedAt, hpeers⟩ := PeerManifest.decode_eq_some h
  have hcontract : (∃ d, manifestDocument v = some d ∧ d.WireContract) ↔ d.WireContract := by
    rw [hd]
    constructor
    · rintro ⟨d', hd', h⟩
      cases hd'
      exact h
    · exact fun h => ⟨d, rfl, h⟩
  rw [PeerManifest.new_ok_iff, hcontract, guaranteed_iff hversion hinterface hgeneratedAt hpeers]
  exact ⟨Iff.rfl, Iff.rfl⟩

end Documents

section Sample

attribute [local instance] Reference.crates

/-- A peer that has no `egress`. -/
def sampleGamer : GatewayPeer where
  peerId := samplePeer
  publicKey := sampleKey
  address := ⟨⟨10, 100, 0, 2⟩, rfl, rfl, rfl, by decide, by decide⟩
  healthPolicy := .onDemand
  permissions := [.games]

/-- The manifest of one peer with the given permissions. -/
def sampleWire (permissions : List Permission) : PeerManifest :=
  { sampleManifest "2026-08-01T20:00:00Z" with
    peers := [{ sampleGamer with permissions := permissions }] }

/-- A document that keeps the contract. -/
theorem decoded_manifest_iff_sample :
    ∃ generation generatedAt peers, PeerManifest.new generation generatedAt peers =
      some (.ok (sampleWire [.egress])) := by
  refine (decoded_manifest_iff (PeerManifest.decode_toValue (sampleWire [.egress]))).1.2 ?_
  refine ⟨⟨1, "wg-users", "2026-08-01T20:00:00Z",
    [⟨samplePeer.value, sampleKey.value, "10.100.0.2/32", ["egress"]⟩]⟩, ?_, ?_⟩
  · rfl
  · exact ⟨rfl, rfl, by decide +kernel, by decide, by simp, by simp⟩

/-- A decoded manifest that the constructor does not build: its peer has `games` without `egress`. -/
theorem decoded_manifest_unguarded :
    ¬ ∀ v manifest, PeerManifest.decode v = some manifest → ∃ generation generatedAt peers,
      PeerManifest.new generation generatedAt peers = some (.ok manifest) := by
  intro h
  have hbuilt := h _ _ (PeerManifest.decode_toValue (sampleWire [.games]))
  rw [PeerManifest.new_ok_iff] at hbuilt
  have hpermissions := hbuilt.permissions _ List.mem_cons_self
  exact absurd hpermissions (by decide)

end Sample

/-! ## Acknowledgements of decoded deliveries -/

/-- **An accepted acknowledgement of a decoded delivery proves its manifest exactly when the delivery
    names the digest of the manifest it carries.** -/
theorem acknowledgement_proves_manifest_iff [Crates] (rules : JsonRules) :
    ∀ (v : Value) (received sent : PeerDelivery) (gatewayId : GatewayId) (manifest : PeerManifest),
      PeerDelivery.decode v = some received → PeerDelivery.new gatewayId manifest = .ok sent →
      NoCollision received.manifest sent.manifest →
      (GatewayAcknowledgement.applied received).Matches sent →
      ((received.gatewayId = sent.gatewayId ∧ received.manifest = sent.manifest) ↔
        received.manifest.digest = .ok received.manifestDigest) := by
  intro v received sent gatewayId manifest _ hsent hno hmatches
  obtain ⟨-, hmanifest, hdigest⟩ := PeerDelivery.new_eq_ok hsent
  obtain ⟨-, hgateway, -, -, -, hsame, -⟩ := hmatches
  have hsame : received.manifestDigest = sent.manifestDigest := hsame
  constructor
  · rintro ⟨-, heq⟩
    rw [heq, hmanifest, hdigest, hsame]
  · intro hbound
    refine ⟨hgateway, digest_injective rules hno ?_⟩
    rw [hbound, hmanifest, hdigest, hsame]

section Sample

attribute [local instance] Reference.crates

/-- The delivery of one manifest, carrying another one. -/
def swapped (sent : PeerDelivery) : PeerDelivery :=
  { sent with manifest := sampleManifest "2026-08-01T20:00:00Z" }

/-- The acknowledgement of the swapped delivery is accepted, although its manifest is another one. -/
theorem swapped_accepted :
    ∃ sent, PeerDelivery.new sampleGateway (sampleManifest "2026-08-01T20:00:01Z") = .ok sent ∧
      NoCollision (swapped sent).manifest sent.manifest ∧
      (GatewayAcknowledgement.applied (swapped sent)).Matches sent ∧
      (swapped sent).manifest ≠ sent.manifest := by
  obtain ⟨sent, hsent⟩ := PeerDelivery.new_total Reference.jsonRules sampleGateway
    (sampleManifest "2026-08-01T20:00:01Z")
  obtain ⟨-, hmanifest, -⟩ := PeerDelivery.new_eq_ok hsent
  refine ⟨sent, hsent, ?_, ⟨rfl, rfl, rfl, rfl, ?_, rfl, rfl⟩, ?_⟩
  · rw [hmanifest]
    exact sampleManifest_noCollision
  · rw [hmanifest]
    rfl
  · rw [hmanifest]
    show sampleManifest "2026-08-01T20:00:00Z" ≠ sampleManifest "2026-08-01T20:00:01Z"
    decide

/-- Its digest is not that of the manifest it carries. -/
theorem acknowledgement_proves_manifest_iff_sample :
    ∃ sent, PeerDelivery.new sampleGateway (sampleManifest "2026-08-01T20:00:01Z") = .ok sent ∧
      (swapped sent).manifest.digest ≠ .ok (swapped sent).manifestDigest := by
  obtain ⟨sent, hsent, hno, hmatches, hne⟩ := swapped_accepted
  refine ⟨sent, hsent, fun hbound => hne ?_⟩
  exact ((acknowledgement_proves_manifest_iff Reference.jsonRules (swapped sent).toValue
    (swapped sent) sent sampleGateway _ (PeerDelivery.decode_toValue _) hsent hno hmatches).2
      hbound).2

/-- An accepted acknowledgement does not prove the manifest by itself. -/
theorem acknowledgement_of_swapped :
    ¬ ∀ (v : Value) (received sent : PeerDelivery) (gatewayId : GatewayId) (manifest : PeerManifest),
      PeerDelivery.decode v = some received → PeerDelivery.new gatewayId manifest = .ok sent →
      NoCollision received.manifest sent.manifest →
      (GatewayAcknowledgement.applied received).Matches sent →
      received.gatewayId = sent.gatewayId ∧ received.manifest = sent.manifest := by
  intro h
  obtain ⟨sent, hsent, hno, hmatches, hne⟩ := swapped_accepted
  exact hne (h (swapped sent).toValue (swapped sent) sent sampleGateway _
    (PeerDelivery.decode_toValue _) hsent hno hmatches).2

end Sample

end RsConsole
