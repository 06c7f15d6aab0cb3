import RsConsole.Policy.Changes
import RsConsole.Policy.Contract

set_option autoImplicit false

/-! # Manifests of a policy

`PeerManifest::new` checks again what a policy keeps anyway: the number of peers, and the
uniqueness of identifiers, keys and addresses. In a reachable policy these checks never fail, so
`manifest_eq` computes every manifest: it fails for an invalid timestamp only, and otherwise lists
the enrolled peers. -/

namespace RsConsole

open Library

/-! ## The timestamp check is total -/

theorem slice_eq {bytes : List UInt8} {start stop : ℕ} (h : start ≤ stop)
    (hstop : stop ≤ bytes.length) :
    ∃ part, slice bytes start stop = some part ∧ part.length = stop - start := by
  refine ⟨(bytes.take stop).drop start, if_pos ⟨h, hstop⟩, ?_⟩
  rw [List.length_drop, List.length_take_of_le hstop]

/-- Nine digits fit into `u32`. -/
theorem decimalFrom_total (bytes : List UInt8) (value digits : ℕ) (hvalue : value < 10 ^ digits)
    (hlength : digits + bytes.length ≤ 9) : ∃ r, decimalFrom value bytes = some r := by
  induction bytes generalizing value digits with
  | nil => exact ⟨_, rfl⟩
  | cons byte bytes ih =>
      rw [List.length_cons] at hlength
      unfold decimalFrom
      split
      · next hdigit =>
          simp only [isAsciiDigit, Bool.and_eq_true, decide_eq_true_eq, UInt8.le_iff_toNat_le]
            at hdigit
          have hhigh : byte.toNat ≤ 57 := hdigit.2
          have hnext : value * 10 + (byte.toNat - 48) < 10 ^ (digits + 1) := by
            rw [Nat.pow_succ]
            omega
          have hpow : 10 ^ (digits + 1) ≤ 10 ^ 9 := Nat.pow_le_pow_right (by omega) (by omega)
          rw [if_pos (by omega)]
          exact ih _ (digits + 1) hnext (by omega)
      · exact ⟨_, rfl⟩

theorem decimal_slice_total {bytes : List UInt8} {start stop : ℕ} (h : start ≤ stop)
    (hstop : stop ≤ bytes.length) (hlength : stop - start ≤ 9) :
    ∃ r, (slice bytes start stop).bind decimal = some r := by
  obtain ⟨part, hpart, hlen⟩ := slice_eq h hstop
  rw [hpart]
  exact decimalFrom_total part 0 0 (by omega) (by omega)

theorem bind_total {α β : Type} {x : Option α} {f : α → Option β} (hx : ∃ a, x = some a)
    (hf : ∀ a, ∃ b, f a = some b) : ∃ b, (x >>= f) = some b := by
  obtain ⟨a, rfl⟩ := hx
  exact hf a

/-- **The timestamp check never panics.** -/
theorem validUtcTimestamp_total (value : String) :
    ∃ valid, validUtcTimestamp value = some valid := by
  unfold validUtcTimestamp
  dsimp only
  split
  · exact ⟨_, rfl⟩
  · next hshape =>
      -- past the length check every slice is in range, and at most nine digits cannot overflow
      simp only [not_or, not_lt] at hshape
      have hlen := hshape.1
      have hfields : ∀ start stop, start ≤ stop → stop ≤ 19 → stop - start ≤ 9 →
          ∃ r, (slice (asBytes value) start stop).bind decimal = some r :=
        fun start stop h hstop hwidth => decimal_slice_total h (by omega) hwidth
      have hfraction : ∃ part, slice (asBytes value) 19 ((asBytes value).length - 1) = some part :=
        (slice_eq (by omega) (by omega)).imp fun _ h => h.1
      refine bind_total hfraction (fun fraction => ?_)
      split
      · exact ⟨_, rfl⟩
      refine bind_total (hfields 0 4 (by omega) (by omega) (by omega)) ?_
      rintro (_ | year)
      · exact ⟨_, rfl⟩
      refine bind_total (hfields 5 7 (by omega) (by omega) (by omega)) ?_
      rintro (_ | month)
      · exact ⟨_, rfl⟩
      refine bind_total (hfields 8 10 (by omega) (by omega) (by omega)) ?_
      rintro (_ | day)
      · exact ⟨_, rfl⟩
      refine bind_total (hfields 11 13 (by omega) (by omega) (by omega)) ?_
      rintro (_ | hour)
      · exact ⟨_, rfl⟩
      refine bind_total (hfields 14 16 (by omega) (by omega) (by omega)) ?_
      rintro (_ | minute)
      · exact ⟨_, rfl⟩
      refine bind_total (hfields 17 19 (by omega) (by omega) (by omega)) ?_
      rintro (_ | second)
      · exact ⟨_, rfl⟩
      dsimp only
      split <;> exact ⟨_, rfl⟩

/-! ## The checks of `PeerManifest.new` -/

section Manifests

variable [Crates]

/-- The loop accepts peers whose identifiers, keys and addresses are new and pairwise distinct. -/
theorem insertAll_of_distinct {peers : List GatewayPeer}
    (h : peers.Pairwise (fun p q => p.peerId ≠ q.peerId ∧ p.publicKey ≠ q.publicKey ∧
      p.address ≠ q.address)) {peerIds : List PeerId} {publicKeys : List WireGuardPublicKey}
    {addresses : List OverlayAddress}
    (hnew : ∀ p ∈ peers, p.peerId ∉ peerIds ∧ p.publicKey ∉ publicKeys ∧ p.address ∉ addresses) :
    insertAll peerIds publicKeys addresses peers = true := by
  induction peers generalizing peerIds publicKeys addresses with
  | nil => rfl
  | cons peer rest ih =>
      rw [List.pairwise_cons] at h
      obtain ⟨hid, hkey, haddress⟩ := hnew peer List.mem_cons_self
      rw [insertAll, if_neg (by simp [hid, hkey, haddress])]
      refine ih h.2 (fun p hp => ?_)
      obtain ⟨hid', hkey', haddress'⟩ := h.1 p hp
      obtain ⟨hid, hkey, haddress⟩ := hnew p (List.mem_cons_of_mem _ hp)
      exact ⟨List.not_mem_cons_of_ne_of_not_mem hid'.symm hid,
        List.not_mem_cons_of_ne_of_not_mem hkey'.symm hkey,
        List.not_mem_cons_of_ne_of_not_mem haddress'.symm haddress⟩

/-- The peers that the loop accepts are new and pairwise distinct. -/
theorem distinct_of_insertAll {peers : List GatewayPeer} {peerIds : List PeerId}
    {publicKeys : List WireGuardPublicKey} {addresses : List OverlayAddress}
    (h : insertAll peerIds publicKeys addresses peers = true) :
    peers.Pairwise (fun p q => p.peerId ≠ q.peerId ∧ p.publicKey ≠ q.publicKey ∧
      p.address ≠ q.address) ∧
    ∀ p ∈ peers, p.peerId ∉ peerIds ∧ p.publicKey ∉ publicKeys ∧ p.address ∉ addresses := by
  induction peers generalizing peerIds publicKeys addresses with
  | nil => exact ⟨.nil, by simp⟩
  | cons peer rest ih =>
      rw [insertAll] at h
      split at h
      · cases h
      · next hnew =>
          simp only [not_or] at hnew
          -- the head was inserted before the rest was tried, so the rest avoids it too
          obtain ⟨hpairwise, hrest⟩ := ih h
          simp only [List.mem_cons, not_or] at hrest
          refine ⟨List.pairwise_cons.2 ⟨fun q hq => ?_, hpairwise⟩, ?_⟩
          · obtain ⟨hid, hkey, haddress⟩ := hrest q hq
            exact ⟨Ne.symm hid.1, Ne.symm hkey.1, Ne.symm haddress.1⟩
          · intro q hq
            rcases List.mem_cons.1 hq with rfl | hq
            · exact hnew
            · obtain ⟨hid, hkey, haddress⟩ := hrest q hq
              exact ⟨hid.2, hkey.2, haddress.2⟩

/-- **What `PeerManifest::new` guarantees.** -/
structure PeerManifest.Guaranteed (manifest : PeerManifest) : Prop where
  schemaVersion : manifest.schemaVersion = RsConsole.schemaVersion
  interface : manifest.interface = wgUsersInterface
  generatedAt : validUtcTimestamp manifest.generatedAt = some true
  count : manifest.peers.length ≤ 253
  peers : manifest.peers.Pairwise (fun p q => compare p.peerId q.peerId = .lt ∧
    p.publicKey ≠ q.publicKey ∧ p.address ≠ q.address)
  permissions : ∀ p ∈ manifest.peers, p.permissions = [.egress] ∨ p.permissions = [.egress, .games]

theorem peerId_isLE_total (p q : GatewayPeer) :
    (compare p.peerId q.peerId).isLE = true ∨ (compare q.peerId p.peerId).isLE = true := by
  rw [@Std.OrientedCmp.eq_swap PeerId compare _ q.peerId p.peerId]
  cases compare p.peerId q.peerId <;> simp

instance : Std.Total (fun p q : GatewayPeer => (compare p.peerId q.peerId).isLE = true) :=
  ⟨peerId_isLE_total⟩

instance : IsTrans GatewayPeer (fun p q => (compare p.peerId q.peerId).isLE = true) :=
  ⟨fun _ _ _ => Std.TransCmp.isLE_trans⟩

/-- The entry of a manifest, enrolled by somebody. -/
def GatewayPeer.enrolled (peer : GatewayPeer) : VpnPeer where
  userId := ⟨peer.peerId.value, peer.peerId.valid⟩
  peerId := peer.peerId
  publicKey := peer.publicKey
  address := peer.address
  healthPolicy := peer.healthPolicy
  games := decide (peer.permissions = [.egress, .games])

theorem GatewayPeer.ofPeer_enrolled {peer : GatewayPeer}
    (h : peer.permissions = [.egress] ∨ peer.permissions = [.egress, .games]) :
    GatewayPeer.ofPeer peer.enrolled = peer := by
  obtain ⟨peerId, publicKey, address, healthPolicy, permissions⟩ := peer
  rcases h with rfl | rfl <;> rfl

/-- The constructor sorts the peers that its loop accepts by their identifiers. -/
theorem sorted_distinct {peers : List GatewayPeer}
    (h : insertAll [] [] [] (peers.insertionSort
      (fun left right => (compare left.peerId right.peerId).isLE)) = true) :
    (peers.insertionSort (fun left right => (compare left.peerId right.peerId).isLE)).Pairwise
      (fun p q => compare p.peerId q.peerId = .lt ∧ p.publicKey ≠ q.publicKey ∧
        p.address ≠ q.address) := by
  have hsorted := List.pairwise_insertionSort
    (fun left right : GatewayPeer => (compare left.peerId right.peerId).isLE = true) peers
  refine (hsorted.and (distinct_of_insertAll h).1).imp (fun {p q} hpq => ?_)
  obtain ⟨hle, hid, hrest⟩ := hpq
  refine ⟨?_, hrest⟩
  cases hcompare : compare p.peerId q.peerId with
  | lt => rfl
  | eq => exact absurd (Std.LawfulEqCmp.eq_of_compare hcompare) hid
  | gt =>
      rw [hcompare] at hle
      cases hle

theorem permissions_of_sorted {peers : List VpnPeer} {p : GatewayPeer}
    (h : p ∈ (peers.map GatewayPeer.ofPeer).insertionSort
      (fun left right => (compare left.peerId right.peerId).isLE)) :
    p.permissions = [.egress] ∨ p.permissions = [.egress, .games] := by
  rw [List.mem_insertionSort] at h
  obtain ⟨peer, -, rfl⟩ := List.mem_map.1 h
  simp only [GatewayPeer.ofPeer, VpnPeer.permissions]
  split
  · exact Or.inr rfl
  · exact Or.inl rfl

/-- The manifests that the constructor builds are those with its guarantees. -/
theorem PeerManifest.new_ok_iff {manifest : PeerManifest} :
    (∃ generation generatedAt peers,
      PeerManifest.new generation generatedAt peers = some (.ok manifest)) ↔
    manifest.Guaranteed := by
  constructor
  · rintro ⟨generation, generatedAt, peers, h⟩
    obtain ⟨valid, hvalid, h⟩ := Option.map_eq_some_iff.1 h
    split at h
    · cases h
    · next htrue =>
        rw [Bool.not_eq_false] at htrue
        subst htrue
        split at h
        · cases h
        · next hcount =>
            dsimp only at h
            split at h
            · next hdistinct =>
                cases h
                exact ⟨rfl, rfl, hvalid, by simpa using hcount, sorted_distinct hdistinct,
                  fun p hp => permissions_of_sorted hp⟩
            · cases h
  · -- a guaranteed manifest is what `new` gives on its own fields: its peers are sorted already
    intro h
    refine ⟨manifest.generation, manifest.generatedAt, manifest.peers.map GatewayPeer.enrolled, ?_⟩
    have hsame : (manifest.peers.map GatewayPeer.enrolled).map GatewayPeer.ofPeer =
        manifest.peers := by
      rw [List.map_map]
      exact (List.map_congr_left fun p hp =>
        GatewayPeer.ofPeer_enrolled (h.permissions p hp)).trans (List.map_id _)
    have hsorted : manifest.peers.Pairwise
        (fun p q => (compare p.peerId q.peerId).isLE = true) := by
      refine h.peers.imp (fun {p q} hlt => ?_)
      rw [hlt.1]
      rfl
    have hdistinct : insertAll [] [] [] manifest.peers = true := by
      refine insertAll_of_distinct (h.peers.imp fun {p q} hlt => ⟨?_, hlt.2⟩) (by simp)
      intro heq
      rw [heq] at hlt
      simp at hlt
    rw [PeerManifest.new, h.generatedAt, Option.map_some, if_neg (by simp), List.length_map,
      if_neg (not_lt.2 h.count)]
    dsimp only
    rw [hsame, hsorted.insertionSort_eq, if_pos hdistinct, ← h.schemaVersion, ← h.interface]

/-! ## The peers of a consistent policy -/

namespace Consistent

variable {policy : VpnPolicy}

/-- The peers are listed in increasing order of their identifiers. -/
theorem values_sorted (h : Consistent policy.peers) :
    policy.values.Pairwise (fun p q => compare p.peerId q.peerId = .lt) := by
  have hsorted := policy.peers.ordered_keys_toList
  rw [VpnPolicy.values, List.pairwise_map]
  refine hsorted.imp_of_mem (fun {a b} ha hb hlt => ?_)
  obtain ⟨id, peer⟩ := a
  obtain ⟨id', peer'⟩ := b
  rw [Std.ExtTreeMap.mem_toList_iff_getElem?_eq_some] at ha hb
  rwa [h.peerId_eq ha, h.peerId_eq hb]

/-- Different peers differ in identifier, key and address. -/
theorem values_distinct (h : Consistent policy.peers) :
    policy.values.Pairwise (fun p q => p.peerId ≠ q.peerId ∧ p.publicKey ≠ q.publicKey ∧
      p.address ≠ q.address) := by
  refine h.values_sorted.imp_of_mem (fun {p q} hp hq hlt => ?_)
  obtain ⟨id, hp⟩ := VpnPolicy.mem_values.1 hp
  obtain ⟨id', hq⟩ := VpnPolicy.mem_values.1 hq
  have hne : id ≠ id' := by
    rintro rfl
    rw [h.peerId_eq hp, h.peerId_eq hq] at hlt
    simp at hlt
  refine ⟨?_, fun heq => hne (h.publicKey_injective hp hq heq),
    fun heq => hne (h.address_injective hp hq heq)⟩
  rwa [h.peerId_eq hp, h.peerId_eq hq]

/-- There are no more peers than addresses. -/
theorem length_values_le (h : Consistent policy.peers) : policy.values.length ≤ 253 := by
  have hnodup : (policy.values.map (fun p => p.address.host.toNat)).Nodup := by
    rw [List.Nodup, List.pairwise_map]
    refine h.values_distinct.imp (fun {p q} hpq heq => hpq.2.2 ?_)
    exact OverlayAddress.host_injective (UInt8.toNat_inj.1 heq)
  have hsubset : policy.values.map (fun p => p.address.host.toNat) ⊆ List.range' 2 253 := by
    intro n hn
    obtain ⟨p, -, rfl⟩ := List.mem_map.1 hn
    have hbounds := p.address.host_bounds
    rw [List.mem_range'_1]
    omega
  have hle := (List.subperm_of_subset hnodup hsubset).length_le
  rwa [List.length_map, List.length_range'] at hle

theorem size_le (h : Consistent policy.peers) : policy.peers.size ≤ 253 := by
  have hle := h.length_values_le
  rwa [VpnPolicy.values, List.length_map, Std.ExtTreeMap.length_toList] at hle

/-- **Every manifest of a consistent policy.** -/
theorem manifest_eq (h : Consistent policy.peers) (generatedAt : String) :
    policy.manifest generatedAt = (validUtcTimestamp generatedAt).map (fun valid =>
      if valid then
        .ok ⟨schemaVersion, wgUsersInterface, policy.generation, generatedAt,
          policy.values.map GatewayPeer.ofPeer⟩
      else .error .invalidGeneratedAt) := by
  obtain ⟨valid, hvalid⟩ := validUtcTimestamp_total generatedAt
  rw [VpnPolicy.manifest, PeerManifest.new, hvalid, Option.map_some, Option.map_some]
  cases valid with
  | false => rfl
  | true =>
      -- the map is iterated in key order, so the sort and the duplicate check change nothing
      have hsorted : (policy.values.map GatewayPeer.ofPeer).Pairwise
          (fun p q => (compare p.peerId q.peerId).isLE = true) := by
        rw [List.pairwise_map]
        refine h.values_sorted.imp (fun {p q} hlt => ?_)
        show (compare p.peerId q.peerId).isLE = true
        rw [hlt]
        rfl
      have hdistinct : insertAll [] [] [] (policy.values.map GatewayPeer.ofPeer) = true := by
        refine insertAll_of_distinct ?_ (by simp)
        rw [List.pairwise_map]
        exact h.values_distinct
      rw [if_neg (by simp), if_neg (by have := h.length_values_le; omega),
        List.Pairwise.insertionSort_eq hsorted, if_pos hdistinct, if_pos rfl]

end Consistent

/-- **Every reachable policy is consistent and has its manifests.** Identifiers, keys (also as the
    32 bytes they stand for) and addresses are unique, there are at most 253 peers, no call panics
    below the last generation, and `manifest` fails for an invalid timestamp only; otherwise it
    lists the enrolled peers as they are, in the order of their identifiers. -/
theorem reachable_policy {policy : VpnPolicy} (h : Reachable policy) :
    (∀ (id : PeerId) (peer : VpnPeer), policy.peers[id]? = some peer → peer.peerId = id ∧
      ∃ host : UInt8, 2 ≤ host ∧ host ≤ 254 ∧ peer.address.addr = ⟨10, 100, 0, host⟩) ∧
    (∀ (id id' : PeerId) (peer peer' : VpnPeer), policy.peers[id]? = some peer →
      policy.peers[id']? = some peer' → id ≠ id' →
      peer.publicKey ≠ peer'.publicKey ∧ peer.address ≠ peer'.address ∧
      (Base64Canonical → peer.publicKey.decoded ≠ peer'.publicKey.decoded)) ∧
    policy.peers.size ≤ 253 ∧
    (policy.generation.value < 2 ^ 64 - 1 →
      ∀ c : Call, ∃ r policy', c.apply policy = some (r, policy')) ∧
    (∀ generatedAt, ∃ valid, validUtcTimestamp generatedAt = some valid ∧
      (valid = false → policy.manifest generatedAt = some (.error .invalidGeneratedAt)) ∧
      (valid = true → ∃ manifest, policy.manifest generatedAt = some (.ok manifest) ∧
        manifest.generation = policy.generation ∧ manifest.generatedAt = generatedAt ∧
        manifest.peers.Pairwise (fun p q => compare p.peerId q.peerId = .lt) ∧
        ∀ entry, entry ∈ manifest.peers ↔ ∃ peer, policy.peers[entry.peerId]? = some peer ∧
          entry = ⟨peer.peerId, peer.publicKey, peer.address, peer.healthPolicy,
            peer.permissions⟩)) := by
  have hc := h.consistent
  refine ⟨fun id peer hpeer => ⟨hc.peerId_eq hpeer, ?_⟩, ?_, hc.size_le,
    fun hbound c => c.apply_isSome hbound, ?_⟩
  · obtain ⟨ha, hb, hc', hlow, hhigh⟩ := peer.address.usable
    refine ⟨peer.address.addr.d, hlow, hhigh, ?_⟩
    rw [← ha, ← hb, ← hc']
  · intro id id' peer peer' hpeer hpeer' hne
    have hkey : peer.publicKey ≠ peer'.publicKey :=
      fun heq => hne (hc.publicKey_injective hpeer hpeer' heq)
    refine ⟨hkey, fun heq => hne (hc.address_injective hpeer hpeer' heq), fun hcanonical heq => ?_⟩
    exact hkey (WireGuardPublicKey.decoded_injective hcanonical heq)
  · intro generatedAt
    obtain ⟨valid, hvalid⟩ := validUtcTimestamp_total generatedAt
    have hmanifest := hc.manifest_eq generatedAt
    rw [hvalid, Option.map_some] at hmanifest
    refine ⟨valid, hvalid, ?_, ?_⟩
    · rintro rfl
      exact hmanifest
    · rintro rfl
      refine ⟨_, hmanifest, rfl, rfl, ?_, fun entry => ?_⟩
      · rw [List.pairwise_map]
        exact hc.values_sorted
      · simp only [List.mem_map, VpnPolicy.mem_values]
        constructor
        · rintro ⟨peer, ⟨id, hpeer⟩, rfl⟩
          refine ⟨peer, ?_, rfl⟩
          show policy.peers[peer.peerId]? = some peer
          rwa [hc.peerId_eq hpeer]
        · rintro ⟨peer, hpeer, rfl⟩
          exact ⟨peer, ⟨_, hpeer⟩, rfl⟩

end Manifests

section Sample

attribute [local instance] Reference.crates

def samplePeer₂ : PeerId := ⟨"peer-2", by decide⟩

/-- The key of 32 bytes 2. -/
def sampleKey₂ : WireGuardPublicKey where
  value := "AgICAgICAgICAgICAgICAgICAgICAgICAgICAgICAgI="
  valid := ⟨List.replicate 32 2, by decide +kernel, by decide, by decide, by decide⟩

theorem usable_of_host {host : UInt8} (h : 2 ≤ host ∧ host ≤ 254) :
    (⟨10, 100, 0, host⟩ : Ipv4Addr).a = 10 ∧ (⟨10, 100, 0, host⟩ : Ipv4Addr).b = 100 ∧
      (⟨10, 100, 0, host⟩ : Ipv4Addr).c = 0 ∧ 2 ≤ (⟨10, 100, 0, host⟩ : Ipv4Addr).d ∧
      (⟨10, 100, 0, host⟩ : Ipv4Addr).d ≤ 254 :=
  ⟨rfl, rfl, rfl, h⟩

def sampleEntry (peerId : PeerId) (publicKey : WireGuardPublicKey) (host : UInt8)
    (h : 2 ≤ host ∧ host ≤ 254) (games : Bool) : VpnPeer :=
  ⟨sampleUser, peerId, publicKey, ⟨⟨10, 100, 0, host⟩, usable_of_host h⟩, .onDemand, games⟩

theorem sampleHost : (2 : UInt8) ≤ 2 ∧ (2 : UInt8) ≤ 254 := by decide

theorem sampleHost₂ : (2 : UInt8) ≤ 3 ∧ (3 : UInt8) ≤ 254 := by decide

/-- One peer enrolled. -/
def samplePolicy : VpnPolicy where
  generation := ⟨2, by decide, by decide⟩
  peers := (∅ : Peers).insert samplePeer (sampleEntry samplePeer sampleKey 2 sampleHost false)

/-- Two peers enrolled. -/
def samplePolicy₂ : VpnPolicy where
  generation := ⟨3, by decide, by decide⟩
  peers := samplePolicy.peers.insert samplePeer₂
    (sampleEntry samplePeer₂ sampleKey₂ 3 sampleHost₂ true)

theorem samplePolicy_step : Step .default samplePolicy :=
  ⟨sampleEnroll, .ok (sampleEntry samplePeer sampleKey 2 (by decide) false), rfl⟩

theorem samplePolicy₂_step : Step samplePolicy samplePolicy₂ :=
  ⟨.enroll sampleUser samplePeer₂ sampleKey₂ true,
    .ok (sampleEntry samplePeer₂ sampleKey₂ 3 (by decide) true), rfl⟩

theorem samplePolicy₂_reachable : Reachable samplePolicy₂ :=
  .tail (.single samplePolicy_step) samplePolicy₂_step

theorem reachable_policy_sample :
    sampleKey.decoded ≠ sampleKey₂.decoded ∧ samplePolicy₂.peers.size ≤ 253 ∧
    samplePolicy₂.manifest "2026-02-29T25:00:00Z" = some (.error .invalidGeneratedAt) ∧
    ∃ manifest, samplePolicy₂.manifest "2026-08-01T20:00:00Z" = some (.ok manifest) ∧
      manifest.generation = samplePolicy₂.generation ∧
      manifest.peers.Pairwise (fun p q => compare p.peerId q.peerId = .lt) := by
  obtain ⟨-, hdistinct, hsize, -, hmanifest⟩ := reachable_policy samplePolicy₂_reachable
  refine ⟨?_, hsize, ?_, ?_⟩
  · exact (hdistinct samplePeer samplePeer₂ _ _ rfl rfl (by decide)).2.2 Reference.base64Canonical
  · obtain ⟨valid, hvalid, hbad, -⟩ := hmanifest "2026-02-29T25:00:00Z"
    have hfalse : validUtcTimestamp "2026-02-29T25:00:00Z" = some false := by decide +kernel
    rw [hfalse, Option.some.injEq] at hvalid
    exact hbad hvalid.symm
  · obtain ⟨valid, hvalid, -, hgood⟩ := hmanifest "2026-08-01T20:00:00Z"
    have htrue : validUtcTimestamp "2026-08-01T20:00:00Z" = some true := by decide +kernel
    rw [htrue, Option.some.injEq] at hvalid
    obtain ⟨manifest, heq, hgeneration, -, hsorted, -⟩ := hgood hvalid.symm
    exact ⟨manifest, heq, hgeneration, hsorted⟩

end Sample

end RsConsole
