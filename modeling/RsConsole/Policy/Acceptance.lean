import RsConsole.Policy.Timestamps

set_option autoImplicit false

/-! # The peer sets a manifest is built from

`PeerManifest::new` is called with peers in any order, possibly of several policies. `new_eq` says
without the sort and the loop what it returns: the checks are about the list as a set, so every
order of the peers gives the same manifest or the same error. Two facts carry this. The loop accepts
a list exactly if each of the three fields takes no value twice, which no permutation changes; and
a list without a repeated identifier has only one order that sorts it. -/

namespace RsConsole

section Acceptance

variable [Crates]

/-- No two peers share an identifier, a key or an address. -/
structure DistinctPeers (peers : List VpnPeer) : Prop where
  peerIds : (peers.map VpnPeer.peerId).Nodup
  publicKeys : (peers.map VpnPeer.publicKey).Nodup
  addresses : (peers.map VpnPeer.address).Nodup

theorem distinctPeers_iff_pairwise (peers : List VpnPeer) :
    DistinctPeers peers ↔ peers.Pairwise (fun p q => p.peerId ≠ q.peerId ∧
      p.publicKey ≠ q.publicKey ∧ p.address ≠ q.address) := by
  rw [List.pairwise_and_iff, List.pairwise_and_iff]
  constructor
  · rintro ⟨hids, hkeys, haddresses⟩
    exact ⟨List.pairwise_map.1 hids, List.pairwise_map.1 hkeys, List.pairwise_map.1 haddresses⟩
  · rintro ⟨hids, hkeys, haddresses⟩
    exact ⟨List.pairwise_map.2 hids, List.pairwise_map.2 hkeys, List.pairwise_map.2 haddresses⟩

instance (peers : List VpnPeer) : Decidable (DistinctPeers peers) :=
  decidable_of_iff _ (distinctPeers_iff_pairwise peers).symm

theorem DistinctPeers.perm {peers peers' : List VpnPeer} (h : peers.Perm peers')
    (hdistinct : DistinctPeers peers) : DistinctPeers peers' where
  peerIds := (h.map _).nodup_iff.1 hdistinct.peerIds
  publicKeys := (h.map _).nodup_iff.1 hdistinct.publicKeys
  addresses := (h.map _).nodup_iff.1 hdistinct.addresses

/-- The entries in the order of their identifiers. -/
def sortedEntries (peers : List VpnPeer) : List GatewayPeer :=
  (peers.map GatewayPeer.ofPeer).insertionSort
    (fun left right => (compare left.peerId right.peerId).isLE)

theorem sortedEntries_perm (peers : List VpnPeer) :
    (sortedEntries peers).Perm (peers.map GatewayPeer.ofPeer) :=
  List.perm_insertionSort _ _

/-- The loop runs over sorted peers, but what it finds does not depend on their order. -/
theorem insertAll_iff (peers : List VpnPeer) :
    insertAll [] [] [] (sortedEntries peers) = true ↔ DistinctPeers peers := by
  have hsymm : ∀ {p q : GatewayPeer}, (p.peerId ≠ q.peerId ∧ p.publicKey ≠ q.publicKey ∧
      p.address ≠ q.address) → q.peerId ≠ p.peerId ∧ q.publicKey ≠ p.publicKey ∧
      q.address ≠ p.address :=
    fun h => ⟨h.1.symm, h.2.1.symm, h.2.2.symm⟩
  rw [distinctPeers_iff_pairwise]
  constructor
  · intro h
    have hpairwise := (sortedEntries_perm peers).pairwise (distinct_of_insertAll h).1 hsymm
    rwa [List.pairwise_map] at hpairwise
  · intro h
    refine insertAll_of_distinct ?_ (by simp)
    refine (sortedEntries_perm peers).symm.pairwise ?_ hsymm
    rwa [List.pairwise_map]

/-- Distinct peers are sorted strictly. -/
theorem sortedEntries_strict {peers : List VpnPeer} (h : DistinctPeers peers) :
    (sortedEntries peers).Pairwise (fun p q => compare p.peerId q.peerId = .lt) :=
  (sorted_distinct ((insertAll_iff peers).2 h)).imp fun hpq => hpq.1

/-- The sorted list does not depend on the order of distinct peers. -/
theorem sortedEntries_eq_of_perm {peers peers' : List VpnPeer} (h : peers.Perm peers')
    (hdistinct : DistinctPeers peers) : sortedEntries peers' = sortedEntries peers := by
  have hperm : (sortedEntries peers').Perm (sortedEntries peers) :=
    (sortedEntries_perm peers').trans ((h.symm.map _).trans (sortedEntries_perm peers).symm)
  refine List.Perm.eq_of_pairwise ?_ (sortedEntries_strict (hdistinct.perm h))
    (sortedEntries_strict hdistinct) hperm
  -- two entries cannot come strictly before each other
  intro p q _ _ hpq hqp
  rw [@Std.OrientedCmp.eq_swap PeerId compare _ p.peerId q.peerId, hqp] at hpq
  cases hpq

/-- **What `PeerManifest::new` returns.** -/
theorem PeerManifest.new_eq (generation : Generation) (generatedAt : String)
    (peers : List VpnPeer) :
    ∃ valid, (valid = true ↔ IsTimestamp generatedAt) ∧
      PeerManifest.new generation generatedAt peers = some
        (if valid = false then .error .invalidGeneratedAt
        else if 253 < peers.length then .error .tooManyPeers
        else if DistinctPeers peers then
          .ok ⟨RsConsole.schemaVersion, wgUsersInterface, generation, generatedAt,
            sortedEntries peers⟩
        else .error .duplicatePeerIdentity) := by
  obtain ⟨valid, hvalid⟩ := validUtcTimestamp_total generatedAt
  refine ⟨valid, ?_, ?_⟩
  · constructor
    · rintro rfl
      exact isTimestamp_of_valid hvalid
    · intro h
      exact Option.some.inj (hvalid.symm.trans (valid_of_isTimestamp h))
  · rw [PeerManifest.new, hvalid, Option.map_some]
    exact congrArg some (if_congr Iff.rfl rfl (if_congr Iff.rfl rfl
      (if_congr (insertAll_iff peers) rfl rfl)))

/-- Every test is about the peers as a set, and so is the sorted list of distinct peers. -/
theorem PeerManifest.new_perm (generation : Generation) (generatedAt : String)
    {peers peers' : List VpnPeer} (h : peers.Perm peers') :
    PeerManifest.new generation generatedAt peers' =
      PeerManifest.new generation generatedAt peers := by
  obtain ⟨valid, hvalid, hnew⟩ := PeerManifest.new_eq generation generatedAt peers
  obtain ⟨valid', hvalid', hnew'⟩ := PeerManifest.new_eq generation generatedAt peers'
  have hboth : valid' = valid := Bool.eq_iff_iff.2 (hvalid'.trans hvalid.symm)
  rw [hnew', hnew, hboth, ← h.length_eq]
  by_cases hdistinct : DistinctPeers peers
  · rw [if_pos hdistinct, if_pos (hdistinct.perm h), sortedEntries_eq_of_perm h hdistinct]
  · have hdistinct' : ¬ DistinctPeers peers' := fun hpeers => hdistinct (hpeers.perm h.symm)
    rw [if_neg hdistinct, if_neg hdistinct']

/-- **Exactly the valid peer sets are accepted, in any order.** -/
theorem accepts_exactly_valid_sets (generation : Generation) (generatedAt : String)
    (peers : List VpnPeer) :
    ∃ outcome, PeerManifest.new generation generatedAt peers = some outcome ∧
      ((∃ manifest, outcome = .ok manifest) ↔
        IsTimestamp generatedAt ∧ peers.length ≤ 253 ∧ (peers.map VpnPeer.peerId).Nodup ∧
        (peers.map VpnPeer.publicKey).Nodup ∧ (peers.map VpnPeer.address).Nodup) ∧
      (∀ manifest, outcome = .ok manifest →
        manifest.schemaVersion = schemaVersion ∧ manifest.interface = wgUsersInterface ∧
        manifest.generation = generation ∧ manifest.generatedAt = generatedAt ∧
        manifest.peers.Perm (peers.map GatewayPeer.ofPeer) ∧
        manifest.peers.Pairwise (fun p q => compare p.peerId q.peerId = .lt)) ∧
      ∀ peers', peers.Perm peers' →
        PeerManifest.new generation generatedAt peers' = some outcome ∧
        ∀ manifest manifest', outcome = .ok manifest →
          PeerManifest.new generation generatedAt peers' = some (.ok manifest') →
          manifest'.digest = manifest.digest := by
  obtain ⟨valid, hvalid, hnew⟩ := PeerManifest.new_eq generation generatedAt peers
  refine ⟨_, hnew, ?_, ?_, ?_⟩
  · rw [← hvalid]
    constructor
    · rintro ⟨manifest, h⟩
      split_ifs at h with hinvalid hcount hdistinct
      exact ⟨Bool.eq_true_of_not_eq_false hinvalid, not_lt.1 hcount, hdistinct.peerIds,
        hdistinct.publicKeys, hdistinct.addresses⟩
    · rintro ⟨rfl, hcount, hids, hkeys, haddresses⟩
      rw [if_neg (by decide), if_neg (not_lt.2 hcount), if_pos ⟨hids, hkeys, haddresses⟩]
      exact ⟨_, rfl⟩
  · intro manifest h
    split_ifs at h with hinvalid hcount hdistinct
    cases h
    exact ⟨rfl, rfl, rfl, rfl, sortedEntries_perm peers, sortedEntries_strict hdistinct⟩
  · intro peers' hperm
    have hsame := PeerManifest.new_perm generation generatedAt hperm
    refine ⟨hsame.trans hnew, fun manifest manifest' h h' => ?_⟩
    rw [hsame, hnew, h] at h'
    cases h'
    rfl

end Acceptance

end RsConsole
