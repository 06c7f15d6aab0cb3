import Mathlib.Data.List.Induction
import RsConsole.Policy.Manifests

set_option autoImplicit false

/-! # Addresses over a history

`allocate_address` searches the hosts from 2 on. It finds the smallest free one, and it finds one as
long as fewer than 253 peers are enrolled: the addresses of the peers of a consistent policy are
distinct usable hosts, and there are 253 of these (`allocateAddress_least`,
`allocateAddress_exhausted`).

What a peer is at any moment is settled by the calls on it and their replies alone. `Played` records
them, `CallRecord.update` says what one of them does to one peer, and `played_peer` reads a peer off
the record: its address and user come from the enrolment that no revocation has followed, its key
and its games flag from the last call that set them. -/

namespace RsConsole

/-- The last item that sets a value decides. -/
theorem getLastD_filterMap_concat {α β : Type} (f : α → Option β) (items : List α) (item : α)
    (old : β) :
    ((items ++ [item]).filterMap f).getLastD old =
      (f item).getD ((items.filterMap f).getLastD old) := by
  rw [List.filterMap_append]
  cases hitem : f item with
  | none => simp [hitem]
  | some new => simp [hitem]

/-! ## The search for an address -/

/-- The hosts that `allocate_address` tries, in its order. -/
def usableHosts : List UInt8 := (List.range' 2 253).map UInt8.ofNat

theorem mem_usableHosts {host : UInt8} :
    host ∈ usableHosts ↔ 2 ≤ host.toNat ∧ host.toNat ≤ 254 := by
  unfold usableHosts
  rw [List.mem_map]
  constructor
  · rintro ⟨n, hn, rfl⟩
    rw [List.mem_range'_1] at hn
    rw [UInt8.toNat_ofNat_of_lt' (by show n < 256; omega)]
    omega
  · rintro ⟨hlow, hhigh⟩
    exact ⟨host.toNat, List.mem_range'_1.2 (by omega), UInt8.ofNat_toNat⟩

theorem usableHosts_nodup : usableHosts.Nodup := by
  refine List.Nodup.map_on ?_ List.nodup_range'
  intro m hm n hn heq
  rw [List.mem_range'_1] at hm hn
  have htoNat := congrArg UInt8.toNat heq
  rwa [UInt8.toNat_ofNat_of_lt' (by show m < 256; omega),
    UInt8.toNat_ofNat_of_lt' (by show n < 256; omega)] at htoNat

theorem length_usableHosts : usableHosts.length = 253 := by
  rw [usableHosts, List.length_map, List.length_range']

section Allocation

variable [Crates]

namespace VpnPolicy

variable {policy : VpnPolicy}

/-- The hosts in use. -/
def used (policy : VpnPolicy) : List UInt8 :=
  policy.values.map (fun peer => peer.address.host)

theorem mem_used {host : UInt8} :
    host ∈ policy.used ↔
      ∃ (id : PeerId) (peer : VpnPeer), policy.peers[id]? = some peer ∧
        peer.address.host = host := by
  simp only [used, List.mem_map, mem_values]
  constructor
  · rintro ⟨peer, ⟨id, hpeer⟩, rfl⟩
    exact ⟨id, peer, hpeer, rfl⟩
  · rintro ⟨id, peer, hpeer, rfl⟩
    exact ⟨peer, ⟨id, hpeer⟩, rfl⟩

theorem length_used : policy.used.length = policy.peers.size := by
  rw [used, values, List.length_map, List.length_map, Std.ExtTreeMap.length_toList]

theorem used_subset : policy.used ⊆ usableHosts := by
  intro host hhost
  obtain ⟨id, peer, -, rfl⟩ := mem_used.1 hhost
  exact mem_usableHosts.2 peer.address.host_bounds

/-- Different peers use different hosts. -/
theorem used_nodup (h : Consistent policy.peers) : policy.used.Nodup := by
  rw [used, List.Nodup, List.pairwise_map]
  refine h.values_distinct.imp (fun {p q} hpq heq => hpq.2.2 ?_)
  exact OverlayAddress.host_injective heq

/-- Fewer than 253 peers leave a host free. -/
theorem exists_free (h : policy.peers.size < 253) : ∃ host ∈ usableHosts, host ∉ policy.used := by
  by_contra hnone
  push Not at hnone
  have hle := (List.subperm_of_subset usableHosts_nodup hnone).length_le
  rw [length_usableHosts, length_used] at hle
  omega

/-- 253 peers use every host. -/
theorem none_free (hc : Consistent policy.peers) (h : 253 ≤ policy.peers.size) {host : UInt8}
    (hhost : host ∈ usableHosts) : host ∈ policy.used := by
  have hsubperm := List.subperm_of_subset (used_nodup hc) used_subset
  have hperm := hsubperm.perm_of_length_le (by rw [length_usableHosts, length_used]; exact h)
  exact hperm.symm.subset hhost

/-- **The smallest free host is handed out.** -/
theorem allocateAddress_least (h : policy.peers.size < 253) :
    ∃ address, policy.allocateAddress = .ok address ∧ address.host ∉ policy.used ∧
      ∀ host : UInt8, 2 ≤ host → host < address.host → host ∈ policy.used := by
  obtain ⟨free, hfree, hunused⟩ := exists_free h
  obtain ⟨host, hfind⟩ : ∃ host, usableHosts.find? (fun host => host ∉ policy.used) = some host :=
    Option.isSome_iff_exists.1 (List.find?_isSome.2 ⟨free, hfree, by simpa using hunused⟩)
  have hbounds := mem_usableHosts.1 (List.mem_of_find?_eq_some hfind)
  have haddress : policy.allocateAddress =
      .ok ⟨⟨10, 100, 0, host⟩, rfl, rfl, rfl, hbounds.1, hbounds.2⟩ := by
    unfold allocateAddress
    dsimp only
    rw [← usableHosts, ← used, hfind]
    exact dif_pos ⟨hbounds.1, hbounds.2⟩
  have hunused : host ∉ policy.used := by simpa using List.find?_some hfind
  refine ⟨_, haddress, hunused, fun smaller hlow hlt => ?_⟩
  -- the search runs upwards, so it has passed every smaller host
  rw [usableHosts, List.find?_map, Option.map_eq_some_iff] at hfind
  obtain ⟨n, hn, rfl⟩ := hfind
  obtain ⟨-, hmem, hpassed⟩ := List.find?_range'_eq_some.1 hn
  rw [List.mem_range'_1] at hmem
  have hlt : smaller.toNat < (UInt8.ofNat n).toNat := hlt
  rw [UInt8.toNat_ofNat_of_lt' (by show n < 256; omega)] at hlt
  simpa using hpassed smaller.toNat hlow hlt

theorem allocateAddress_exhausted (hc : Consistent policy.peers) (h : 253 ≤ policy.peers.size) :
    policy.allocateAddress = .error .addressPoolExhausted := by
  have hnone : usableHosts.find? (fun host => host ∉ policy.used) = none := by
    rw [List.find?_eq_none]
    intro host hhost
    simp [none_free hc h hhost]
  unfold allocateAddress
  dsimp only
  rw [← usableHosts, ← used, hnone]

/-- The identifier and the key of a new peer. -/
def IsFresh (policy : VpnPolicy) (peerId : PeerId) (publicKey : WireGuardPublicKey) : Prop :=
  policy.peers[peerId]? = none ∧ ∀ (id : PeerId) (peer : VpnPeer),
    policy.peers[id]? = some peer → peer.publicKey ≠ publicKey

/-- A fresh peer passes the first check of `enroll`. -/
theorem enroll_of_fresh {peerId : PeerId} {publicKey : WireGuardPublicKey}
    (h : policy.IsFresh peerId publicKey) (userId : UserId) (games : Bool) :
    policy.enroll userId peerId publicKey games =
      match policy.allocateAddress with
      | .error e => some (.error e, policy)
      | .ok address =>
          let peer : VpnPeer := ⟨userId, peerId, publicKey, address, .onDemand, games⟩
          policy.generation.next.map fun generation =>
            (.ok peer, ⟨generation, policy.peers.insert peerId peer⟩) := by
  have hid : policy.peers.contains peerId = false := by
    rw [Std.ExtTreeMap.contains_eq_isSome_getElem?, h.1]
    rfl
  have hkey : policy.values.any (fun peer => peer.publicKey = publicKey) = false := by
    rw [List.any_eq_false]
    intro peer hpeer
    obtain ⟨id, hpeer⟩ := mem_values.1 hpeer
    simpa using h.2 id peer hpeer
  rw [enroll, hid, hkey]
  rfl

theorem enroll_full (hc : Consistent policy.peers) {peerId : PeerId}
    {publicKey : WireGuardPublicKey} (hfresh : policy.IsFresh peerId publicKey)
    (h : 253 ≤ policy.peers.size) (userId : UserId) (games : Bool) :
    policy.enroll userId peerId publicKey games = some (.error .addressPoolExhausted, policy) := by
  rw [enroll_of_fresh hfresh, allocateAddress_exhausted hc h]

/-- The last generation makes the enrolment panic. -/
theorem enroll_exhausted {peerId : PeerId} {publicKey : WireGuardPublicKey}
    (hfresh : policy.IsFresh peerId publicKey) (h : policy.peers.size < 253)
    (hgeneration : policy.generation.value = 2 ^ 64 - 1) (userId : UserId) (games : Bool) :
    policy.enroll userId peerId publicKey games = none := by
  obtain ⟨address, haddress, -⟩ := allocateAddress_least h
  have hnext : policy.generation.next = none := dif_neg (by omega)
  rw [enroll_of_fresh hfresh, haddress]
  simp only [hnext, Option.map_none]

theorem enroll_least {peerId : PeerId} {publicKey : WireGuardPublicKey}
    (hfresh : policy.IsFresh peerId publicKey) (h : policy.peers.size < 253)
    (hgeneration : policy.generation.value < 2 ^ 64 - 1) (userId : UserId) (games : Bool) :
    ∃ (address : OverlayAddress) (policy' : VpnPolicy),
      policy.enroll userId peerId publicKey games =
        some (.ok ⟨userId, peerId, publicKey, address, .onDemand, games⟩, policy') ∧
      address.host ∉ policy.used ∧
      ∀ host : UInt8, 2 ≤ host → host < address.host → host ∈ policy.used := by
  obtain ⟨address, haddress, hleast⟩ := allocateAddress_least h
  obtain ⟨generation, hnext⟩ : ∃ generation, policy.generation.next = some generation :=
    ⟨⟨policy.generation.value + 1, by omega, by omega⟩, Generation.next_eq_some.2 rfl⟩
  refine ⟨address, ⟨generation, policy.peers.insert peerId
    ⟨userId, peerId, publicKey, address, .onDemand, games⟩⟩, ?_, hleast⟩
  rw [enroll_of_fresh hfresh, haddress]
  simp only [hnext, Option.map_some]

/-- **When a fresh enrolment succeeds.** -/
theorem enroll_ok_iff (hc : Consistent policy.peers) {peerId : PeerId}
    {publicKey : WireGuardPublicKey} (hfresh : policy.IsFresh peerId publicKey) (userId : UserId)
    (games : Bool) :
    (∃ peer policy', policy.enroll userId peerId publicKey games = some (.ok peer, policy')) ↔
      policy.peers.size < 253 ∧ policy.generation.value < 2 ^ 64 - 1 := by
  constructor
  · rintro ⟨peer, policy', hok⟩
    have hsize : policy.peers.size < 253 := by
      by_contra hsize
      rw [enroll_full hc hfresh (not_lt.1 hsize)] at hok
      cases hok
    refine ⟨hsize, ?_⟩
    by_contra hgeneration
    have hbound := policy.generation.bound
    rw [enroll_exhausted hfresh hsize (by omega)] at hok
    cases hok
  · rintro ⟨hsize, hgeneration⟩
    obtain ⟨address, policy', hok, -⟩ := enroll_least hfresh hsize hgeneration userId games
    exact ⟨_, policy', hok⟩

end VpnPolicy

/-! ## What the calls say about a peer -/

/-- A call that was answered, and its reply. -/
abbrev CallRecord : Type := (c : Call) × Except PolicyError c.Reply

/-- The calls on a new policy in their order, with their replies. -/
inductive Played : List CallRecord → VpnPolicy → Prop
  | start : Played [] .default
  | call {history : List CallRecord} {policy policy' : VpnPolicy} {c : Call}
      {r : Except PolicyError c.Reply} (before : Played history policy)
      (answer : c.apply policy = some (r, policy')) : Played (history ++ [⟨c, r⟩]) policy'

theorem Played.reachable {history : List CallRecord} {policy : VpnPolicy}
    (h : Played history policy) : Reachable policy := by
  induction h with
  | start => exact .refl
  | call before answer ih => exact ih.tail ⟨_, _, answer⟩

theorem exists_played {policy : VpnPolicy} (h : Reachable policy) :
    ∃ history, Played history policy := by
  induction h with
  | refl => exact ⟨[], .start⟩
  | tail _ hstep ih =>
      obtain ⟨history, hplayed⟩ := ih
      obtain ⟨c, r, answer⟩ := hstep
      exact ⟨_, hplayed.call answer⟩

theorem Played.last {history : List CallRecord} {policy' : VpnPolicy} {record : CallRecord}
    (h : Played (history ++ [record]) policy') :
    ∃ policy, Played history policy ∧ record.1.apply policy = some (record.2, policy') := by
  generalize hall : history ++ [record] = all at h
  cases h with
  | start => simp at hall
  | call before answer =>
      obtain ⟨rfl, hrecord⟩ := List.append_inj' hall rfl
      cases hrecord
      exact ⟨_, before, answer⟩

namespace CallRecord

/-- What an answered call makes of the peer `id`. -/
def update (id : PeerId) : CallRecord → Option VpnPeer → Option VpnPeer
  | ⟨.enroll _ peerId _ _, .ok peer⟩, old => if peerId = id then some peer else old
  | ⟨.setGames peerId enabled, .ok _⟩, old =>
      if peerId = id then old.map (fun peer => { peer with games := enabled }) else old
  | ⟨.rotateKey peerId publicKey, .ok _⟩, old =>
      if peerId = id then old.map (fun peer => { peer with publicKey }) else old
  | ⟨.revoke peerId, .ok _⟩, old => if peerId = id then none else old
  | ⟨_, .error _⟩, old => old

/-- The call revoked the peer `id`. -/
def Revokes (id : PeerId) (record : CallRecord) : Prop :=
  ∃ peer, record = ⟨.revoke id, .ok peer⟩

/-- The key that the call gave to the peer `id`, also if the peer had it already. -/
def rotatedTo (id : PeerId) : CallRecord → Option WireGuardPublicKey
  | ⟨.rotateKey peerId publicKey, .ok _⟩ => if peerId = id then some publicKey else none
  | _ => none

/-- The games flag that the call gave to the peer `id`, also if the peer had it already. -/
def gamesSetTo (id : PeerId) : CallRecord → Option Bool
  | ⟨.setGames peerId enabled, .ok _⟩ => if peerId = id then some enabled else none
  | _ => none

end CallRecord

section Update

variable {policy policy' : VpnPolicy}

/-- A successful enrolment is of a new peer, with the given user, key and flag. -/
theorem enroll_ok {userId : UserId} {peerId : PeerId} {publicKey : WireGuardPublicKey}
    {games : Bool} {peer : VpnPeer}
    (h : policy.enroll userId peerId publicKey games = some (.ok peer, policy')) :
    policy.peers[peerId]? = none ∧ policy'.peers = policy.peers.insert peerId peer ∧
      ∃ address, peer = ⟨userId, peerId, publicKey, address, .onDemand, games⟩ := by
  unfold VpnPolicy.enroll at h
  split at h
  · cases h
  · next hnew =>
      split at h
      · cases h
      · next address haddress =>
          obtain ⟨generation, -, heq⟩ := Option.map_eq_some_iff.1 h
          cases heq
          simp only [Bool.or_eq_true, not_or] at hnew
          refine ⟨?_, rfl, address, rfl⟩
          rw [← Std.ExtTreeMap.mem_iff_contains] at hnew
          exact Std.ExtTreeMap.getElem?_eq_none hnew.1

theorem setGames_ok {peerId : PeerId} {enabled changed : Bool}
    (h : policy.setGames peerId enabled = some (.ok changed, policy')) (id : PeerId) :
    policy'.peers[id]? = if peerId = id then
      policy.peers[id]?.map (fun peer => { peer with games := enabled }) else policy.peers[id]? := by
  unfold VpnPolicy.setGames at h
  split at h
  · cases h
  · next peer hpeer =>
      split at h
      · next hsame =>
          -- the peer has the flag already
          cases h
          split
          · next hid =>
              rw [← hid, hpeer, Option.map_some, ← hsame]
          · rfl
      · obtain ⟨generation, -, heq⟩ := Option.map_eq_some_iff.1 h
        cases heq
        rw [Peers.getElem?_insert_peer]
        by_cases hid : peerId = id
        · rw [if_pos hid.symm, if_pos hid, ← hid, hpeer, Option.map_some]
        · rw [if_neg (Ne.symm hid), if_neg hid]

theorem rotateKey_ok {peerId : PeerId} {publicKey : WireGuardPublicKey} {changed : Bool}
    (h : policy.rotateKey peerId publicKey = some (.ok changed, policy')) (id : PeerId) :
    policy'.peers[id]? = if peerId = id then
      policy.peers[id]?.map (fun peer => { peer with publicKey }) else policy.peers[id]? := by
  unfold VpnPolicy.rotateKey at h
  split at h
  · cases h
  · split at h
    · cases h
    · next peer hpeer =>
        split at h
        · next hsame =>
            -- the peer has the key already
            cases h
            split
            · next hid =>
                rw [← hid, hpeer, Option.map_some, ← hsame]
            · rfl
        · obtain ⟨generation, -, heq⟩ := Option.map_eq_some_iff.1 h
          cases heq
          rw [Peers.getElem?_insert_peer]
          by_cases hid : peerId = id
          · rw [if_pos hid.symm, if_pos hid, ← hid, hpeer, Option.map_some]
          · rw [if_neg (Ne.symm hid), if_neg hid]

theorem revoke_ok {peerId : PeerId} {peer : VpnPeer}
    (h : policy.revoke peerId = some (.ok peer, policy')) :
    policy.peers[peerId]? = some peer ∧ policy'.peers = policy.peers.erase peerId := by
  unfold VpnPolicy.revoke at h
  split at h
  · cases h
  · next known hknown =>
      obtain ⟨generation, -, heq⟩ := Option.map_eq_some_iff.1 h
      cases heq
      exact ⟨hknown, rfl⟩

/-- **What one call does to one peer.** -/
theorem apply_update {c : Call} {r : Except PolicyError c.Reply}
    (h : c.apply policy = some (r, policy')) (id : PeerId) :
    policy'.peers[id]? = CallRecord.update id ⟨c, r⟩ policy.peers[id]? := by
  cases r with
  | error e =>
      rcases Call.apply_cases h with ⟨-, rfl⟩ | ⟨hchange, -⟩
      · cases c <;> rfl
      · exact absurd trivial hchange
  | ok reply =>
      cases c with
      | enroll userId peerId publicKey games =>
          obtain ⟨-, hpeers, -⟩ := enroll_ok h
          rw [hpeers, Peers.getElem?_insert_peer]
          exact if_congr eq_comm rfl rfl
      | setGames peerId enabled => exact setGames_ok h id
      | rotateKey peerId publicKey => exact rotateKey_ok h id
      | revoke peerId =>
          obtain ⟨-, hpeers⟩ := revoke_ok h
          rw [hpeers, Peers.getElem?_erase_peer]
          exact if_congr eq_comm rfl rfl

end Update

/-! ## Reading a peer off its history -/

namespace CallRecord

/-- A call that neither enrols nor revokes the peer sets its key and its flag at most. -/
theorem update_some {id : PeerId} {record : CallRecord} {peer : VpnPeer}
    (hrevoke : ¬ record.Revokes id)
    (henroll : ∀ userId publicKey games new,
      record ≠ ⟨.enroll userId id publicKey games, .ok new⟩) :
    record.update id (some peer) = some { peer with
      publicKey := (record.rotatedTo id).getD peer.publicKey
      games := (record.gamesSetTo id).getD peer.games } := by
  obtain ⟨c, r⟩ := record
  cases r with
  | error e => cases c <;> rfl
  | ok reply =>
      cases c with
      | enroll userId peerId publicKey games =>
          refine if_neg ?_
          rintro rfl
          exact henroll _ _ _ _ rfl
      | setGames peerId enabled =>
          rw [update, gamesSetTo]
          split <;> rfl
      | rotateKey peerId publicKey =>
          rw [update, rotatedTo]
          split <;> rfl
      | revoke peerId =>
          refine if_neg ?_
          rintro rfl
          exact hrevoke ⟨_, rfl⟩

/-- Only an enrolment makes a peer. -/
theorem update_none {id : PeerId} {record : CallRecord}
    (henroll : ∀ userId publicKey games new,
      record ≠ ⟨.enroll userId id publicKey games, .ok new⟩) :
    record.update id none = none := by
  obtain ⟨c, r⟩ := record
  cases r with
  | error e => cases c <;> rfl
  | ok reply =>
      cases c with
      | enroll userId peerId publicKey games =>
          refine if_neg ?_
          rintro rfl
          exact henroll _ _ _ _ rfl
      | setGames peerId enabled => exact ite_self _
      | rotateKey peerId publicKey => exact ite_self _
      | revoke peerId => exact ite_self _

end CallRecord

/-- **A peer since its enrolment.** The induction is on the calls after it; none of them enrols the
    peer again, because it is enrolled before each of them. -/
theorem Played.peer_eq {before after : List CallRecord} {policy : VpnPolicy} {userId : UserId}
    {id : PeerId} {publicKey : WireGuardPublicKey} {games : Bool} {peer : VpnPeer}
    (h : Played (before ++ ⟨.enroll userId id publicKey games, .ok peer⟩ :: after) policy)
    (hkept : ∀ record ∈ after, ¬ record.Revokes id) :
    policy.peers[id]? = some { peer with
      publicKey := (after.filterMap (CallRecord.rotatedTo id)).getLastD publicKey
      games := (after.filterMap (CallRecord.gamesSetTo id)).getLastD games } := by
  induction after using List.reverseRecOn generalizing policy with
  | nil =>
      obtain ⟨old, -, answer⟩ := h.last
      obtain ⟨-, hpeers, address, rfl⟩ := enroll_ok answer
      rw [hpeers, Peers.getElem?_insert_peer, if_pos rfl]
      rfl
  | append_singleton after record ih =>
      rw [← List.cons_append, ← List.append_assoc] at h
      obtain ⟨old, hplayed, answer⟩ := h.last
      have hold := ih hplayed (fun r hr => hkept r (List.mem_append_left _ hr))
      have henroll : ∀ userId publicKey games new,
          record ≠ ⟨.enroll userId id publicKey games, .ok new⟩ := by
        rintro userId' publicKey' games' new rfl
        obtain ⟨hnone, -⟩ := enroll_ok answer
        rw [hnone] at hold
        cases hold
      have hrevoke := hkept record (List.mem_append_right _ List.mem_cons_self)
      rw [apply_update answer id, hold, CallRecord.update_some hrevoke henroll,
        getLastD_filterMap_concat, getLastD_filterMap_concat]

/-- A recorded enrolment returned the user it was called for. -/
theorem Played.enrolled_userId {before after : List CallRecord} {policy : VpnPolicy}
    {userId : UserId} {id : PeerId} {publicKey : WireGuardPublicKey} {games : Bool} {peer : VpnPeer}
    (h : Played (before ++ ⟨.enroll userId id publicKey games, .ok peer⟩ :: after) policy) :
    peer.userId = userId := by
  induction after using List.reverseRecOn generalizing policy with
  | nil =>
      obtain ⟨old, -, answer⟩ := h.last
      obtain ⟨-, -, address, rfl⟩ := enroll_ok answer
      rfl
  | append_singleton after record ih =>
      rw [← List.cons_append, ← List.append_assoc] at h
      obtain ⟨old, hplayed, -⟩ := h.last
      exact ih hplayed

/-- A peer has been enrolled, and not revoked since. -/
theorem Played.exists_enrolment {history : List CallRecord} {policy : VpnPolicy}
    (h : Played history policy) {id : PeerId} {peer : VpnPeer}
    (hpeer : policy.peers[id]? = some peer) :
    ∃ before userId publicKey games new after,
      history = before ++ ⟨.enroll userId id publicKey games, .ok new⟩ :: after ∧
      ∀ record ∈ after, ¬ record.Revokes id := by
  induction h generalizing peer with
  | start => simp [VpnPolicy.default] at hpeer
  | @call history policy policy' c r hplayed answer ih =>
      rw [apply_update answer id] at hpeer
      by_cases henroll : ∃ userId publicKey games new,
          (⟨c, r⟩ : CallRecord) = ⟨.enroll userId id publicKey games, .ok new⟩
      · obtain ⟨userId, publicKey, games, new, hrecord⟩ := henroll
        rw [hrecord]
        exact ⟨history, userId, publicKey, games, new, [], rfl, by simp⟩
      · push Not at henroll
        have hrevoke : ¬ CallRecord.Revokes id ⟨c, r⟩ := by
          rintro ⟨revoked, hrecord⟩
          rw [hrecord, CallRecord.update, if_pos rfl] at hpeer
          cases hpeer
        -- the call left the peer enrolled, so it was enrolled before
        cases hold : policy.peers[id]? with
        | none =>
            rw [hold, CallRecord.update_none henroll] at hpeer
            cases hpeer
        | some old =>
            obtain ⟨before, userId, publicKey, games, new, after, rfl, hkept⟩ := ih hold
            refine ⟨before, userId, publicKey, games, new, after ++ [⟨c, r⟩], ?_, ?_⟩
            · simp
            · intro record hrecord
              rcases List.mem_append.1 hrecord with hrecord | hrecord
              · exact hkept record hrecord
              · rw [List.mem_singleton.1 hrecord]
                exact hrevoke

/-- **Allocation over a history.** A fresh enrolment succeeds exactly if fewer than 253 peers are
    enrolled and the generation can be increased, and takes the smallest free host. Since then the
    peer keeps its address and user, and the last call that set its key or its flag decides it,
    until it is revoked; and every peer has such an enrolment. -/
theorem address_allocation :
    (∀ policy : VpnPolicy, Reachable policy → ∀ userId peerId publicKey games,
      policy.IsFresh peerId publicKey →
      ((∃ peer policy', policy.enroll userId peerId publicKey games = some (.ok peer, policy')) ↔
        policy.peers.size < 253 ∧ policy.generation.value < 2 ^ 64 - 1) ∧
      (∀ peer policy', policy.enroll userId peerId publicKey games = some (.ok peer, policy') →
        2 ≤ peer.address.host ∧ peer.address.host ≤ 254 ∧
        (∀ (id : PeerId) (other : VpnPeer), policy.peers[id]? = some other →
          other.address.host ≠ peer.address.host) ∧
        ∀ host : UInt8, 2 ≤ host → host < peer.address.host →
          ∃ (id : PeerId) (other : VpnPeer), policy.peers[id]? = some other ∧
            other.address.host = host) ∧
      (253 ≤ policy.peers.size →
        policy.enroll userId peerId publicKey games = some (.error .addressPoolExhausted, policy)) ∧
      (policy.peers.size < 253 → policy.generation.value = 2 ^ 64 - 1 →
        policy.enroll userId peerId publicKey games = none)) ∧
    (∀ history policy, Played history policy → ∀ id : PeerId,
      (∀ peer, policy.peers[id]? = some peer → ∃ before userId publicKey games new after,
        history = before ++ ⟨.enroll userId id publicKey games, .ok new⟩ :: after ∧
        ∀ record ∈ after, ¬ CallRecord.Revokes id record) ∧
      (∀ before userId publicKey games new after,
        history = before ++ ⟨.enroll userId id publicKey games, .ok new⟩ :: after →
        (∀ record ∈ after, ¬ CallRecord.Revokes id record) →
        ∃ peer, policy.peers[id]? = some peer ∧ peer.address = new.address ∧
          peer.userId = new.userId ∧ peer.userId = userId ∧
          peer.publicKey = (after.filterMap (CallRecord.rotatedTo id)).getLastD publicKey ∧
          peer.games = (after.filterMap (CallRecord.gamesSetTo id)).getLastD games)) := by
  constructor
  · intro policy hreachable userId peerId publicKey games hfresh
    have hc := hreachable.consistent
    have hiff := VpnPolicy.enroll_ok_iff hc hfresh userId games
    refine ⟨hiff, ?_, fun hfull => VpnPolicy.enroll_full hc hfresh hfull userId games,
      fun hsize hgeneration => VpnPolicy.enroll_exhausted hfresh hsize hgeneration userId games⟩
    intro peer policy' hok
    obtain ⟨hsize, hgeneration⟩ := hiff.1 ⟨peer, policy', hok⟩
    obtain ⟨address, policy'', hleast, hunused, hpassed⟩ :=
      VpnPolicy.enroll_least hfresh hsize hgeneration userId games
    cases hok.symm.trans hleast
    obtain ⟨-, -, -, hlow, hhigh⟩ := address.usable
    refine ⟨hlow, hhigh, fun id other hother heq => ?_, fun host hhost hlt => ?_⟩
    · exact hunused (VpnPolicy.mem_used.2 ⟨id, other, hother, heq⟩)
    · exact VpnPolicy.mem_used.1 (hpassed host hhost hlt)
  · intro history policy hplayed id
    refine ⟨fun peer hpeer => hplayed.exists_enrolment hpeer, ?_⟩
    rintro before userId publicKey games new after rfl hkept
    have huser := hplayed.enrolled_userId
    exact ⟨_, hplayed.peer_eq hkept, rfl, rfl, huser, rfl, rfl⟩

end Allocation

section Sample

attribute [local instance] Reference.crates

/-- Setting the flag of one peer back and forth uses up the generations. -/
theorem exists_generation (n : ℕ) (h : n + 2 < 2 ^ 64) :
    ∃ policy games, Reachable policy ∧ policy.generation.value = n + 2 ∧
      policy.peers = (∅ : Peers).insert samplePeer
        (sampleEntry samplePeer sampleKey 2 (by decide) games) := by
  induction n with
  | zero => exact ⟨samplePolicy, false, .single samplePolicy_step, rfl, rfl⟩
  | succ n ih =>
      obtain ⟨policy, games, hreachable, hgeneration, hpeers⟩ := ih (by omega)
      refine ⟨⟨⟨n + 1 + 2, by omega, h⟩, policy.peers.insert samplePeer
        (sampleEntry samplePeer sampleKey 2 (by decide) (!games))⟩, !games,
        hreachable.tail ⟨.setGames samplePeer (!games), .ok true, ?_⟩, rfl, ?_⟩
      · have hnext : policy.generation.next = some ⟨n + 1 + 2, by omega, h⟩ :=
          Generation.next_eq_some.2 (by rw [hgeneration])
        have hpeer : policy.peers[samplePeer]? =
            some (sampleEntry samplePeer sampleKey 2 (by decide) games) := by
          rw [hpeers, Peers.getElem?_insert_peer, if_pos rfl]
        have hdiffers : (sampleEntry samplePeer sampleKey 2 (by decide) games).games ≠ !games := by
          simp [sampleEntry]
        rw [Call.apply, VpnPolicy.setGames, hpeer]
        dsimp only
        rw [if_neg hdiffers, hnext]
        rfl
      · rw [hpeers]
        refine Std.ExtTreeMap.ext_getElem? (fun id => ?_)
        simp only [Peers.getElem?_insert_peer]
        split <;> rfl

/-- The second sample peer is fresh next to the first. -/
theorem isFresh_sample {policy : VpnPolicy} {games : Bool}
    (h : policy.peers = (∅ : Peers).insert samplePeer
      (sampleEntry samplePeer sampleKey 2 (by decide) games)) :
    policy.IsFresh samplePeer₂ sampleKey₂ := by
  rw [VpnPolicy.IsFresh, h]
  constructor
  · rw [Peers.getElem?_insert_peer, if_neg (by decide)]
    rfl
  · intro id peer hpeer
    rw [Peers.getElem?_insert_peer] at hpeer
    split at hpeer
    · cases hpeer
      show sampleKey ≠ sampleKey₂
      decide
    · simp at hpeer

/-- A second peer cannot be enrolled after the last generation, with 252 addresses left. -/
theorem enrolment_panics :
    ¬ ∀ policy : VpnPolicy, Reachable policy → ∀ userId peerId publicKey games,
      policy.IsFresh peerId publicKey →
      ((∃ peer policy', policy.enroll userId peerId publicKey games = some (.ok peer, policy')) ↔
        policy.peers.size < 253) := by
  intro h
  obtain ⟨policy, games, hreachable, hgeneration, hpeers⟩ :=
    exists_generation (2 ^ 64 - 3) (by decide)
  have hfresh := isFresh_sample hpeers
  have hsize : policy.peers.size < 253 := by
    rw [hpeers]
    exact (Std.ExtTreeMap.size_insert_le).trans_lt (by decide)
  obtain ⟨peer, policy', hok⟩ :=
    (h policy hreachable sampleUser samplePeer₂ sampleKey₂ false hfresh).2 hsize
  rw [VpnPolicy.enroll_exhausted hfresh hsize hgeneration] at hok
  cases hok

/-- The two enrolments of the sample policy, as they were answered. -/
def sampleHistory : List CallRecord :=
  [⟨sampleEnroll, .ok (sampleEntry samplePeer sampleKey 2 sampleHost false)⟩,
    ⟨.enroll sampleUser samplePeer₂ sampleKey₂ true,
      .ok (sampleEntry samplePeer₂ sampleKey₂ 3 sampleHost₂ true)⟩]

theorem sampleHistory_played : Played sampleHistory samplePolicy₂ := by
  have hfirst : Played [⟨sampleEnroll,
      .ok (sampleEntry samplePeer sampleKey 2 (by decide) false)⟩] samplePolicy :=
    Played.start.call (c := sampleEnroll) rfl
  exact hfirst.call (c := .enroll sampleUser samplePeer₂ sampleKey₂ true) rfl

theorem address_allocation_sample :
    (∃ peer policy',
      samplePolicy.enroll sampleUser samplePeer₂ sampleKey₂ true = some (.ok peer, policy')) ∧
    ∃ peer, samplePolicy₂.peers[samplePeer]? = some peer ∧ peer.address.host = 2 ∧
      peer.userId = sampleUser ∧ peer.publicKey = sampleKey ∧ peer.games = false := by
  constructor
  · exact (address_allocation.1 samplePolicy (.single samplePolicy_step) sampleUser samplePeer₂
      sampleKey₂ true (isFresh_sample rfl)).1.2 ⟨by decide, by decide⟩
  · obtain ⟨peer, hpeer, haddress, -, huser, hkey, hgames⟩ :=
      (address_allocation.2 _ _ sampleHistory_played samplePeer).2 [] sampleUser sampleKey false
        (sampleEntry samplePeer sampleKey 2 (by decide) false) _ rfl (by
          intro record hrecord
          rw [List.mem_singleton.1 hrecord]
          rintro ⟨revoked, hrevoked⟩
          cases hrevoked)
    exact ⟨peer, hpeer, congrArg OverlayAddress.host haddress, huser, hkey, hgames⟩

end Sample

end RsConsole
