import Mathlib.Order.Nat
import RsConsole.Library.Versioning
import RsConsole.Policy.Vpn
import RsConsole.Reference

set_option autoImplicit false

/-! # Histories of a policy

A policy changes by `Call`s. What one call can do is stated once, in `Call.apply_cases`: it reports
no change and has none, or it takes the next generation and makes one `Edit` of the peers. Every
fact about histories follows from that: the generation numbers the peer maps, and the three
uniqueness properties of `Peers.Consistent` hold in every reachable policy. -/

namespace RsConsole

open Library Relation

section Histories

variable [Crates]

/-- A call of one of the operations that change a policy. -/
inductive Call where
  | enroll (userId : UserId) (peerId : PeerId) (publicKey : WireGuardPublicKey) (games : Bool)
  | setGames (peerId : PeerId) (enabled : Bool)
  | rotateKey (peerId : PeerId) (publicKey : WireGuardPublicKey)
  | revoke (peerId : PeerId)

namespace Call

abbrev Reply : Call → Type
  | .enroll .. => VpnPeer
  | .setGames .. => Bool
  | .rotateKey .. => Bool
  | .revoke _ => VpnPeer

def apply : (c : Call) → VpnPolicy → Option (Except PolicyError c.Reply × VpnPolicy)
  | .enroll userId peerId publicKey games, policy => policy.enroll userId peerId publicKey games
  | .setGames peerId enabled, policy => policy.setGames peerId enabled
  | .rotateKey peerId publicKey, policy => policy.rotateKey peerId publicKey
  | .revoke peerId, policy => policy.revoke peerId

/-- The call returns an error, or `Ok(false)`. -/
def ReportsNoChange : (c : Call) → Except PolicyError c.Reply → Prop
  | _, .error _ => True
  | .setGames .., .ok changed => changed = false
  | .rotateKey .., .ok changed => changed = false
  | .enroll .., .ok _ => False
  | .revoke _, .ok _ => False

end Call

/-- The changes of a peer map that a call can make. -/
inductive Edit (peers : Peers) : Peers → Prop
  | enrolled {peer : VpnPeer} (fresh : peers[peer.peerId]? = none)
      (freshKey : ∀ (id : PeerId) (p : VpnPeer), peers[id]? = some p →
        p.publicKey ≠ peer.publicKey)
      (freshAddress : ∀ (id : PeerId) (p : VpnPeer), peers[id]? = some p →
        p.address ≠ peer.address) :
      Edit peers (peers.insert peer.peerId peer)
  | gamesSet {id : PeerId} {peer : VpnPeer} {enabled : Bool} (known : peers[id]? = some peer)
      (differs : peer.games ≠ enabled) :
      Edit peers (peers.insert id { peer with games := enabled })
  | keyRotated {id : PeerId} {peer : VpnPeer} {publicKey : WireGuardPublicKey}
      (known : peers[id]? = some peer) (differs : peer.publicKey ≠ publicKey)
      (freshKey : ∀ (id' : PeerId) (p : VpnPeer), peers[id']? = some p → id' ≠ id →
        p.publicKey ≠ publicKey) :
      Edit peers (peers.insert id { peer with publicKey })
  | revoked {id : PeerId} {peer : VpnPeer} (known : peers[id]? = some peer) :
      Edit peers (peers.erase id)

/-! ## Looking up peers -/

namespace Peers

variable {peers : Peers}

@[simp] theorem getElem?_insert_peer (id id' : PeerId) (peer : VpnPeer) :
    (peers.insert id peer)[id']? = if id' = id then some peer else peers[id']? := by
  simp only [Std.ExtTreeMap.getElem?_insert, Std.LawfulEqCmp.compare_eq_iff_eq,
    eq_comm (a := id)]

@[simp] theorem getElem?_erase_peer (id id' : PeerId) :
    (peers.erase id)[id']? = if id' = id then none else peers[id']? := by
  simp only [Std.ExtTreeMap.getElem?_erase, Std.LawfulEqCmp.compare_eq_iff_eq,
    eq_comm (a := id)]

theorem getElem?_of_erase {id id' : PeerId} {peer : VpnPeer}
    (h : (peers.erase id)[id']? = some peer) : peers[id']? = some peer := by
  rw [getElem?_erase_peer] at h
  split at h
  · cases h
  · exact h

end Peers

theorem VpnPolicy.mem_values {policy : VpnPolicy} {peer : VpnPeer} :
    peer ∈ policy.values ↔ ∃ id : PeerId, policy.peers[id]? = some peer := by
  simp only [VpnPolicy.values, List.mem_map, Prod.exists, exists_eq_right,
    Std.ExtTreeMap.mem_toList_iff_getElem?_eq_some]

/-- The address that is handed out is held by no peer. -/
theorem VpnPolicy.allocateAddress_fresh {policy : VpnPolicy} {address : OverlayAddress}
    (h : policy.allocateAddress = .ok address) {id : PeerId} {peer : VpnPeer}
    (hpeer : policy.peers[id]? = some peer) : peer.address ≠ address := by
  unfold VpnPolicy.allocateAddress at h
  dsimp only at h
  split at h
  · next host hfind =>
      have hfree := List.find?_some hfind
      simp only [decide_eq_true_eq, List.mem_map, not_exists, not_and] at hfree
      rintro rfl
      exact hfree peer (mem_values.2 ⟨id, hpeer⟩) (OverlayAddress.host_of_new h)
  · cases h

/-! ## What a call can do -/

section Cases

variable {policy policy' : VpnPolicy}

theorem enroll_cases {userId : UserId} {peerId : PeerId} {publicKey : WireGuardPublicKey}
    {games : Bool} {r : Except PolicyError VpnPeer}
    (h : policy.enroll userId peerId publicKey games = some (r, policy')) :
    ((∃ e, r = .error e) ∧ policy' = policy) ∨ ∃ peer, r = .ok peer ∧
      policy'.generation.value = policy.generation.value + 1 ∧
      Edit policy.peers policy'.peers := by
  unfold VpnPolicy.enroll at h
  split at h
  · cases h
    exact Or.inl ⟨⟨_, rfl⟩, rfl⟩
  · next hnew =>
      split at h
      · cases h
        exact Or.inl ⟨⟨_, rfl⟩, rfl⟩
      · next address haddress =>
          obtain ⟨generation, hgeneration, heq⟩ := Option.map_eq_some_iff.1 h
          cases heq
          simp only [Bool.or_eq_true, not_or, List.any_eq_true, decide_eq_true_eq, not_exists,
            not_and] at hnew
          obtain ⟨hid, hkey⟩ := hnew
          rw [← Std.ExtTreeMap.mem_iff_contains] at hid
          -- past both checks the id, the key and the address are new
          refine Or.inr ⟨_, rfl, Generation.next_eq_some.1 hgeneration,
            @Edit.enrolled _ _ ⟨userId, peerId, publicKey, address, .onDemand, games⟩ ?_ ?_ ?_⟩
          · exact Std.ExtTreeMap.getElem?_eq_none hid
          · intro id p hp
            exact hkey p (VpnPolicy.mem_values.2 ⟨id, hp⟩)
          · intro id p hp
            exact VpnPolicy.allocateAddress_fresh haddress hp

theorem setGames_cases {peerId : PeerId} {enabled : Bool} {r : Except PolicyError Bool}
    (h : policy.setGames peerId enabled = some (r, policy')) :
    (((∃ e, r = .error e) ∨ r = .ok false) ∧ policy' = policy) ∨ (r = .ok true ∧
      policy'.generation.value = policy.generation.value + 1 ∧
      Edit policy.peers policy'.peers) := by
  unfold VpnPolicy.setGames at h
  split at h
  · cases h
    exact Or.inl ⟨Or.inl ⟨_, rfl⟩, rfl⟩
  · next peer hpeer =>
      split at h
      · cases h
        exact Or.inl ⟨Or.inr rfl, rfl⟩
      · next hdiffers =>
          obtain ⟨generation, hgeneration, heq⟩ := Option.map_eq_some_iff.1 h
          cases heq
          exact Or.inr ⟨rfl, Generation.next_eq_some.1 hgeneration, .gamesSet hpeer hdiffers⟩

theorem rotateKey_cases {peerId : PeerId} {publicKey : WireGuardPublicKey}
    {r : Except PolicyError Bool} (h : policy.rotateKey peerId publicKey = some (r, policy')) :
    (((∃ e, r = .error e) ∨ r = .ok false) ∧ policy' = policy) ∨ (r = .ok true ∧
      policy'.generation.value = policy.generation.value + 1 ∧
      Edit policy.peers policy'.peers) := by
  unfold VpnPolicy.rotateKey at h
  split at h
  · cases h
    exact Or.inl ⟨Or.inl ⟨_, rfl⟩, rfl⟩
  · next hfresh =>
      split at h
      · cases h
        exact Or.inl ⟨Or.inl ⟨_, rfl⟩, rfl⟩
      · next peer hpeer =>
          split at h
          · cases h
            exact Or.inl ⟨Or.inr rfl, rfl⟩
          · next hdiffers =>
              obtain ⟨generation, hgeneration, heq⟩ := Option.map_eq_some_iff.1 h
              cases heq
              refine Or.inr ⟨rfl, Generation.next_eq_some.1 hgeneration,
                .keyRotated hpeer hdiffers ?_⟩
              intro id p hp hid hkey
              refine hfresh (List.any_eq_true.2 ⟨(id, p), ?_, ?_⟩)
              · exact Std.ExtTreeMap.mem_toList_iff_getElem?_eq_some.2 hp
              · simp [hid, hkey]

theorem revoke_cases {peerId : PeerId} {r : Except PolicyError VpnPeer}
    (h : policy.revoke peerId = some (r, policy')) :
    ((∃ e, r = .error e) ∧ policy' = policy) ∨ ∃ peer, r = .ok peer ∧
      policy'.generation.value = policy.generation.value + 1 ∧
      Edit policy.peers policy'.peers := by
  unfold VpnPolicy.revoke at h
  split at h
  · cases h
    exact Or.inl ⟨⟨_, rfl⟩, rfl⟩
  · next peer hpeer =>
      obtain ⟨generation, hgeneration, heq⟩ := Option.map_eq_some_iff.1 h
      cases heq
      exact Or.inr ⟨_, rfl, Generation.next_eq_some.1 hgeneration, .revoked hpeer⟩

/-- **A call reports no change and leaves the policy as it was, or it takes the next generation
    and edits the peers.** -/
theorem Call.apply_cases {c : Call} {r : Except PolicyError c.Reply}
    (h : c.apply policy = some (r, policy')) :
    (c.ReportsNoChange r ∧ policy' = policy) ∨ (¬ c.ReportsNoChange r ∧
      policy'.generation.value = policy.generation.value + 1 ∧
      Edit policy.peers policy'.peers) := by
  cases c with
  | enroll userId peerId publicKey games =>
      rcases enroll_cases h with ⟨⟨e, rfl⟩, hsame⟩ | ⟨peer, rfl, hchange⟩
      · exact Or.inl ⟨trivial, hsame⟩
      · exact Or.inr ⟨id, hchange⟩
  | setGames peerId enabled =>
      rcases setGames_cases h with ⟨⟨e, rfl⟩ | rfl, hsame⟩ | ⟨rfl, hchange⟩
      · exact Or.inl ⟨trivial, hsame⟩
      · exact Or.inl ⟨rfl, hsame⟩
      · exact Or.inr ⟨Bool.noConfusion, hchange⟩
  | rotateKey peerId publicKey =>
      rcases rotateKey_cases h with ⟨⟨e, rfl⟩ | rfl, hsame⟩ | ⟨rfl, hchange⟩
      · exact Or.inl ⟨trivial, hsame⟩
      · exact Or.inl ⟨rfl, hsame⟩
      · exact Or.inr ⟨Bool.noConfusion, hchange⟩
  | revoke peerId =>
      rcases revoke_cases h with ⟨⟨e, rfl⟩, hsame⟩ | ⟨peer, rfl, hchange⟩
      · exact Or.inl ⟨trivial, hsame⟩
      · exact Or.inr ⟨id, hchange⟩

/-- Only an exhausted generation counter makes a call panic. -/
theorem Call.apply_isSome (c : Call) (h : policy.generation.value < 2 ^ 64 - 1) :
    ∃ r policy', c.apply policy = some (r, policy') := by
  obtain ⟨generation, hgeneration⟩ : ∃ generation, policy.generation.next = some generation :=
    ⟨⟨policy.generation.value + 1, by omega, by omega⟩, Generation.next_eq_some.2 rfl⟩
  rw [← Prod.exists (p := fun x => c.apply policy = some x), ← Option.isSome_iff_exists]
  cases c with
  | enroll userId peerId publicKey games =>
      simp only [Call.apply, VpnPolicy.enroll, hgeneration, Option.map_some]
      repeat' split
      all_goals rfl
  | setGames peerId enabled =>
      simp only [Call.apply, VpnPolicy.setGames, hgeneration, Option.map_some]
      repeat' split
      all_goals rfl
  | rotateKey peerId publicKey =>
      simp only [Call.apply, VpnPolicy.rotateKey, hgeneration, Option.map_some]
      repeat' split
      all_goals rfl
  | revoke peerId =>
      simp only [Call.apply, VpnPolicy.revoke, hgeneration, Option.map_some]
      split <;> rfl

end Cases

/-! ## Edits -/

namespace Edit

variable {peers peers' : Peers}

theorem ne (h : Edit peers peers') : peers' ≠ peers := by
  intro heq
  cases h with
  | @enrolled peer fresh freshKey freshAddress =>
      have hsame := congrArg (·[peer.peerId]?) heq
      simp [fresh] at hsame
  | @gamesSet id peer enabled known differs =>
      have hsame := congrArg (·[id]?) heq
      simp only [Peers.getElem?_insert_peer, if_true, known, Option.some.injEq] at hsame
      exact differs (congrArg VpnPeer.games hsame).symm
  | @keyRotated id peer publicKey known differs freshKey =>
      have hsame := congrArg (·[id]?) heq
      simp only [Peers.getElem?_insert_peer, if_true, known, Option.some.injEq] at hsame
      exact differs (congrArg VpnPeer.publicKey hsame).symm
  | @revoked id peer known =>
      have hsame := congrArg (·[id]?) heq
      simp [known] at hsame

end Edit

/-- Every peer is filed under its own identifier, and no two peers share a key or an address. -/
structure Consistent (peers : Peers) : Prop where
  peerId_eq : ∀ {id : PeerId} {peer : VpnPeer}, peers[id]? = some peer → peer.peerId = id
  publicKey_injective : ∀ {id id' : PeerId} {peer peer' : VpnPeer}, peers[id]? = some peer →
    peers[id']? = some peer' → peer.publicKey = peer'.publicKey → id = id'
  address_injective : ∀ {id id' : PeerId} {peer peer' : VpnPeer}, peers[id]? = some peer →
    peers[id']? = some peer' → peer.address = peer'.address → id = id'

namespace Consistent

variable {peers : Peers}

theorem empty : Consistent ∅ where
  peerId_eq h := by simp at h
  publicKey_injective h := by simp at h
  address_injective h := by simp at h

/-- Replacing the peer `id` by one whose key and address no other peer has keeps the peers
    consistent. -/
theorem insert {id : PeerId} {peer : VpnPeer} (h : Consistent peers) (hid : peer.peerId = id)
    (hkey : ∀ (id' : PeerId) (p : VpnPeer), peers[id']? = some p → id' ≠ id →
      p.publicKey ≠ peer.publicKey)
    (haddress : ∀ (id' : PeerId) (p : VpnPeer), peers[id']? = some p → id' ≠ id →
      p.address ≠ peer.address) :
    Consistent (peers.insert id peer) where
  peerId_eq {id' p} hp := by
    rw [Peers.getElem?_insert_peer] at hp
    split at hp
    · next heq =>
        cases hp
        rw [hid, heq]
    · exact h.peerId_eq hp
  publicKey_injective {id₁ id₂ p₁ p₂} h₁ h₂ heq := by
    rw [Peers.getElem?_insert_peer] at h₁ h₂
    split at h₁ <;> split at h₂
    · next hid₁ hid₂ => rw [hid₁, hid₂]
    · next hid₁ hid₂ =>
        cases h₁
        exact absurd heq.symm (hkey _ _ h₂ hid₂)
    · next hid₁ hid₂ =>
        cases h₂
        exact absurd heq (hkey _ _ h₁ hid₁)
    · exact h.publicKey_injective h₁ h₂ heq
  address_injective {id₁ id₂ p₁ p₂} h₁ h₂ heq := by
    rw [Peers.getElem?_insert_peer] at h₁ h₂
    split at h₁ <;> split at h₂
    · next hid₁ hid₂ => rw [hid₁, hid₂]
    · next hid₁ hid₂ =>
        cases h₁
        exact absurd heq.symm (haddress _ _ h₂ hid₂)
    · next hid₁ hid₂ =>
        cases h₂
        exact absurd heq (haddress _ _ h₁ hid₁)
    · exact h.address_injective h₁ h₂ heq

theorem erase (h : Consistent peers) (id : PeerId) : Consistent (peers.erase id) where
  peerId_eq hp := h.peerId_eq (Peers.getElem?_of_erase hp)
  publicKey_injective h₁ h₂ := h.publicKey_injective (Peers.getElem?_of_erase h₁) (Peers.getElem?_of_erase h₂)
  address_injective h₁ h₂ := h.address_injective (Peers.getElem?_of_erase h₁) (Peers.getElem?_of_erase h₂)

theorem edit {peers' : Peers} (h : Consistent peers) (hedit : Edit peers peers') :
    Consistent peers' := by
  cases hedit with
  | enrolled fresh freshKey freshAddress =>
      exact h.insert rfl (fun id p hp _ => freshKey id p hp) (fun id p hp _ => freshAddress id p hp)
  | gamesSet known differs =>
      have hid := h.peerId_eq known
      refine h.insert hid ?_ ?_
      · intro id p hp hne hkey
        exact hne (h.publicKey_injective hp known hkey)
      · intro id p hp hne haddress
        exact hne (h.address_injective hp known haddress)
  | keyRotated known differs freshKey =>
      have hid := h.peerId_eq known
      refine h.insert hid freshKey ?_
      intro id p hp hne haddress
      exact hne (h.address_injective hp known haddress)
  | revoked known => exact h.erase _

end Consistent

/-! ## Histories -/

/-- Some call takes one policy to the other. -/
def Step (policy policy' : VpnPolicy) : Prop :=
  ∃ (c : Call) (r : Except PolicyError c.Reply), c.apply policy = some (r, policy')

/-- Some sequence of calls takes one policy to the other. -/
abbrev Leads : VpnPolicy → VpnPolicy → Prop := ReflTransGen Step

/-- Some sequence of calls builds the policy, failing calls included. -/
abbrev Reachable (policy : VpnPolicy) : Prop := Leads .default policy

/-- The generation numbers the peer maps. -/
theorem step_versions :
    Versions Step (fun policy => policy.generation.value) VpnPolicy.peers := by
  rintro policy policy' ⟨c, r, h⟩
  rcases Call.apply_cases h with ⟨-, rfl⟩ | ⟨-, hgeneration, hedit⟩
  · exact Or.inl ⟨rfl, rfl⟩
  · have hlt : policy.generation.value < policy'.generation.value := by omega
    exact Or.inr ⟨hlt, hedit.ne⟩

theorem Reachable.consistent {policy : VpnPolicy} (h : Reachable policy) :
    Consistent policy.peers := by
  induction h with
  | refl => exact Consistent.empty
  | tail _ hstep ih =>
      obtain ⟨c, r, hcall⟩ := hstep
      rcases Call.apply_cases hcall with ⟨-, rfl⟩ | ⟨-, -, hedit⟩
      · exact ih
      · exact ih.edit hedit

/-- **The generation counts the effective changes.** A call that reports no change leaves the
    policy as it was, every other call changes the peers and takes the next generation, and along a
    history equal generations mean equal peers. No property of reachable policies is needed. -/
theorem generation_counts_changes :
    (∀ (policy : VpnPolicy) (c : Call), policy.generation.value < 2 ^ 64 - 1 →
      ∃ r policy', c.apply policy = some (r, policy') ∧
        (c.ReportsNoChange r → policy' = policy) ∧
        (¬ c.ReportsNoChange r → policy'.peers ≠ policy.peers) ∧
        (policy'.peers ≠ policy.peers →
          policy'.generation.value = policy.generation.value + 1)) ∧
    (∀ policy policy' : VpnPolicy, Leads policy policy' →
      (policy'.generation = policy.generation → policy'.peers = policy.peers) ∧
      (policy'.peers ≠ policy.peers →
        policy.generation.value < policy'.generation.value)) := by
  constructor
  · intro policy c hbound
    obtain ⟨r, policy', h⟩ := c.apply_isSome hbound
    refine ⟨r, policy', h, ?_⟩
    rcases Call.apply_cases h with ⟨hno, rfl⟩ | ⟨hchange, hgeneration, hedit⟩
    · exact ⟨fun _ => rfl, fun hchange => absurd hno hchange, fun hne => absurd rfl hne⟩
    · exact ⟨fun hno => absurd hno hchange, fun _ => hedit.ne, fun _ => hgeneration⟩
  · intro policy policy' run
    refine ⟨fun hgeneration => step_versions.content_eq run ?_, step_versions.version_lt run⟩
    exact congrArg Generation.value hgeneration

end Histories

section Sample

attribute [local instance] Reference.crates

def sampleUser : UserId := ⟨"user-1", by decide⟩

def samplePeer : PeerId := ⟨"peer-1", by decide⟩

/-- The key of 32 bytes 1. -/
def sampleKey : WireGuardPublicKey where
  value := "AQEBAQEBAQEBAQEBAQEBAQEBAQEBAQEBAQEBAQEBAQE="
  valid := ⟨List.replicate 32 1, by decide +kernel, by decide, by decide, by decide⟩

def sampleEnroll : Call := .enroll sampleUser samplePeer sampleKey false

theorem generation_counts_sample :
    ∃ r policy', sampleEnroll.apply .default = some (r, policy') ∧
      policy'.peers ≠ VpnPolicy.default.peers ∧ policy'.generation.value = 2 ∧
      (policy'.generation = VpnPolicy.default.generation →
        policy'.peers = VpnPolicy.default.peers) := by
  obtain ⟨r, policy', h, -, hchange, hgeneration⟩ :=
    generation_counts_changes.1 VpnPolicy.default sampleEnroll (by decide)
  have hok : (sampleEnroll.apply .default).map (fun x => x.1.isOk) = some true := by
    decide +kernel
  rw [h, Option.map_some, Option.some.injEq] at hok
  have hne := hchange (by
    cases r with
    | error e => cases hok
    | ok peer => exact id)
  have hstep : Step .default policy' := ⟨sampleEnroll, r, h⟩
  exact ⟨r, policy', h, hne, hgeneration hne,
    (generation_counts_changes.2 .default policy' (.single hstep)).1⟩

end Sample

end RsConsole
