import RsConsole.Policy.Digest
import RsConsole.Policy.Manifests

set_option autoImplicit false

/-! # The gateway does not learn the users

Two runs of a policy whose enrolments name different users cannot be told apart by a gateway. The
argument is by erasure: `withoutUsers` files every peer under one fixed user, and each operation on
an erased policy does what it does on the policy itself (`perform_withoutUser`). Two runs that
differ in users only have the same erasure, and a manifest is built from the erased peers as well as
from the peers. -/

namespace RsConsole

/-- The user that erased peers belong to. -/
def erasedUser : UserId := ⟨"erased", by decide⟩

section Identity

variable [Crates]

/-! ## Operations and what they return -/

/-- An operation on a policy. -/
inductive PolicyOp where
  | change (c : Call)
  | manifest (generatedAt : String)

/-- What an operation returned. -/
inductive PolicyAnswer where
  | peer (reply : Except PolicyError VpnPeer)
  | changed (reply : Except PolicyError Bool)
  | manifest (reply : Except PolicyError PeerManifest)

def PolicyAnswer.ofReply : (c : Call) → Except PolicyError c.Reply → PolicyAnswer
  | .enroll .., reply => .peer reply
  | .setGames .., reply => .changed reply
  | .rotateKey .., reply => .changed reply
  | .revoke _, reply => .peer reply

def PolicyOp.perform : PolicyOp → VpnPolicy → Option (PolicyAnswer × VpnPolicy)
  | .change c, policy =>
      (c.apply policy).map (fun result => (PolicyAnswer.ofReply c result.1, result.2))
  | .manifest generatedAt, policy =>
      (policy.manifest generatedAt).map (fun result => (.manifest result, policy))

/-- What each operation returned and the policy it left; a panic ends the run. -/
def PolicyOp.runAll : VpnPolicy → List PolicyOp → List (Option (PolicyAnswer × VpnPolicy))
  | _, [] => []
  | policy, op :: ops =>
      match op.perform policy with
      | none => [none]
      | some (answer, policy') => some (answer, policy') :: runAll policy' ops

/-- The operations differ in the user of an enrolment at most. -/
inductive DifferInUser : PolicyOp → PolicyOp → Prop
  | enroll (userId userId' : UserId) (peerId : PeerId) (publicKey : WireGuardPublicKey)
      (games : Bool) : DifferInUser (.change (.enroll userId peerId publicKey games))
        (.change (.enroll userId' peerId publicKey games))
  | same (op : PolicyOp) : DifferInUser op op

/-- The answers differ in the user of the returned peer at most. -/
inductive SameButUser : PolicyAnswer → PolicyAnswer → Prop
  | peer {peer peer' : VpnPeer} (fields : peer' = { peer with userId := peer'.userId }) :
      SameButUser (.peer (.ok peer)) (.peer (.ok peer'))
  | same (answer : PolicyAnswer) : SameButUser answer answer

/-- What can be sent to a gateway. -/
structure GatewayView where
  manifest : PeerManifest
  canonicalText : Except PolicyError (List Char)
  digest : Except PolicyError ManifestDigest
  delivery : Except PolicyError PeerDelivery

/-- What a gateway can be sent of a policy. -/
def VpnPolicy.gatewayView (policy : VpnPolicy) (gatewayId : GatewayId) (generatedAt : String) :
    Option (Except PolicyError GatewayView) :=
  (policy.manifest generatedAt).map (fun result => result.map (fun manifest =>
    ⟨manifest, manifest.canonicalText, manifest.digest, PeerDelivery.new gatewayId manifest⟩))

/-- Two operations of two runs both panicked, or their answers agree up to the user and the
    policies behind them agree for every gateway. -/
inductive Corresponding :
    Option (PolicyAnswer × VpnPolicy) → Option (PolicyAnswer × VpnPolicy) → Prop
  | panicked : Corresponding none none
  | answered {answer answer' : PolicyAnswer} {policy policy' : VpnPolicy}
      (answers : SameButUser answer answer') (generation : policy.generation = policy'.generation)
      (view : ∀ gatewayId generatedAt,
        policy.gatewayView gatewayId generatedAt = policy'.gatewayView gatewayId generatedAt) :
      Corresponding (some (answer, policy)) (some (answer', policy'))

/-! ## Erasing the users -/

def VpnPeer.withoutUser (peer : VpnPeer) : VpnPeer := { peer with userId := erasedUser }

def VpnPolicy.withoutUsers (policy : VpnPolicy) : VpnPolicy :=
  { policy with peers := policy.peers.map (fun _ peer => peer.withoutUser) }

def Call.withoutUser : Call → Call
  | .enroll _ peerId publicKey games => .enroll erasedUser peerId publicKey games
  | c => c

def PolicyOp.withoutUser : PolicyOp → PolicyOp
  | .change c => .change c.withoutUser
  | op => op

def PolicyAnswer.withoutUser : PolicyAnswer → PolicyAnswer
  | .peer reply => .peer (reply.map VpnPeer.withoutUser)
  | answer => answer

namespace VpnPolicy

variable (policy : VpnPolicy)

theorem values_withoutUsers :
    policy.withoutUsers.values = policy.values.map VpnPeer.withoutUser := by
  simp only [values, withoutUsers, Std.ExtTreeMap.toList_map, List.map_map]
  rfl

theorem getElem?_withoutUsers (id : PeerId) :
    policy.withoutUsers.peers[id]? = policy.peers[id]?.map VpnPeer.withoutUser :=
  Std.ExtTreeMap.getElem?_map

theorem contains_withoutUsers (id : PeerId) :
    policy.withoutUsers.peers.contains id = policy.peers.contains id :=
  Std.ExtTreeMap.contains_map

theorem allocateAddress_withoutUsers :
    policy.withoutUsers.allocateAddress = policy.allocateAddress := by
  unfold allocateAddress
  rw [values_withoutUsers, List.map_map]
  rfl

/-- Inserting a peer and erasing the users commute. -/
theorem withoutUsers_insert (generation : Generation) (id : PeerId) (peer : VpnPeer) :
    (⟨generation, policy.withoutUsers.peers.insert id peer.withoutUser⟩ : VpnPolicy) =
      VpnPolicy.withoutUsers ⟨generation, policy.peers.insert id peer⟩ := by
  refine congrArg (VpnPolicy.mk generation) (Std.ExtTreeMap.ext_getElem? fun id' => ?_)
  rw [Peers.getElem?_insert_peer, getElem?_withoutUsers, Std.ExtTreeMap.getElem?_map,
    Peers.getElem?_insert_peer]
  split <;> rfl

theorem withoutUsers_erase (generation : Generation) (id : PeerId) :
    (⟨generation, policy.withoutUsers.peers.erase id⟩ : VpnPolicy) =
      VpnPolicy.withoutUsers ⟨generation, policy.peers.erase id⟩ := by
  refine congrArg (VpnPolicy.mk generation) (Std.ExtTreeMap.ext_getElem? fun id' => ?_)
  rw [Peers.getElem?_erase_peer, getElem?_withoutUsers, Std.ExtTreeMap.getElem?_map,
    Peers.getElem?_erase_peer]
  split <;> rfl

/-- A manifest does not contain the users. -/
theorem manifest_withoutUsers (generatedAt : String) :
    policy.withoutUsers.manifest generatedAt = policy.manifest generatedAt := by
  have hentries : policy.withoutUsers.values.map GatewayPeer.ofPeer =
      policy.values.map GatewayPeer.ofPeer := by
    rw [values_withoutUsers, List.map_map]
    rfl
  have hlength : policy.withoutUsers.values.length = policy.values.length := by
    rw [values_withoutUsers, List.length_map]
  rw [manifest, manifest, PeerManifest.new, PeerManifest.new, hentries, hlength]
  rfl

/-! ## Operations on erased policies -/

theorem enroll_withoutUsers (userId : UserId) (peerId : PeerId) (publicKey : WireGuardPublicKey)
    (games : Bool) :
    policy.withoutUsers.enroll erasedUser peerId publicKey games =
      (policy.enroll userId peerId publicKey games).map
        (fun result => (result.1.map VpnPeer.withoutUser, result.2.withoutUsers)) := by
  have hkeys : policy.withoutUsers.values.any (fun peer => peer.publicKey = publicKey) =
      policy.values.any (fun peer => peer.publicKey = publicKey) := by
    rw [values_withoutUsers, List.any_map]
    rfl
  rw [enroll, enroll, contains_withoutUsers, hkeys, allocateAddress_withoutUsers]
  split
  · rfl
  · cases policy.allocateAddress with
    | error e => rfl
    | ok address =>
        dsimp only
        rw [Option.map_map]
        refine Option.map_congr fun generation _ => ?_
        exact congrArg (Prod.mk _) (withoutUsers_insert policy generation peerId
          ⟨userId, peerId, publicKey, address, .onDemand, games⟩)

theorem setGames_withoutUsers (peerId : PeerId) (enabled : Bool) :
    policy.withoutUsers.setGames peerId enabled =
      (policy.setGames peerId enabled).map (fun result => (result.1, result.2.withoutUsers)) := by
  rw [setGames, setGames, getElem?_withoutUsers]
  cases hpeer : policy.peers[peerId]? with
  | none => rfl
  | some peer =>
      dsimp only [Option.map_some]
      rw [apply_ite (Option.map _), Option.map_map]
      refine if_congr Iff.rfl rfl (Option.map_congr fun generation _ => ?_)
      exact congrArg (Prod.mk _)
        (withoutUsers_insert policy generation peerId { peer with games := enabled })

theorem rotateKey_withoutUsers (peerId : PeerId) (publicKey : WireGuardPublicKey) :
    policy.withoutUsers.rotateKey peerId publicKey =
      (policy.rotateKey peerId publicKey).map
        (fun result => (result.1, result.2.withoutUsers)) := by
  have hkeys : policy.withoutUsers.peers.toList.any
      (fun entry => entry.1 ≠ peerId && entry.2.publicKey = publicKey) =
      policy.peers.toList.any (fun entry => entry.1 ≠ peerId && entry.2.publicKey = publicKey) := by
    simp only [withoutUsers, Std.ExtTreeMap.toList_map, List.any_map]
    rfl
  rw [rotateKey, rotateKey, hkeys, getElem?_withoutUsers]
  split
  · rfl
  · cases hpeer : policy.peers[peerId]? with
    | none => rfl
    | some peer =>
        dsimp only [Option.map_some]
        rw [apply_ite (Option.map _), Option.map_map]
        refine if_congr Iff.rfl rfl (Option.map_congr fun generation _ => ?_)
        exact congrArg (Prod.mk _)
          (withoutUsers_insert policy generation peerId { peer with publicKey })

theorem revoke_withoutUsers (peerId : PeerId) :
    policy.withoutUsers.revoke peerId =
      (policy.revoke peerId).map
        (fun result => (result.1.map VpnPeer.withoutUser, result.2.withoutUsers)) := by
  rw [revoke, revoke, getElem?_withoutUsers]
  cases hpeer : policy.peers[peerId]? with
  | none => rfl
  | some peer =>
      dsimp only [Option.map_some]
      rw [Option.map_map]
      refine Option.map_congr fun generation _ => ?_
      exact congrArg (Prod.mk _) (withoutUsers_erase policy generation peerId)

end VpnPolicy

/-- What a run shows, without the users. -/
def withoutUsers (result : PolicyAnswer × VpnPolicy) : PolicyAnswer × VpnPolicy :=
  (result.1.withoutUser, result.2.withoutUsers)

/-- **An operation on an erased policy is the erased operation on the policy.** -/
theorem perform_withoutUser (op : PolicyOp) (policy : VpnPolicy) :
    op.withoutUser.perform policy.withoutUsers = (op.perform policy).map withoutUsers := by
  cases op with
  | change c =>
      cases c with
      | enroll userId peerId publicKey games =>
          simp only [PolicyOp.perform, PolicyOp.withoutUser, Call.withoutUser, Call.apply,
            policy.enroll_withoutUsers userId, Option.map_map]
          rfl
      | setGames peerId enabled =>
          simp only [PolicyOp.perform, PolicyOp.withoutUser, Call.withoutUser, Call.apply,
            policy.setGames_withoutUsers, Option.map_map]
          rfl
      | rotateKey peerId publicKey =>
          simp only [PolicyOp.perform, PolicyOp.withoutUser, Call.withoutUser, Call.apply,
            policy.rotateKey_withoutUsers, Option.map_map]
          rfl
      | revoke peerId =>
          simp only [PolicyOp.perform, PolicyOp.withoutUser, Call.withoutUser, Call.apply,
            policy.revoke_withoutUsers, Option.map_map]
          rfl
  | manifest generatedAt =>
      simp only [PolicyOp.perform, PolicyOp.withoutUser, policy.manifest_withoutUsers,
        Option.map_map]
      rfl

/-- The run of the erased operations is the erased run. -/
theorem runAll_withoutUser (ops : List PolicyOp) (policy : VpnPolicy) :
    PolicyOp.runAll policy.withoutUsers (ops.map PolicyOp.withoutUser) =
      (PolicyOp.runAll policy ops).map (Option.map withoutUsers) := by
  induction ops generalizing policy with
  | nil => rfl
  | cons op ops ih =>
      rw [List.map_cons, PolicyOp.runAll, PolicyOp.runAll, perform_withoutUser]
      cases op.perform policy with
      | none => rfl
      | some result =>
          exact congrArg (List.cons (some (withoutUsers result))) (ih result.2)

theorem DifferInUser.withoutUser_eq {op op' : PolicyOp} (h : DifferInUser op op') :
    op.withoutUser = op'.withoutUser := by
  cases h <;> rfl

/-- Answers with the same erasure differ in the user at most. -/
theorem SameButUser.of_withoutUser {answer answer' : PolicyAnswer}
    (h : answer.withoutUser = answer'.withoutUser) : SameButUser answer answer' := by
  cases answer with
  | peer reply =>
      cases answer' with
      | peer reply' =>
          cases reply with
          | error e =>
              cases reply' with
              | error e' =>
                  cases h
                  exact .same _
              | ok peer' => cases h
          | ok peer =>
              cases reply' with
              | error e' => cases h
              | ok peer' =>
                  obtain ⟨-, hpeerId, hkey, haddress, hpolicy, hgames⟩ :=
                    VpnPeer.mk.inj (Except.ok.inj (PolicyAnswer.peer.inj h))
                  obtain ⟨userId', peerId', publicKey', address', healthPolicy', games'⟩ := peer'
                  cases hpeerId
                  cases hkey
                  cases haddress
                  cases hpolicy
                  cases hgames
                  exact .peer rfl
      | changed reply' => cases h
      | manifest reply' => cases h
  | changed reply =>
      cases answer' with
      | peer reply' => cases h
      | changed reply' =>
          cases h
          exact .same _
      | manifest reply' => cases h
  | manifest reply =>
      cases answer' with
      | peer reply' => cases h
      | changed reply' => cases h
      | manifest reply' =>
          cases h
          exact .same _

theorem VpnPolicy.gatewayView_withoutUsers (policy : VpnPolicy) (gatewayId : GatewayId)
    (generatedAt : String) :
    policy.withoutUsers.gatewayView gatewayId generatedAt =
      policy.gatewayView gatewayId generatedAt := by
  rw [gatewayView, manifest_withoutUsers, gatewayView]

/-- Results with the same erasure correspond. -/
theorem Corresponding.of_withoutUsers {result result' : Option (PolicyAnswer × VpnPolicy)}
    (h : result.map withoutUsers = result'.map withoutUsers) : Corresponding result result' := by
  cases result with
  | none =>
      cases result' with
      | none => exact .panicked
      | some result' => cases h
  | some result =>
      cases result' with
      | none => cases h
      | some result' =>
          obtain ⟨answer, policy⟩ := result
          obtain ⟨answer', policy'⟩ := result'
          have hboth := Prod.mk.inj (Option.some.inj h)
          refine .answered (.of_withoutUser hboth.1) (congrArg VpnPolicy.generation hboth.2 :) ?_
          intro gatewayId generatedAt
          rw [← policy.gatewayView_withoutUsers, hboth.2, policy'.gatewayView_withoutUsers]

/-- **User identity never reaches the gateway.** -/
theorem user_identity_hidden (ops ops' : List PolicyOp) (h : List.Forall₂ DifferInUser ops ops') :
    List.Forall₂ Corresponding (PolicyOp.runAll .default ops) (PolicyOp.runAll .default ops') := by
  have hops : ops.map PolicyOp.withoutUser = ops'.map PolicyOp.withoutUser := by
    rw [← List.forall₂_eq_eq_eq, List.forall₂_map_left_iff, List.forall₂_map_right_iff]
    exact h.imp fun _ _ => DifferInUser.withoutUser_eq
  have hruns : (PolicyOp.runAll .default ops).map (Option.map withoutUsers) =
      (PolicyOp.runAll .default ops').map (Option.map withoutUsers) := by
    rw [← runAll_withoutUser, ← runAll_withoutUser, hops]
  rw [← List.forall₂_eq_eq_eq, List.forall₂_map_left_iff, List.forall₂_map_right_iff] at hruns
  exact hruns.imp fun _ _ => Corresponding.of_withoutUsers

end Identity

section Sample

attribute [local instance] Reference.crates

/-- An enrolment by the given user, and a manifest of it. -/
def sampleOps (userId : UserId) : List PolicyOp :=
  [.change (.enroll userId samplePeer sampleKey false), .manifest "2026-08-01T20:00:00Z"]

theorem user_identity_hidden_sample :
    sampleUser ≠ erasedUser ∧
    List.Forall₂ Corresponding (PolicyOp.runAll .default (sampleOps sampleUser))
      (PolicyOp.runAll .default (sampleOps erasedUser)) :=
  ⟨by decide, user_identity_hidden _ _ (.cons (.enroll ..) (.cons (.same _) .nil))⟩

end Sample

end RsConsole
