import RsConsole.Api.Acknowledgements
import RsConsole.Policy.Allocation

set_option autoImplicit false

/-! # Publishing a policy

The owner of a policy changes it and sets its manifests as desired, while gateways poll and
acknowledge; the calls of the store interleave in any order. The owner sets the manifests of one
history of the policy in its order, so what is desired for a gateway only moves forward along that
history (`desired_leads`). What a gateway is delivered, or what is recorded for it, was desired when
its request read it (`published_fresh`). So a peer that is revoked is out of reach as soon as a later
policy is published (`revocation_reaches_gateways`). -/

namespace RsConsole

open Library Relation GatewaySyncService
open InMemoryGatewayStateStore (perform)

section Publishing

variable [Crates]

/-! ## The owner of a policy -/

/-- What the owner of a policy does. -/
inductive Task where
  | change (call : Call)
  | publish (gatewayId : GatewayId) (generatedAt : String)

/-- The owner works its tasks off. A change that panics ends the work, and a manifest that the policy
    refuses is not set. -/
def publisher : List Task → VpnPolicy → Sync Unit
  | [], _ => pure ()
  | .change call :: tasks, policy =>
      match call.apply policy with
      | none => pure ()
      | some reply => publisher tasks reply.2
  | .publish gatewayId generatedAt :: tasks, policy =>
      match policy.manifest generatedAt with
      | some (.ok manifest) => do
          askStore (.setDesired gatewayId manifest)
          publisher tasks policy
      | _ => publisher tasks policy

namespace Task

/-- The policy after the tasks, unless one of them panics. -/
def lead : List Task → VpnPolicy → Option VpnPolicy
  | [], policy => some policy
  | .change call :: tasks, policy =>
      match call.apply policy with
      | none => none
      | some reply => lead tasks reply.2
  | .publish .. :: tasks, policy => lead tasks policy

theorem lead_append (before after : List Task) (policy : VpnPolicy) :
    lead (before ++ after) policy = (lead before policy).bind (lead after) := by
  induction before generalizing policy with
  | nil => rfl
  | cons task before ih =>
      cases task with
      | publish gatewayId generatedAt => exact ih policy
      | change call =>
          rw [List.cons_append, lead, lead]
          cases call.apply policy with
          | none => rfl
          | some reply => exact ih reply.2

/-- Working tasks off is a history of the policy. -/
theorem leads_of_lead {tasks : List Task} {policy policy' : VpnPolicy}
    (h : lead tasks policy = some policy') : Leads policy policy' := by
  induction tasks generalizing policy with
  | nil =>
      cases h
      exact .refl
  | cons task tasks ih =>
      cases task with
      | publish gatewayId generatedAt => exact ih h
      | change call =>
          rw [lead] at h
          cases happly : call.apply policy with
          | none =>
              rw [happly] at h
              cases h
          | some reply =>
              rw [happly] at h
              exact .head ⟨call, reply.1, happly⟩ (ih h)

end Task

/-- After the tasks `before` the next one sets `manifest`, which is the one of `policy`. -/
structure Publishes (tasks : List Task) (start : VpnPolicy) (before : List Task) (policy : VpnPolicy)
    (gatewayId : GatewayId) (manifest : PeerManifest) : Prop where
  next : ∃ generatedAt after, tasks = before ++ .publish gatewayId generatedAt :: after ∧
    policy.manifest generatedAt = some (.ok manifest)
  lead : Task.lead before start = some policy

namespace Publishes

variable {tasks before : List Task} {start start' policy : VpnPolicy} {gatewayId : GatewayId}
  {manifest : PeerManifest}

theorem cons {task : Task} (h : Publishes tasks start' before policy gatewayId manifest)
    (hlead : Task.lead [task] start = some start') :
    Publishes (task :: tasks) start (task :: before) policy gatewayId manifest := by
  obtain ⟨⟨generatedAt, after, rfl, hmanifest⟩, hbefore⟩ := h
  refine ⟨⟨generatedAt, after, rfl, hmanifest⟩, ?_⟩
  rw [← List.singleton_append, Task.lead_append, hlead]
  exact hbefore

theorem append (h : Publishes tasks start before policy gatewayId manifest) (rest : List Task) :
    Publishes (tasks ++ rest) start before policy gatewayId manifest := by
  obtain ⟨⟨generatedAt, after, rfl, hmanifest⟩, hbefore⟩ := h
  exact ⟨⟨generatedAt, after ++ rest, by rw [List.append_assoc, List.cons_append], hmanifest⟩,
    hbefore⟩

/-- An earlier publication is of an earlier policy. -/
theorem leads {before' : List Task} {policy' : VpnPolicy} {gatewayId' : GatewayId}
    {manifest' : PeerManifest} (h : Publishes tasks start before policy gatewayId manifest)
    (h' : Publishes before start before' policy' gatewayId' manifest') : Leads policy' policy := by
  obtain ⟨generatedAt, after, hbefore, -⟩ := h'.next
  have hlead := h.lead
  rw [hbefore, Task.lead_append, h'.lead] at hlead
  exact Task.leads_of_lead hlead

theorem reachable (h : Publishes tasks .default before policy gatewayId manifest) :
    Reachable policy :=
  Task.leads_of_lead h.lead

/-- What is set lists the peers of the policy. -/
theorem manifest_eq (h : Publishes tasks .default before policy gatewayId manifest) :
    manifest.generation = policy.generation ∧
      manifest.peers = policy.values.map GatewayPeer.ofPeer := by
  obtain ⟨generatedAt, -, -, hmanifest⟩ := h.next
  rw [h.reachable.consistent.manifest_eq] at hmanifest
  obtain ⟨valid, -, hvalid⟩ := Option.map_eq_some_iff.1 hmanifest
  split at hvalid
  · cases hvalid
    exact ⟨rfl, rfl⟩
  · cases hvalid

end Publishes

/-- The owner asks for nothing but to set its manifests, in the order of its tasks. -/
theorem publisher_asks {tasks : List Task} {start : VpnPolicy}
    {past : List (Exchange StateCall StateAnswer)} {c : StateCall}
    (h : Fallible.Asks (publisher tasks start) past c) :
    ∃ before policy gatewayId manifest, Publishes tasks start before policy gatewayId manifest ∧
      c = .setDesired gatewayId manifest ∧
      ∀ x ∈ past, ∃ before' policy' gatewayId' manifest',
        Publishes before start before' policy' gatewayId' manifest' ∧
          x.call = .setDesired gatewayId' manifest' := by
  induction tasks generalizing start past with
  | nil => exact ((Fallible.asks_pure _ _ _).1 h).elim
  | cons task tasks ih =>
      -- an earlier task leads on, and what follows is asked by the rest
      have hrest : ∀ {start' : VpnPolicy} {past' : List (Exchange StateCall StateAnswer)},
          Task.lead [task] start = some start' →
          Fallible.Asks (publisher tasks start') past' c →
          ∃ before policy gatewayId manifest,
            Publishes (task :: tasks) start (task :: before) policy gatewayId manifest ∧
            c = .setDesired gatewayId manifest ∧
            ∀ x ∈ past', ∃ before' policy' gatewayId' manifest',
              Publishes (task :: before) start before' policy' gatewayId' manifest' ∧
                x.call = .setDesired gatewayId' manifest' := by
        intro start' past' hlead hasks
        obtain ⟨before, policy, gatewayId, manifest, hpublishes, hc, hpast⟩ := ih hasks
        refine ⟨before, policy, gatewayId, manifest, hpublishes.cons hlead, hc, fun x hx => ?_⟩
        obtain ⟨before', policy', gatewayId', manifest', hpublishes', hx⟩ := hpast x hx
        exact ⟨_, policy', gatewayId', manifest', hpublishes'.cons hlead, hx⟩
      cases task with
      | change call =>
          rw [publisher] at h
          cases happly : call.apply start with
          | none =>
              rw [happly] at h
              exact ((Fallible.asks_pure _ _ _).1 h).elim
          | some reply =>
              rw [happly] at h
              obtain ⟨before, hfound⟩ := hrest (by rw [Task.lead, happly]; rfl) h
              exact ⟨_, hfound⟩
      | publish gatewayId generatedAt =>
          rw [publisher] at h
          split at h
          · next manifest hmanifest =>
              rcases (Fallible.asks_bind _ _ _ _).1 h with hset | ⟨done, past', _, rfl, hdone, hasks⟩
              · obtain ⟨rfl, rfl⟩ := (Fallible.asks_awaitMap _ _ _ _).1 hset
                exact ⟨[], start, gatewayId, manifest, ⟨⟨generatedAt, tasks, rfl, hmanifest⟩, rfl⟩,
                  rfl, fun x hx => by cases hx⟩
              · obtain ⟨before, policy, g, m, hpublishes, hc, hpast⟩ := hrest rfl hasks
                refine ⟨_, policy, g, m, hpublishes, hc, fun x hx => ?_⟩
                rcases List.mem_append.1 hx with hx | hx
                · rw [(Fallible.returns_awaitMap _ _ _ _).1 hdone, List.mem_singleton] at hx
                  exact ⟨[], start, gatewayId, manifest,
                    ⟨⟨generatedAt, before, rfl, hmanifest⟩, rfl⟩, congrArg Exchange.call hx⟩
                · exact hpast x hx
          · obtain ⟨before, hfound⟩ := hrest rfl h
            exact ⟨_, hfound⟩

/-! ## Runs -/

/-- What gateways ask. -/
inductive GatewayRequest where
  | poll (report : GatewayStateReport)
  | acknowledge (acknowledgement : GatewayAcknowledgement)

def GatewayRequest.operation : GatewayRequest → SyncOperation
  | poll report => .poll report
  | acknowledge acknowledgement => .acknowledge acknowledgement

theorem GatewayRequest.operation_ne (request : GatewayRequest) {g : GatewayId} {m : PeerManifest} :
    request.operation ≠ .setDesired g m := by
  intro h
  cases request with
  | poll => cases h
  | acknowledge => cases h

variable {τ : Type} {g : GatewayId} {m m' : PeerManifest}

/-- The type of a client's result. -/
abbrev PublishingResult (requests : τ → GatewayRequest) : Option τ → Type
  | none => Unit
  | some t => (requests t).operation.Result

/-- The owner of the policy, and the requests of the gateways. -/
def publishingClient (tasks : List Task) (requests : τ → GatewayRequest) :
    (t : Option τ) → Sync (PublishingResult requests t)
  | none => publisher tasks .default
  | some t => (requests t).operation.code

/-- A run of the owner of a new policy and of gateways over an empty store. -/
def PublishingRun [DecidableEq τ] (tasks : List Task) (requests : τ → GatewayRequest)
    (tr : List (SyncEvent (Option τ))) (store : InMemoryGatewayStateStore) : Prop :=
  ∃ pool, Run (effectOf fun (_ : Unit) => perform) .default
    (fun t => (publishingClient tasks requests t).run) tr store pool

/-- The event sets the manifest of `policy`, which the owner has led to by the tasks `before`. -/
def Published (tasks : List Task) (e : SyncEvent (Option τ)) (before : List Task)
    (policy : VpnPolicy) (gatewayId : GatewayId) (manifest : PeerManifest) : Prop :=
  e.call = .setDesired gatewayId manifest ∧
    Publishes tasks .default before policy gatewayId manifest

/-- A request of a gateway sets nothing. -/
theorem sets_nothing {op : SyncOperation} {past : List (Exchange StateCall StateAnswer)}
    (h : Fallible.Asks op.code past (.setDesired g m)) : op = .setDesired g m := by
  cases op with
  | poll report =>
      simp [SyncOperation.code, poll, askStore, ofPolicy] at h
      obtain ⟨rest, desired, rfl, -, digest, -, h⟩ := h
      split at h
      · simp at h
      · split at h
        · simp at h
        · simp at h
        · split at h <;> simp at h
  | acknowledge acknowledgement =>
      simp [SyncOperation.code, acknowledge, askStore, ofPolicy] at h
  | setDesired gatewayId manifest =>
      simp [SyncOperation.code, askStore] at h
      rw [h.2.1, h.2.2]

/-- A poll that delivers a manifest has read it, and asked nothing else. -/
theorem returns_poll {report : GatewayStateReport} {delivery : PeerDelivery}
    {past : List (Exchange StateCall StateAnswer)}
    (h : Fallible.Returns (poll report) past (some delivery)) :
    past = [⟨.desiredManifest report.gatewayId, .ok (some delivery.manifest)⟩] := by
  have hdelivered : ∀ {desired : PeerManifest} {rest : List (Exchange StateCall StateAnswer)},
      Fallible.Returns (ofPolicy ((PeerDelivery.new report.gatewayId desired).map some)) rest
        (some delivery) → rest = [] ∧ desired = delivery.manifest := by
    intro desired rest hreturns
    obtain ⟨rfl, hnew⟩ := (Fallible.returns_ofExcept _ _ _).1 hreturns
    cases hd : PeerDelivery.new report.gatewayId desired with
    | error e =>
        rw [hd] at hnew
        cases hnew
    | ok d =>
        rw [hd] at hnew
        cases hnew
        exact ⟨rfl, (PeerDelivery.new_eq_ok hd).2.1.symm⟩
  simp [poll, askStore] at h
  obtain ⟨desired, before, after, rfl, -, digest, hdigest, hreturns⟩ := h
  obtain ⟨rfl, -⟩ := (Fallible.returns_ofExcept _ _ _).1 hdigest
  suffices h : after = [] ∧ desired = delivery.manifest by
    rw [h.1, h.2]
    rfl
  split at hreturns
  · exact hdelivered hreturns
  · split at hreturns
    · exact hdelivered hreturns
    · exact ((Fallible.returns_throw _ _ _).1 hreturns).elim
    · split at hreturns
      · obtain ⟨-, hnone⟩ := (Fallible.returns_pure _ _ _).1 hreturns
        cases hnone
      · exact ((Fallible.returns_throw _ _ _).1 hreturns).elim

namespace PublishingRun

variable [DecidableEq τ] {tasks : List Task} {requests : τ → GatewayRequest}
  {tr newer older : List (SyncEvent (Option τ))} {store : InMemoryGatewayStateStore}
  {e e' r : SyncEvent (Option τ)}

theorem performed (h : PublishingRun tasks requests tr store) (he : e ∈ tr) :
    perform e.call e.pre = (e.resp, e.post) := by
  obtain ⟨pool, run⟩ := h
  obtain ⟨⟨⟩, hperform⟩ := run.performed he
  exact hperform

theorem locks (h : PublishingRun tasks requests tr store) : store.Open := by
  obtain ⟨pool, run⟩ := h
  exact run.invariant ⟨rfl, rfl⟩ fun ⟨_, hperform⟩ hopen => open_performed hperform hopen

theorem locks_pre (h : PublishingRun tasks requests tr store) (he : e ∈ tr) : e.pre.Open := by
  obtain ⟨newer, older, rfl⟩ := List.append_of_mem he
  obtain ⟨pool, run⟩ := h
  obtain ⟨pool', run'⟩ := run.older
  exact locks ⟨pool', run'⟩

/-- Manifests are set by the owner, those of earlier policies before. -/
theorem published (h : PublishingRun tasks requests tr store) (he : e ∈ tr)
    (hset : e.call = .setDesired g m) :
    e.tid = none ∧ ∃ before policy, Publishes tasks .default before policy g m ∧
      ∀ e₀ g₀ m₀, Precedes tr e₀ e → e₀.call = .setDesired g₀ m₀ → e₀.tid = none →
        ∃ before₀ policy₀, Publishes before .default before₀ policy₀ g₀ m₀ := by
  obtain ⟨pool, run⟩ := h
  obtain ⟨past, hasks, -, hin⟩ := run.asks_of_mem he
  obtain ⟨tid, call, resp, pre, post⟩ := e
  cases hset
  cases tid with
  | some t =>
      have hasks : Fallible.Asks (requests t).operation.code past (.setDesired g m) := hasks
      exact absurd (sets_nothing hasks) (requests t).operation_ne
  | none =>
      obtain ⟨before, policy, gatewayId, manifest, hpublishes, hcall, hpast⟩ := publisher_asks hasks
      cases hcall
      refine ⟨rfl, before, policy, hpublishes, fun e₀ g₀ m₀ hprec hset htid => ?_⟩
      obtain ⟨before₀, policy₀, g₁, m₁, hpublishes₀, hcall₀⟩ := hpast _ (hin e₀ hprec htid)
      cases hset.symm.trans hcall₀
      exact ⟨before₀, policy₀, hpublishes₀⟩

/-- What is desired was set, and nothing was set for the gateway since. -/
theorem last_set (h : PublishingRun tasks requests tr store)
    (hdesired : store.desired.value g = some m) :
    ∃ newer e older, tr = newer ++ e :: older ∧ e.call = .setDesired g m ∧
      ∀ e' ∈ newer, ∀ m', e'.call ≠ .setDesired g m' := by
  obtain ⟨pool, run⟩ := h
  induction run with
  | init => cases hdesired
  | @step tr s s' pool t c next resp run ready hperform ih =>
      obtain ⟨⟨⟩, hperform⟩ := hperform
      have hbefore : PublishingRun tasks requests tr s := ⟨pool, run⟩
      rcases desired_performed (g := g) hperform hbefore.locks with ⟨m₁, rfl, hm₁⟩ | ⟨hnot, hkept⟩
      · cases hdesired.symm.trans hm₁
        exact ⟨[], _, tr, rfl, rfl, fun e' he' => by cases he'⟩
      · obtain ⟨newer, e, older, rfl, hset, hnone⟩ := ih (hkept.symm.trans hdesired)
        refine ⟨_ :: newer, e, older, rfl, hset, fun e' he' => ?_⟩
        rcases List.mem_cons.1 he' with rfl | he'
        · exact hnot
        · exact hnone e' he'

/-- What is desired is the manifest of the policy that was published last. -/
theorem desired_leads (h : PublishingRun tasks requests tr store)
    (hdesired : store.desired.value g = some m) :
    ∃ before policy, Publishes tasks .default before policy g m ∧
      (∃ e ∈ tr, e.call = .setDesired g m) ∧
      ∀ e₀ ∈ tr, ∀ m₀, e₀.call = .setDesired g m₀ →
        ∃ before₀ policy₀, Publishes tasks .default before₀ policy₀ g m₀ ∧ Leads policy₀ policy := by
  obtain ⟨newer, e, older, rfl, hset, hnone⟩ := h.last_set hdesired
  have he : e ∈ newer ++ e :: older := List.mem_append_right _ List.mem_cons_self
  obtain ⟨-, before, policy, hpublishes, hearlier⟩ := h.published he hset
  refine ⟨before, policy, hpublishes, ⟨e, he, hset⟩, fun e₀ he₀ m₀ hset₀ => ?_⟩
  rcases List.mem_append.1 he₀ with hnew | hold
  · exact absurd hset₀ (hnone e₀ hnew m₀)
  · rcases List.mem_cons.1 hold with rfl | hold
    · cases hset.symm.trans hset₀
      exact ⟨before, policy, hpublishes, .refl⟩
    · have htid := (h.published he₀ hset₀).1
      obtain ⟨before₀, policy₀, hpublishes₀⟩ := hearlier e₀ g m₀
        (precedes_iff_split.2 ⟨newer, older, rfl, hold⟩) hset₀ htid
      obtain ⟨generatedAt, after, htasks, -⟩ := hpublishes.next
      exact ⟨before₀, policy₀, htasks ▸ hpublishes₀.append _, hpublishes.leads hpublishes₀⟩

end PublishingRun

/-- When the event happened, `manifest` was the one that had been published last for the gateway: it
    is the manifest of one policy, and what had been set for the gateway is of that or earlier
    ones. -/
def Latest (tasks : List Task) (tr : List (SyncEvent (Option τ))) (r : SyncEvent (Option τ))
    (g : GatewayId) (manifest : PeerManifest) : Prop :=
  ∃ before policy, Publishes tasks .default before policy g manifest ∧
    (∃ e, Precedes tr e r ∧ e.call = .setDesired g manifest) ∧
    ∀ e₀ m₀, Precedes tr e₀ r → e₀.call = .setDesired g m₀ →
      ∃ before₀ policy₀, Publishes tasks .default before₀ policy₀ g m₀ ∧ Leads policy₀ policy

namespace PublishingRun

variable [DecidableEq τ] {tasks : List Task} {requests : τ → GatewayRequest}
  {tr newer older : List (SyncEvent (Option τ))} {store : InMemoryGatewayStateStore}
  {e e' r : SyncEvent (Option τ)}

theorem latest_of_read (h : PublishingRun tasks requests tr store) (hr : r ∈ tr)
    (hread : r.exchange = ⟨.desiredManifest g, .ok (some m)⟩) : Latest tasks tr r g m := by
  have hperform := h.performed hr
  have hopen := h.locks_pre hr
  obtain ⟨newer, older, rfl, hnew⟩ := List.eq_append_cons_of_mem hr
  obtain ⟨pool, run⟩ := h
  obtain ⟨pool', run'⟩ := run.older
  obtain ⟨tid, call, resp, pre, post⟩ := r
  obtain ⟨rfl, hresp⟩ := Exchange.mk.inj hread
  rw [eq_of_heq hresp] at hperform
  obtain ⟨hdesired, -⟩ := desiredManifest_performed hperform hopen
  have hbefore : PublishingRun tasks requests older pre := ⟨pool', run'⟩
  obtain ⟨before, policy, hpublishes, ⟨e, he, hset⟩, hall⟩ := hbefore.desired_leads hdesired
  refine ⟨before, policy, hpublishes, ⟨e, precedes_iff_split.2 ⟨newer, older, rfl, he⟩, hset⟩, ?_⟩
  intro e₀ m₀ hprec hset₀
  exact hall e₀ (precedes_append_of_notMem hnew hprec) m₀ hset₀

/-- A client that delivers or records a manifest read it. -/
theorem read_of_poll (h : PublishingRun tasks requests tr store) {t : τ}
    {report : GatewayStateReport} {delivery : PeerDelivery}
    (hreturns : Fallible.Returns (poll report) (exchanges tr (some t)) (some delivery)) :
    ∃ r ∈ tr, r.tid = some t ∧ Latest tasks tr r report.gatewayId delivery.manifest := by
  have hpast := returns_poll hreturns
  obtain ⟨r, hr, htid, hread⟩ := mem_exchanges (hpast ▸ List.mem_singleton_self _)
  exact ⟨r, hr, htid, h.latest_of_read hr hread⟩

theorem read_of_record (h : PublishingRun tasks requests tr store) (he : e ∈ tr)
    {digest : ManifestDigest} (hrecord : e.call = .recordApplied g m digest) :
    ∃ r, Precedes tr r e ∧ r.tid = e.tid ∧ Latest tasks tr r g m := by
  obtain ⟨pool, run⟩ := id h
  obtain ⟨past, hasks, hback, -⟩ := run.asks_of_mem he
  obtain ⟨tid, call, resp, pre, post⟩ := e
  cases hrecord
  cases tid with
  | none =>
      obtain ⟨_, _, _, _, _, hcall, _⟩ := publisher_asks hasks
      cases hcall
  | some t =>
      have hasks : Fallible.Asks (requests t).operation.code past (.recordApplied g m digest) := hasks
      have hpast := recordApplied_asked hasks
      obtain ⟨r, hprec, htid, hread⟩ := hback _ (hpast ▸ List.mem_singleton_self _)
      exact ⟨r, hprec, htid, h.latest_of_read hprec.left_mem hread⟩

end PublishingRun

section Revocation

variable {id : PeerId} {policy policy' : VpnPolicy}

/-- The task enrolls the peer. -/
def Task.Enrolls (id : PeerId) (task : Task) : Prop :=
  ∃ userId publicKey games, task = .change (.enroll userId id publicKey games)

/-- Only an enrolment adds a peer. -/
theorem absent_applied {c : Call} {r : Except PolicyError c.Reply}
    (h : c.apply policy = some (r, policy')) (habsent : policy.peers[id]? = none)
    (hc : ∀ userId publicKey games, c ≠ .enroll userId id publicKey games) :
    policy'.peers[id]? = none := by
  rw [apply_update h, habsent]
  cases r with
  | error e => cases c <;> rfl
  | ok a =>
      cases c with
      | enroll userId peerId publicKey games =>
          have hne : peerId ≠ id := fun heq => hc userId publicKey games (heq ▸ rfl)
          exact if_neg hne
      | setGames peerId enabled => exact ite_self none
      | rotateKey peerId publicKey => exact ite_self none
      | revoke peerId => exact ite_self none

theorem absent_lead {tasks : List Task} (h : Task.lead tasks policy = some policy')
    (habsent : policy.peers[id]? = none) (htasks : ∀ task ∈ tasks, ¬ task.Enrolls id) :
    policy'.peers[id]? = none := by
  induction tasks generalizing policy with
  | nil =>
      cases h
      exact habsent
  | cons task tasks ih =>
      have hrest : ∀ task ∈ tasks, ¬ task.Enrolls id :=
        fun task htask => htasks task (List.mem_cons_of_mem _ htask)
      cases task with
      | publish gatewayId generatedAt => exact ih h habsent hrest
      | change call =>
          rw [Task.lead] at h
          cases happly : call.apply policy with
          | none =>
              rw [happly] at h
              cases h
          | some reply =>
              rw [happly] at h
              refine ih h (absent_applied happly habsent ?_) hrest
              rintro userId publicKey games rfl
              exact htasks _ List.mem_cons_self ⟨userId, publicKey, games, rfl⟩

/-- What lists the peers of a policy without the peer does not list it. -/
theorem absent_listed {tasks publishing : List Task} {g : GatewayId} {m : PeerManifest}
    (h : Publishes tasks .default publishing policy g m) (habsent : policy.peers[id]? = none) :
    ∀ entry ∈ m.peers, entry.peerId ≠ id := by
  intro entry hentry hid
  rw [h.manifest_eq.2] at hentry
  obtain ⟨peer, hpeer, rfl⟩ := List.mem_map.1 hentry
  obtain ⟨id', hlookup⟩ := VpnPolicy.mem_values.1 hpeer
  have hfiled : peer.peerId = id' := h.reachable.consistent.peerId_eq hlookup
  have hid : peer.peerId = id := hid
  rw [← hfiled, hid, habsent] at hlookup
  cases hlookup

/-- A policy of a generation after the revocation does not have the peer. -/
theorem absent_published {before after publishing : List Task} {published : VpnPolicy}
    {peer : VpnPeer} {g : GatewayId} {m : PeerManifest}
    (hlead : Task.lead before .default = some policy)
    (hrevoke : policy.revoke id = some (.ok peer, policy'))
    (hafter : ∀ task ∈ after, ¬ task.Enrolls id)
    (h : Publishes (before ++ .change (.revoke id) :: after) .default publishing published g m)
    (hgeneration : policy'.generation.value ≤ published.generation.value) :
    published.peers[id]? = none := by
  obtain ⟨generatedAt, rest, htasks, -⟩ := h.next
  have hpublished := h.lead
  rcases List.append_eq_append_iff.1 htasks with ⟨between, rfl, hrest⟩ | ⟨between, rfl, -⟩
  · rw [Task.lead_append, hlead] at hpublished
    cases between with
    | nil => cases hrest
    | cons task between =>
        obtain ⟨rfl, rfl⟩ := List.cons.inj hrest
        have happly : (Call.revoke id).apply policy = some (.ok peer, policy') := hrevoke
        rw [Option.bind_some, Task.lead, happly] at hpublished
        refine absent_lead hpublished ?_ fun task htask =>
          hafter task (List.mem_append_left _ htask)
        rw [(revoke_ok hrevoke).2, Peers.getElem?_erase_peer, if_pos rfl]
  · -- what was published before the revocation has a smaller generation
    rw [Task.lead_append, hpublished] at hlead
    have hle := step_versions.version_mono (Task.leads_of_lead hlead)
    rcases revoke_cases hrevoke with ⟨⟨_, herror⟩, -⟩ | ⟨_, -, hnext, -⟩
    · cases herror
    · omega

/-- **A revoked peer is out of reach.** Once a manifest of a generation after the revocation has been
    set for a gateway, no request of the gateway that starts later is delivered a manifest that lists
    the peer, nor does it get one recorded, unless the peer is enrolled again. -/
theorem revocation_reaches_gateways [DecidableEq τ] {before after : List Task} {peer : VpnPeer}
    {requests : τ → GatewayRequest} {tr : List (SyncEvent (Option τ))}
    {store : InMemoryGatewayStateStore} {e : SyncEvent (Option τ)}
    (h : PublishingRun (before ++ .change (.revoke id) :: after) requests tr store)
    (hlead : Task.lead before .default = some policy)
    (hrevoke : policy.revoke id = some (.ok peer, policy'))
    (hafter : ∀ task ∈ after, ¬ task.Enrolls id) (hset : e.call = .setDesired g m)
    (hgeneration : policy'.generation.value ≤ m.generation.value) {t : τ}
    (hlater : ∀ r ∈ tr, r.tid = some t → Precedes tr e r) :
    (∀ report delivery, requests t = .poll report → report.gatewayId = g →
      Fallible.Returns (poll report) (exchanges tr (some t)) (some delivery) →
      ∀ entry ∈ delivery.manifest.peers, entry.peerId ≠ id) ∧
    ∀ e' ∈ tr, ∀ m' digest, e'.tid = some t → e'.call = .recordApplied g m' digest →
      ∀ entry ∈ m'.peers, entry.peerId ≠ id := by
  have hlatest : ∀ {r m'}, r ∈ tr → r.tid = some t →
      Latest (before ++ .change (.revoke id) :: after) tr r g m' →
      ∀ entry ∈ m'.peers, entry.peerId ≠ id := by
    rintro r m' hr htid ⟨publishing, published, hpublishes, -, hall⟩
    obtain ⟨publishing₀, published₀, hpublishes₀, hleads⟩ := hall e m (hlater r hr htid) hset
    refine absent_listed hpublishes (absent_published hlead hrevoke hafter hpublishes ?_)
    rw [hpublishes₀.manifest_eq.1] at hgeneration
    exact hgeneration.trans (step_versions.version_mono hleads)
  constructor
  · rintro report delivery - rfl hreturns
    obtain ⟨r, hr, htid, hr'⟩ := h.read_of_poll hreturns
    exact hlatest hr htid hr'
  · intro e' he' m' digest htid hrecord
    obtain ⟨r, hprec, htid', hr'⟩ := h.read_of_record he' hrecord
    exact hlatest hprec.left_mem (htid'.trans htid) hr'

end Revocation

end Publishing

section Sample

attribute [local instance] Reference.crates

/-- A peer is enrolled and later revoked, and the policy is published after both. -/
def sampleTasks : List Task :=
  [.change sampleEnroll, .publish sampleGateway "2026-08-01T20:00:00Z",
    .change (.revoke samplePeer), .publish sampleGateway "2026-08-01T20:00:01Z"]

def sampleReport : GatewayStateReport := .new sampleGateway []

/-- The gateway polls after each publication. -/
def samplePublishing :=
  play (fun (_ : Unit) => perform) .default
    (fun t => (publishingClient sampleTasks (fun _ : Fin 2 => .poll sampleReport) t).run)
    ([none, some 0, none, some 1].map fun t => (t, ()))

theorem samplePublishing_run :
    PublishingRun sampleTasks (fun _ : Fin 2 => .poll sampleReport) samplePublishing.trace
      samplePublishing.state :=
  ⟨_, play_run _ _ _ _⟩

/-- Both polls are delivered a manifest. -/
theorem samplePublishing_polls (t : Fin 2) :
    ∃ delivery, Fallible.Returns (poll sampleReport) (exchanges samplePublishing.trace (some t))
      (some delivery) := by
  have hdone : ∀ t : Fin 2, ∃ delivery,
      samplePublishing.pool (some t) = .done (.ok (some delivery)) :=
    Fin.forall_fin_two.2 ⟨⟨_, rfl⟩, ⟨_, rfl⟩⟩
  obtain ⟨delivery, hdone⟩ := hdone t
  have hafter := (play_run (fun (_ : Unit) => perform) .default
    (fun t => (publishingClient sampleTasks (fun _ : Fin 2 => .poll sampleReport) t).run)
    ([none, some 0, none, some 1].map fun t => (t, ()))).after (some t)
  exact ⟨delivery, (congrArg (Program.After _ _) hdone).mp hafter⟩

/-- The second poll is delivered a manifest without the peer. -/
theorem revocation_reaches_gateways_sample :
    ∃ delivery, Fallible.Returns (poll sampleReport) (exchanges samplePublishing.trace (some 1))
        (some delivery) ∧ ∀ entry ∈ delivery.manifest.peers, entry.peerId ≠ samplePeer := by
  obtain ⟨delivery, hreturns⟩ := samplePublishing_polls 1
  obtain ⟨r, e, rest, htrace, htid, hset, hothers⟩ : ∃ r e rest,
      samplePublishing.trace = r :: e :: rest ∧ r.tid = some 1 ∧
        (∃ m, e.call = .setDesired sampleGateway m ∧ m.generation.value = 3) ∧
        ∀ r' ∈ e :: rest, r'.tid ≠ some 1 := ⟨_, _, _, rfl, rfl, ⟨_, rfl, rfl⟩, by decide⟩
  obtain ⟨m, hset, hgeneration⟩ := hset
  have run : PublishingRun ([.change sampleEnroll, .publish sampleGateway "2026-08-01T20:00:00Z"] ++
      .change (.revoke samplePeer) :: [.publish sampleGateway "2026-08-01T20:00:01Z"])
      (fun _ : Fin 2 => .poll sampleReport) samplePublishing.trace samplePublishing.state :=
    samplePublishing_run
  refine ⟨delivery, hreturns, (revocation_reaches_gateways run rfl rfl ?_ hset hgeneration.ge ?_).1
    sampleReport delivery rfl rfl hreturns⟩
  · intro task htask
    rintro ⟨userId, publicKey, games, rfl⟩
    cases List.mem_singleton.1 htask
  · intro r' hr' htid'
    rw [htrace] at hr' ⊢
    rcases List.mem_cons.1 hr' with rfl | hr'
    · exact precedes_head List.mem_cons_self
    · exact absurd htid' (hothers r' hr')

end Sample

end RsConsole
