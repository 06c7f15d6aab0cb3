import Mathlib.Logic.Relation
import RsConsole.Api.Sync
import RsConsole.Policy.Digest

set_option autoImplicit false

/-! # Honest gateways converge, whatever the order of messages

The console serves one request after the other, and keeps in its history what it served. The
manifests set for a gateway have increasing generations; reports and acknowledgements are
arbitrary, so they may be delayed, repeated, lost or reordered. `Sound` relates the store to the
history: what is desired is the newest manifest that was set, and everything that was delivered or
recorded was desired at some time. An old message therefore meets a desired manifest that is the
same or has a larger generation, never a different one of the same generation. -/

namespace RsConsole

open Library Relation GatewaySyncService
open InMemoryGatewayStateStore (perform)

section Convergence

variable [Crates]

/-- One request with its answer. -/
inductive Message where
  | set (gatewayId : GatewayId) (manifest : PeerManifest)
  | polled (report : GatewayStateReport) (answer : Except SyncError (Option PeerDelivery))
  | acknowledged (acknowledgement : GatewayAcknowledgement) (answer : Except SyncError Unit)

/-- The store, and what was served so far with the newest request first. -/
structure Console where
  history : List Message
  store : InMemoryGatewayStateStore

def Console.init : Console := ⟨[], .default⟩

/-- Serve one request. A manifest is set only when its generation is larger than the generations
    set for the gateway before. -/
inductive Serve (c : Console) : Console → Prop
  | set (gatewayId : GatewayId) (manifest : PeerManifest)
      (newer : ∀ m, .set gatewayId m ∈ c.history → m.generation.value < manifest.generation.value) :
      Serve c ⟨.set gatewayId manifest :: c.history,
        (perform (.setDesired gatewayId manifest) c.store).2⟩
  | poll (report : GatewayStateReport) :
      Serve c ⟨.polled report (atOnce (poll report) c.store).1 :: c.history,
        (atOnce (poll report) c.store).2⟩
  | acknowledge (acknowledgement : GatewayAcknowledgement) :
      Serve c ⟨.acknowledged acknowledgement (atOnce (acknowledge acknowledgement) c.store).1 ::
          c.history,
        (atOnce (acknowledge acknowledgement) c.store).2⟩

/-- The poll of the gateway returned the delivery. -/
def Delivered (history : List Message) (gatewayId : GatewayId) (delivery : PeerDelivery) : Prop :=
  ∃ report, report.gatewayId = gatewayId ∧ .polled report (.ok (some delivery)) ∈ history

/-- The entry names a manifest that was delivered to the gateway. -/
def Reported (history : List Message) (gatewayId : GatewayId) (entry : AppliedInterface) : Prop :=
  ∃ delivery, Delivered history gatewayId delivery ∧
    entry.generation = delivery.manifest.generation ∧
    entry.manifestDigest = delivery.manifestDigest

/-- Every acknowledgement was built from a delivery that had been returned before. -/
def HonestAcknowledgements : List Message → Prop
  | [] => True
  | .acknowledged acknowledgement _ :: older =>
      (∃ gatewayId delivery, Delivered older gatewayId delivery ∧
        acknowledgement = GatewayAcknowledgement.applied delivery) ∧ HonestAcknowledgements older
  | _ :: older => HonestAcknowledgements older

/-! ## What one request does -/

section Cases

variable (rules : JsonRules) {store : InMemoryGatewayStateStore} (hopen : store.Open)

include rules hopen in
/-- A poll changes nothing, and delivers what is desired. -/
theorem poll_cases (report : GatewayStateReport) :
    ∃ answer, atOnce (poll report) store = (answer, store) ∧ ∀ d, answer = .ok (some d) →
      ∃ m, store.desired.value report.gatewayId = some m ∧
        PeerDelivery.new report.gatewayId m = .ok d := by
  by_cases hsupported : report.isSupported = true
  · cases hdesired : store.desired.value report.gatewayId with
    | none => exact ⟨_, poll_unconfigured hopen hsupported hdesired, fun d h => by cases h⟩
    | some m =>
        obtain ⟨digest, hdigest⟩ := digest_total rules m
        obtain ⟨delivery, hdelivery⟩ := PeerDelivery.new_total rules report.gatewayId m
        refine ⟨_, poll_configured hopen hsupported hdesired hdigest hdelivery, fun d h => ?_⟩
        suffices d = delivery from ⟨m, rfl, this ▸ hdelivery⟩
        unfold answer at h
        split at h
        · cases h
          rfl
        · split at h
          · cases h
            rfl
          · cases h
          · split at h <;> cases h
  · exact ⟨_, poll_unsupported hsupported, fun d h => by cases h⟩

include rules hopen in
/-- An acknowledgement is refused, or it matches the desired manifest, which is recorded. -/
theorem acknowledge_cases (acknowledgement : GatewayAcknowledgement) :
    (∃ e, atOnce (acknowledge acknowledgement) store = (.error e, store)) ∨
      ∃ m d, store.desired.value acknowledgement.gatewayId = some m ∧
        PeerDelivery.new acknowledgement.gatewayId m = .ok d ∧ acknowledgement.Matches d ∧
        atOnce (acknowledge acknowledgement) store =
          (.ok (), recorded store acknowledgement.gatewayId m d.manifestDigest) := by
  cases hdesired : store.desired.value acknowledgement.gatewayId with
  | none => exact Or.inl ⟨_, acknowledge_unconfigured hopen hdesired⟩
  | some m =>
      obtain ⟨d, hd⟩ := PeerDelivery.new_total rules acknowledgement.gatewayId m
      have heq := acknowledge_configured hopen hdesired hd
      by_cases hmatches : acknowledgement.Matches d
      · rw [if_pos hmatches] at heq
        exact Or.inr ⟨m, d, rfl, hd, hmatches, heq⟩
      · rw [if_neg hmatches] at heq
        exact Or.inl ⟨_, heq⟩

end Cases

/-! ## The invariant -/

structure Sound (c : Console) : Prop where
  lock : c.store.Open
  /-- What is desired was set. -/
  desired_set : ∀ {g m}, c.store.desired.value g = some m → .set g m ∈ c.history
  /-- What was set is desired, or something newer is. -/
  set_desired : ∀ {g m}, .set g m ∈ c.history → ∃ m', c.store.desired.value g = some m' ∧
    (m = m' ∨ m.generation.value < m'.generation.value)
  /-- What was delivered was set. -/
  delivered_set : ∀ {g d}, Delivered c.history g d →
    .set g d.manifest ∈ c.history ∧ PeerDelivery.new g d.manifest = .ok d
  /-- What is recorded was set, and is recorded with its digest. -/
  applied_set : ∀ {g m digest}, c.store.applied.value g = some (m, digest) →
    .set g m ∈ c.history ∧ m.digest = .ok digest
  /-- Honest acknowledgements record only what was delivered. -/
  applied_delivered : HonestAcknowledgements c.history → ∀ {g m digest},
    c.store.applied.value g = some (m, digest) → ∃ d, Delivered c.history g d ∧
      d.manifest = m ∧ d.manifestDigest = digest

theorem Delivered.cons {history : List Message} {g : GatewayId} {d : PeerDelivery}
    (h : Delivered history g d) (x : Message) : Delivered (x :: history) g d := by
  obtain ⟨report, hg, hmem⟩ := h
  exact ⟨report, hg, List.mem_cons_of_mem _ hmem⟩

theorem Sound.init : Sound Console.init where
  lock := ⟨rfl, rfl⟩
  desired_set h := by cases h
  set_desired h := by cases h
  delivered_set := by
    rintro g d ⟨report, -, h⟩
    cases h
  applied_set h := by cases h
  applied_delivered _ := by
    intro g m digest h
    cases h

namespace Sound

variable {c : Console}

/-- **A delivered manifest is the desired one, or an older one.** -/
theorem delivered_desired (h : Sound c) {g : GatewayId} {d : PeerDelivery}
    (hd : Delivered c.history g d) : ∃ m, c.store.desired.value g = some m ∧
      (d.manifest = m ∨ d.manifest.generation.value < m.generation.value) :=
  h.set_desired (h.delivered_set hd).1

theorem set (h : Sound c) {g : GatewayId} {manifest : PeerManifest}
    (newer : ∀ m, .set g m ∈ c.history → m.generation.value < manifest.generation.value) :
    Sound ⟨.set g manifest :: c.history, (perform (.setDesired g manifest) c.store).2⟩ := by
  have hstore : (perform (.setDesired g manifest) c.store).2 =
      { c.store with desired :=
          { c.store.desired with
            value := Function.update c.store.desired.value g (some manifest) } } := by
    simp only [perform, RwLock.write_eq h.lock.1]
  rw [hstore]
  -- setting a manifest delivers nothing, so what was delivered is what was before
  have hold : ∀ {g' d}, Delivered (.set g manifest :: c.history) g' d → Delivered c.history g' d := by
    rintro g' d ⟨report, hg, hmem⟩
    exact ⟨report, hg, (List.mem_cons.1 hmem).resolve_left (fun heq => by cases heq)⟩
  refine ⟨h.lock, ?_, ?_, ?_, ?_, ?_⟩
  · intro g' m hm
    by_cases hg : g' = g
    · subst hg
      simp only [Function.update_self, Option.some.injEq] at hm
      exact hm ▸ List.mem_cons_self
    · simp only [Function.update_of_ne hg] at hm
      exact List.mem_cons_of_mem _ (h.desired_set hm)
  · intro g' m hm
    by_cases hg : g' = g
    · subst hg
      -- an earlier manifest of this gateway is older than the new one by `newer`
      refine ⟨manifest, Function.update_self .., ?_⟩
      rcases List.mem_cons.1 hm with heq | hm
      · cases heq
        exact Or.inl rfl
      · exact Or.inr (newer m hm)
    · rcases List.mem_cons.1 hm with heq | hm
      · cases heq
        exact absurd rfl hg
      · obtain ⟨m', hm', hle⟩ := h.set_desired hm
        exact ⟨m', by simpa only [Function.update_of_ne hg] using hm', hle⟩
  · intro g' d hd
    have hset := h.delivered_set (hold hd)
    exact ⟨List.mem_cons_of_mem _ hset.1, hset.2⟩
  · intro g' m digest hm
    have hset := h.applied_set hm
    exact ⟨List.mem_cons_of_mem _ hset.1, hset.2⟩
  · intro honest g' m digest hm
    obtain ⟨d, hd, heq⟩ := h.applied_delivered honest hm
    exact ⟨d, hd.cons _, heq⟩

theorem poll (rules : JsonRules) (h : Sound c) (report : GatewayStateReport) :
    Sound ⟨.polled report (atOnce (GatewaySyncService.poll report) c.store).1 :: c.history,
      (atOnce (GatewaySyncService.poll report) c.store).2⟩ := by
  obtain ⟨answer, heq, hanswer⟩ := poll_cases rules h.lock report
  rw [heq]
  refine ⟨h.lock, ?_, ?_, ?_, ?_, ?_⟩
  · intro g m hm
    exact List.mem_cons_of_mem _ (h.desired_set hm)
  · intro g m hm
    exact h.set_desired ((List.mem_cons.1 hm).resolve_left (fun heq => by cases heq))
  · rintro g d ⟨report', hg, hmem⟩
    rcases List.mem_cons.1 hmem with heq | hmem
    · cases heq
      -- the new delivery is built from the manifest desired now
      obtain ⟨m, hm, hnew⟩ := hanswer d rfl
      rw [hg] at hm hnew
      have hmanifest := (PeerDelivery.new_eq_ok hnew).2.1
      rw [hmanifest]
      exact ⟨List.mem_cons_of_mem _ (h.desired_set hm), hnew⟩
    · have hset := h.delivered_set ⟨report', hg, hmem⟩
      exact ⟨List.mem_cons_of_mem _ hset.1, hset.2⟩
  · intro g m digest hm
    have hset := h.applied_set hm
    exact ⟨List.mem_cons_of_mem _ hset.1, hset.2⟩
  · intro honest g m digest hm
    obtain ⟨d, hd, heq⟩ := h.applied_delivered honest hm
    exact ⟨d, hd.cons _, heq⟩

/-- The answer to an acknowledgement delivers nothing. -/
theorem refuse (h : Sound c) (acknowledgement : GatewayAcknowledgement)
    (answer : Except SyncError Unit) :
    Sound ⟨.acknowledged acknowledgement answer :: c.history, c.store⟩ := by
  have hold : ∀ {g d}, Delivered (.acknowledged acknowledgement answer :: c.history) g d →
      Delivered c.history g d := by
    rintro g d ⟨report, hg, hmem⟩
    exact ⟨report, hg, (List.mem_cons.1 hmem).resolve_left (fun heq => by cases heq)⟩
  refine ⟨h.lock, ?_, ?_, ?_, ?_, ?_⟩
  · intro g m hm
    exact List.mem_cons_of_mem _ (h.desired_set hm)
  · intro g m hm
    exact h.set_desired ((List.mem_cons.1 hm).resolve_left (fun heq => by cases heq))
  · intro g d hd
    have hset := h.delivered_set (hold hd)
    exact ⟨List.mem_cons_of_mem _ hset.1, hset.2⟩
  · intro g m digest hm
    have hset := h.applied_set hm
    exact ⟨List.mem_cons_of_mem _ hset.1, hset.2⟩
  · intro honest g m digest hm
    obtain ⟨d, hd, heq⟩ := h.applied_delivered honest.2 hm
    exact ⟨d, hd.cons _, heq⟩

/-- An acknowledgement that an honest gateway built, and that matches what is desired, was built
    from a delivery of what is desired. -/
theorem honest_matches (h : Sound c) {g g' : GatewayId} {d d' : PeerDelivery} {m : PeerManifest}
    (hd : Delivered c.history g d) (hm : c.store.desired.value g' = some m)
    (hd' : PeerDelivery.new g' m = .ok d')
    (hmatches : (GatewayAcknowledgement.applied d).Matches d') :
    g = g' ∧ d.manifest = m ∧ d.manifestDigest = d'.manifestDigest := by
  obtain ⟨-, hgateway, -, -, hgeneration, hdigest, -⟩ := hmatches
  have hnew := PeerDelivery.new_eq_ok (h.delivered_set hd).2
  have hnew' := PeerDelivery.new_eq_ok hd'
  have hg : g = g' := hnew.1.symm.trans (hgateway.trans hnew'.1)
  subst hg
  obtain ⟨m', hm', hle⟩ := h.delivered_desired hd
  rw [hm, Option.some.injEq] at hm'
  subst hm'
  refine ⟨rfl, hle.resolve_right (fun hlt => ?_), hdigest⟩
  have hsame : d.manifest.generation = m.generation := by rwa [hnew'.2.1] at hgeneration
  rw [hsame] at hlt
  exact Nat.lt_irrefl _ hlt

theorem record (h : Sound c) {acknowledgement : GatewayAcknowledgement} {m : PeerManifest}
    {d : PeerDelivery} (hm : c.store.desired.value acknowledgement.gatewayId = some m)
    (hd : PeerDelivery.new acknowledgement.gatewayId m = .ok d)
    (hmatches : acknowledgement.Matches d) :
    Sound ⟨.acknowledged acknowledgement (.ok ()) :: c.history,
      recorded c.store acknowledgement.gatewayId m d.manifestDigest⟩ := by
  have hold := h.refuse acknowledgement (.ok ())
  refine ⟨h.lock, hold.desired_set, hold.set_desired, hold.delivered_set, ?_, ?_⟩
  · intro g m' digest hm'
    by_cases hg : g = acknowledgement.gatewayId
    · subst hg
      simp only [recorded, Function.update_self, Option.some.injEq, Prod.mk.injEq] at hm'
      obtain ⟨rfl, rfl⟩ := hm'
      exact ⟨hold.desired_set hm, (PeerDelivery.new_eq_ok hd).2.2⟩
    · simp only [recorded, Function.update_of_ne hg] at hm'
      exact hold.applied_set hm'
  · intro honest g m' digest hm'
    by_cases hg : g = acknowledgement.gatewayId
    · subst hg
      simp only [recorded, Function.update_self, Option.some.injEq, Prod.mk.injEq] at hm'
      obtain ⟨rfl, rfl⟩ := hm'
      -- an honest acknowledgement repeats a delivery, so what is recorded was delivered
      obtain ⟨⟨g', delivery, hdelivered, heq⟩, -⟩ := honest
      rw [heq] at hmatches
      obtain ⟨hg', hmanifest, hdigest⟩ := h.honest_matches hdelivered hm hd hmatches
      exact ⟨delivery, hg' ▸ hdelivered.cons _, hmanifest, hdigest⟩
    · simp only [recorded, Function.update_of_ne hg] at hm'
      exact hold.applied_delivered honest hm'

theorem serve (rules : JsonRules) (h : Sound c) {c' : Console} (hserve : Serve c c') :
    Sound c' := by
  cases hserve with
  | set g manifest newer => exact h.set newer
  | poll report => exact h.poll rules report
  | acknowledge acknowledgement =>
      rcases acknowledge_cases rules h.lock acknowledgement with
        ⟨e, heq⟩ | ⟨m, d, hm, hd, hmatches, heq⟩
      · rw [heq]
        exact h.refuse acknowledgement _
      · rw [heq]
        exact h.record hm hd hmatches

/-- What is recorded as applied never goes back to an older generation. -/
theorem applied_mono (rules : JsonRules) (h : Sound c) {c' : Console} (hserve : Serve c c')
    {g : GatewayId} {m : PeerManifest} {digest : ManifestDigest}
    (hm : c.store.applied.value g = some (m, digest)) :
    ∃ m' digest', c'.store.applied.value g = some (m', digest') ∧
      m.generation.value ≤ m'.generation.value := by
  cases hserve with
  | set g' manifest newer =>
      refine ⟨m, digest, ?_, Nat.le_refl _⟩
      simpa only [perform, RwLock.write_eq h.lock.1] using hm
  | poll report =>
      obtain ⟨answer, heq, -⟩ := poll_cases rules h.lock report
      rw [heq]
      exact ⟨m, digest, hm, Nat.le_refl _⟩
  | acknowledge acknowledgement =>
      rcases acknowledge_cases rules h.lock acknowledgement with
        ⟨e, heq⟩ | ⟨m', d, hm', -, -, heq⟩
      · rw [heq]
        exact ⟨m, digest, hm, Nat.le_refl _⟩
      · rw [heq]
        by_cases hg : g = acknowledgement.gatewayId
        · subst hg
          refine ⟨m', d.manifestDigest, Function.update_self .., ?_⟩
          -- what is recorded now was desired, and what is desired only grows
          obtain ⟨desired, hdesired, hle⟩ := h.set_desired (h.applied_set hm).1
          rw [hm', Option.some.injEq] at hdesired
          subst hdesired
          rcases hle with rfl | hlt
          · exact Nat.le_refl _
          · exact hlt.le
        · refine ⟨m, digest, ?_, Nat.le_refl _⟩
          simpa only [recorded, Function.update_of_ne hg] using hm

end Sound

/-! ## Runs -/

/-- Some sequence of requests takes one console to the other. -/
abbrev Serves : Console → Console → Prop := ReflTransGen Serve

section Runs

variable (rules : JsonRules) {c : Console}

include rules in
theorem sound_of_run (run : Serves .init c) : Sound c := by
  induction run with
  | refl => exact Sound.init
  | tail _ hserve ih => exact ih.serve rules hserve

include rules in
theorem applied_mono_of_run (h : Sound c) {c' : Console} (run : Serves c c') {g : GatewayId}
    {m : PeerManifest} {digest : ManifestDigest}
    (hm : c.store.applied.value g = some (m, digest)) :
    ∃ m' digest', c'.store.applied.value g = some (m', digest') ∧
      m.generation.value ≤ m'.generation.value := by
  suffices Sound c' ∧ ∃ m' digest', c'.store.applied.value g = some (m', digest') ∧
      m.generation.value ≤ m'.generation.value from this.2
  induction run with
  | refl => exact ⟨h, m, digest, hm, Nat.le_refl _⟩
  | tail _ hserve ih =>
      obtain ⟨hsound, m₁, digest₁, hm₁, hle₁⟩ := ih
      obtain ⟨m₂, digest₂, hm₂, hle₂⟩ := hsound.applied_mono rules hserve hm₁
      exact ⟨hsound.serve rules hserve, m₂, digest₂, hm₂, hle₁.trans hle₂⟩

include rules in
/-- An honest report is answered with nothing if it names the desired manifest, and with the
    desired manifest otherwise. -/
theorem poll_honest (h : Sound c) {report : GatewayStateReport} {m : PeerManifest}
    (hsupported : report.isSupported = true)
    (hreported : ∀ entry, report.wgUsers = some entry →
      Reported c.history report.gatewayId entry)
    (hm : c.store.desired.value report.gatewayId = some m) :
    ∃ d, PeerDelivery.new report.gatewayId m = .ok d ∧ d.manifest = m ∧
      ((∃ entry, report.wgUsers = some entry ∧ entry.generation = m.generation ∧
          entry.manifestDigest = d.manifestDigest) →
        atOnce (poll report) c.store = (.ok none, c.store)) ∧
      ((¬ ∃ entry, report.wgUsers = some entry ∧ entry.generation = m.generation ∧
          entry.manifestDigest = d.manifestDigest) →
        atOnce (poll report) c.store = (.ok (some d), c.store)) := by
  obtain ⟨d, hd⟩ := PeerDelivery.new_total rules report.gatewayId m
  obtain ⟨-, hmanifest, hdigest⟩ := PeerDelivery.new_eq_ok hd
  have hpoll := poll_configured h.lock hsupported hm hdigest hd
  refine ⟨d, hd, hmanifest, ?_, ?_⟩
  · rintro ⟨entry, hentry, hgeneration, hsame⟩
    rw [hpoll, answer, hentry]
    simp only [hgeneration, Nat.compare_eq_eq.2, if_pos hsame]
  · intro hother
    rw [hpoll, answer]
    cases hentry : report.wgUsers with
    | none => rfl
    | some entry =>
        obtain ⟨d', hd', hgeneration, hsame⟩ := hreported entry hentry
        obtain ⟨m', hm', hle⟩ := h.delivered_desired hd'
        rw [hm, Option.some.injEq] at hm'
        subst hm'
        -- the reported manifest is the desired one or of an earlier generation
        rcases hle with heq | hlt
        · refine absurd ⟨entry, hentry, ?_, ?_⟩ hother
          · rw [hgeneration, heq]
          · have hdigest' := (PeerDelivery.new_eq_ok (h.delivered_set hd').2).2.2
            rw [heq, hdigest, Except.ok.injEq] at hdigest'
            rw [hsame, hdigest']
        · rw [← hgeneration] at hlt
          simp only [Nat.compare_eq_lt.2 hlt]

include rules in
/-- An acknowledgement of a delivery is accepted while that delivery is desired, and refused
    without effect afterwards. -/
theorem acknowledge_honest (h : Sound c) {g : GatewayId} {d : PeerDelivery}
    (hd : Delivered c.history g d) : ∃ m, c.store.desired.value g = some m ∧
      (d.manifest = m → atOnce (acknowledge (.applied d)) c.store =
        (.ok (), recorded c.store g m d.manifestDigest)) ∧
      (d.manifest ≠ m → atOnce (acknowledge (.applied d)) c.store =
        (.error .acknowledgementMismatch, c.store)) := by
  obtain ⟨m, hm, -⟩ := h.delivered_desired hd
  have hnew := (h.delivered_set hd).2
  have hg : (GatewayAcknowledgement.applied d).gatewayId = g := (PeerDelivery.new_eq_ok hnew).1
  obtain ⟨d', hd'⟩ := PeerDelivery.new_total rules g m
  have hacknowledge := acknowledge_configured h.lock (hg ▸ hm) (hg ▸ hd')
  refine ⟨m, hm, ?_, ?_⟩
  · rintro rfl
    rw [hnew, Except.ok.injEq] at hd'
    subst hd'
    rw [hacknowledge, if_pos (GatewayAcknowledgement.applied_matches d), hg]
  · intro hne
    rw [hacknowledge, if_neg]
    intro hmatches
    exact hne (h.honest_matches hd hm hd' hmatches).2.1

include rules in
/-- **Gateway synchronisation is safe for an honest gateway over any message order.** -/
theorem gateway_sync_safe (run : Serves .init c) (g : GatewayId) :
    (∀ report : GatewayStateReport, report.gatewayId = g → report.isSupported = true →
      (∀ entry, report.wgUsers = some entry → Reported c.history g entry) →
      (c.store.desired.value g = none →
        atOnce (poll report) c.store = (.error .unconfiguredGateway, c.store)) ∧
      ∀ m, c.store.desired.value g = some m →
        ∃ d, PeerDelivery.new g m = .ok d ∧ d.manifest = m ∧
          ((∃ entry, report.wgUsers = some entry ∧ entry.generation = m.generation ∧
              entry.manifestDigest = d.manifestDigest) →
            atOnce (poll report) c.store = (.ok none, c.store)) ∧
          ((¬ ∃ entry, report.wgUsers = some entry ∧ entry.generation = m.generation ∧
              entry.manifestDigest = d.manifestDigest) →
            atOnce (poll report) c.store = (.ok (some d), c.store))) ∧
    (∀ d, Delivered c.history g d → ∃ m, c.store.desired.value g = some m ∧
      (d.manifest = m → atOnce (acknowledge (.applied d)) c.store =
        (.ok (), recorded c.store g m d.manifestDigest)) ∧
      (d.manifest ≠ m → atOnce (acknowledge (.applied d)) c.store =
        (.error .acknowledgementMismatch, c.store))) ∧
    (∀ m digest, c.store.applied.value g = some (m, digest) →
      (∀ c', Serves c c' → ∃ m' digest', c'.store.applied.value g = some (m', digest') ∧
        m.generation.value ≤ m'.generation.value) ∧
      .set g m ∈ c.history ∧ m.digest = .ok digest ∧
      (HonestAcknowledgements c.history →
        ∃ d, Delivered c.history g d ∧ d.manifest = m ∧ d.manifestDigest = digest)) := by
  have h := sound_of_run rules run
  refine ⟨?_, fun d hd => acknowledge_honest rules h hd, ?_⟩
  · rintro report rfl hsupported hreported
    exact ⟨poll_unconfigured h.lock hsupported,
      fun m hm => poll_honest rules h hsupported hreported hm⟩
  · intro m digest hm
    exact ⟨fun c' run' => applied_mono_of_run rules h run' hm, (h.applied_set hm).1,
      (h.applied_set hm).2, fun honest => h.applied_delivered honest hm⟩

end Runs

end Convergence

section Sample

attribute [local instance] Reference.crates

/-- The console after one manifest was set for one gateway. -/
def sampleConsole : Console :=
  ⟨[.set sampleGateway (sampleManifest "2026-08-01T20:00:00Z")],
    (perform (.setDesired sampleGateway (sampleManifest "2026-08-01T20:00:00Z")) .default).2⟩

theorem sampleConsole_run : Serves .init sampleConsole :=
  .single (.set sampleGateway (sampleManifest "2026-08-01T20:00:00Z") (by simp [Console.init]))

/-- The manifest is delivered, and its acknowledgement is recorded. -/
theorem gateway_sync_safe_sample :
    ∃ c d, Serves .init c ∧ Delivered c.history sampleGateway d ∧
      (atOnce (acknowledge (.applied d)) c.store).1 = .ok () := by
  have hdesired : sampleConsole.store.desired.value sampleGateway =
      some (sampleManifest "2026-08-01T20:00:00Z") := rfl
  have hpoll := (gateway_sync_safe Reference.jsonRules sampleConsole_run sampleGateway).1
    (.new sampleGateway []) rfl (by decide) (fun entry h => by cases h)
  obtain ⟨d, -, hmanifest, -, hdeliver⟩ := hpoll.2 _ hdesired
  have hanswer := hdeliver (by rintro ⟨entry, h, -⟩; cases h)
  have hserve := Serve.poll (c := sampleConsole) (.new sampleGateway [])
  rw [hanswer] at hserve
  have hdelivered : Delivered (.polled (.new sampleGateway []) (.ok (some d)) ::
      sampleConsole.history) sampleGateway d :=
    ⟨.new sampleGateway [], rfl, List.mem_cons_self⟩
  have hrun : Serves .init _ := sampleConsole_run.tail hserve
  obtain ⟨m, hm, hrecorded, -⟩ :=
    (gateway_sync_safe Reference.jsonRules hrun sampleGateway).2.1 d hdelivered
  refine ⟨_, d, hrun, hdelivered, ?_⟩
  rw [hrecorded (hmanifest.trans (Option.some.inj (hdesired.symm.trans hm)))]

end Sample

end RsConsole
