import RsConsole.Api.Sync
import RsConsole.Library.Interleaving
import RsConsole.Policy.Digest

set_option autoImplicit false

/-! # Concurrent acknowledgements

`acknowledge` reads the desired manifest under one lock and records it as applied under another.
Between the two, a newer manifest can be set and acknowledged; the older acknowledgement then
overwrites what the newer one recorded. `Overtaken` is that order of calls, and the recorded
generation decreases in exactly the runs that contain it. -/

namespace RsConsole

open Library GatewaySyncService
open InMemoryGatewayStateStore (perform)

/-! ## Runs -/

section

variable [Crates]

/-- What the clients of the store run. -/
inductive SyncOperation where
  | poll (report : GatewayStateReport)
  | acknowledge (acknowledgement : GatewayAcknowledgement)
  | setDesired (gatewayId : GatewayId) (manifest : PeerManifest)

namespace SyncOperation

abbrev Result : SyncOperation → Type
  | poll _ => Option PeerDelivery
  | acknowledge _ => Unit
  | setDesired .. => Unit

def code : (op : SyncOperation) → Sync op.Result
  | poll report => GatewaySyncService.poll report
  | acknowledge acknowledgement => GatewaySyncService.acknowledge acknowledgement
  | setDesired gatewayId manifest => askStore (.setDesired gatewayId manifest)

end SyncOperation

abbrev StateAnswer (c : StateCall) : Type := Except StoreError c.Reply

/-- One performed store call of operation `tid`. -/
abbrev SyncEvent (τ : Type) : Type := Event τ StateCall StateAnswer InMemoryGatewayStateStore

/-- A run of the operations `ops` over an empty store. -/
def SyncHistory {τ : Type} [DecidableEq τ] (ops : τ → SyncOperation) (tr : List (SyncEvent τ))
    (store : InMemoryGatewayStateStore) : Prop :=
  ∃ pool, Run (effectOf fun (_ : Unit) => perform) .default (fun t => (ops t).code.run) tr store pool

/-! ## What the clients ask -/

variable {op : SyncOperation} {past : List (Exchange StateCall StateAnswer)} {c : StateCall}

/-- A client that records a manifest has read it before, and asked nothing else. -/
theorem recordApplied_asked {gatewayId : GatewayId} {manifest : PeerManifest}
    {digest : ManifestDigest}
    (h : Fallible.Asks op.code past (.recordApplied gatewayId manifest digest)) :
    past = [⟨.desiredManifest gatewayId, .ok (some manifest)⟩] := by
  cases op with
  | poll report =>
      simp [SyncOperation.code, poll, askStore, ofPolicy] at h
      obtain ⟨rest, desired, rfl, -, digest', -, h⟩ := h
      split at h
      · simp at h
      · split at h
        · simp at h
        · simp at h
        · split at h <;> simp at h
  | acknowledge acknowledgement =>
      simp [SyncOperation.code, acknowledge, askStore, ofPolicy] at h
      obtain ⟨rfl, delivery, -, -, rfl, -⟩ := h
      rfl
  | setDesired =>
      simp [SyncOperation.code, askStore] at h

/-! ## What a call changes -/

variable {s s' : InMemoryGatewayStateStore} {g : GatewayId}

theorem open_performed {r : StateAnswer c} (h : perform c s = (r, s')) (hopen : s.Open) :
    s'.Open := by
  cases c with
  | desiredManifest | applied =>
      obtain ⟨-, rfl⟩ := Prod.mk.inj h
      exact hopen
  | recordApplied | setDesired =>
      simp only [perform, RwLock.write_eq hopen.1, RwLock.write_eq hopen.2] at h
      obtain ⟨-, rfl⟩ := Prod.mk.inj h
      exact hopen

/-- What is desired is what it was, or what the call set. -/
theorem desired_performed {r : StateAnswer c} (h : perform c s = (r, s')) (hopen : s.Open) :
    (∃ m, c = .setDesired g m ∧ s'.desired.value g = some m) ∨
      ((∀ m, c ≠ .setDesired g m) ∧ s'.desired.value g = s.desired.value g) := by
  cases c with
  | desiredManifest | applied =>
      obtain ⟨-, rfl⟩ := Prod.mk.inj h
      exact Or.inr ⟨by simp, rfl⟩
  | recordApplied =>
      simp only [perform, RwLock.write_eq hopen.2] at h
      obtain ⟨-, rfl⟩ := Prod.mk.inj h
      exact Or.inr ⟨by simp, rfl⟩
  | setDesired gatewayId manifest =>
      simp only [perform, RwLock.write_eq hopen.1] at h
      obtain ⟨-, rfl⟩ := Prod.mk.inj h
      by_cases hg : gatewayId = g
      · subst hg
        exact Or.inl ⟨manifest, rfl, Function.update_self ..⟩
      · exact Or.inr ⟨by simp [hg], Function.update_of_ne (Ne.symm hg) ..⟩

/-- What is recorded is what it was, or what the call recorded. -/
theorem applied_performed {r : StateAnswer c} (h : perform c s = (r, s')) (hopen : s.Open) :
    (∃ m d, c = .recordApplied g m d ∧ s'.applied.value g = some (m, d)) ∨
      ((∀ m d, c ≠ .recordApplied g m d) ∧ s'.applied.value g = s.applied.value g) := by
  cases c with
  | desiredManifest | applied =>
      obtain ⟨-, rfl⟩ := Prod.mk.inj h
      exact Or.inr ⟨by simp, rfl⟩
  | setDesired =>
      simp only [perform, RwLock.write_eq hopen.1] at h
      obtain ⟨-, rfl⟩ := Prod.mk.inj h
      exact Or.inr ⟨by simp, rfl⟩
  | recordApplied gatewayId manifest digest =>
      simp only [perform, RwLock.write_eq hopen.2] at h
      obtain ⟨-, rfl⟩ := Prod.mk.inj h
      by_cases hg : gatewayId = g
      · subst hg
        exact Or.inl ⟨manifest, digest, rfl, Function.update_self ..⟩
      · exact Or.inr ⟨by simp [hg], Function.update_of_ne (Ne.symm hg) ..⟩

theorem desiredManifest_performed {r : Option PeerManifest}
    (h : perform (.desiredManifest g) s = (.ok r, s')) (hopen : s.Open) :
    s.desired.value g = r ∧ s' = s := by
  simp only [perform, RwLock.read_eq hopen.1] at h
  obtain ⟨hr, rfl⟩ := Prod.mk.inj h
  cases hr
  exact ⟨rfl, rfl⟩

/-! ## Generations along a run -/

variable {τ : Type}

/-- The manifests set for the gateway have increasing generations. -/
def SetsIncrease (tr : List (SyncEvent τ)) (g : GatewayId) : Prop :=
  ∀ e₁ e₂ m₁ m₂, Precedes tr e₁ e₂ → e₁.call = .setDesired g m₁ → e₂.call = .setDesired g m₂ →
    m₁.generation.value < m₂.generation.value

/-- The desired generation of the later store is not smaller. -/
def DesiredLe (g : GatewayId) (s s' : InMemoryGatewayStateStore) : Prop :=
  ∀ m, s.desired.value g = some m →
    ∃ m', s'.desired.value g = some m' ∧ m.generation.value ≤ m'.generation.value

/-- The recorded generation of the later store is not smaller. -/
def AppliedLe (g : GatewayId) (s s' : InMemoryGatewayStateStore) : Prop :=
  ∀ a, s.applied.value g = some a →
    ∃ a', s'.applied.value g = some a' ∧ a.1.generation.value ≤ a'.1.generation.value

theorem desiredLe_refl (g : GatewayId) (s : InMemoryGatewayStateStore) : DesiredLe g s s :=
  fun m hm => ⟨m, hm, le_rfl⟩

theorem desiredLe_trans {a b c : InMemoryGatewayStateStore} (hab : DesiredLe g a b)
    (hbc : DesiredLe g b c) : DesiredLe g a c := by
  intro m hm
  obtain ⟨m₁, hm₁, hle₁⟩ := hab m hm
  obtain ⟨m₂, hm₂, hle₂⟩ := hbc m₁ hm₁
  exact ⟨m₂, hm₂, hle₁.trans hle₂⟩

theorem appliedLe_refl (g : GatewayId) (s : InMemoryGatewayStateStore) : AppliedLe g s s :=
  fun a ha => ⟨a, ha, le_rfl⟩

theorem appliedLe_trans {a b c : InMemoryGatewayStateStore} (hab : AppliedLe g a b)
    (hbc : AppliedLe g b c) : AppliedLe g a c := by
  intro x hx
  obtain ⟨y, hy, hle₁⟩ := hab x hx
  obtain ⟨z, hz, hle₂⟩ := hbc y hy
  exact ⟨z, hz, hle₁.trans hle₂⟩

/-- The recorded generation does not decrease from an event to a later one. -/
def NeverDecreases (tr : List (SyncEvent τ)) (g : GatewayId) : Prop :=
  ∀ e₁ e₂, Precedes tr e₁ e₂ → AppliedLe g e₁.post e₂.post

/-- One acknowledgement reads the desired manifest, another is set, a second acknowledgement reads
    and records that one, and only then the first records its own (events are newest first). -/
def Overtaken (tr : List (SyncEvent τ)) (g : GatewayId) : Prop :=
  ∃ read set read' record' record : SyncEvent τ,
    [record, record', read', set, read].Sublist tr ∧
    read.tid = record.tid ∧ read'.tid = record'.tid ∧
    read.call = .desiredManifest g ∧ (∃ m, set.call = .setDesired g m) ∧
    read'.call = .desiredManifest g ∧ (∃ m d, record'.call = .recordApplied g m d) ∧
    ∃ m d, record.call = .recordApplied g m d

namespace SyncHistory

variable [DecidableEq τ] {ops : τ → SyncOperation} {tr newer older : List (SyncEvent τ)}
  {store : InMemoryGatewayStateStore} {e e₁ e₂ : SyncEvent τ} {m : PeerManifest}
  {d : ManifestDigest}

theorem older_part (h : SyncHistory ops (newer ++ e :: older) store) :
    SyncHistory ops older e.pre := by
  obtain ⟨pool, run⟩ := h
  exact run.older

theorem performed (h : SyncHistory ops tr store) (he : e ∈ tr) :
    perform e.call e.pre = (e.resp, e.post) := by
  obtain ⟨pool, run⟩ := h
  obtain ⟨_, hperform⟩ := run.performed he
  exact hperform

theorem locks (h : SyncHistory ops tr store) : store.Open := by
  obtain ⟨pool, run⟩ := h
  exact run.invariant ⟨rfl, rfl⟩ fun ⟨_, hperform⟩ hopen => open_performed hperform hopen

theorem locks_pre (h : SyncHistory ops tr store) (he : e ∈ tr) : e.pre.Open := by
  obtain ⟨newer, older, rfl⟩ := List.append_of_mem he
  exact h.older_part.locks

/-- A manifest that is set has a larger generation than the one it replaces. -/
theorem set_raises (h : SyncHistory ops tr store) (hinc : SetsIncrease tr g) (he : e ∈ tr)
    (hset : e.call = .setDesired g m) {m₀ : PeerManifest}
    (hdesired : e.pre.desired.value g = some m₀) : m₀.generation.value < m.generation.value := by
  obtain ⟨pool, run⟩ := id h
  obtain ⟨e₀, hprec, hnot, hpost⟩ := run.origin_precedes
    (F := fun s => s.desired.value g = some m₀) (by simp [InMemoryGatewayStateStore.default]) he
    hdesired
  rcases desired_performed (h.performed hprec.left_mem) (h.locks_pre hprec.left_mem) with
    ⟨m₁, hset₀, hm₁⟩ | ⟨-, hkept⟩
  · rw [hm₁, Option.some.injEq] at hpost
    subst hpost
    exact hinc e₀ e m₁ m hprec hset₀ hset
  · exact absurd (hkept.symm.trans hpost) hnot

theorem set_post (h : SyncHistory ops tr store) (he : e ∈ tr)
    (hset : e.call = .setDesired g m) : e.post.desired.value g = some m := by
  rcases desired_performed (g := g) (h.performed he) (h.locks_pre he) with
    ⟨m₁, hset₁, hm₁⟩ | ⟨hnot, -⟩
  · cases hset.symm.trans hset₁
    exact hm₁
  · exact absurd hset (hnot m)

theorem record_post (h : SyncHistory ops tr store) (he : e ∈ tr)
    (hrecord : e.call = .recordApplied g m d) : e.post.applied.value g = some (m, d) := by
  rcases applied_performed (g := g) (h.performed he) (h.locks_pre he) with
    ⟨m₁, d₁, hrecord₁, hm₁⟩ | ⟨hnot, -⟩
  · cases hrecord.symm.trans hrecord₁
    exact hm₁
  · exact absurd hrecord (hnot m d)

theorem desiredLe_event (h : SyncHistory ops tr store) (hinc : SetsIncrease tr g) (he : e ∈ tr) :
    DesiredLe g e.pre e.post := by
  intro m₀ hm₀
  rcases desired_performed (h.performed he) (h.locks_pre he) with ⟨m, hset, hm⟩ | ⟨-, hkept⟩
  · exact ⟨m, hm, (h.set_raises hinc he hset hm₀).le⟩
  · exact ⟨m₀, hkept.trans hm₀, le_rfl⟩

theorem desiredLe_between (h : SyncHistory ops tr store) (hinc : SetsIncrease tr g)
    (hprec : Precedes tr e₁ e₂) : DesiredLe g e₁.post e₂.pre := by
  obtain ⟨pool, run⟩ := id h
  exact run.rel_of_precedes (desiredLe_refl g) desiredLe_trans
    (fun e he => h.desiredLe_event hinc he) hprec

/-- What is recorded was desired when its client read it, once and before. -/
theorem recorded_read (h : SyncHistory ops (newer ++ e :: older) store)
    (hcall : e.call = .recordApplied g m d) :
    (∃ r ∈ older, r.tid = e.tid) ∧ ∀ r ∈ older, r.tid = e.tid →
      r.call = .desiredManifest g ∧ r.pre.desired.value g = some m ∧
        r.post.desired.value g = some m := by
  obtain ⟨pool, run⟩ := id h
  have hasks := run.asks
  rw [hcall] at hasks
  have hpast := recordApplied_asked hasks
  constructor
  · obtain ⟨r, hr, htid, -⟩ := mem_exchanges (hpast ▸ List.mem_singleton_self _)
    exact ⟨r, hr, htid⟩
  · intro r hr htid
    have hmem := mem_exchanges_of_mem hr
    rw [htid, hpast, List.mem_singleton] at hmem
    have hin : r ∈ newer ++ e :: older := by simp [hr]
    have hperform := h.performed hin
    obtain ⟨tid, call, resp, pre, post⟩ := r
    obtain ⟨rfl, hresp⟩ := Exchange.mk.inj hmem
    rw [eq_of_heq hresp] at hperform
    obtain ⟨hdesired, hsame⟩ := desiredManifest_performed hperform (h.locks_pre hin)
    exact ⟨rfl, hdesired, (congrArg (fun s => s.desired.value g) hsame).trans hdesired⟩

/-- An acknowledgement that records an older generation than an earlier one had read before a newer
    manifest was set, and the earlier one afterwards. -/
theorem read_before_set {front rest : List (SyncEvent τ)} {e' : SyncEvent τ} {m' : PeerManifest}
    {d' : ManifestDigest} (h : SyncHistory ops (newer ++ e :: (front ++ e' :: rest)) store)
    (hinc : SetsIncrease (newer ++ e :: (front ++ e' :: rest)) g)
    (hrecord : e.call = .recordApplied g m d) (hrecord' : e'.call = .recordApplied g m' d')
    (hlt : m.generation.value < m'.generation.value) :
    ∃ r' s r, [r', s, r].Sublist rest ∧ r.tid = e.tid ∧ r'.tid = e'.tid ∧
      r.call = .desiredManifest g ∧ (∃ m, s.call = .setDesired g m) ∧
      r'.call = .desiredManifest g := by
  have holder := h.older_part
  obtain ⟨⟨r', hr', htid'⟩, hreads'⟩ := holder.recorded_read hrecord'
  obtain ⟨hcall', hdesired', hpost'⟩ := hreads' r' hr' htid'
  obtain ⟨⟨r, hr, htid⟩, hreads⟩ := h.recorded_read hrecord
  obtain ⟨hcall, hdesired, hpost⟩ := hreads r hr htid
  obtain ⟨mid, old, rfl⟩ := List.append_of_mem hr'
  have hassoc : front ++ e' :: (mid ++ r' :: old) = (front ++ e' :: mid) ++ r' :: old := by simp
  -- the older manifest was read first
  have hrold : r ∈ old := by
    rw [hassoc, List.mem_append, List.mem_cons] at hr
    rcases hr with hmem | rfl | hmem
    · have hprec : Precedes (newer ++ e :: (front ++ e' :: (mid ++ r' :: old))) r' r := by
        rw [hassoc]
        exact (precedes_of_mem_newer hmem).trans
          ((List.sublist_cons_self _ _).trans (List.sublist_append_right _ _))
      obtain ⟨m₂, hm₂, hle⟩ := h.desiredLe_between hinc hprec m' hpost'
      rw [hdesired, Option.some.injEq] at hm₂
      subst hm₂
      exact absurd hle hlt.not_ge
    · rw [hpost, Option.some.injEq] at hpost'
      subst hpost'
      exact absurd hlt (Nat.lt_irrefl _)
    · exact hmem
  -- so the newer one was set between the two reads
  obtain ⟨between, oldest, rfl⟩ := List.append_of_mem hrold
  have hread := holder.older_part.older_part
  obtain ⟨pool, run⟩ := id hread
  obtain ⟨s, hs, hbefore, hafter⟩ := run.origin_after (F := fun s => s.desired.value g = some m')
    (by rw [hpost, Option.some.injEq]; rintro rfl; exact Nat.lt_irrefl _ hlt) hdesired'
  have hsmem : s ∈ between ++ r :: oldest := List.mem_append_left _ hs
  rcases desired_performed (g := g) (hread.performed hsmem) (hread.locks_pre hsmem) with
    ⟨m₁, hset, -⟩ | ⟨-, hkept⟩
  · obtain ⟨b₁, b₂, rfl⟩ := List.append_of_mem hs
    refine ⟨r', s, r, cons_sublist_append ?_, htid, htid', hcall, ⟨m₁, hset⟩, hcall'⟩
    rw [List.append_assoc]
    exact cons_sublist_append (List.singleton_sublist.2 (by simp))
  · exact absurd (hkept.symm.trans hafter) hbefore

/-- The recorded generation decreases only at an acknowledgement that was overtaken. -/
theorem overtaken_of_decrease (h : SyncHistory ops tr store) (hinc : SetsIncrease tr g)
    (he : e ∈ tr) (hnot : ¬ AppliedLe g e.pre e.post) : Overtaken tr g := by
  rcases applied_performed (g := g) (h.performed he) (h.locks_pre he) with
    ⟨m, d, hrecord, hm⟩ | ⟨-, hkept⟩
  · unfold AppliedLe at hnot
    push Not at hnot
    obtain ⟨⟨m', d'⟩, hm', hlt⟩ := hnot
    -- what was recorded before was recorded by an earlier acknowledgement
    obtain ⟨newer, older, rfl⟩ := List.append_of_mem he
    have holder := h.older_part
    obtain ⟨pool, run⟩ := id holder
    obtain ⟨e', he', hnew, hpost⟩ := run.origin (F := fun s => s.applied.value g = some (m', d'))
      (by simp [InMemoryGatewayStateStore.default]) hm'
    rcases applied_performed (g := g) (holder.performed he') (holder.locks_pre he') with
      ⟨m₁, d₁, hrecord', hm₁⟩ | ⟨-, hkept⟩
    · rw [hm₁, Option.some.injEq, Prod.mk.injEq] at hpost
      obtain ⟨rfl, rfl⟩ := hpost
      obtain ⟨front, rest, rfl⟩ := List.append_of_mem he'
      obtain ⟨r', s, r, hsub, htid, htid', hread, hset, hread'⟩ :=
        h.read_before_set hinc hrecord hrecord' (hlt (m, d) hm)
      exact ⟨r, s, r', e', e, cons_sublist_append (cons_sublist_append hsub), htid, htid', hread,
        hset, hread', ⟨m₁, d₁, hrecord'⟩, ⟨m, d, hrecord⟩⟩
    · exact absurd (hkept.symm.trans hpost) hnew
  · exact absurd (fun a ha => ⟨a, hkept.trans ha, le_rfl⟩) hnot

/-- An overtaken acknowledgement records a smaller generation than the one recorded before it. -/
theorem decrease_of_overtaken (h : SyncHistory ops tr store) (hinc : SetsIncrease tr g)
    (hover : Overtaken tr g) : ¬ NeverDecreases tr g := by
  obtain ⟨r, s, r', e', e, hsub, htid, htid', hread, ⟨ms, hset⟩, hread', ⟨m', d', hrecord'⟩,
    ⟨m, d, hrecord⟩⟩ := hover
  have horder := precedes_of_sublist hsub
  simp only [List.pairwise_cons, List.mem_cons, forall_eq_or_imp] at horder
  obtain ⟨⟨hprec, -⟩, -, ⟨hsr', -⟩, ⟨hrs, -⟩, -⟩ := horder
  obtain ⟨newer, older, rfl, hsub₁⟩ := exists_split_of_sublist hsub
  obtain ⟨front, rest, rfl, hsub₂⟩ := exists_split_of_sublist hsub₁
  obtain ⟨-, -, hpost⟩ := (h.recorded_read hrecord).2 r (hsub₁.subset (by simp)) htid
  obtain ⟨-, hdesired', -⟩ :=
    (h.older_part.recorded_read hrecord').2 r' (hsub₂.subset (by simp)) htid'
  -- the generations at the two reads
  obtain ⟨m₁, hm₁, hle₁⟩ := h.desiredLe_between hinc hrs m hpost
  have hlt := h.set_raises hinc hrs.right_mem hset hm₁
  obtain ⟨m₂, hm₂, hle₂⟩ := h.desiredLe_between hinc hsr' ms (h.set_post hrs.right_mem hset)
  rw [hdesired', Option.some.injEq] at hm₂
  subst hm₂
  intro hnever
  obtain ⟨a, ha, hle⟩ := hnever e' e hprec (m', d') (h.record_post hprec.left_mem hrecord')
  rw [h.record_post hprec.right_mem hrecord, Option.some.injEq] at ha
  subst ha
  exact absurd hle (hle₁.trans_lt (hlt.trans_le hle₂)).not_ge

end SyncHistory

/-- **The recorded generation never decreases, exactly unless an acknowledgement is overtaken.** -/
theorem applied_never_decreases_iff [DecidableEq τ] {ops : τ → SyncOperation}
    {tr : List (SyncEvent τ)} {store : InMemoryGatewayStateStore} (h : SyncHistory ops tr store)
    (g : GatewayId) (hinc : SetsIncrease tr g) : NeverDecreases tr g ↔ ¬ Overtaken tr g := by
  refine ⟨fun hnever hover => h.decrease_of_overtaken hinc hover hnever, fun hnot e₁ e₂ hprec => ?_⟩
  have hevent : ∀ e ∈ tr, AppliedLe g e.pre e.post := by
    intro e he
    by_contra hdecrease
    exact hnot (h.overtaken_of_decrease hinc he hdecrease)
  obtain ⟨pool, run⟩ := h
  have hbetween : AppliedLe g e₁.post e₂.pre :=
    run.rel_of_precedes (appliedLe_refl g) appliedLe_trans hevent hprec
  exact appliedLe_trans hbetween (hevent e₂ hprec.right_mem)

end

section Sample

attribute [local instance] Reference.crates

/-- The first and the second manifest of a gateway. -/
def sampleDesired (second : Bool) : PeerManifest :=
  { sampleManifest "2026-08-01T20:00:00Z" with
    generation :=
      if second then (VpnPolicy.default.generation.next).getD VpnPolicy.default.generation
      else VpnPolicy.default.generation }

/-- The gateway acknowledges that it applied the manifest. -/
def sampleAcknowledge (manifest : PeerManifest) : SyncOperation :=
  match PeerDelivery.new sampleGateway manifest with
  | .ok delivery => .acknowledge (.applied delivery)
  | .error _ => .setDesired sampleGateway manifest

def sampleSync (t : ℕ) : SyncOperation :=
  [.setDesired sampleGateway (sampleDesired false), .setDesired sampleGateway (sampleDesired true),
    sampleAcknowledge (sampleDesired false), sampleAcknowledge (sampleDesired true)].getD t
      (sampleAcknowledge (sampleDesired false))

def sampleSyncRun (schedule : List ℕ) :=
  play (fun (_ : Unit) => perform) .default (fun t => (sampleSync t).code.run)
    (schedule.map fun t => (t, ()))

theorem sampleSyncRun_history (schedule : List ℕ) :
    SyncHistory sampleSync (sampleSyncRun schedule).trace (sampleSyncRun schedule).state :=
  ⟨_, play_run _ _ _ _⟩

def readsFor (g : GatewayId) (e : SyncEvent ℕ) : Bool :=
  match e.call with
  | .desiredManifest g' => g' = g
  | _ => false

def setsFor (g : GatewayId) (e : SyncEvent ℕ) : Bool :=
  match e.call with
  | .setDesired g' _ => g' = g
  | _ => false

def recordsFor (g : GatewayId) (e : SyncEvent ℕ) : Bool :=
  match e.call with
  | .recordApplied g' _ _ => g' = g
  | _ => false

/-- `SetsIncrease` for two events. -/
def setsIncrease (g : GatewayId) (e₂ e₁ : SyncEvent ℕ) : Bool :=
  match e₁.call, e₂.call with
  | .setDesired g₁ m₁, .setDesired g₂ m₂ =>
      decide (g₁ = g → g₂ = g → m₁.generation.value < m₂.generation.value)
  | _, _ => true

theorem setsIncrease_of_pairwise {tr : List (SyncEvent ℕ)} {g : GatewayId}
    (h : tr.Pairwise (fun e₂ e₁ => setsIncrease g e₂ e₁ = true)) : SetsIncrease tr g := by
  intro e₁ e₂ m₁ m₂ hprec h₁ h₂
  have hpair := List.pairwise_iff_forall_sublist.1 h hprec
  unfold setsIncrease at hpair
  rw [h₁, h₂] at hpair
  exact of_decide_eq_true hpair rfl rfl

/-- The order of `Overtaken`, without the clients. -/
theorem hasChain_of_overtaken {tr : List (SyncEvent ℕ)} {g : GatewayId} (h : Overtaken tr g) :
    hasChain [recordsFor g, recordsFor g, readsFor g, setsFor g, readsFor g] tr = true := by
  obtain ⟨r, s, r', e', e, hsub, -, -, hread, ⟨m, hset⟩, hread', ⟨m', d', hrecord'⟩,
    ⟨m₁, d₁, hrecord⟩⟩ := h
  refine hasChain_of_sublist hsub (.cons ?_ (.cons ?_ (.cons ?_ (.cons ?_ (.cons ?_ .nil)))))
  · simp [recordsFor, hrecord]
  · simp [recordsFor, hrecord']
  · simp [readsFor, hread']
  · simp [setsFor, hset]
  · simp [readsFor, hread]

/-- Both manifests are applied one after the other. -/
theorem applied_never_decreases_iff_sample :
    NeverDecreases (sampleSyncRun [0, 2, 2, 1, 3, 3]).trace sampleGateway := by
  have hrun : (sampleSyncRun [0, 2, 2, 1, 3, 3]).trace.Pairwise
        (fun e₂ e₁ => setsIncrease sampleGateway e₂ e₁ = true) ∧
      hasChain [recordsFor sampleGateway, recordsFor sampleGateway, readsFor sampleGateway,
        setsFor sampleGateway, readsFor sampleGateway]
        (sampleSyncRun [0, 2, 2, 1, 3, 3]).trace = false := by decide +kernel
  refine (applied_never_decreases_iff (sampleSyncRun_history _) sampleGateway
    (setsIncrease_of_pairwise hrun.1)).2 ?_
  intro hover
  rw [hasChain_of_overtaken hover] at hrun
  cases hrun.2

/-- The first acknowledgement is overtaken by the second one. -/
theorem applied_decreases :
    SyncHistory sampleSync (sampleSyncRun [0, 2, 1, 3, 3, 2]).trace
        (sampleSyncRun [0, 2, 1, 3, 3, 2]).state ∧
      SetsIncrease (sampleSyncRun [0, 2, 1, 3, 3, 2]).trace sampleGateway ∧
      ¬ NeverDecreases (sampleSyncRun [0, 2, 1, 3, 3, 2]).trace sampleGateway := by
  have hrun : (sampleSyncRun [0, 2, 1, 3, 3, 2]).trace.Pairwise
        (fun e₂ e₁ => setsIncrease sampleGateway e₂ e₁ = true) ∧
      hasChain [fun e => (e.post.applied.value sampleGateway).map (·.1.generation.value) = some 1,
        fun e => (e.post.applied.value sampleGateway).map (·.1.generation.value) = some 2]
        (sampleSyncRun [0, 2, 1, 3, 3, 2]).trace = true := by decide +kernel
  refine ⟨sampleSyncRun_history _, setsIncrease_of_pairwise hrun.1, ?_⟩
  intro hnever
  obtain ⟨e₁, e₂, hprec, h₁, h₂⟩ := exists_precedes hrun.2
  obtain ⟨a₁, ha₁, hgen₁⟩ := Option.map_eq_some_iff.1 (of_decide_eq_true h₁)
  obtain ⟨a₂, ha₂, hgen₂⟩ := Option.map_eq_some_iff.1 (of_decide_eq_true h₂)
  obtain ⟨a, ha, hle⟩ := hnever e₁ e₂ hprec a₁ ha₁
  rw [ha₂, Option.some.injEq] at ha
  subst ha
  omega

end Sample

end RsConsole
