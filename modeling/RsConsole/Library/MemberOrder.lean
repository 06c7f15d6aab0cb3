import Mathlib.Data.List.Perm.Subperm
import Mathlib.Data.String.Basic
import RsConsole.Library.Json

set_option autoImplicit false

/-! # JSON values up to the order of members

An object stands for a map from keys to values, so two values mean the same when they are equal up to
the order of the members of their objects, at every level (`EqualUpToOrder`). For values whose
objects have no key twice, `sortKeys` picks one value of each class: `sortKeys_eq_iff`. -/

namespace RsConsole.Library.Json

variable {N : Type}

mutual

/-- No object has two members of one key. -/
def KeysDistinct : Json N → Prop
  | .array items => KeysDistinctItems items
  | .object members => (members.map Prod.fst).Nodup ∧ KeysDistinctMembers members
  | _ => True

def KeysDistinctItems : List (Json N) → Prop
  | [] => True
  | v :: items => KeysDistinct v ∧ KeysDistinctItems items

def KeysDistinctMembers : List (String × Json N) → Prop
  | [] => True
  | (_, v) :: members => KeysDistinct v ∧ KeysDistinctMembers members

end

theorem keysDistinctItems_iff (items : List (Json N)) :
    KeysDistinctItems items ↔ ∀ v ∈ items, KeysDistinct v := by
  induction items with
  | nil => simp [KeysDistinctItems]
  | cons v items ih => rw [KeysDistinctItems, ih, List.forall_mem_cons]

mutual

/-- The values are equal, but for the order of the members of objects: two objects have as many
    members, and each member of the one has its counterpart in the other. -/
def EqualUpToOrder : Json N → Json N → Prop
  | .null, .null => True
  | .bool b, .bool b' => b = b'
  | .number n, .number n' => n = n'
  | .string s, .string s' => s = s'
  | .array items, .array items' => EqualItems items items'
  | .object members, .object members' =>
      members.length = members'.length ∧ EqualMembers members members'
  | _, _ => False

def EqualItems : List (Json N) → List (Json N) → Prop
  | [], [] => True
  | v :: items, v' :: items' => EqualUpToOrder v v' ∧ EqualItems items items'
  | _, _ => False

/-- Every member of the first list has a counterpart in the second. -/
def EqualMembers : List (String × Json N) → List (String × Json N) → Prop
  | [], _ => True
  | (k, v) :: members, members' =>
      (∃ v', (k, v') ∈ members' ∧ EqualUpToOrder v v') ∧ EqualMembers members members'

end

theorem keysDistinctMembers_iff (members : List (String × Json N)) :
    KeysDistinctMembers members ↔ ∀ m ∈ members, KeysDistinct m.2 := by
  induction members with
  | nil => simp [KeysDistinctMembers]
  | cons m members ih =>
      obtain ⟨k, v⟩ := m
      rw [KeysDistinctMembers, ih, List.forall_mem_cons]

theorem keysSortedMembers_iff (members : List (String × Json N)) :
    KeysSortedMembers members ↔ ∀ m ∈ members, KeysSorted m.2 := by
  induction members with
  | nil => simp [KeysSortedMembers]
  | cons m members ih =>
      obtain ⟨k, v⟩ := m
      rw [KeysSortedMembers, ih, List.forall_mem_cons]

/-! ## Sorting by keys -/

theorem sortKeysMembers_keys (members : List (String × Json N)) :
    (sortKeysMembers members).map Prod.fst = members.map Prod.fst := by
  rw [sortKeysMembers_eq, List.map_map]
  rfl

theorem length_sortKeysMembers (members : List (String × Json N)) :
    (sortKeysMembers members).length = members.length := by
  rw [sortKeysMembers_eq, List.length_map]

theorem mem_sortKeysMembers {k : String} {w : Json N} {members : List (String × Json N)} :
    (k, w) ∈ sortKeysMembers members ↔ ∃ v, (k, v) ∈ members ∧ sortKeys v = w := by
  rw [sortKeysMembers_eq, List.mem_map]
  constructor
  · rintro ⟨⟨k', v⟩, hm, heq⟩
    cases heq
    exact ⟨v, hm, rfl⟩
  · rintro ⟨v, hm, rfl⟩
    exact ⟨(k, v), hm, rfl⟩

section Sorted

variable {β : Type} {members members' : List (String × β)}

theorem sorted_pairwise (members : List (String × β)) :
    (members.insertionSort (fun m m' => m.1 ≤ m'.1)).Pairwise (fun m m' => m.1 ≤ m'.1) := by
  have : Std.Total (fun m m' : String × β => m.1 ≤ m'.1) := ⟨fun m m' => le_total m.1 m'.1⟩
  have : IsTrans (String × β) (fun m m' => m.1 ≤ m'.1) := ⟨fun _ _ _ => le_trans⟩
  exact List.pairwise_insertionSort _ members

theorem sorted_keys_nodup (h : (members.map Prod.fst).Nodup) :
    ((members.insertionSort (fun m m' => m.1 ≤ m'.1)).map Prod.fst).Nodup :=
  ((List.perm_insertionSort _ members).map Prod.fst).nodup_iff.2 h

/-- Distinct keys are sorted strictly. -/
theorem sorted_strict (h : (members.map Prod.fst).Nodup) :
    ((members.insertionSort (fun m m' => m.1 ≤ m'.1)).map Prod.fst).Pairwise (· < ·) := by
  have hne := List.pairwise_map.1 (sorted_keys_nodup h)
  rw [List.pairwise_map]
  exact ((sorted_pairwise members).and hne).imp fun hle => lt_of_le_of_ne hle.1 hle.2

/-- Members with distinct keys can be sorted in one way only. -/
theorem sorted_eq_of_perm (hperm : members.Perm members') (h : (members.map Prod.fst).Nodup) :
    members.insertionSort (fun m m' => m.1 ≤ m'.1) =
      members'.insertionSort (fun m m' => m.1 ≤ m'.1) := by
  have h' : (members'.map Prod.fst).Nodup := (hperm.map Prod.fst).nodup_iff.1 h
  refine List.Perm.eq_of_pairwise ?_ (List.pairwise_map.1 (sorted_strict h))
    (List.pairwise_map.1 (sorted_strict h')) ?_
  · exact fun m m' _ _ hlt hlt' => absurd hlt' (lt_asymm hlt)
  · exact ((List.perm_insertionSort _ members).trans hperm).trans
      (List.perm_insertionSort _ members').symm

end Sorted

/-! ## Equal values are sorted alike -/

mutual

theorem sortKeys_of_equal (v w : Json N) (hv : v.KeysDistinct) (hw : w.KeysDistinct)
    (h : EqualUpToOrder v w) : v.sortKeys = w.sortKeys := by
  cases v with
  | null => cases w <;> simp_all [EqualUpToOrder]
  | bool b => cases w <;> simp_all [EqualUpToOrder]
  | number n => cases w <;> simp_all [EqualUpToOrder]
  | string s => cases w <;> simp_all [EqualUpToOrder]
  | array items =>
      cases w with
      | array items' =>
          rw [sortKeys, sortKeys, sortKeysItems_of_equal items items' hv hw h]
      | _ => exact h.elim
  | object members =>
      cases w with
      | object members' =>
          obtain ⟨hlength, hmembers⟩ := h
          have hsub := sortKeysMembers_of_equal members members' hv.2 hw.2 hmembers
          have hkeys : ((sortKeysMembers members).map Prod.fst).Nodup := by
            rw [sortKeysMembers_keys]
            exact hv.1
          have hsubperm := List.subperm_of_subset (List.Nodup.of_map _ hkeys) hsub
          rw [sortKeys, sortKeys, sorted_eq_of_perm (hsubperm.perm_of_length_le ?_) hkeys]
          rw [length_sortKeysMembers, length_sortKeysMembers]
          exact hlength.ge
      | _ => exact h.elim

theorem sortKeysItems_of_equal (items items' : List (Json N)) (hv : KeysDistinctItems items)
    (hw : KeysDistinctItems items') (h : EqualItems items items') :
    sortKeysItems items = sortKeysItems items' := by
  cases items with
  | nil =>
      cases items' with
      | nil => rfl
      | cons v' items' => exact h.elim
  | cons v items =>
      cases items' with
      | nil => exact h.elim
      | cons v' items' =>
          rw [sortKeysItems, sortKeysItems, sortKeys_of_equal v v' hv.1 hw.1 h.1,
            sortKeysItems_of_equal items items' hv.2 hw.2 h.2]

theorem sortKeysMembers_of_equal (members members' : List (String × Json N))
    (hv : KeysDistinctMembers members) (hw : KeysDistinctMembers members')
    (h : EqualMembers members members') : sortKeysMembers members ⊆ sortKeysMembers members' := by
  cases members with
  | nil => exact List.nil_subset _
  | cons m members =>
      obtain ⟨k, v⟩ := m
      obtain ⟨⟨v', hmem, hequal⟩, hrest⟩ := h
      have hv' : KeysDistinct v' := (keysDistinctMembers_iff members').1 hw (k, v') hmem
      rw [sortKeysMembers, List.cons_subset]
      refine ⟨mem_sortKeysMembers.2 ⟨v', hmem, ?_⟩, ?_⟩
      · exact (sortKeys_of_equal v v' hv.1 hv' hequal).symm
      · exact sortKeysMembers_of_equal members members' hv.2 hw hrest

end

mutual

theorem equal_of_sortKeys (v w : Json N) (h : v.sortKeys = w.sortKeys) : EqualUpToOrder v w := by
  cases v with
  | null => cases w <;> simp_all [EqualUpToOrder, sortKeys]
  | bool b => cases w <;> simp_all [EqualUpToOrder, sortKeys]
  | number n => cases w <;> simp_all [EqualUpToOrder, sortKeys]
  | string s => cases w <;> simp_all [EqualUpToOrder, sortKeys]
  | array items =>
      cases w with
      | array items' => exact equalItems_of_sortKeys items items' (Json.array.inj h)
      | _ => cases h
  | object members =>
      cases w with
      | object members' =>
          have hperm : (sortKeysMembers members).Perm (sortKeysMembers members') := by
            refine (List.perm_insertionSort (fun m m' => m.1 ≤ m'.1) _).symm.trans ?_
            rw [Json.object.inj h]
            exact List.perm_insertionSort _ _
          refine ⟨?_, equalMembers_of_sortKeys members members' hperm.subset⟩
          have hlength := hperm.length_eq
          rwa [length_sortKeysMembers, length_sortKeysMembers] at hlength
      | _ => cases h

theorem equalItems_of_sortKeys (items items' : List (Json N))
    (h : sortKeysItems items = sortKeysItems items') : EqualItems items items' := by
  cases items with
  | nil =>
      cases items' with
      | nil => trivial
      | cons v' items' => cases h
  | cons v items =>
      cases items' with
      | nil => cases h
      | cons v' items' =>
          obtain ⟨hv, hitems⟩ := List.cons.inj h
          exact ⟨equal_of_sortKeys v v' hv, equalItems_of_sortKeys items items' hitems⟩

theorem equalMembers_of_sortKeys (members members' : List (String × Json N))
    (h : sortKeysMembers members ⊆ sortKeysMembers members') : EqualMembers members members' := by
  cases members with
  | nil => trivial
  | cons m members =>
      obtain ⟨k, v⟩ := m
      rw [sortKeysMembers, List.cons_subset] at h
      obtain ⟨v', hmem, hv'⟩ := mem_sortKeysMembers.1 h.1
      exact ⟨⟨v', hmem, equal_of_sortKeys v v' hv'.symm⟩,
        equalMembers_of_sortKeys members members' h.2⟩

end

/-- **The sorted value is one for all orders of the members.** -/
theorem sortKeys_eq_iff {v w : Json N} (hv : v.KeysDistinct) (hw : w.KeysDistinct) :
    v.sortKeys = w.sortKeys ↔ EqualUpToOrder v w :=
  ⟨equal_of_sortKeys v w, sortKeys_of_equal v w hv hw⟩

/-! ## Sorted values -/

mutual

theorem keysSorted_sortKeys (v : Json N) (h : v.KeysDistinct) : v.sortKeys.KeysSorted := by
  cases v with
  | array items => exact keysSorted_sortKeysItems items h
  | object members =>
      refine ⟨sorted_strict ?_, ?_⟩
      · rw [sortKeysMembers_keys]
        exact h.1
      · rw [keysSortedMembers_iff]
        intro m hm
        exact keysSorted_sortKeysMembers members h.2 m ((List.mem_insertionSort _).1 hm)
  | _ => trivial

theorem keysSorted_sortKeysItems (items : List (Json N)) (h : KeysDistinctItems items) :
    KeysSortedItems (sortKeysItems items) := by
  cases items with
  | nil => trivial
  | cons v items =>
      exact ⟨keysSorted_sortKeys v h.1, keysSorted_sortKeysItems items h.2⟩

theorem keysSorted_sortKeysMembers (members : List (String × Json N))
    (h : KeysDistinctMembers members) : ∀ m ∈ sortKeysMembers members, KeysSorted m.2 := by
  cases members with
  | nil => exact fun m hm => nomatch hm
  | cons m members =>
      obtain ⟨k, v⟩ := m
      rw [sortKeysMembers, List.forall_mem_cons]
      exact ⟨keysSorted_sortKeys v h.1, keysSorted_sortKeysMembers members h.2⟩

end

mutual

/-- A value whose keys are sorted is the one that sorting gives. -/
theorem sortKeys_of_keysSorted (v : Json N) (h : v.KeysSorted) : v.sortKeys = v := by
  cases v with
  | array items => rw [sortKeys, sortKeysItems_of_keysSorted items h]
  | object members =>
      rw [sortKeys, sortKeysMembers_of_keysSorted members h.2]
      refine congrArg Json.object (List.Pairwise.insertionSort_eq ?_)
      exact (List.pairwise_map.1 h.1).imp le_of_lt
  | _ => rfl

theorem sortKeysItems_of_keysSorted (items : List (Json N)) (h : KeysSortedItems items) :
    sortKeysItems items = items := by
  cases items with
  | nil => rfl
  | cons v items =>
      rw [sortKeysItems, sortKeys_of_keysSorted v h.1, sortKeysItems_of_keysSorted items h.2]

theorem sortKeysMembers_of_keysSorted (members : List (String × Json N))
    (h : KeysSortedMembers members) : sortKeysMembers members = members := by
  cases members with
  | nil => rfl
  | cons m members =>
      obtain ⟨k, v⟩ := m
      rw [sortKeysMembers, sortKeys_of_keysSorted v h.1, sortKeysMembers_of_keysSorted members h.2]

end

end RsConsole.Library.Json
