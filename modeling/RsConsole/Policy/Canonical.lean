import RsConsole.Library.MemberOrder
import RsConsole.Policy.Digest

set_option autoImplicit false

/-! # The canonical form of JSON values

`write_canonical_json` takes any `serde_json::Value`, not only the values of manifests. Its text is
that of the value with sorted members, so it is the same for two values exactly when they are equal
up to the order of their members, and it is read back as the value that has its members in key
order: the order in which the maps of this build of `serde_json` keep them. -/

namespace RsConsole

open Library

/-- A value with the invariant of `serde_json::Map`: an object has one member for each key. -/
structure SerdeValue where
  value : Value
  distinct : value.KeysDistinct

section Canonical

variable [Crates]

/-- `read` reads back the numbers that `Number::to_string` writes. -/
def ReadsNumbers (read : List Char → Option Number) : Prop :=
  ∀ n, read (Crates.numberText n) = some n

variable (rules : JsonRules)

include rules

theorem exists_readsNumbers : ∃ read, ReadsNumbers read := by
  classical
  exact ⟨Function.partialInv Crates.numberText, Function.partialInv_left rules.number_injective⟩

/-- The same text is written for the same value with sorted members. -/
theorem writeCanonicalJson_eq_iff (v w : Value) :
    writeCanonicalJson v = writeCanonicalJson w ↔ v.sortKeys = w.sortKeys := by
  rw [writeCanonicalJson_eq rules, writeCanonicalJson_eq rules, Except.ok.injEq]
  exact (Json.text_injective rules.number_syntax rules.number_injective).eq_iff

theorem parse_writeCanonicalJson {v : Value} {text : List Char}
    (h : writeCanonicalJson v = .ok text) {read : List Char → Option Number}
    (hread : ReadsNumbers read) : Json.parse read text = some v.sortKeys := by
  rw [writeCanonicalJson_eq rules, Except.ok.injEq] at h
  rw [← h]
  exact Json.parse_eq rules.number_syntax v.sortKeys fun n _ => hread n

/-- **`write_canonical_json` writes a canonical form.** It never fails; two values have the same text
    exactly when they are equal up to the order of members; and the text is read back as the value,
    with its members in the order of their keys. -/
theorem canonical_form :
    (∀ v w : SerdeValue, writeCanonicalJson v.value = writeCanonicalJson w.value ↔
      v.value.EqualUpToOrder w.value) ∧
    (∃ read, ReadsNumbers read) ∧
    ∀ v : SerdeValue, ∃ text, writeCanonicalJson v.value = .ok text ∧
      ∀ read, ReadsNumbers read → ∃ w, Json.parse read text = some w ∧
        w.EqualUpToOrder v.value ∧ w.KeysSorted ∧ (v.value.KeysSorted → w = v.value) := by
  refine ⟨fun v w => ?_, exists_readsNumbers rules, fun v => ?_⟩
  · rw [writeCanonicalJson_eq_iff rules]
    exact Json.sortKeys_eq_iff v.distinct w.distinct
  · have htext := writeCanonicalJson_eq rules v.value
    have hsorted := Json.keysSorted_sortKeys v.value v.distinct
    refine ⟨_, htext, fun read hread =>
      ⟨v.value.sortKeys, parse_writeCanonicalJson rules htext hread, ?_, hsorted,
        Json.sortKeys_of_keysSorted v.value⟩⟩
    -- sorting what is sorted already changes nothing
    exact Json.equal_of_sortKeys _ _ (Json.sortKeys_of_keysSorted _ hsorted)

end Canonical

section Sample

attribute [local instance] Reference.crates

/-- An object in an object, with the members of both in either order. -/
def sampleNested (flip : Bool) : SerdeValue where
  value :=
    let inner : List (String × Value) := [("ü", .array [.null, .bool true]), ("\"", .string "\n")]
    let outer : List (String × Value) :=
      [("b", .number (.posInt 7 (by decide))),
        ("a", .object (if flip then inner.reverse else inner))]
    .object (if flip then outer.reverse else outer)
  distinct := by
    cases flip <;> simp [Json.KeysDistinct, Json.KeysDistinctMembers, Json.KeysDistinctItems]

theorem canonical_form_sample :
    writeCanonicalJson (sampleNested false).value = writeCanonicalJson (sampleNested true).value := by
  refine ((canonical_form Reference.jsonRules).1 _ _).2 ⟨rfl, ?_, ?_, trivial⟩
  · exact ⟨_, List.mem_cons_of_mem _ List.mem_cons_self, rfl⟩
  · refine ⟨_, List.mem_cons_self, rfl, ?_, ?_, trivial⟩
    · exact ⟨_, List.mem_cons_of_mem _ List.mem_cons_self, trivial, rfl, trivial⟩
    · exact ⟨_, List.mem_cons_self, rfl⟩

end Sample

end RsConsole
