import RsConsole.Library.Json

set_option autoImplicit false

/-! # Decoding JSON documents into values

The decoders that `serde` derives, over JSON values whose objects keep the members of the document.
A struct is an object with each of its fields once and no other member, or the array of its fields in
their order; a variant without data is its name, or an object that maps its name to `null`; a sequence
is an array. A decoder gives `none` where decoding fails, for whatever reason.

A derived decoder checks one field at a time. So a condition on a decoded value is a condition on the
raw fields of the document, and `decodeAll_raw`, `forall_iff_of_forall₂` and `pairwise_iff_of_forall₂`
carry it over to the items of a sequence. -/

namespace RsConsole.Library.Json

variable {N α β : Type}

/-- Decode every item. -/
def decodeAll (decode : α → Option β) : List α → Option (List β)
  | [] => some []
  | item :: items => do
      let b ← decode item
      let bs ← decodeAll decode items
      some (b :: bs)

/-- The keys of an object are the fields of a struct, each once. -/
def StructKeys (fields keys : List String) : Prop :=
  (∀ key ∈ keys, key ∈ fields) ∧ keys.Nodup ∧ ∀ field ∈ fields, field ∈ keys

instance (fields keys : List String) : Decidable (StructKeys fields keys) :=
  inferInstanceAs (Decidable (_ ∧ _))

/-- The raw fields of a struct, in the order of `fields`. -/
def structFields (fields : List String) : Json N → Option (List (Json N))
  | .object members =>
      if StructKeys fields (members.map Prod.fst) then
        decodeAll (fun field => members.lookup field) fields
      else none
  | .array items => if items.length = fields.length then some items else none
  | _ => none

/-- The name of a variant without data. -/
def variantName : Json N → Option String
  | .string name => some name
  | .object [(name, .null)] => some name
  | _ => none

def decodeString : Json N → Option String
  | .string s => some s
  | _ => none

/-- The items of a sequence. -/
def sequence : Json N → Option (List (Json N))
  | .array items => some items
  | _ => none

@[simp] theorem decodeString_eq_some {v : Json N} {s : String} :
    decodeString v = some s ↔ v = .string s := by
  cases v <;> simp [decodeString]

@[simp] theorem sequence_eq_some {v : Json N} {items : List (Json N)} :
    sequence v = some items ↔ v = .array items := by
  cases v <;> simp [sequence]

theorem decodeAll_eq_some {decode : α → Option β} {items : List α} {bs : List β} :
    decodeAll decode items = some bs ↔ List.Forall₂ (fun a b => decode a = some b) items bs := by
  induction items generalizing bs with
  | nil =>
      rw [List.forall₂_nil_left_iff]
      simp [decodeAll, eq_comm]
  | cons item items ih =>
      simp only [decodeAll, Option.bind_eq_bind, Option.bind_eq_some_iff, Option.some.injEq,
        List.forall₂_cons_left_iff, ih]
      constructor
      · rintro ⟨b, hb, bs', hbs, rfl⟩
        exact ⟨b, bs', hb, hbs, rfl⟩
      · rintro ⟨b, bs', hb, hbs, rfl⟩
        exact ⟨b, hb, bs', hbs, rfl⟩

/-- When decoding an item tells how its raw form looks, decoding all items does. -/
theorem decodeAll_raw {γ : Type} {decode : α → Option β} {raw : α → Option γ} {R : γ → β → Prop}
    (hraw : ∀ a b, decode a = some b → ∃ c, raw a = some c ∧ R c b) {items : List α} {bs : List β}
    (h : decodeAll decode items = some bs) :
    ∃ cs, decodeAll raw items = some cs ∧ List.Forall₂ R cs bs := by
  rw [decodeAll_eq_some] at h
  induction h with
  | nil => exact ⟨[], rfl, .nil⟩
  | @cons a b items bs hab _ ih =>
      obtain ⟨c, hc, hcb⟩ := hraw a b hab
      obtain ⟨cs, hcs, hall⟩ := ih
      refine ⟨c :: cs, ?_, .cons hcb hall⟩
      simp [decodeAll, hc, hcs]

/-- A condition on raw items is the corresponding one on the decoded items. -/
theorem forall_iff_of_forall₂ {R : α → β → Prop} {P : α → Prop} {Q : β → Prop}
    (h : ∀ a b, R a b → (P a ↔ Q b)) {as : List α} {bs : List β} (hall : List.Forall₂ R as bs) :
    (∀ a ∈ as, P a) ↔ ∀ b ∈ bs, Q b := by
  induction hall with
  | nil => simp
  | cons hab _ ih => simp [h _ _ hab, ih]

/-- A condition on pairs of raw items is the corresponding one on pairs of decoded items. -/
theorem pairwise_iff_of_forall₂ {R : α → β → Prop} {S : α → α → Prop} {T : β → β → Prop}
    (h : ∀ a b a' b', R a b → R a' b' → (S a a' ↔ T b b')) {as : List α} {bs : List β}
    (hall : List.Forall₂ R as bs) : as.Pairwise S ↔ bs.Pairwise T := by
  induction hall with
  | nil => simp
  | @cons a b as bs hab hall ih =>
      rw [List.pairwise_cons, List.pairwise_cons, ih,
        forall_iff_of_forall₂ (fun a' b' hab' => h a b a' b' hab hab') hall]

end RsConsole.Library.Json
