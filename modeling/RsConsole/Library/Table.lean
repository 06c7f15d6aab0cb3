import Mathlib.Data.List.Forall2
import Mathlib.Data.List.Nodup
import Mathlib.Data.List.Sort

set_option autoImplicit false

/-! # Tables as lists of rows

A table keeps its rows in insertion order. It changes in two ways only: `updateWhere` rewrites the
selected rows in place, and `insertRow` appends a row that passes the table's constraints. `Grows rel
rows rows'` is what both have in common: every old row is still there, at its place, related to
what it was by `rel`, and the rest is new. A column is a key when its values are pairwise distinct
(`Keyed`). -/

namespace RsConsole.Library.Table

/-- Why a database refuses a statement. -/
inductive SqlError where
  | check
  | unique
  | foreignKey
  | other
  deriving DecidableEq

variable {ρ ρ' κ : Type}

/-- `UPDATE … SET … WHERE …`. -/
def updateWhere (p : ρ → Bool) (f : ρ → ρ) (rows : List ρ) : List ρ :=
  rows.map (fun r => if p r then f r else r)

/-- `INSERT INTO … VALUES …`: the values have to be storable, then the row has to pass the table's
    checks, must not collide with another row, and has to refer to existing rows. -/
def insertRow (storable check : Bool) (collides : ρ → ρ → Bool) (references : Bool) (r : ρ)
    (rows : List ρ) : Except SqlError (List ρ) :=
  if storable = false then .error .other
  else if check = false then .error .check
  else if rows.any (collides r) then .error .unique
  else if references = false then .error .foreignKey
  else .ok (rows ++ [r])

/-- `… JOIN … ON …`. -/
def join (on : ρ → ρ' → Bool) (rows : List ρ) (rows' : List ρ') : List (ρ × ρ') :=
  rows.flatMap (fun r => (rows'.filter (on r)).map (r, ·))

/-- `ORDER BY key`; rows with equal keys come in the order of `tie`. -/
def orderBy (key : ρ → ℤ) (tie : ρ → ℕ) (rows : List ρ) : List ρ :=
  rows.insertionSort (fun r r' => key r < key r' ∨ (key r = key r' ∧ tie r ≤ tie r'))

/-- The rows of `rows` are kept in order, each related by `rel` to its new version, and rows may
    have been added after them. -/
def Grows (rel : ρ → ρ → Prop) (rows rows' : List ρ) : Prop :=
  ∃ kept added, rows' = kept ++ added ∧ List.Forall₂ rel rows kept

/-- The column `key` has pairwise distinct values. -/
def Keyed (key : ρ → κ) (rows : List ρ) : Prop :=
  (rows.map key).Nodup

/-! ## Queries -/

@[simp] theorem mem_join {on : ρ → ρ' → Bool} {rows : List ρ} {rows' : List ρ'} {x : ρ × ρ'} :
    x ∈ join on rows rows' ↔ x.1 ∈ rows ∧ x.2 ∈ rows' ∧ on x.1 x.2 = true := by
  obtain ⟨r, r'⟩ := x
  simp only [join, List.mem_flatMap, List.mem_map, List.mem_filter, Prod.mk.injEq]
  constructor
  · rintro ⟨_, hr, _, hr', rfl, rfl⟩
    exact ⟨hr, hr'⟩
  · rintro ⟨hr, hr'⟩
    exact ⟨r, hr, r', hr', rfl, rfl⟩

@[simp] theorem mem_orderBy {key : ρ → ℤ} {tie : ρ → ℕ} {rows : List ρ} {r : ρ} :
    r ∈ orderBy key tie rows ↔ r ∈ rows :=
  List.mem_insertionSort _

theorem mem_of_find {p : ρ → Prop} [DecidablePred p] {rows : List ρ} {r : ρ}
    (h : rows.find? (fun r => decide (p r)) = some r) : r ∈ rows ∧ p r := by
  refine ⟨List.mem_of_find?_eq_some h, ?_⟩
  have hp := List.find?_some h
  exact of_decide_eq_true hp

/-! ## Inserts -/

theorem insertRow_ok {storable check references : Bool} {collides : ρ → ρ → Bool} {r : ρ}
    {rows rows' : List ρ} (h : insertRow storable check collides references r rows = .ok rows') :
    rows' = rows ++ [r] ∧ check = true ∧ (∀ r' ∈ rows, collides r r' = false) ∧
      references = true := by
  unfold insertRow at h
  split at h
  · cases h
  split at h
  · cases h
  split at h
  · cases h
  split at h
  · cases h
  next _ hcheck hunique href =>
    cases h
    rw [List.any_eq_true] at hunique
    push Not at hunique
    exact ⟨rfl, by simpa using hcheck, fun r' hr' => by simpa using hunique r' hr',
      by simpa using href⟩

/-! ## Updates -/

theorem mem_updateWhere {p : ρ → Bool} {f : ρ → ρ} {rows : List ρ} {r' : ρ} :
    r' ∈ updateWhere p f rows ↔ ∃ r ∈ rows, r' = if p r then f r else r := by
  simp only [updateWhere, List.mem_map, eq_comm]

/-- What an update makes of a row. -/
theorem exists_mem_updateWhere {p : ρ → Bool} {f : ρ → ρ} {rows : List ρ} {r : ρ} {Q : ρ → Prop}
    (hr : r ∈ rows) (hf : p r = true → Q (f r)) (hsame : p r = false → Q r) :
    ∃ r' ∈ updateWhere p f rows, Q r' := by
  refine ⟨_, mem_updateWhere.2 ⟨r, hr, rfl⟩, ?_⟩
  split
  · next hp => exact hf hp
  · next hp => exact hsame (Bool.eq_false_iff.2 hp)

theorem length_updateWhere (p : ρ → Bool) (f : ρ → ρ) (rows : List ρ) :
    (updateWhere p f rows).length = rows.length :=
  List.length_map ..

/-- An update that does not change whether rows satisfy `q` keeps their number. -/
theorem countP_updateWhere {p q : ρ → Bool} {f : ρ → ρ} (h : ∀ r, p r = true → q (f r) = q r)
    (rows : List ρ) : (updateWhere p f rows).countP q = rows.countP q := by
  rw [updateWhere, List.countP_map]
  refine List.countP_congr (fun r _ => ?_)
  by_cases hp : p r = true
  · simp [hp, h r hp]
  · simp [hp]

/-- An update after which no new row satisfies `q` does not increase their number. -/
theorem countP_updateWhere_le {p q : ρ → Bool} {f : ρ → ρ}
    (h : ∀ r, p r = true → q (f r) = true → q r = true) (rows : List ρ) :
    (updateWhere p f rows).countP q ≤ rows.countP q := by
  rw [updateWhere, List.countP_map]
  refine List.countP_mono_left (fun r _ hq => ?_)
  by_cases hp : p r = true
  · rw [Function.comp_apply, if_pos hp] at hq
    exact h r hp hq
  · rw [Function.comp_apply, if_neg hp] at hq
    exact hq

@[simp] theorem updateWhere_false (f : ρ → ρ) (rows : List ρ) :
    updateWhere (fun _ => false) f rows = rows := by
  simp [updateWhere]

/-- An update that selects no row changes none. -/
theorem updateWhere_of_false {p : ρ → Bool} (f : ρ → ρ) {rows : List ρ}
    (h : ∀ r ∈ rows, p r = false) : updateWhere p f rows = rows := by
  rw [updateWhere]
  refine (List.map_congr_left (fun r hr => ?_)).trans (List.map_id rows)
  rw [h r hr]
  rfl

theorem updateWhere_map {γ : Type} {p : ρ → Bool} {f : ρ → ρ} {g : ρ → γ}
    (h : ∀ r, p r = true → g (f r) = g r) (rows : List ρ) :
    (updateWhere p f rows).map g = rows.map g := by
  simp only [updateWhere, List.map_map]
  refine List.map_congr_left (fun r _ => ?_)
  show g (if p r then f r else r) = g r
  split
  · next hp => exact h r hp
  · rfl

theorem keyed_updateWhere {p : ρ → Bool} {f : ρ → ρ} {key : ρ → κ} {rows : List ρ}
    (hf : ∀ r, p r = true → key (f r) = key r) (h : Keyed key rows) :
    Keyed key (updateWhere p f rows) := by
  rwa [Keyed, updateWhere_map hf]

/-! ## Keys -/

theorem keyed_append {key : ρ → κ} {rows : List ρ} {r : ρ} (h : Keyed key rows)
    (hr : ∀ r' ∈ rows, key r' ≠ key r) : Keyed key (rows ++ [r]) := by
  simp only [Keyed, List.map_append, List.map_cons, List.map_nil]
  refine h.append (List.nodup_singleton _) ?_
  rw [List.disjoint_singleton, List.mem_map]
  rintro ⟨r', hr', heq⟩
  exact hr r' hr' heq

/-- An appended row's key is new. -/
theorem Keyed.ne_of_append {key : ρ → κ} {rows : List ρ} {r r' : ρ} (h : Keyed key (rows ++ [r]))
    (hr' : r' ∈ rows) : key r' ≠ key r := by
  rw [Keyed, List.map_append, List.nodup_append'] at h
  intro heq
  exact h.2.2 (List.mem_map_of_mem hr') (List.mem_singleton.2 heq)

/-- Two rows of a table with the same key are the same row. -/
theorem Keyed.eq_of_mem {key : ρ → κ} {rows : List ρ} (h : Keyed key rows) {r r' : ρ}
    (hr : r ∈ rows) (hr' : r' ∈ rows) (heq : key r = key r') : r = r' :=
  List.inj_on_of_nodup_map h hr hr' heq

/-- The rows that a test selects are one row, when it selects one by its key. -/
theorem Keyed.length_filter_one {key : ρ → κ} {rows : List ρ} (h : Keyed key rows) {p : ρ → Bool}
    {r : ρ} (hr : r ∈ rows) (hp : ∀ r' ∈ rows, p r' = true ↔ r' = r) :
    (rows.filter p).length = 1 := by
  have hnodup : (rows.filter p).Nodup := (List.Nodup.of_map key h).filter p
  have hall : ∀ r' ∈ rows.filter p, r' = r := by
    intro r' hr'
    rw [List.mem_filter] at hr'
    exact (hp r' hr'.1).1 hr'.2
  have hmem : r ∈ rows.filter p := List.mem_filter.2 ⟨hr, (hp r hr).2 rfl⟩
  cases hrows : rows.filter p with
  | nil =>
      rw [hrows] at hmem
      cases hmem
  | cons a rest =>
      rw [hrows] at hnodup hall
      cases rest with
      | nil => rfl
      | cons b rest =>
          have hne := (List.nodup_cons.1 hnodup).1
          rw [hall a (by simp), hall b (by simp)] at hne
          exact absurd List.mem_cons_self hne

/-- An update of a single row, which did not satisfy `q` before. -/
theorem Keyed.countP_updateWhere_one {key : ρ → κ} {rows : List ρ} (h : Keyed key rows)
    {p q : ρ → Bool} {f : ρ → ρ} {r : ρ} (hr : r ∈ rows) (hp : ∀ r' ∈ rows, p r' = true ↔ r' = r)
    (hq : q r = false) :
    (updateWhere p f rows).countP q = rows.countP q + if q (f r) then 1 else 0 := by
  obtain ⟨before, after, rfl⟩ := List.append_of_mem hr
  -- the key is unique, so `p` picks `r` and no row before or after it
  have hsame : ∀ r' ∈ before ++ after, p r' = false := by
    intro r' hr'
    have hmem : r' ∈ before ++ r :: after := by
      rcases List.mem_append.1 hr' with hr' | hr' <;> simp [hr']
    rw [Bool.eq_false_iff, Ne, hp r' hmem]
    rintro rfl
    have hnodup := List.Nodup.of_map key h
    simp only [List.nodup_append', List.nodup_cons, List.disjoint_cons_right] at hnodup
    rcases List.mem_append.1 hr' with hr' | hr'
    · exact hnodup.2.2.1 hr'
    · exact hnodup.2.1.1 hr'
  have hbefore : updateWhere p f before = before :=
    updateWhere_of_false f fun r' hr' => hsame r' (List.mem_append_left _ hr')
  have hafter : updateWhere p f after = after :=
    updateWhere_of_false f fun r' hr' => hsame r' (List.mem_append_right _ hr')
  have hone : updateWhere p f (before ++ r :: after) = before ++ f r :: after := by
    conv_rhs => rw [← hbefore, ← hafter]
    simp [updateWhere, (hp r hr).2 rfl]
  rw [hone, List.countP_append, List.countP_append, List.countP_cons, List.countP_cons, hq]
  simp only [Bool.false_eq_true, if_false, Nat.add_zero, Nat.add_assoc]

/-! ## Growth -/

section Grows

variable {rel : ρ → ρ → Prop}

theorem grows_refl (hrefl : ∀ r, rel r r) (rows : List ρ) : Grows rel rows rows :=
  ⟨rows, [], (List.append_nil _).symm, List.forall₂_same.2 (fun r _ => hrefl r)⟩

theorem forall₂_trans (htrans : ∀ a b c, rel a b → rel b c → rel a c) {rows₁ rows₂ rows₃ : List ρ}
    (h₁ : List.Forall₂ rel rows₁ rows₂) (h₂ : List.Forall₂ rel rows₂ rows₃) :
    List.Forall₂ rel rows₁ rows₃ := by
  induction h₁ generalizing rows₃ with
  | nil => exact h₂
  | cons hab _ ih =>
      cases h₂ with
      | cons hbc htail => exact .cons (htrans _ _ _ hab hbc) (ih htail)

theorem grows_trans (htrans : ∀ {a b c}, rel a b → rel b c → rel a c) {rows₁ rows₂ rows₃ : List ρ}
    (h₁ : Grows rel rows₁ rows₂) (h₂ : Grows rel rows₂ rows₃) : Grows rel rows₁ rows₃ := by
  obtain ⟨kept, added, rfl, hk⟩ := h₁
  obtain ⟨kept', added', rfl, hk'⟩ := h₂
  have hsplit : List.Forall₂ rel kept (kept'.take kept.length) :=
    (List.forall₂_take_append kept' kept added hk'.flip).flip
  refine ⟨kept'.take kept.length, kept'.drop kept.length ++ added', ?_, ?_⟩
  · rw [← List.append_assoc, List.take_append_drop]
  · exact @forall₂_trans _ rel (fun _ _ _ => htrans) _ _ _ hk hsplit

theorem grows_append (hrefl : ∀ r, rel r r) (rows added : List ρ) :
    Grows rel rows (rows ++ added) :=
  ⟨rows, added, rfl, List.forall₂_same.2 (fun r _ => hrefl r)⟩

theorem grows_updateWhere {p : ρ → Bool} {f : ρ → ρ} {rows : List ρ} (hrefl : ∀ r, rel r r)
    (hf : ∀ r ∈ rows, p r = true → rel r (f r)) : Grows rel rows (updateWhere p f rows) := by
  refine ⟨updateWhere p f rows, [], (List.append_nil _).symm, ?_⟩
  rw [updateWhere, List.forall₂_map_right_iff, List.forall₂_same]
  intro r hr
  by_cases hp : p r = true
  · rw [if_pos hp]
    exact hf r hr hp
  · rw [if_neg hp]
    exact hrefl r

/-- Every old row still has a version. -/
theorem Grows.exists_of_mem {rows rows' : List ρ} (h : Grows rel rows rows') {r : ρ}
    (hr : r ∈ rows) : ∃ r' ∈ rows', rel r r' := by
  obtain ⟨kept, added, rfl, hk⟩ := h
  obtain ⟨i, hi, rfl⟩ := List.mem_iff_getElem.1 hr
  have hi' : i < kept.length := hk.length_eq ▸ hi
  exact ⟨kept[i], List.mem_append_left _ (List.getElem_mem hi'), hk.get hi hi'⟩

/-- In a keyed table whose key never changes, the version of an old row is the row with its
    key. -/
theorem Grows.rel_of_key {key : ρ → κ} {rows rows' : List ρ} (h : Grows rel rows rows')
    (hkey : ∀ r r', rel r r' → key r' = key r) (hkeyed : Keyed key rows') {r r' : ρ}
    (hr : r ∈ rows) (hr' : r' ∈ rows') (heq : key r' = key r) : rel r r' := by
  obtain ⟨r₁, hr₁, hrel⟩ := h.exists_of_mem hr
  rwa [hkeyed.eq_of_mem hr' hr₁ (heq.trans (hkey r r₁ hrel).symm)]

/-- Without an added row, every row is a version of an old one. -/
theorem Grows.exists_old {rows rows' : List ρ} (h : Grows rel rows rows')
    (hlength : rows'.length = rows.length) {r' : ρ} (hr' : r' ∈ rows') :
    ∃ r ∈ rows, rel r r' := by
  obtain ⟨kept, added, rfl, hk⟩ := h
  have hadded : added = [] := by
    rw [List.length_append, hk.length_eq] at hlength
    exact List.length_eq_zero_iff.1 (by omega)
  rw [hadded, List.append_nil] at hr'
  obtain ⟨i, hi, rfl⟩ := List.mem_iff_getElem.1 hr'
  have hi' : i < rows.length := hk.length_eq ▸ hi
  exact ⟨rows[i], List.getElem_mem hi', hk.get hi' hi⟩

end Grows

end RsConsole.Library.Table
