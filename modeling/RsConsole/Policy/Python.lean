import RsConsole.Library.MemberOrder
import RsConsole.Policy.Digest
import RsConsole.Policy.Timestamps
import RsConsole.Policy.Wire

set_option autoImplicit false

/-! # The canonical text as Python writes it

The gateway computes the digest in Python, over
`json.dumps(obj, sort_keys=True, separators=(',', ':'))`. Python escapes every character outside the
printable ASCII range, and `write_canonical_json` writes such characters as they are. The two texts
of a manifest agree because no leaf of a manifest has such a character: each constructor checks its
text (`PlainText`), down to the timestamp, whose bytes are those of its grammar. -/

namespace RsConsole

open Library

/-! ## `json.dumps` -/

/-- The lower-case hexadecimal digits of `n < 0x10000`. -/
def hexFour (n : ℕ) : List Char :=
  [Json.hexDigit (n / 0x1000), Json.hexDigit (n / 0x100 % 16), Json.hexDigit (n / 0x10 % 16),
    Json.hexDigit (n % 16)]

/-- `py_encode_basestring_ascii` on one character. -/
def pythonEscape (c : Char) : List Char :=
  if c = '\\' then ['\\', '\\']
  else if c = '"' then ['\\', '"']
  else if 32 ≤ c.toNat ∧ c.toNat ≤ 126 then [c]
  else if c = '\n' then ['\\', 'n']
  else if c = '\r' then ['\\', 'r']
  else if c = '\t' then ['\\', 't']
  else if c = '\x0c' then ['\\', 'f']
  else if c = '\x08' then ['\\', 'b']
  else if c.toNat < 0x10000 then '\\' :: 'u' :: hexFour c.toNat
  else
    -- a surrogate pair
    ('\\' :: 'u' :: hexFour (0xD800 + (c.toNat - 0x10000) / 0x400)) ++
      ('\\' :: 'u' :: hexFour (0xDC00 + (c.toNat - 0x10000) % 0x400))

def pythonString (s : String) : List Char :=
  '"' :: (s.toList.flatMap pythonEscape ++ ['"'])

section Dumps

variable (floatRepr : UInt64 → List Char)

/-- `int.__repr__` and `float.__repr__`. -/
def pythonNumber : Number → List Char
  | .posInt n _ => Nat.toDigits 10 n
  | .negInt n _ => '-' :: Nat.toDigits 10 n.natAbs
  | .float bits _ => floatRepr bits

mutual

/-- `json.dumps(value, sort_keys=True, separators=(',', ':'))`. The items of a dictionary are sorted
    by their keys, in the order of code points. -/
def jsonDumps : Value → List Char
  | .null => ['n', 'u', 'l', 'l']
  | .bool true => ['t', 'r', 'u', 'e']
  | .bool false => ['f', 'a', 'l', 's', 'e']
  | .number n => pythonNumber floatRepr n
  | .string s => pythonString s
  | .array items => '[' :: ([','].intercalate (dumpsItems items) ++ [']'])
  | .object members =>
      let sorted := (dumpsMembers members).insertionSort (fun m m' => m.1 ≤ m'.1)
      '{' :: ([','].intercalate (sorted.map Prod.snd) ++ ['}'])

def dumpsItems : List Value → List (List Char)
  | [] => []
  | v :: items => jsonDumps v :: dumpsItems items

def dumpsMembers : List (String × Value) → List (String × List Char)
  | [] => []
  | (k, v) :: members => (k, pythonString k ++ ':' :: jsonDumps v) :: dumpsMembers members

end

end Dumps

/-! ## Plain text -/

/-- A printable ASCII character that neither encoder escapes; the space is left out. -/
def PlainChar (c : Char) : Prop := 33 ≤ c.toNat ∧ c.toNat ≤ 126 ∧ c ≠ '"' ∧ c ≠ '\\'

instance (c : Char) : Decidable (PlainChar c) := inferInstanceAs (Decidable (_ ∧ _))

def PlainText (s : String) : Prop := ∀ c ∈ s.toList, PlainChar c

-- the list decides, not the type `Char`
instance (cs : List Char) : Decidable (∀ c ∈ cs, PlainChar c) := List.decidableBAll _ cs

instance (s : String) : Decidable (PlainText s) :=
  inferInstanceAs (Decidable (∀ c ∈ s.toList, PlainChar c))

theorem PlainChar.escape_eq {c : Char} (h : PlainChar c) : Json.escape c = [c] := by
  obtain ⟨hlow, -, hquote, hbackslash⟩ := h
  have hne : ∀ d : Char, d.toNat < 33 → c ≠ d := by
    rintro d hd rfl
    omega
  rw [Json.escape, if_neg hquote, if_neg hbackslash, if_neg (hne _ (by decide)),
    if_neg (hne _ (by decide)), if_neg (hne _ (by decide)), if_neg (hne _ (by decide)),
    if_neg (hne _ (by decide)), if_neg (by omega)]

theorem PlainChar.pythonEscape_eq {c : Char} (h : PlainChar c) : pythonEscape c = [c] := by
  obtain ⟨hlow, hhigh, hquote, hbackslash⟩ := h
  rw [pythonEscape, if_neg hbackslash, if_neg hquote, if_pos (by omega)]

/-- Both encoders put a plain text between quotes. -/
theorem PlainText.quote_eq {s : String} (h : PlainText s) :
    Json.quote s.toList = '"' :: (s.toList ++ ['"']) ∧
      pythonString s = '"' :: (s.toList ++ ['"']) := by
  have hsame {escape : Char → List Char} (hescape : ∀ c ∈ s.toList, escape c = [c]) :
      s.toList.flatMap escape = s.toList := by
    rw [List.flatMap_congr hescape, List.flatMap_singleton']
  constructor
  · rw [Json.quote, hsame fun c hc => (h c hc).escape_eq]
  · rw [pythonString, hsame fun c hc => (h c hc).pythonEscape_eq]

/-- `','.join` and the loops of the writer. -/
theorem commaSeparated_eq (texts : List (List Char)) :
    commaSeparated 0 texts = [','].intercalate texts := by
  have hnext : ∀ (texts : List (List Char)) (index : ℕ),
      commaSeparated (index + 1) texts = texts.flatMap (fun t => ',' :: t) := by
    intro texts
    induction texts with
    | nil => intro index; rfl
    | cons t texts ih =>
        intro index
        rw [commaSeparated, if_pos (Nat.succ_pos index), ih, List.flatMap_cons]
        rfl
  cases texts with
  | nil => rfl
  | cons t texts =>
      rw [commaSeparated, if_neg (Nat.lt_irrefl 0), hnext, List.nil_append]
      induction texts generalizing t with
      | nil => simp
      | cons u texts ih =>
          rw [List.intercalate_cons_cons, ← ih u, List.flatMap_cons]
          simp

/-! ## The characters of the text -/

theorem mem_intercalate {α : Type} {sep : List α} {texts : List (List α)} {c : α}
    (h : c ∈ sep.intercalate texts) : c ∈ sep ∨ ∃ t ∈ texts, c ∈ t := by
  induction texts with
  | nil => simp at h
  | cons t texts ih =>
      cases texts with
      | nil =>
          rw [List.intercalate_singleton] at h
          exact Or.inr ⟨t, List.mem_cons_self, h⟩
      | cons u texts =>
          rw [List.intercalate_cons_cons, List.append_assoc, List.mem_append, List.mem_append] at h
          rcases h with h | h | h
          · exact Or.inr ⟨t, List.mem_cons_self, h⟩
          · exact Or.inl h
          · rcases ih h with h | ⟨t', ht', h⟩
            · exact Or.inl h
            · exact Or.inr ⟨t', List.mem_cons_of_mem _ ht', h⟩

/-- A printable ASCII character other than space and backslash. -/
def TextChar (c : Char) : Prop := 33 ≤ c.toNat ∧ c.toNat ≤ 126 ∧ c ≠ '\\'

instance (c : Char) : Decidable (TextChar c) := inferInstanceAs (Decidable (_ ∧ _))

instance (cs : List Char) : Decidable (∀ c ∈ cs, TextChar c) := List.decidableBAll _ cs

theorem PlainText.pythonString_chars {s : String} (h : PlainText s) :
    ∀ c ∈ pythonString s, TextChar c := by
  rw [h.quote_eq.2]
  intro c hc
  rcases List.mem_cons.1 hc with rfl | hc
  · decide
  · rcases List.mem_append.1 hc with hc | hc
    · obtain ⟨hlow, hhigh, -, hbackslash⟩ := h c hc
      exact ⟨hlow, hhigh, hbackslash⟩
    · rw [List.mem_singleton.1 hc]
      decide

/-- A bracketed list with commas. -/
theorem textChar_of_brackets {opening closing : Char} {texts : List (List Char)}
    (hopening : TextChar opening) (hclosing : TextChar closing)
    (htexts : ∀ t ∈ texts, ∀ c ∈ t, TextChar c) :
    ∀ c ∈ opening :: ([','].intercalate texts ++ [closing]), TextChar c := by
  intro c hc
  rcases List.mem_cons.1 hc with rfl | hc
  · exact hopening
  · rcases List.mem_append.1 hc with hc | hc
    · rcases mem_intercalate hc with hc | ⟨t, ht, hc⟩
      · rw [List.mem_singleton.1 hc]
        decide
      · exact htexts t ht c hc
    · rw [List.mem_singleton.1 hc]
      exact hclosing

theorem textChar_of_digit {n : ℕ} {c : Char} (h : c ∈ Nat.toDigits 10 n) : TextChar c := by
  have hdigit : c.isDigit = true := Nat.isDigit_of_mem_toDigits (by omega) (by omega) h
  simp only [Char.isDigit, ge_iff_le, Bool.and_eq_true, decide_eq_true_eq,
    UInt32.le_iff_toNat_le] at hdigit
  have hlow : 48 ≤ c.toNat := hdigit.1
  have hhigh : c.toNat ≤ 57 := hdigit.2
  refine ⟨by omega, by omega, ?_⟩
  rintro rfl
  revert hhigh
  decide

section Chars

variable (floatRepr : UInt64 → List Char)

mutual

theorem jsonDumps_chars (v : Value) (hplain : ∀ s ∈ v.strings, PlainText s)
    (hunsigned : OnlyUnsigned v) : ∀ c ∈ jsonDumps floatRepr v, TextChar c := by
  cases v with
  | null =>
      rw [jsonDumps]
      decide
  | bool b =>
      cases b with
      | false =>
          rw [jsonDumps]
          decide
      | true =>
          rw [jsonDumps]
          decide
  | number n =>
      obtain ⟨k, h, rfl⟩ := hunsigned n List.mem_cons_self
      intro c hc
      exact textChar_of_digit hc
  | string s => exact (hplain s List.mem_cons_self).pythonString_chars
  | array items =>
      rw [jsonDumps]
      exact textChar_of_brackets (by decide) (by decide)
        (dumpsItems_chars items hplain hunsigned)
  | object members =>
      rw [jsonDumps]
      refine textChar_of_brackets (by decide) (by decide) (fun t ht => ?_)
      obtain ⟨m, hm, rfl⟩ := List.mem_map.1 ht
      rw [List.mem_insertionSort] at hm
      exact dumpsMembers_chars members hplain hunsigned m hm

theorem dumpsItems_chars (items : List Value)
    (hplain : ∀ s ∈ Json.stringsItems items, PlainText s)
    (hunsigned : ∀ n ∈ Json.numbersItems items, ∃ k h, n = .posInt k h) :
    ∀ t ∈ dumpsItems floatRepr items, ∀ c ∈ t, TextChar c := by
  cases items with
  | nil => simp [dumpsItems]
  | cons v items =>
      rw [dumpsItems, List.forall_mem_cons]
      exact ⟨jsonDumps_chars v (fun s hs => hplain s (List.mem_append_left _ hs))
          (fun n hn => hunsigned n (List.mem_append_left _ hn)),
        dumpsItems_chars items (fun s hs => hplain s (List.mem_append_right _ hs))
          (fun n hn => hunsigned n (List.mem_append_right _ hn))⟩

theorem dumpsMembers_chars (members : List (String × Value))
    (hplain : ∀ s ∈ Json.stringsMembers members, PlainText s)
    (hunsigned : ∀ n ∈ Json.numbersMembers members, ∃ k h, n = .posInt k h) :
    ∀ m ∈ dumpsMembers floatRepr members, ∀ c ∈ m.2, TextChar c := by
  cases members with
  | nil => simp [dumpsMembers]
  | cons m members =>
      obtain ⟨k, v⟩ := m
      rw [dumpsMembers, List.forall_mem_cons]
      refine ⟨fun c hc => ?_, dumpsMembers_chars members
          (fun s hs => hplain s (List.mem_cons_of_mem _ (List.mem_append_right _ hs)))
          (fun n hn => hunsigned n (List.mem_append_right _ hn))⟩
      rcases List.mem_append.1 hc with hc | hc
      · exact (hplain k List.mem_cons_self).pythonString_chars c hc
      · rcases List.mem_cons.1 hc with rfl | hc
        · decide
        · exact jsonDumps_chars v
            (fun s hs => hplain s (List.mem_cons_of_mem _ (List.mem_append_left _ hs)))
            (fun n hn => hunsigned n (List.mem_append_left _ hn)) c hc

end

end Chars

/-! ## The texts of plain values -/

section Encoders

variable [Crates] (floatRepr : UInt64 → List Char)

mutual

/-- **On a value with plain strings and unsigned integers the two encoders agree.** -/
theorem writeCanonicalJson_eq_dumps (rules : JsonRules) (hdecimal : UnsignedDecimal) (v : Value)
    (hplain : ∀ s ∈ v.strings, PlainText s) (hunsigned : OnlyUnsigned v) :
    writeCanonicalJson v = .ok (jsonDumps floatRepr v) := by
  cases v with
  | null => rfl
  | bool b => cases b <;> rfl
  | number n =>
      obtain ⟨k, h, rfl⟩ := hunsigned n List.mem_cons_self
      exact congrArg Except.ok (hdecimal k h)
  | string s =>
      obtain ⟨hquote, hpython⟩ := (hplain s List.mem_cons_self).quote_eq
      rw [writeCanonicalJson, writeString_eq rules, hquote, jsonDumps, hpython]
  | array items =>
      rw [writeCanonicalJson, writeValues_eq_dumps rules hdecimal items hplain hunsigned, jsonDumps,
        ← commaSeparated_eq]
      rfl
  | object members =>
      rw [writeCanonicalJson, writeMembers_eq_dumps rules hdecimal members hplain hunsigned,
        jsonDumps, ← commaSeparated_eq]
      rfl

theorem writeValues_eq_dumps (rules : JsonRules) (hdecimal : UnsignedDecimal) (items : List Value)
    (hplain : ∀ s ∈ Json.stringsItems items, PlainText s)
    (hunsigned : ∀ n ∈ Json.numbersItems items, ∃ k h, n = .posInt k h) :
    writeValues items = .ok (dumpsItems floatRepr items) := by
  cases items with
  | nil => rfl
  | cons v items =>
      rw [writeValues, writeCanonicalJson_eq_dumps rules hdecimal v
          (fun s hs => hplain s (List.mem_append_left _ hs))
          (fun n hn => hunsigned n (List.mem_append_left _ hn)),
        writeValues_eq_dumps rules hdecimal items
          (fun s hs => hplain s (List.mem_append_right _ hs))
          (fun n hn => hunsigned n (List.mem_append_right _ hn))]
      rfl

theorem writeMembers_eq_dumps (rules : JsonRules) (hdecimal : UnsignedDecimal)
    (members : List (String × Value))
    (hplain : ∀ s ∈ Json.stringsMembers members, PlainText s)
    (hunsigned : ∀ n ∈ Json.numbersMembers members, ∃ k h, n = .posInt k h) :
    writeMembers members = .ok (dumpsMembers floatRepr members) := by
  cases members with
  | nil => rfl
  | cons m members =>
      obtain ⟨k, v⟩ := m
      obtain ⟨hquote, hpython⟩ := (hplain k List.mem_cons_self).quote_eq
      rw [writeMembers, writeString_eq rules, hquote, writeCanonicalJson_eq_dumps rules hdecimal v
          (fun s hs => hplain s (List.mem_cons_of_mem _ (List.mem_append_left _ hs)))
          (fun n hn => hunsigned n (List.mem_append_left _ hn)),
        writeMembers_eq_dumps rules hdecimal members
          (fun s hs => hplain s (List.mem_cons_of_mem _ (List.mem_append_right _ hs)))
          (fun n hn => hunsigned n (List.mem_append_right _ hn)), dumpsMembers, hpython]
      rfl

end

end Encoders

/-! ## The leaves of a manifest -/

theorem plainChar_of_alphanum {c : Char} (h : c.isAlphanum = true) : PlainChar c := by
  change (decide (65 ≤ c.val ∧ c.val ≤ 90) || decide (97 ≤ c.val) && decide (c.val ≤ 122) ||
    decide (48 ≤ c.val) && decide (c.val ≤ 57)) = true at h
  simp only [Bool.or_eq_true, Bool.and_eq_true, decide_eq_true_eq, UInt32.le_iff_toNat_le] at h
  have hbounds : (65 ≤ c.toNat ∧ c.toNat ≤ 90) ∨ (97 ≤ c.toNat ∧ c.toNat ≤ 122) ∨
      (48 ≤ c.toNat ∧ c.toNat ≤ 57) := by
    rcases h with (h | h) | h
    · exact Or.inl h
    · exact Or.inr (Or.inl h)
    · exact Or.inr (Or.inr h)
  refine ⟨by omega, by omega, ?_, ?_⟩
  · rintro rfl
    revert hbounds
    decide
  · rintro rfl
    revert hbounds
    decide

theorem OpaqueId.plain {kind : IdKind} (id : OpaqueId kind) : PlainText id.value := by
  have hvalid := id.valid
  unfold validOpaqueId at hvalid
  split at hvalid
  · cases hvalid
  · next first characters hchars =>
      simp only [Bool.and_eq_true, List.all_eq_true, Bool.or_eq_true, decide_eq_true_eq] at hvalid
      obtain ⟨⟨-, hfirst⟩, hrest⟩ := hvalid
      rw [PlainText, hchars, List.forall_mem_cons]
      refine ⟨plainChar_of_alphanum hfirst, fun c hc => ?_⟩
      rcases hrest c hc with (((h | rfl) | rfl) | rfl) | rfl
      · exact plainChar_of_alphanum h
      all_goals decide

theorem plainChar_of_digit {n : ℕ} {c : Char} (h : c ∈ Nat.toDigits 10 n) : PlainChar c := by
  have hdigit : c.isDigit = true := Nat.isDigit_of_mem_toDigits (by omega) (by omega) h
  refine plainChar_of_alphanum ?_
  rw [Char.isAlphanum, hdigit, Bool.or_true]

theorem OverlayAddress.plain (address : OverlayAddress) : PlainText address.text := by
  rw [PlainText, OverlayAddress.text_eq]
  intro c hc
  rw [String.toList_append, String.toList_append, List.mem_append, List.mem_append] at hc
  rcases hc with (hc | hc) | hc
  · revert c
    decide
  · rw [Nat.toList_repr] at hc
    exact plainChar_of_digit hc
  · revert c
    decide

theorem HealthPolicy.plain (healthPolicy : HealthPolicy) : PlainText healthPolicy.text := by
  cases healthPolicy <;> decide

theorem Permission.plain (permission : Permission) : PlainText permission.text := by
  cases permission <;> decide

theorem digitText_plain (digits : List (Fin 10)) : ∀ c ∈ digitText digits, PlainChar c := by
  have hdigit : ∀ digit : Fin 10, PlainChar (digitChar digit) := by decide
  intro c hc
  obtain ⟨digit, -, rfl⟩ := List.mem_map.1 hc
  exact hdigit digit

/-- The timestamp is checked byte by byte, and yet has plain characters only. -/
theorem plain_of_validUtcTimestamp {value : String} (h : validUtcTimestamp value = some true) :
    PlainText value := by
  obtain ⟨year, month, day, hour, minute, second, fraction, -, -, -, -, -, -, htext, -⟩ :=
    isTimestamp_of_valid h
  have hfraction : ∀ c ∈ fractionText fraction, PlainChar c := by
    unfold fractionText
    split
    · simp
    · rw [List.forall_mem_cons]
      exact ⟨by decide, digitText_plain fraction⟩
  rw [PlainText, htext, timestampText]
  simp only [List.forall_mem_append, List.forall_mem_cons]
  exact ⟨digitText_plain year, by decide, digitText_plain month, by decide, digitText_plain day,
    by decide, digitText_plain hour, by decide, digitText_plain minute, by decide,
    digitText_plain second, hfraction, by decide, by simp⟩

/-- ASCII bytes are the bytes of their characters. -/
theorem toList_of_ascii {s : String} (h : ∀ byte ∈ asBytes s, byte.toNat < 128) :
    s.toList = (asBytes s).map (fun byte => Char.ofNat byte.toNat) := by
  conv_lhs => rw [← asBytes_injective (asBytes_ofAscii h)]
  rw [String.toList_ofList]

theorem plain_of_bytes {s : String}
    (h : ∀ byte ∈ asBytes s, byte.toNat < 128 ∧ PlainChar (Char.ofNat byte.toNat)) :
    PlainText s := by
  intro c hc
  rw [toList_of_ascii fun byte hbyte => (h byte hbyte).1] at hc
  obtain ⟨byte, hbyte, rfl⟩ := List.mem_map.1 hc
  exact (h byte hbyte).2

section Manifests

variable [Crates]

/-- A key is base64 text. -/
theorem WireGuardPublicKey.plain (halphabet : Base64Alphabet) (key : WireGuardPublicKey) :
    PlainText key.value := by
  have hplain : ∀ n < 128, ((65 ≤ n ∧ n ≤ 90) ∨ (97 ≤ n ∧ n ≤ 122) ∨ (48 ≤ n ∧ n ≤ 57) ∨ n = 43 ∨
      n = 47 ∨ n = 61) → PlainChar (Char.ofNat n) := by decide
  refine plain_of_bytes fun byte hbyte => ?_
  have hletter := halphabet _ _ key.decoded_eq byte hbyte
  simp only [← UInt8.toNat_inj] at hletter
  have hletter : (65 ≤ byte.toNat ∧ byte.toNat ≤ 90) ∨ (97 ≤ byte.toNat ∧ byte.toNat ≤ 122) ∨
      (48 ≤ byte.toNat ∧ byte.toNat ≤ 57) ∨ byte.toNat = 43 ∨ byte.toNat = 47 ∨
      byte.toNat = 61 := hletter
  have hlt : byte.toNat < 128 := by omega
  exact ⟨hlt, hplain _ hlt hletter⟩

theorem GatewayPeer.plain (halphabet : Base64Alphabet) (peer : GatewayPeer) :
    ∀ s ∈ peer.toValue.strings, PlainText s := by
  intro s hs
  simp only [GatewayPeer.toValue, Json.strings, Json.stringsMembers, Json.stringsItems_eq,
    List.mem_cons, List.mem_append, List.not_mem_nil, or_false, List.mem_flatMap,
    List.mem_map] at hs
  rcases hs with rfl | rfl | rfl | rfl | rfl | rfl | rfl | rfl | rfl | hs
  · decide
  · exact peer.peerId.plain
  · decide
  · exact peer.publicKey.plain halphabet
  · decide
  · exact peer.address.plain
  · decide
  · exact peer.healthPolicy.plain
  · decide
  · obtain ⟨v, ⟨permission, -, rfl⟩, hs⟩ := hs
    rw [List.mem_singleton.1 hs]
    exact permission.plain

/-- **Every string of a manifest is plain.** -/
theorem PeerManifest.Guaranteed.plain {manifest : PeerManifest} (h : manifest.Guaranteed)
    (halphabet : Base64Alphabet) : ∀ s ∈ manifest.toValue.strings, PlainText s := by
  intro s hs
  simp only [PeerManifest.toValue, Generation.toValue, Json.strings, Json.stringsMembers,
    Json.stringsItems_eq, List.mem_cons, List.mem_append, List.not_mem_nil, or_false, false_or,
    List.mem_flatMap, List.mem_map] at hs
  rcases hs with rfl | rfl | rfl | rfl | rfl | rfl | rfl | hs
  · decide
  · decide
  · rw [h.interface]
    decide
  · decide
  · decide
  · exact plain_of_validUtcTimestamp h.generatedAt
  · decide
  · obtain ⟨v, ⟨peer, -, rfl⟩, hs⟩ := hs
    exact peer.plain halphabet s hs

/-- No object of a manifest has a key twice. -/
theorem PeerManifest.keysDistinct (manifest : PeerManifest) : manifest.toValue.KeysDistinct := by
  have hkeys : ["schema_version", "interface", "generation", "generated_at", "peers"].Nodup := by
    decide
  refine ⟨hkeys, trivial, trivial, trivial, trivial, ?_, trivial⟩
  rw [Json.KeysDistinct, Json.keysDistinctItems_iff]
  intro v hv
  obtain ⟨peer, -, rfl⟩ := List.mem_map.1 hv
  have hkeys : ["peer_id", "public_key", "address", "health_policy", "permissions"].Nodup := by
    decide
  refine ⟨hkeys, trivial, trivial, trivial, trivial, ?_, trivial⟩
  rw [Json.KeysDistinct, Json.keysDistinctItems_iff]
  intro v hv
  obtain ⟨permission, -, rfl⟩ := List.mem_map.1 hv
  trivial

/-- **The digest is taken of the text that Python writes.** -/
theorem canonical_text_as_python (rules : JsonRules) (hdecimal : UnsignedDecimal)
    (halphabet : Base64Alphabet) {generation : Generation} {generatedAt : String}
    {peers : List VpnPeer} {manifest : PeerManifest}
    (h : PeerManifest.new generation generatedAt peers = some (.ok manifest))
    (floatRepr : UInt64 → List Char) :
    manifest.canonicalText = .ok (jsonDumps floatRepr manifest.toValue) ∧
    manifest.digest = .ok (digestOf (jsonDumps floatRepr manifest.toValue)) ∧
    (∀ s ∈ manifest.toValue.strings, ∀ c ∈ s.toList, 33 ≤ c.toNat ∧ c.toNat ≤ 126 ∧
      Json.escape c = [c] ∧ pythonEscape c = [c]) ∧
    (manifest.canonicalText = .ok (Json.text Crates.numberText manifest.toValue.sortKeys) ∧
      manifest.toValue.sortKeys.KeysSorted) ∧
    ∀ c ∈ jsonDumps floatRepr manifest.toValue, 33 ≤ c.toNat ∧ c.toNat ≤ 126 ∧ c ≠ '\\' := by
  have hguaranteed := PeerManifest.new_ok_iff.1 ⟨generation, generatedAt, peers, h⟩
  have hplain := hguaranteed.plain halphabet
  have htext : manifest.canonicalText = .ok (jsonDumps floatRepr manifest.toValue) :=
    writeCanonicalJson_eq_dumps floatRepr rules hdecimal _ hplain manifest.onlyUnsigned
  have hsorted := Json.keysSorted_sortKeys _ manifest.keysDistinct
  refine ⟨htext, ?_, fun s hs c hc => ?_, ⟨canonicalText_eq rules manifest, hsorted⟩,
    jsonDumps_chars floatRepr _ hplain manifest.onlyUnsigned⟩
  · rw [PeerManifest.digest, htext]
    rfl
  · have hchar := hplain s hs c hc
    exact ⟨hchar.1, hchar.2.1, hchar.escape_eq, hchar.pythonEscape_eq⟩

end Manifests

section Sample

attribute [local instance] Reference.crates

/-- The manifest of a policy with two peers. -/
theorem canonical_text_as_python_sample :
    ∃ manifest, samplePolicy₂.manifest "2026-08-01T20:00:00Z" = some (.ok manifest) ∧
      manifest.canonicalText = .ok (jsonDumps (fun _ => []) manifest.toValue) := by
  have hvalid : validUtcTimestamp "2026-08-01T20:00:00Z" = some true := by decide +kernel
  have hmanifest := samplePolicy₂_reachable.consistent.manifest_eq "2026-08-01T20:00:00Z"
  rw [hvalid, Option.map_some, if_pos rfl] at hmanifest
  exact ⟨_, hmanifest, (canonical_text_as_python Reference.jsonRules Reference.unsignedDecimal
    Reference.base64Alphabet hmanifest (fun _ => [])).1⟩

end Sample

end RsConsole
