import Mathlib.Data.List.Sort
import Mathlib.Data.Char
import Mathlib.Order.Basic
import Mathlib.Logic.Function.Basic

set_option autoImplicit false

/-! # JSON values and their compact text

`Json N` is the type of JSON values over a type `N` of numbers. `Json.text` is the compact text of
a value (no whitespace, members in the order they are kept), `parseValue` the recursive-descent
reader of JSON text. Numbers are written by a function `num : N → List Char` into the JSON number
syntax and read back by `read`.

The main result is `parse_text`: reading the text of a value, followed by anything that does not
continue a number, gives back the value and what followed. That the text determines the value
(`text_injective`) is its corollary. -/

namespace RsConsole.Library

inductive Json (N : Type) where
  | null
  | bool (b : Bool)
  | number (n : N)
  | string (s : String)
  | array (items : List (Json N))
  | object (members : List (String × Json N))

namespace Json

variable {N : Type}

/-! ## Strings -/

/-- The lower-case hexadecimal digit of `n < 16`. -/
def hexDigit (n : ℕ) : Char :=
  if n < 10 then Char.ofNat (48 + n) else Char.ofNat (87 + n)

/-- The characters a character is written as inside a JSON string. -/
def escape (c : Char) : List Char :=
  if c = '"' then ['\\', '"']
  else if c = '\\' then ['\\', '\\']
  else if c = '\x08' then ['\\', 'b']
  else if c = '\x0c' then ['\\', 'f']
  else if c = '\n' then ['\\', 'n']
  else if c = '\r' then ['\\', 'r']
  else if c = '\t' then ['\\', 't']
  else if c.toNat < 32 then
    ['\\', 'u', '0', '0', hexDigit (c.toNat / 16), hexDigit (c.toNat % 16)]
  else [c]

/-- The JSON text of a string. -/
def quote (s : List Char) : List Char :=
  '"' :: (s.flatMap escape ++ ['"'])

/-! ## Text -/

mutual

/-- The compact text of a value. -/
def text (num : N → List Char) : Json N → List Char
  | .null => ['n', 'u', 'l', 'l']
  | .bool true => ['t', 'r', 'u', 'e']
  | .bool false => ['f', 'a', 'l', 's', 'e']
  | .number n => num n
  | .string s => quote s.toList
  | .array [] => ['[', ']']
  | .array (v :: items) => '[' :: (text num v ++ textItems num items)
  | .object [] => ['{', '}']
  | .object ((k, v) :: members) =>
      '{' :: (quote k.toList ++ ':' :: (text num v ++ textMembers num members))

/-- The rest of an array after an item. -/
def textItems (num : N → List Char) : List (Json N) → List Char
  | [] => [']']
  | v :: items => ',' :: (text num v ++ textItems num items)

/-- The rest of an object after a member. -/
def textMembers (num : N → List Char) : List (String × Json N) → List Char
  | [] => ['}']
  | (k, v) :: members =>
      ',' :: (quote k.toList ++ ':' :: (text num v ++ textMembers num members))

end

/-! ## Number syntax -/

def isDigit (c : Char) : Bool := 48 ≤ c.toNat && c.toNat ≤ 57

/-- The characters numbers are written with. -/
def isNumberChar (c : Char) : Bool :=
  isDigit c || c = '-' || c = '+' || c = '.' || c = 'e' || c = 'E'

/-- A nonempty sequence of digits. -/
def IsDigits (t : List Char) : Prop := t ≠ [] ∧ ∀ c ∈ t, isDigit c = true

/-- The JSON number syntax: an optional sign, an integer part without leading zeros, an optional
    fraction and an optional exponent. -/
def IsNumberText (t : List Char) : Prop :=
  ∃ sign int frac exp : List Char, t = sign ++ int ++ frac ++ exp ∧
    (sign = [] ∨ sign = ['-']) ∧
    (IsDigits int ∧ (int = ['0'] ∨ int.head? ≠ some '0')) ∧
    (frac = [] ∨ ∃ ds, IsDigits ds ∧ frac = '.' :: ds) ∧
    (exp = [] ∨ ∃ e sg ds, (e = 'e' ∨ e = 'E') ∧ (sg = [] ∨ sg = ['-'] ∨ sg = ['+']) ∧
      IsDigits ds ∧ exp = e :: (sg ++ ds))

/-! ## Reading -/

def isSpace (c : Char) : Bool := c = ' ' || c = '\n' || c = '\r' || c = '\t'

def skipSpace (cs : List Char) : List Char := cs.dropWhile isSpace

/-- The value of a hexadecimal digit of either case. -/
def hexValue (c : Char) : Option ℕ :=
  if 48 ≤ c.toNat ∧ c.toNat ≤ 57 then some (c.toNat - 48)
  else if 97 ≤ c.toNat ∧ c.toNat ≤ 102 then some (c.toNat - 87)
  else if 65 ≤ c.toNat ∧ c.toNat ≤ 70 then some (c.toNat - 55)
  else none

/-- Four hexadecimal digits. -/
def parseHex : List Char → Option (ℕ × List Char)
  | a :: b :: c :: d :: rest => do
      let a ← hexValue a
      let b ← hexValue b
      let c ← hexValue c
      let d ← hexValue d
      some (((a * 16 + b) * 16 + c) * 16 + d, rest)
  | _ => none

/-- The character of a `\u` escape; two surrogate escapes stand for one character. -/
def parseUnicode (cs : List Char) : Option (Char × List Char) := do
  let (hi, rest) ← parseHex cs
  if hi < 0xD800 ∨ 0xE000 ≤ hi then some (Char.ofNat hi, rest)
  else if 0xDC00 ≤ hi then none
  else
    match rest with
    | '\\' :: 'u' :: rest => do
        let (lo, rest) ← parseHex rest
        if 0xDC00 ≤ lo ∧ lo < 0xE000 then
          some (Char.ofNat (0x10000 + (hi - 0xD800) * 0x400 + (lo - 0xDC00)), rest)
        else none
    | _ => none

/-- The character of an escape, after the backslash. -/
def parseEscape : List Char → Option (Char × List Char)
  | [] => none
  | c :: rest =>
      if c = '"' then some ('"', rest)
      else if c = '\\' then some ('\\', rest)
      else if c = '/' then some ('/', rest)
      else if c = 'b' then some ('\x08', rest)
      else if c = 'f' then some ('\x0c', rest)
      else if c = 'n' then some ('\n', rest)
      else if c = 'r' then some ('\r', rest)
      else if c = 't' then some ('\t', rest)
      else if c = 'u' then parseUnicode rest
      else none

/-- A string after its opening quote. -/
def parseChars : ℕ → List Char → Option (List Char × List Char)
  | 0, _ => none
  | _ + 1, [] => none
  | fuel + 1, c :: rest =>
      if c = '"' then some ([], rest)
      else if c = '\\' then do
        let (d, rest) ← parseEscape rest
        let (s, rest) ← parseChars fuel rest
        some (d :: s, rest)
      else if c.toNat < 32 then none
      else do
        let (s, rest) ← parseChars fuel rest
        some (c :: s, rest)

def parseString (cs : List Char) : Option (String × List Char) := do
  let (s, rest) ← parseChars (cs.length + 1) cs
  some (String.ofList s, rest)

/-- What follows the expected characters. -/
def expect : List Char → List Char → Option (List Char)
  | [], cs => some cs
  | _ :: _, [] => none
  | w :: ws, c :: cs => if c = w then expect ws cs else none

/-- A member's key and its colon, after the opening quote. -/
def parseKey (cs : List Char) : Option (String × List Char) := do
  let (k, rest) ← parseString cs
  let rest ← expect [':'] (skipSpace rest)
  some (k, rest)

mutual

/-- One value and what follows it. -/
def parseValue (read : List Char → Option N) : ℕ → List Char → Option (Json N × List Char)
  | 0, _ => none
  | fuel + 1, cs =>
      match skipSpace cs with
      | [] => none
      | c :: rest =>
          if c = 'n' then (expect ['u', 'l', 'l'] rest).map (fun r => (.null, r))
          else if c = 't' then (expect ['r', 'u', 'e'] rest).map (fun r => (.bool true, r))
          else if c = 'f' then (expect ['a', 'l', 's', 'e'] rest).map (fun r => (.bool false, r))
          else if c = '"' then (parseString rest).map (fun r => (.string r.1, r.2))
          else if c = '[' then
            match skipSpace rest with
            | ']' :: rest => some (.array [], rest)
            | rest => do
                let (v, rest) ← parseValue read fuel rest
                let (items, rest) ← parseItems read fuel rest
                some (.array (v :: items), rest)
          else if c = '{' then
            match skipSpace rest with
            | '}' :: rest => some (.object [], rest)
            | '"' :: rest => do
                let (k, rest) ← parseKey rest
                let (v, rest) ← parseValue read fuel rest
                let (members, rest) ← parseMembers read fuel rest
                some (.object ((k, v) :: members), rest)
            | _ => none
          else do
            let n ← read ((c :: rest).takeWhile isNumberChar)
            some (.number n, (c :: rest).dropWhile isNumberChar)

/-- The rest of an array after an item. -/
def parseItems (read : List Char → Option N) : ℕ → List Char → Option (List (Json N) × List Char)
  | 0, _ => none
  | fuel + 1, cs =>
      match skipSpace cs with
      | ']' :: rest => some ([], rest)
      | ',' :: rest => do
          let (v, rest) ← parseValue read fuel rest
          let (items, rest) ← parseItems read fuel rest
          some (v :: items, rest)
      | _ => none

/-- The rest of an object after a member. -/
def parseMembers (read : List Char → Option N) :
    ℕ → List Char → Option (List (String × Json N) × List Char)
  | 0, _ => none
  | fuel + 1, cs =>
      match skipSpace cs with
      | '}' :: rest => some ([], rest)
      | ',' :: rest =>
          match skipSpace rest with
          | '"' :: rest => do
              let (k, rest) ← parseKey rest
              let (v, rest) ← parseValue read fuel rest
              let (members, rest) ← parseMembers read fuel rest
              some ((k, v) :: members, rest)
          | _ => none
      | _ => none

end

/-- A document: one value, and nothing but space behind it. -/
def parse (read : List Char → Option N) (cs : List Char) : Option (Json N) :=
  match parseValue read (2 * cs.length) cs with
  | some (v, rest) => if skipSpace rest = [] then some v else none
  | none => none

/-! ## Reading back a string -/

theorem hexValue_hexDigit {n : ℕ} (h : n < 16) : hexValue (hexDigit n) = some n := by
  revert n
  decide

theorem parseHex_control {n : ℕ} (h : n < 32) (rest : List Char) :
    parseHex ('0' :: '0' :: hexDigit (n / 16) :: hexDigit (n % 16) :: rest) = some (n, rest) := by
  have hzero : hexValue '0' = some 0 := rfl
  simp only [parseHex, hzero, hexValue_hexDigit (show n / 16 < 16 by omega),
    hexValue_hexDigit (show n % 16 < 16 by omega), Option.bind_eq_bind, Option.bind_some,
    Option.some.injEq, Prod.mk.injEq, and_true]
  omega

/-- A character is written as itself, or as an escape that reads back as the character. -/
theorem escape_cases (c : Char) :
    (escape c = [c] ∧ c ≠ '"' ∧ c ≠ '\\' ∧ ¬ c.toNat < 32) ∨
      ∃ e, escape c = '\\' :: e ∧ ∀ rest, parseEscape (e ++ rest) = some (c, rest) := by
  unfold escape
  split_ifs with h₁ h₂ h₃ h₄ h₅ h₆ h₇ h₈
  rotate_left 7
  · refine Or.inr ⟨_, rfl, fun rest => ?_⟩
    change parseUnicode ('0' :: '0' :: hexDigit (c.toNat / 16) :: hexDigit (c.toNat % 16) :: rest) =
      some (c, rest)
    have hsmall : c.toNat < 0xD800 ∨ 0xE000 ≤ c.toNat := Or.inl (by omega)
    simp only [parseUnicode, parseHex_control h₈, Option.bind_eq_bind, Option.bind_some,
      if_pos hsmall, Char.ofNat_toNat]
  · exact Or.inl ⟨rfl, h₁, h₂, h₈⟩
  all_goals
    subst c
    exact Or.inr ⟨_, rfl, fun rest => rfl⟩

theorem parseChars_escape (s rest : List Char) (fuel : ℕ) (h : s.length < fuel) :
    parseChars fuel (s.flatMap escape ++ '"' :: rest) = some (s, rest) := by
  induction s generalizing fuel with
  | nil =>
      obtain ⟨n, rfl⟩ : ∃ n, fuel = n + 1 := ⟨fuel - 1, by simp at h; omega⟩
      simp [parseChars]
  | cons c s ih =>
      obtain ⟨n, rfl⟩ : ∃ n, fuel = n + 1 := ⟨fuel - 1, by simp at h; omega⟩
      have htail := ih n (by simpa using h)
      rw [List.flatMap_cons, List.append_assoc]
      rcases escape_cases c with ⟨hc, hquote, hslash, hctl⟩ | ⟨e, hc, hread⟩
      · rw [hc, List.singleton_append, parseChars, if_neg hquote, if_neg hslash, if_neg hctl, htail]
        rfl
      · rw [hc, List.cons_append, parseChars, if_neg (by decide), if_pos rfl, hread]
        simp only [Option.bind_eq_bind, Option.bind_some, htail]

theorem length_le_flatMap_escape (s : List Char) : s.length ≤ (s.flatMap escape).length := by
  induction s with
  | nil => simp
  | cons c s ih =>
      have hc : 1 ≤ (escape c).length := by
        rcases escape_cases c with ⟨hc, -⟩ | ⟨e, hc, -⟩ <;> simp [hc]
      rw [List.flatMap_cons, List.length_append, List.length_cons]
      omega

theorem parseString_escape (s : String) (rest : List Char) :
    parseString (s.toList.flatMap escape ++ '"' :: rest) = some (s, rest) := by
  have hlen := length_le_flatMap_escape s.toList
  have h := parseChars_escape s.toList rest
    ((s.toList.flatMap escape ++ '"' :: rest).length + 1)
    (by rw [List.length_append]; omega)
  simp only [parseString, h, Option.bind_eq_bind, Option.bind_some, String.ofList_toList]

theorem parseKey_escape (k : String) (rest : List Char) :
    parseKey (k.toList.flatMap escape ++ '"' :: ':' :: rest) = some (k, rest) := by
  simp only [parseKey, parseString_escape, Option.bind_eq_bind, Option.bind_some]
  rfl

/-! ## Reading back a number -/

theorem isNumberChar_of_isDigit {c : Char} (h : isDigit c = true) : isNumberChar c = true := by
  simp [isNumberChar, h]

theorem IsNumberText.isNumberChar {t : List Char} (h : IsNumberText t) :
    ∀ c ∈ t, isNumberChar c = true := by
  obtain ⟨sign, int, frac, exp, rfl, hsign, ⟨hint, -⟩, hfrac, hexp⟩ := h
  have hdigits : ∀ ds, IsDigits ds → ∀ c ∈ ds, Json.isNumberChar c = true :=
    fun ds hds c hc => isNumberChar_of_isDigit (hds.2 c hc)
  intro c hc
  simp only [List.mem_append] at hc
  rcases hc with ((hc | hc) | hc) | hc
  · rcases hsign with rfl | rfl
    · simp at hc
    · obtain rfl := List.mem_singleton.1 hc
      rfl
  · exact hdigits int hint c hc
  · rcases hfrac with rfl | ⟨ds, hds, rfl⟩
    · simp at hc
    · rcases List.mem_cons.1 hc with rfl | hc
      · rfl
      · exact hdigits ds hds c hc
  · rcases hexp with rfl | ⟨e, sg, ds, he, hsg, hds, rfl⟩
    · simp at hc
    · rcases List.mem_cons.1 hc with rfl | hc
      · rcases he with rfl | rfl <;> rfl
      · rcases List.mem_append.1 hc with hc | hc
        · rcases hsg with rfl | rfl | rfl
          · simp at hc
          · obtain rfl := List.mem_singleton.1 hc
            rfl
          · obtain rfl := List.mem_singleton.1 hc
            rfl
        · exact hdigits ds hds c hc

/-- A number starts with its sign or a digit. -/
theorem IsNumberText.head {t : List Char} (h : IsNumberText t) :
    ∃ c rest, t = c :: rest ∧ (c = '-' ∨ isDigit c = true) := by
  obtain ⟨sign, int, frac, exp, rfl, hsign, ⟨⟨hne, hdigit⟩, -⟩, -, -⟩ := h
  obtain ⟨d, ds, rfl⟩ := List.exists_cons_of_ne_nil hne
  rcases hsign with rfl | rfl
  · exact ⟨d, _, rfl, Or.inr (hdigit d List.mem_cons_self)⟩
  · exact ⟨'-', _, rfl, Or.inl rfl⟩

/-- The text after a value does not continue a number. -/
def Stops (rest : List Char) : Prop :=
  ∀ c cs, rest = c :: cs → isNumberChar c = false

theorem stops_nil : Stops [] := by
  intro c cs h
  cases h

theorem takeWhile_number {t rest : List Char} (ht : ∀ c ∈ t, isNumberChar c = true)
    (hrest : Stops rest) :
    (t ++ rest).takeWhile isNumberChar = t ∧ (t ++ rest).dropWhile isNumberChar = rest := by
  rw [List.takeWhile_append_of_pos ht, List.dropWhile_append_of_pos ht]
  cases rest with
  | nil => simp
  | cons c cs => simp [hrest c cs rfl]

/-! ## Reading back a value -/

mutual

/-- The numbers in a value. -/
def numbers : Json N → List N
  | .number n => [n]
  | .array items => numbersItems items
  | .object members => numbersMembers members
  | _ => []

def numbersItems : List (Json N) → List N
  | [] => []
  | v :: items => numbers v ++ numbersItems items

def numbersMembers : List (String × Json N) → List N
  | [] => []
  | (_, v) :: members => numbers v ++ numbersMembers members

end

mutual

/-- The fuel that reading a value's text takes. -/
def cost : Json N → ℕ
  | .array items => costItems items + 1
  | .object members => costMembers members + 1
  | _ => 1

def costItems : List (Json N) → ℕ
  | [] => 1
  | v :: items => cost v + costItems items + 1

def costMembers : List (String × Json N) → ℕ
  | [] => 1
  | (_, v) :: members => cost v + costMembers members + 1

end

theorem cost_pos (v : Json N) : 0 < cost v := by
  cases v <;> simp [cost]

theorem skipSpace_cons {c : Char} (h : isSpace c = false) (cs : List Char) :
    skipSpace (c :: cs) = c :: cs := by
  simp [skipSpace, h]

/-- What a number starts with is none of the other values' first characters. -/
theorem numberHead_ne {c : Char} (h : c = '-' ∨ isDigit c = true) :
    isSpace c = false ∧ c ≠ 'n' ∧ c ≠ 't' ∧ c ≠ 'f' ∧ c ≠ '"' ∧ c ≠ '[' ∧ c ≠ ']' ∧ c ≠ '{' := by
  have hne : ∀ d : Char, d ≠ '-' → isDigit d = false → c ≠ d := by
    rintro d hd hdigit rfl
    rcases h with h | h
    · exact hd h
    · rw [hdigit] at h
      cases h
  refine ⟨?_, hne _ ?_ ?_, hne _ ?_ ?_, hne _ ?_ ?_, hne _ ?_ ?_, hne _ ?_ ?_, hne _ ?_ ?_,
    hne _ ?_ ?_⟩
  · simp only [isSpace, Bool.or_eq_false_iff, decide_eq_false_iff_not]
    exact ⟨⟨⟨hne _ (by decide) (by decide), hne _ (by decide) (by decide)⟩,
      hne _ (by decide) (by decide)⟩, hne _ (by decide) (by decide)⟩
  all_goals decide

section Reading

variable {num : N → List Char} {read : List Char → Option N}

/-- A value's text starts with a character that is no space and does not close an array. -/
theorem text_head (hnum : ∀ n, IsNumberText (num n)) (v : Json N) :
    ∃ c cs, text num v = c :: cs ∧ isSpace c = false ∧ c ≠ ']' := by
  cases v with
  | null => exact ⟨'n', _, by rw [text], rfl, by decide⟩
  | bool b => cases b <;> rw [text] <;> exact ⟨_, _, rfl, rfl, by decide⟩
  | number n =>
      obtain ⟨c, cs, hc, hhead⟩ := (hnum n).head
      obtain ⟨hspace, -, -, -, -, -, hclose, -⟩ := numberHead_ne hhead
      exact ⟨c, cs, by rw [text, hc], hspace, hclose⟩
  | string t => exact ⟨'"', _, by rw [text, quote], rfl, by decide⟩
  | array items => cases items <;> rw [text] <;> exact ⟨_, _, rfl, rfl, by decide⟩
  | object members =>
      cases members with
      | nil => exact ⟨'{', _, by rw [text], rfl, by decide⟩
      | cons m members => exact ⟨'{', _, by rw [text], rfl, by decide⟩

theorem stops_textItems (items : List (Json N)) (rest : List Char) :
    Stops (textItems num items ++ rest) := by
  intro c cs h
  cases items with
  | nil =>
      rw [textItems] at h
      cases h
      rfl
  | cons v items =>
      rw [textItems] at h
      cases h
      rfl

theorem stops_textMembers (members : List (String × Json N)) (rest : List Char) :
    Stops (textMembers num members ++ rest) := by
  intro c cs h
  cases members with
  | nil =>
      rw [textMembers] at h
      cases h
      rfl
  | cons m members =>
      rw [textMembers] at h
      cases h
      rfl

theorem quote_append (s : List Char) (rest : List Char) :
    quote s ++ rest = '"' :: (s.flatMap escape ++ '"' :: rest) := by
  simp [quote]

theorem parse_number (hnum : ∀ n, IsNumberText (num n)) {n : N} (hread : read (num n) = some n)
    (fuel : ℕ) (rest : List Char) (hrest : Stops rest) :
    parseValue read (fuel + 1) (num n ++ rest) = some (.number n, rest) := by
  obtain ⟨htake, hdrop⟩ := takeWhile_number (hnum n).isNumberChar hrest
  obtain ⟨c, cs, hc, hhead⟩ := (hnum n).head
  obtain ⟨hspace, hn, ht, hf, hq, hb, -, hm⟩ := numberHead_ne hhead
  rw [hc, List.cons_append] at htake hdrop
  rw [hc, List.cons_append, parseValue, skipSpace_cons hspace]
  simp only [if_neg hn, if_neg ht, if_neg hf, if_neg hq, if_neg hb, if_neg hm]
  rw [htake, hdrop, ← hc, hread]
  rfl

mutual

/-- **Reading the text of a value gives back the value** and what followed it, if its numbers are
    read back. -/
theorem parseValue_text (hnum : ∀ n, IsNumberText (num n)) (v : Json N)
    (hread : ∀ n ∈ numbers v, read (num n) = some n) (fuel : ℕ) (rest : List Char)
    (hfuel : cost v ≤ fuel) (hrest : Stops rest) :
    parseValue read fuel (text num v ++ rest) = some (v, rest) := by
  obtain ⟨fuel, rfl⟩ : ∃ n, fuel = n + 1 := ⟨fuel - 1, by have := cost_pos v; omega⟩
  cases v with
  | null => rw [text]; rfl
  | bool b => cases b <;> rw [text] <;> rfl
  | number n =>
      rw [text]
      exact parse_number hnum (hread n List.mem_cons_self) fuel rest hrest
  | string s =>
      rw [text, quote_append, parseValue, skipSpace_cons rfl]
      simp only [parseString_escape, if_neg (show ('"' : Char) ≠ 'n' by decide),
        if_neg (show ('"' : Char) ≠ 't' by decide), if_neg (show ('"' : Char) ≠ 'f' by decide),
        if_true, Option.map_some]
  | array items =>
      cases items with
      | nil => rw [text]; rfl
      | cons v items =>
          simp only [cost, costItems] at hfuel
          have hv := parseValue_text hnum v (fun n hn => hread n (List.mem_append_left _ hn)) fuel
            (textItems num items ++ rest) (by omega) (stops_textItems items rest)
          have hitems := parseItems_text hnum items
            (fun n hn => hread n (List.mem_append_right _ hn)) fuel rest (by omega)
          obtain ⟨c, cs, hc, hspace, hclose⟩ := text_head hnum v
          -- a value's text does not start with `]`, so the array is not taken for an empty one
          have hskip : skipSpace (text num v ++ (textItems num items ++ rest)) =
              text num v ++ (textItems num items ++ rest) := by
            rw [hc]
            exact skipSpace_cons hspace _
          rw [text, List.cons_append, List.append_assoc, parseValue, skipSpace_cons rfl]
          simp only [hskip, if_neg (show ('[' : Char) ≠ 'n' by decide),
            if_neg (show ('[' : Char) ≠ 't' by decide), if_neg (show ('[' : Char) ≠ 'f' by decide),
            if_neg (show ('[' : Char) ≠ '"' by decide), if_true]
          split
          · next h =>
              rw [hc] at h
              exact absurd (List.cons.inj h).1 hclose
          · simp only [hv, hitems, Option.bind_eq_bind, Option.bind_some]
  | object members =>
      cases members with
      | nil => rw [text]; rfl
      | cons m members =>
          obtain ⟨k, v⟩ := m
          simp only [cost, costMembers] at hfuel
          have hv := parseValue_text hnum v (fun n hn => hread n (List.mem_append_left _ hn)) fuel
            (textMembers num members ++ rest) (by omega) (stops_textMembers members rest)
          have hmembers := parseMembers_text hnum members
            (fun n hn => hread n (List.mem_append_right _ hn)) fuel rest (by omega)
          rw [text, List.cons_append, List.append_assoc, List.cons_append, List.append_assoc,
            quote_append, parseValue, skipSpace_cons rfl]
          simp only [if_neg (show ('{' : Char) ≠ 'n' by decide),
            if_neg (show ('{' : Char) ≠ 't' by decide), if_neg (show ('{' : Char) ≠ 'f' by decide),
            if_neg (show ('{' : Char) ≠ '"' by decide), if_neg (show ('{' : Char) ≠ '[' by decide),
            if_true]
          rw [skipSpace_cons rfl]
          simp only [parseKey_escape, hv, hmembers, Option.bind_eq_bind, Option.bind_some]

theorem parseItems_text (hnum : ∀ n, IsNumberText (num n)) (items : List (Json N))
    (hread : ∀ n ∈ numbersItems items, read (num n) = some n) (fuel : ℕ) (rest : List Char)
    (hfuel : costItems items ≤ fuel) :
    parseItems read fuel (textItems num items ++ rest) = some (items, rest) := by
  cases items with
  | nil =>
      obtain ⟨fuel, rfl⟩ : ∃ n, fuel = n + 1 := ⟨fuel - 1, by simp [costItems] at hfuel; omega⟩
      rw [textItems]
      rfl
  | cons v items =>
      simp only [costItems] at hfuel
      obtain ⟨fuel, rfl⟩ : ∃ n, fuel = n + 1 := ⟨fuel - 1, by omega⟩
      have hv := parseValue_text hnum v (fun n hn => hread n (List.mem_append_left _ hn)) fuel
        (textItems num items ++ rest) (by omega) (stops_textItems items rest)
      have hitems := parseItems_text hnum items
        (fun n hn => hread n (List.mem_append_right _ hn)) fuel rest (by omega)
      rw [textItems, List.cons_append, List.append_assoc, parseItems, skipSpace_cons rfl]
      simp only [hv, hitems, Option.bind_eq_bind, Option.bind_some]

theorem parseMembers_text (hnum : ∀ n, IsNumberText (num n)) (members : List (String × Json N))
    (hread : ∀ n ∈ numbersMembers members, read (num n) = some n) (fuel : ℕ) (rest : List Char)
    (hfuel : costMembers members ≤ fuel) :
    parseMembers read fuel (textMembers num members ++ rest) = some (members, rest) := by
  cases members with
  | nil =>
      obtain ⟨fuel, rfl⟩ : ∃ n, fuel = n + 1 := ⟨fuel - 1, by simp [costMembers] at hfuel; omega⟩
      rw [textMembers]
      rfl
  | cons m members =>
      obtain ⟨k, v⟩ := m
      simp only [costMembers] at hfuel
      obtain ⟨fuel, rfl⟩ : ∃ n, fuel = n + 1 := ⟨fuel - 1, by omega⟩
      have hv := parseValue_text hnum v (fun n hn => hread n (List.mem_append_left _ hn)) fuel
        (textMembers num members ++ rest) (by omega) (stops_textMembers members rest)
      have hmembers := parseMembers_text hnum members
        (fun n hn => hread n (List.mem_append_right _ hn)) fuel rest (by omega)
      rw [textMembers, List.cons_append, List.append_assoc, List.cons_append, List.append_assoc,
        quote_append, parseMembers, skipSpace_cons rfl]
      simp only []
      rw [skipSpace_cons rfl]
      simp only [parseKey_escape, hv, hmembers, Option.bind_eq_bind, Option.bind_some]

end

theorem parse_text (hnum : ∀ n, IsNumberText (num n)) (hread : ∀ n, read (num n) = some n)
    (v : Json N) (fuel : ℕ) (rest : List Char) (hfuel : cost v ≤ fuel) (hrest : Stops rest) :
    parseValue read fuel (text num v ++ rest) = some (v, rest) :=
  parseValue_text hnum v (fun n _ => hread n) fuel rest hfuel hrest

mutual

/-- Twice as much fuel as there are characters is enough. -/
theorem cost_lt (hnum : ∀ n, IsNumberText (num n)) (v : Json N) :
    cost v < 2 * (text num v).length := by
  cases v with
  | null => simp [cost, text]
  | bool b => cases b <;> simp [cost, text]
  | number n =>
      obtain ⟨c, cs, hc, -⟩ := (hnum n).head
      simp only [cost, text, hc, List.length_cons]
      omega
  | string s =>
      simp only [cost, text, quote, List.length_cons]
      omega
  | array items =>
      cases items with
      | nil => simp [cost, costItems, text]
      | cons v items =>
          have hv := cost_lt hnum v
          have hitems := costItems_lt hnum items
          simp only [cost, costItems, text, List.length_cons, List.length_append]
          omega
  | object members =>
      cases members with
      | nil => simp [cost, costMembers, text]
      | cons m members =>
          obtain ⟨k, v⟩ := m
          have hv := cost_lt hnum v
          have hmembers := costMembers_lt hnum members
          simp only [cost, costMembers, text, List.length_cons, List.length_append]
          omega

theorem costItems_lt (hnum : ∀ n, IsNumberText (num n)) (items : List (Json N)) :
    costItems items < 2 * (textItems num items).length := by
  cases items with
  | nil => simp [costItems, textItems]
  | cons v items =>
      have hv := cost_lt hnum v
      have hitems := costItems_lt hnum items
      simp only [costItems, textItems, List.length_cons, List.length_append]
      omega

theorem costMembers_lt (hnum : ∀ n, IsNumberText (num n)) (members : List (String × Json N)) :
    costMembers members < 2 * (textMembers num members).length := by
  cases members with
  | nil => simp [costMembers, textMembers]
  | cons m members =>
      obtain ⟨k, v⟩ := m
      have hv := cost_lt hnum v
      have hmembers := costMembers_lt hnum members
      simp only [costMembers, textMembers, List.length_cons, List.length_append]
      omega

end

/-- **A document is read back.** -/
theorem parse_eq (hnum : ∀ n, IsNumberText (num n)) (v : Json N)
    (hread : ∀ n ∈ numbers v, read (num n) = some n) : parse read (text num v) = some v := by
  have hvalue := parseValue_text hnum v hread (2 * (text num v).length) []
    (cost_lt hnum v).le stops_nil
  rw [List.append_nil] at hvalue
  rw [parse, hvalue]
  rfl

end Reading

/-- **The text determines the value**, whenever numbers are written in number syntax and
    differently. -/
theorem text_injective {num : N → List Char} (hnum : ∀ n, IsNumberText (num n))
    (hinj : Function.Injective num) : Function.Injective (text num) := by
  classical
  intro v w h
  let read : List Char → Option N := Function.partialInv num
  have hread : ∀ n, read (num n) = some n := fun n => Function.partialInv_left hinj n
  have hv := parse_text hnum hread v (cost v + cost w) [] (by omega) stops_nil
  have hw := parse_text hnum hread w (cost v + cost w) [] (by omega) stops_nil
  rw [h, hw] at hv
  exact (Prod.mk.inj (Option.some.inj hv)).1.symm

/-! ## Member order -/

mutual

/-- The value with the members of every object in increasing order of their keys. -/
def sortKeys : Json N → Json N
  | .null => .null
  | .bool b => .bool b
  | .number n => .number n
  | .string s => .string s
  | .array items => .array (sortKeysItems items)
  | .object members =>
      .object ((sortKeysMembers members).insertionSort (fun m m' => m.1 ≤ m'.1))

def sortKeysItems : List (Json N) → List (Json N)
  | [] => []
  | v :: items => sortKeys v :: sortKeysItems items

def sortKeysMembers : List (String × Json N) → List (String × Json N)
  | [] => []
  | (k, v) :: members => (k, sortKeys v) :: sortKeysMembers members

end

theorem sortKeysItems_eq (items : List (Json N)) : sortKeysItems items = items.map sortKeys := by
  induction items with
  | nil => rfl
  | cons v items ih => rw [sortKeysItems, ih, List.map_cons]

theorem sortKeysMembers_eq (members : List (String × Json N)) :
    sortKeysMembers members = members.map (fun m => (m.1, sortKeys m.2)) := by
  induction members with
  | nil => rfl
  | cons m members ih =>
      obtain ⟨k, v⟩ := m
      rw [sortKeysMembers, ih, List.map_cons]

/-! ## Strings and keys of a value -/

mutual

/-- The strings in a value, the keys included. -/
def strings : Json N → List String
  | .string s => [s]
  | .array items => stringsItems items
  | .object members => stringsMembers members
  | _ => []

def stringsItems : List (Json N) → List String
  | [] => []
  | v :: items => strings v ++ stringsItems items

def stringsMembers : List (String × Json N) → List String
  | [] => []
  | (k, v) :: members => k :: (strings v ++ stringsMembers members)

end

mutual

/-- The keys of every object are in increasing order. -/
def KeysSorted : Json N → Prop
  | .array items => KeysSortedItems items
  | .object members => (members.map Prod.fst).Pairwise (· < ·) ∧ KeysSortedMembers members
  | _ => True

def KeysSortedItems : List (Json N) → Prop
  | [] => True
  | v :: items => KeysSorted v ∧ KeysSortedItems items

def KeysSortedMembers : List (String × Json N) → Prop
  | [] => True
  | (_, v) :: members => KeysSorted v ∧ KeysSortedMembers members

end

theorem stringsItems_eq (items : List (Json N)) : stringsItems items = items.flatMap strings := by
  induction items with
  | nil => rfl
  | cons v items ih => rw [stringsItems, ih, List.flatMap_cons]

end Json

end RsConsole.Library
