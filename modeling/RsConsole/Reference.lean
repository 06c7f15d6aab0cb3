import Std.Data.String.ToNat
import RsConsole.Crates

set_option autoImplicit false

/-! # Executable versions of the crates' functions

`reference` computes what the crates compute: padded base64 that accepts the canonical encoding
only, SHA-256, and the JSON text of strings and integers. Floating-point numbers do not occur in
what the console writes; they are written as their bits with an exponent, which keeps the rules of
`JsonRules`. -/

namespace RsConsole.Reference

open Library

/-! ## Base64 -/

/-- The alphabet of RFC 4648. -/
def base64Char (n : ℕ) : UInt8 :=
  if n < 26 then UInt8.ofNat (65 + n)
  else if n < 52 then UInt8.ofNat (71 + n)
  else if n < 62 then UInt8.ofNat (n - 4)
  else if n = 62 then 43 else 47

def base64Value (byte : UInt8) : Option ℕ :=
  let c := byte.toNat
  if 65 ≤ c ∧ c ≤ 90 then some (c - 65)
  else if 97 ≤ c ∧ c ≤ 122 then some (c - 71)
  else if 48 ≤ c ∧ c ≤ 57 then some (c + 4)
  else if c = 43 then some 62
  else if c = 47 then some 63
  else none

/-- Three bytes at a time; the last group is padded with `=`. -/
def base64Encode : List UInt8 → List UInt8
  | [] => []
  | [a] =>
      [base64Char (a.toNat / 4), base64Char (a.toNat % 4 * 16), 61, 61]
  | [a, b] =>
      [base64Char (a.toNat / 4), base64Char (a.toNat % 4 * 16 + b.toNat / 16),
        base64Char (b.toNat % 16 * 4), 61]
  | a :: b :: c :: rest =>
      base64Char (a.toNat / 4) :: base64Char (a.toNat % 4 * 16 + b.toNat / 16) ::
        base64Char (b.toNat % 16 * 4 + c.toNat / 64) :: base64Char (c.toNat % 64) ::
        base64Encode rest

/-- The sextets before the padding. -/
def base64Sextets (text : List UInt8) : Option (List ℕ) :=
  (text.takeWhile (· ≠ 61)).mapM base64Value

/-- The whole bytes of a sequence of sextets. -/
def sextetBytes : List ℕ → List UInt8
  | a :: b :: c :: d :: rest =>
      UInt8.ofNat (a * 4 + b / 16) :: UInt8.ofNat (b % 16 * 16 + c / 4) ::
        UInt8.ofNat (c % 4 * 64 + d) :: sextetBytes rest
  | [a, b, c] => [UInt8.ofNat (a * 4 + b / 16), UInt8.ofNat (b % 16 * 16 + c / 4)]
  | [a, b] => [UInt8.ofNat (a * 4 + b / 16)]
  | _ => []

def base64Decode (text : List UInt8) : Option (List UInt8) := do
  let sextets ← base64Sextets text
  let decoded := sextetBytes sextets
  if base64Encode decoded = text then some decoded else none

/-! ## SHA-256 -/

/-- The rotation of a 32-bit word to the right. -/
def rotr (x n : ℕ) : ℕ := (x >>> n ||| x <<< (32 - n)) % 2 ^ 32

def roundConstants : List ℕ :=
  [0x428a2f98, 0x71374491, 0xb5c0fbcf, 0xe9b5dba5, 0x3956c25b, 0x59f111f1, 0x923f82a4, 0xab1c5ed5,
    0xd807aa98, 0x12835b01, 0x243185be, 0x550c7dc3, 0x72be5d74, 0x80deb1fe, 0x9bdc06a7, 0xc19bf174,
    0xe49b69c1, 0xefbe4786, 0x0fc19dc6, 0x240ca1cc, 0x2de92c6f, 0x4a7484aa, 0x5cb0a9dc, 0x76f988da,
    0x983e5152, 0xa831c66d, 0xb00327c8, 0xbf597fc7, 0xc6e00bf3, 0xd5a79147, 0x06ca6351, 0x14292967,
    0x27b70a85, 0x2e1b2138, 0x4d2c6dfc, 0x53380d13, 0x650a7354, 0x766a0abb, 0x81c2c92e, 0x92722c85,
    0xa2bfe8a1, 0xa81a664b, 0xc24b8b70, 0xc76c51a3, 0xd192e819, 0xd6990624, 0xf40e3585, 0x106aa070,
    0x19a4c116, 0x1e376c08, 0x2748774c, 0x34b0bcb5, 0x391c0cb3, 0x4ed8aa4a, 0x5b9cca4f, 0x682e6ff3,
    0x748f82ee, 0x78a5636f, 0x84c87814, 0x8cc70208, 0x90befffa, 0xa4506ceb, 0xbef9a3f7, 0xc67178f2]

/-- The eight working variables. -/
structure Working where
  a : ℕ
  b : ℕ
  c : ℕ
  d : ℕ
  e : ℕ
  f : ℕ
  g : ℕ
  h : ℕ

def initial : Working :=
  ⟨0x6a09e667, 0xbb67ae85, 0x3c6ef372, 0xa54ff53a, 0x510e527f, 0x9b05688c, 0x1f83d9ab, 0x5be0cd19⟩

/-- Continue with the value of a word. -/
def withWord {α : Type} (n : ℕ) (next : ℕ → α) : α :=
  match n with
  | 0 => next 0
  | m + 1 => next (m + 1)

/-- The message schedule, newest word first. -/
def schedule : ℕ → List ℕ → List ℕ
  | 0, words => words
  | n + 1, words =>
      let w := fun i => words.getD i 0
      let s₀ := rotr (w 14) 7 ^^^ rotr (w 14) 18 ^^^ (w 14 >>> 3)
      let s₁ := rotr (w 1) 17 ^^^ rotr (w 1) 19 ^^^ (w 1 >>> 10)
      withWord ((w 15 + s₀ + w 6 + s₁) % 2 ^ 32) (fun word => schedule n (word :: words))

/-- The rounds over the pairs of a constant and a schedule word. -/
def rounds : List (ℕ × ℕ) → Working → Working
  | [], s => s
  | (k, w) :: rest, s =>
      let s₁ := rotr s.e 6 ^^^ rotr s.e 11 ^^^ rotr s.e 25
      let choice := (s.e &&& s.f) ^^^ ((2 ^ 32 - 1 - s.e) &&& s.g)
      let t₁ := s.h + s₁ + choice + k + w
      let s₀ := rotr s.a 2 ^^^ rotr s.a 13 ^^^ rotr s.a 22
      let majority := (s.a &&& s.b) ^^^ (s.a &&& s.c) ^^^ (s.b &&& s.c)
      withWord ((s.d + t₁) % 2 ^ 32) (fun e =>
        withWord ((t₁ + s₀ + majority) % 2 ^ 32) (fun a =>
          rounds rest ⟨a, s.a, s.b, s.c, e, s.e, s.f, s.g⟩))

def compress (s : Working) (block : List ℕ) : Working :=
  let r := rounds (roundConstants.zip (schedule 48 block.reverse).reverse) s
  ⟨(s.a + r.a) % 2 ^ 32, (s.b + r.b) % 2 ^ 32, (s.c + r.c) % 2 ^ 32, (s.d + r.d) % 2 ^ 32,
    (s.e + r.e) % 2 ^ 32, (s.f + r.f) % 2 ^ 32, (s.g + r.g) % 2 ^ 32, (s.h + r.h) % 2 ^ 32⟩

/-- The big-endian words of a sequence of bytes. -/
def wordsOf : List UInt8 → List ℕ
  | a :: b :: c :: d :: rest =>
      (((a.toNat * 256 + b.toNat) * 256 + c.toNat) * 256 + d.toNat) :: wordsOf rest
  | _ => []

/-- The `count` big-endian bytes of `n`. -/
def bigEndian : ℕ → ℕ → List UInt8
  | 0, _ => []
  | count + 1, n => UInt8.ofNat (n / 256 ^ count) :: bigEndian count n

def pad (message : List UInt8) : List UInt8 :=
  message ++ 128 :: List.replicate ((119 - message.length % 64) % 64) 0
    ++ bigEndian 8 (message.length * 8)

/-- Sixteen words at a time; `count` bounds the number of blocks. -/
def blocks : ℕ → Working → List ℕ → Working
  | 0, s, _ => s
  | count + 1, s, words => blocks count (compress s (words.take 16)) (words.drop 16)

def sha256 (message : List UInt8) : Vector UInt8 32 :=
  let words := wordsOf (pad message)
  let s := blocks (words.length / 16) initial words
  let bytes := [s.a, s.b, s.c, s.d, s.e, s.f, s.g, s.h].flatMap (bigEndian 4)
  Vector.ofFn (fun i => bytes.getD i 0)

example : (sha256 (asBytes "abc")).toList =
    [0xba, 0x78, 0x16, 0xbf, 0x8f, 0x01, 0xcf, 0xea, 0x41, 0x41, 0x40, 0xde, 0x5d, 0xae, 0x22, 0x23,
      0xb0, 0x03, 0x61, 0xa3, 0x96, 0x17, 0x7a, 0x9c, 0xb4, 0x10, 0xff, 0x61, 0xf2, 0x00, 0x15,
      0xad] := by
  decide +kernel

/-! ## JSON -/

def numberText : Number → List Char
  | .posInt n _ => Nat.toDigits 10 n
  | .negInt n _ => '-' :: Nat.toDigits 10 n.natAbs
  | .float bits _ => Nat.toDigits 10 bits.toNat ++ ['e', '0']

theorem isDigit_of_mem {n : ℕ} {c : Char} (h : c ∈ Nat.toDigits 10 n) : Json.isDigit c = true := by
  have hdigit : c.isDigit = true := Nat.isDigit_of_mem_toDigits (by omega) (by omega) h
  simp only [Char.isDigit, ge_iff_le, Bool.and_eq_true, decide_eq_true_eq] at hdigit
  simp only [Json.isDigit, Bool.and_eq_true, decide_eq_true_eq]
  exact hdigit

/-- Only zero is written with a leading zero. -/
theorem head_toDigits {n : ℕ} (h : 0 < n) : (Nat.toDigits 10 n).head? ≠ some '0' := by
  induction n using Nat.strongRecOn with
  | ind n ih =>
      by_cases hsmall : n < 10
      · have hall : ∀ m < 10, 0 < m → [Nat.digitChar m].head? ≠ some '0' := by decide
        rw [Nat.toDigits_of_lt_base hsmall]
        exact hall n hsmall h
      · have hdiv := ih (n / 10) (by omega) (by omega)
        rwa [Nat.toDigits_of_base_le (by omega) (by omega),
          List.head?_append_of_ne_nil _ Nat.toDigits_ne_nil]

theorem digits_toDigits (n : ℕ) : Json.IsDigits (Nat.toDigits 10 n) ∧
    (Nat.toDigits 10 n = ['0'] ∨ (Nat.toDigits 10 n).head? ≠ some '0') := by
  refine ⟨⟨Nat.toDigits_ne_nil, fun c hc => isDigit_of_mem hc⟩, ?_⟩
  rcases Nat.eq_zero_or_pos n with rfl | hpos
  · exact Or.inl (Nat.toDigits_zero 10)
  · exact Or.inr (head_toDigits hpos)

theorem numberText_syntax (n : Number) : Json.IsNumberText (numberText n) := by
  cases n with
  | posInt n h =>
      exact ⟨[], _, [], [], by simp [numberText], Or.inl rfl, digits_toDigits n, Or.inl rfl,
        Or.inl rfl⟩
  | negInt n h =>
      exact ⟨['-'], _, [], [], by simp [numberText], Or.inr rfl, digits_toDigits n.natAbs,
        Or.inl rfl, Or.inl rfl⟩
  | float bits h =>
      refine ⟨[], _, [], ['e', '0'], by simp [numberText], Or.inl rfl,
        digits_toDigits bits.toNat, Or.inl rfl, Or.inr ?_⟩
      exact ⟨'e', [], ['0'], Or.inl rfl, Or.inl rfl,
        ⟨List.cons_ne_nil _ _, List.forall_mem_singleton.2 rfl⟩, rfl⟩

theorem toDigits_injective : Function.Injective (Nat.toDigits 10) := by
  intro m n h
  have hvalue := congrArg (fun ds => Nat.ofDigitChars 10 ds 0) h
  simpa only [Nat.ofDigitChars_ten_toDigits] using hvalue

theorem notMem_toDigits {c : Char} (h : Json.isDigit c = false) (n : ℕ) :
    c ∉ Nat.toDigits 10 n := by
  intro hc
  rw [isDigit_of_mem hc] at h
  cases h

/-- The characters that tell the three kinds of number apart: a sign, and an exponent. -/
theorem marks_numberText (x : Number) :
    (('-' ∈ numberText x) = (x matches .negInt ..)) ∧
      (('e' ∈ numberText x) = (x matches .float ..)) := by
  have hminus := @notMem_toDigits '-' (by decide)
  have he := @notMem_toDigits 'e' (by decide)
  cases x <;> simp [numberText, hminus, he]

theorem numberText_injective : Function.Injective numberText := by
  intro x y h
  obtain ⟨hneg, hfloat⟩ := marks_numberText x
  obtain ⟨hneg', hfloat'⟩ := marks_numberText y
  rw [h, hneg'] at hneg
  rw [h, hfloat'] at hfloat
  cases x with
  | posInt n hn =>
      cases y with
      | posInt m hm =>
          cases toDigits_injective h
          rfl
      | negInt m hm => simp at hneg
      | float bits hb => simp at hfloat
  | negInt n hn =>
      cases y with
      | posInt m hm => simp at hneg
      | negInt m hm =>
          have habs := toDigits_injective (List.cons.inj h).2
          have heq : n = m := by omega
          cases heq
          rfl
      | float bits hb => simp at hneg
  | float bits hb =>
      cases y with
      | posInt m hm => simp at hfloat
      | negInt m hm => simp at hneg
      | float bits' hb' =>
          cases UInt64.toNat_inj.1 (toDigits_injective (List.append_cancel_right h))
          rfl

/-- The crates' functions as computed here. -/
abbrev crates : Crates where
  base64Decode := base64Decode
  sha256 := sha256
  numberText := numberText
  stringText s := some (Json.quote s.toList)

theorem jsonRules : @JsonRules crates :=
  letI := crates
  ⟨fun _ => rfl, numberText_syntax, numberText_injective⟩

theorem base64Canonical : @Base64Canonical crates := by
  refine ⟨base64Encode, fun text decoded h => ?_⟩
  change base64Decode text = some decoded at h
  simp only [base64Decode, Option.bind_eq_bind, Option.bind_eq_some_iff,
    Option.ite_none_right_eq_some, Option.some.injEq] at h
  obtain ⟨sextets, -, hencode, rfl⟩ := h
  exact hencode.symm

theorem unsignedDecimal : @UnsignedDecimal crates := fun _ _ => rfl

/-- The bytes that base64 text consists of. -/
def IsLetter (byte : UInt8) : Prop :=
  (65 ≤ byte.toNat ∧ byte.toNat ≤ 90) ∨ (97 ≤ byte.toNat ∧ byte.toNat ≤ 122) ∨
    (48 ≤ byte.toNat ∧ byte.toNat ≤ 57) ∨ byte = 43 ∨ byte = 47 ∨ byte = 61

instance (byte : UInt8) : Decidable (IsLetter byte) := inferInstanceAs (Decidable (_ ∨ _))

theorem isLetter_base64Char (n : ℕ) : IsLetter (base64Char n) := by
  have hsmall : ∀ n < 64, IsLetter (base64Char n) := by decide
  by_cases h : n < 64
  · exact hsmall n h
  · have hlast : base64Char n = 47 := by
      rw [base64Char, if_neg (by omega), if_neg (by omega), if_neg (by omega), if_neg (by omega)]
    rw [hlast]
    decide

theorem isLetter_of_mem_base64Encode (bytes : List UInt8) :
    ∀ byte ∈ base64Encode bytes, IsLetter byte := by
  have hpadding : IsLetter 61 := by decide
  induction bytes using base64Encode.induct with
  | case1 => simp [base64Encode]
  | case2 a => simp [base64Encode, isLetter_base64Char, hpadding]
  | case3 a b => simp [base64Encode, isLetter_base64Char, hpadding]
  | case4 a b c rest ih => simpa [base64Encode, isLetter_base64Char] using ih

theorem base64Alphabet : @Base64Alphabet crates := by
  intro text decoded h byte hbyte
  change base64Decode text = some decoded at h
  simp only [base64Decode, Option.bind_eq_bind, Option.bind_eq_some_iff,
    Option.ite_none_right_eq_some, Option.some.injEq] at h
  obtain ⟨sextets, -, htext, -⟩ := h
  rw [← htext] at hbyte
  exact isLetter_of_mem_base64Encode _ byte hbyte

end RsConsole.Reference
