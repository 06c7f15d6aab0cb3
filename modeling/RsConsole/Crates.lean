import Mathlib.Algebra.Group.Int.Defs
import Mathlib.Algebra.Group.Nat.Defs
import RsConsole.Library.Json

set_option autoImplicit false

/-! # What the repository takes from other crates

The `base64`, `sha2` and `serde_json` functions the workspace calls are parameters of the model,
collected in `Crates`. The facts about them that a result needs are hypotheses of that result: `JsonRules`,
`UnsignedDecimal`, `Base64Canonical` and `Base64Alphabet`. -/

namespace RsConsole

open Library

/-- `serde_json::Number`: a `u64`, a negative `i64` or a finite `f64` (kept as its bits). -/
inductive Number where
  | posInt (n : ℕ) (h : n < 2 ^ 64)
  | negInt (n : ℤ) (h : -2 ^ 63 ≤ n ∧ n < 0)
  | float (bits : UInt64) (h : (bits >>> 52) &&& 0x7ff ≠ 0x7ff)

/-- `serde_json::Value`. -/
abbrev Value := Json Number

/-- The functions of other crates. -/
class Crates where
  /-- `base64::engine::general_purpose::STANDARD.decode` -/
  base64Decode : List UInt8 → Option (List UInt8)
  /-- `sha2::Sha256::digest` -/
  sha256 : List UInt8 → Vector UInt8 32
  /-- `serde_json::Number::to_string` -/
  numberText : Number → List Char
  /-- `serde_json::to_string` on a string -/
  stringText : String → Option (List Char)

/-- `serde_json` writes strings by the JSON rules, and numbers in JSON number syntax with different
    texts for different numbers. -/
structure JsonRules [Crates] : Prop where
  string : ∀ s, Crates.stringText s = some (Json.quote s.toList)
  number_syntax : ∀ n, Json.IsNumberText (Crates.numberText n)
  number_injective : Function.Injective Crates.numberText

/-- `serde_json` writes unsigned integers in decimal. -/
def UnsignedDecimal [Crates] : Prop :=
  ∀ n h, Crates.numberText (.posInt n h) = Nat.toDigits 10 n

/-- The base64 engine accepts the canonical encoding only. -/
def Base64Canonical [Crates] : Prop :=
  ∃ encode : List UInt8 → List UInt8, ∀ text decoded,
    Crates.base64Decode text = some decoded → text = encode decoded

/-- The base64 engine accepts letters, digits, `+`, `/` and the padding `=` only. -/
def Base64Alphabet [Crates] : Prop :=
  ∀ text decoded, Crates.base64Decode text = some decoded → ∀ byte ∈ text,
    (65 ≤ byte.toNat ∧ byte.toNat ≤ 90) ∨ (97 ≤ byte.toNat ∧ byte.toNat ≤ 122) ∨
      (48 ≤ byte.toNat ∧ byte.toNat ≤ 57) ∨ byte = 43 ∨ byte = 47 ∨ byte = 61

/-! ## Bytes of a string -/

/-- `str::as_bytes` -/
def asBytes (s : String) : List UInt8 := s.toUTF8.data.toList

theorem asBytes_injective : Function.Injective asBytes := by
  intro s t h
  have harray : s.toUTF8.data = t.toUTF8.data := Array.toList_inj.1 h
  exact String.toByteArray_inj.1 (ByteArray.ext harray)

end RsConsole
