import Mathlib.Data.List.Induction
import Mathlib.Tactic.IntervalCases
import RsConsole.Policy.Manifests

set_option autoImplicit false

/-! # The timestamp check against the calendar

`valid_utc_timestamp` tests single bytes and slices of an arbitrary string. What it is for can be
said without bytes: `CalendarTime` is a second of the proleptic Gregorian calendar with decimal
digits behind it, and `CalendarTime.render` writes it. The check accepts exactly the strings written
so, and these are exactly the strings of the form `YYYY-MM-DDTHH:MM:SS[.digits]Z` whose numbers name
such a second.

Both directions go through the bytes, read from the front: a slice or a tested byte says what the
rest of the bytes from its offset on begins with. -/

namespace RsConsole

open Library

/-! ## Decimal numbers of a fixed width -/

/-- The number whose decimal digits are those of `value` followed by the given ones. -/
def numberFrom (value : ℕ) (digits : List (Fin 10)) : ℕ :=
  digits.foldl (fun n digit => n * 10 + digit.val) value

/-- The number that decimal digits stand for, the highest first. -/
def number (digits : List (Fin 10)) : ℕ := numberFrom 0 digits

/-- The last `width` decimal digits of a number. -/
def lastDigits : ℕ → ℕ → List (Fin 10)
  | 0, _ => []
  | width + 1, n => lastDigits width (n / 10) ++ [⟨n % 10, Nat.mod_lt _ (by decide)⟩]

@[simp] theorem number_nil : number [] = 0 := rfl

theorem number_append_singleton (digits : List (Fin 10)) (digit : Fin 10) :
    number (digits ++ [digit]) = number digits * 10 + digit := by
  simp [number, numberFrom]

@[simp] theorem length_lastDigits (width n : ℕ) : (lastDigits width n).length = width := by
  induction width generalizing n with
  | zero => rfl
  | succ width ih => simp [lastDigits, ih]

theorem number_lastDigits {width n : ℕ} (h : n < 10 ^ width) : number (lastDigits width n) = n := by
  induction width generalizing n with
  | zero =>
      have hzero : n = 0 := by simpa using h
      simp [lastDigits, hzero]
  | succ width ih =>
      have hhigh : n / 10 < 10 ^ width := by
        rw [Nat.pow_succ] at h
        omega
      rw [lastDigits, number_append_singleton, ih hhigh]
      exact Nat.div_add_mod' n 10

theorem lastDigits_number {width : ℕ} {digits : List (Fin 10)} (h : digits.length = width) :
    lastDigits width (number digits) = digits := by
  induction width generalizing digits with
  | zero =>
      rw [List.length_eq_zero_iff] at h
      rw [h]
      rfl
  | succ width ih =>
      -- the digits are added at the end, so the list is split there
      obtain ⟨high, low, rfl⟩ := List.eq_nil_or_concat' digits |>.resolve_left (by
        rintro rfl
        simp at h)
      have hhigh : high.length = width := by simpa using h
      have hdiv : (number high * 10 + low) / 10 = number high := by omega
      have hmod : (number high * 10 + low) % 10 = low := by omega
      rw [number_append_singleton, lastDigits, hdiv, ih hhigh]
      simp [hmod]

theorem number_lt (digits : List (Fin 10)) : number digits < 10 ^ digits.length := by
  induction digits using List.reverseRecOn with
  | nil => simp
  | append_singleton digits digit ih =>
      rw [number_append_singleton, List.length_append, List.length_singleton, Nat.pow_succ]
      omega

/-! ## The calendar -/

/-- A year of 366 days. -/
def IsLeapYear (year : ℕ) : Prop := 400 ∣ year ∨ (4 ∣ year ∧ ¬ 100 ∣ year)

instance (year : ℕ) : Decidable (IsLeapYear year) := inferInstanceAs (Decidable (_ ∨ _))

/-- The lengths of the twelve months. -/
def monthLengths (year : ℕ) : List ℕ :=
  [31, if IsLeapYear year then 29 else 28, 31, 30, 31, 30, 31, 31, 30, 31, 30, 31]

/-- The length of a month, none for a number that names no month. -/
def monthLength (year month : ℕ) : Option ℕ :=
  if month = 0 then none else (monthLengths year)[month - 1]?

/-- The numbers name a second of the years 1 to 9999. -/
structure NamesSecond (year month day hour minute second : ℕ) : Prop where
  year_bounds : 1 ≤ year ∧ year ≤ 9999
  day_bounds : ∃ days, monthLength year month = some days ∧ 1 ≤ day ∧ day ≤ days
  hour_le : hour ≤ 23
  minute_le : minute ≤ 59
  second_le : second ≤ 59

/-- A second of the calendar and the digits of a fraction of it. -/
structure CalendarTime where
  year : ℕ
  month : ℕ
  day : ℕ
  hour : ℕ
  minute : ℕ
  second : ℕ
  fraction : List (Fin 10)
  valid : NamesSecond year month day hour minute second

/-! ## Writing -/

def digitChar (digit : Fin 10) : Char := Char.ofNat (48 + digit)

def digitText (digits : List (Fin 10)) : List Char := digits.map digitChar

/-- The fraction, with its point if there is one. -/
def fractionText (digits : List (Fin 10)) : List Char :=
  if digits = [] then [] else '.' :: digitText digits

/-- `YYYY-MM-DDTHH:MM:SS[.digits]Z` -/
def timestampText (year month day hour minute second fraction : List (Fin 10)) : List Char :=
  digitText year ++ '-' :: (digitText month ++ '-' :: (digitText day ++ 'T' :: (digitText hour ++
    ':' :: (digitText minute ++ ':' :: (digitText second ++ (fractionText fraction ++ ['Z']))))))

def CalendarTime.render (time : CalendarTime) : String :=
  String.ofList (timestampText (lastDigits 4 time.year) (lastDigits 2 time.month)
    (lastDigits 2 time.day) (lastDigits 2 time.hour) (lastDigits 2 time.minute)
    (lastDigits 2 time.second) time.fraction)

/-- The grammar of timestamps. -/
def IsTimestamp (value : String) : Prop :=
  ∃ year month day hour minute second fraction : List (Fin 10),
    year.length = 4 ∧ month.length = 2 ∧ day.length = 2 ∧ hour.length = 2 ∧ minute.length = 2 ∧
    second.length = 2 ∧ value.toList = timestampText year month day hour minute second fraction ∧
    NamesSecond (number year) (number month) (number day) (number hour) (number minute)
      (number second)

theorem monthLength_le {year month days : ℕ} (h : monthLength year month = some days) :
    month ≤ 12 ∧ days ≤ 31 := by
  unfold monthLength at h
  split at h
  · cases h
  · obtain ⟨hmonth, hdays⟩ := List.getElem?_eq_some_iff.1 h
    have hlength : month - 1 < 12 := hmonth
    refine ⟨by omega, ?_⟩
    have hmem : days ∈ monthLengths year := hdays ▸ List.getElem_mem hmonth
    simp only [monthLengths, List.mem_cons, List.not_mem_nil, or_false] at hmem
    split at hmem <;> omega

/-- **The grammar describes the rendered times.** -/
theorem isTimestamp_iff_render (value : String) :
    IsTimestamp value ↔ ∃ time : CalendarTime, value = time.render := by
  constructor
  · rintro ⟨year, month, day, hour, minute, second, fraction, hyear, hmonth, hday, hhour, hminute,
      hsecond, htext, hvalid⟩
    refine ⟨⟨number year, number month, number day, number hour, number minute, number second,
      fraction, hvalid⟩, ?_⟩
    rw [CalendarTime.render, lastDigits_number hyear, lastDigits_number hmonth,
      lastDigits_number hday, lastDigits_number hhour, lastDigits_number hminute,
      lastDigits_number hsecond, ← htext, String.ofList_toList]
  · rintro ⟨time, rfl⟩
    obtain ⟨days, hmonth, -, hday⟩ := time.valid.day_bounds
    have hbounds := monthLength_le hmonth
    have hyear := time.valid.year_bounds
    have hhour := time.valid.hour_le
    have hminute := time.valid.minute_le
    have hsecond := time.valid.second_le
    refine ⟨_, _, _, _, _, _, _, length_lastDigits 4 time.year, length_lastDigits 2 time.month,
      length_lastDigits 2 time.day, length_lastDigits 2 time.hour, length_lastDigits 2 time.minute,
      length_lastDigits 2 time.second, String.toList_ofList, ?_⟩
    rw [number_lastDigits (by omega), number_lastDigits (by omega), number_lastDigits (by omega),
      number_lastDigits (by omega), number_lastDigits (by omega), number_lastDigits (by omega)]
    exact time.valid

/-! ## Digits as bytes -/

def digitByte (digit : Fin 10) : UInt8 := UInt8.ofNat (48 + digit)

theorem isAsciiDigit_digitByte (digit : Fin 10) : isAsciiDigit (digitByte digit) = true := by
  decide +revert

theorem digitByte_toNat (digit : Fin 10) : (digitByte digit).toNat - 48 = digit := by
  decide +revert

theorem exists_digitByte {byte : UInt8} (h : isAsciiDigit byte = true) :
    ∃ digit, byte = digitByte digit := by
  simp only [isAsciiDigit, Bool.and_eq_true, decide_eq_true_eq, UInt8.le_iff_toNat_le] at h
  have hlow : 48 ≤ byte.toNat := h.1
  have hhigh : byte.toNat ≤ 57 := h.2
  refine ⟨⟨byte.toNat - 48, by omega⟩, ?_⟩
  rw [digitByte, Nat.add_sub_cancel' hlow, UInt8.ofNat_toNat]

theorem all_isAsciiDigit_iff (bytes : List UInt8) :
    bytes.all isAsciiDigit = true ↔ ∃ digits : List (Fin 10), bytes = digits.map digitByte := by
  constructor
  · intro h
    induction bytes with
    | nil => exact ⟨[], rfl⟩
    | cons byte bytes ih =>
        rw [List.all_cons, Bool.and_eq_true] at h
        obtain ⟨digit, rfl⟩ := exists_digitByte h.1
        obtain ⟨digits, rfl⟩ := ih h.2
        exact ⟨digit :: digits, rfl⟩
  · rintro ⟨digits, rfl⟩
    simp [isAsciiDigit_digitByte]

/-- The fold of `decimal` computes the number of the digits it has read. -/
theorem decimalFrom_digits {value : ℕ} {bytes : List UInt8} {n : ℕ}
    (h : decimalFrom value bytes = some (some n)) :
    ∃ digits : List (Fin 10), bytes = digits.map digitByte ∧
      n = numberFrom value digits := by
  induction bytes generalizing value with
  | nil =>
      cases h
      exact ⟨[], rfl, rfl⟩
  | cons byte bytes ih =>
      unfold decimalFrom at h
      split at h
      · next hdigit =>
          split at h
          · obtain ⟨digit, rfl⟩ := exists_digitByte hdigit
            rw [digitByte_toNat] at h
            obtain ⟨digits, rfl, hn⟩ := ih h
            exact ⟨digit :: digits, rfl, hn⟩
          · cases h
      · cases h

theorem decimalFrom_map {value : ℕ} {digits : List (Fin 10)} {r : Option ℕ}
    (h : decimalFrom value (digits.map digitByte) = some r) :
    r = some (numberFrom value digits) := by
  induction digits generalizing value with
  | nil =>
      cases h
      rfl
  | cons digit digits ih =>
      rw [List.map_cons, decimalFrom, if_pos (isAsciiDigit_digitByte digit), digitByte_toNat] at h
      split at h
      · exact ih h
      · cases h

theorem decimal_eq_some_iff {bytes : List UInt8} (h : bytes.length ≤ 9) {n : ℕ} :
    decimal bytes = some (some n) ↔
      ∃ digits : List (Fin 10), bytes = digits.map digitByte ∧ n = number digits := by
  constructor
  · exact decimalFrom_digits
  · rintro ⟨digits, rfl, rfl⟩
    obtain ⟨r, hr⟩ := decimalFrom_total (digits.map digitByte) 0 0 (by omega) (by omega)
    rw [decimal, hr, decimalFrom_map hr]
    rfl

/-! ## Reading from the front -/

theorem drop_of_slice {bytes part : List UInt8} {start stop : ℕ}
    (h : slice bytes start stop = some part) :
    bytes.drop start = part ++ bytes.drop stop ∧ part.length = stop - start := by
  unfold slice at h
  split at h
  · next hbounds =>
      cases h
      refine ⟨?_, by simp; omega⟩
      rw [List.drop_take]
      have hrest : bytes.drop stop = (bytes.drop start).drop (stop - start) := by
        rw [List.drop_drop, Nat.add_sub_cancel' hbounds.1]
      rw [hrest, List.take_append_drop]
  · cases h

theorem slice_of_drop {bytes part rest : List UInt8} {start stop : ℕ}
    (h : bytes.drop start = part ++ rest) (hlength : part.length = stop - start)
    (hstart : start ≤ stop) (hstop : stop ≤ bytes.length) : slice bytes start stop = some part := by
  rw [slice, if_pos ⟨hstart, hstop⟩, List.drop_take, h, ← hlength, List.take_left]

theorem drop_of_getElem? {bytes : List UInt8} {i : ℕ} {byte : UInt8} (h : bytes[i]? = some byte) :
    bytes.drop i = byte :: bytes.drop (i + 1) := by
  obtain ⟨hi, rfl⟩ := List.getElem?_eq_some_iff.1 h
  exact List.drop_eq_getElem_cons hi

theorem getElem?_of_drop {bytes rest : List UInt8} {i : ℕ} {byte : UInt8}
    (h : bytes.drop i = byte :: rest) : bytes[i]? = some byte := by
  rw [← Nat.add_zero i, ← List.getElem?_drop, h]
  rfl

/-- What is left after the front. -/
theorem drop_of_drop {bytes part rest : List UInt8} {start stop : ℕ}
    (h : bytes.drop start = part ++ rest) (hstop : start + part.length = stop) :
    bytes.drop stop = rest := by
  rw [← hstop, ← List.drop_drop, h, List.drop_left]

/-- A field of the check: its bytes are digits of a number. -/
theorem field_eq_some_iff {bytes : List UInt8} {start stop n : ℕ} (h : stop - start ≤ 9) :
    (slice bytes start stop).bind decimal = some (some n) ↔
      ∃ digits : List (Fin 10), slice bytes start stop = some (digits.map digitByte) ∧
        n = number digits := by
  rw [Option.bind_eq_some_iff]
  constructor
  · rintro ⟨part, hpart, hn⟩
    have hlength := (drop_of_slice hpart).2
    obtain ⟨digits, rfl, rfl⟩ := (decimal_eq_some_iff (by omega)).1 hn
    exact ⟨digits, hpart, rfl⟩
  · rintro ⟨digits, hpart, rfl⟩
    have hlength := (drop_of_slice hpart).2
    exact ⟨_, hpart, (decimal_eq_some_iff (by omega)).2 ⟨digits, rfl, rfl⟩⟩

/-! ## The tests of the check -/

theorem daysInMonth_eq (year month : ℕ) : daysInMonth year month = monthLength year month := by
  have hleap : (year % 4 = 0 ∧ (year % 100 ≠ 0 ∨ year % 400 = 0)) ↔ IsLeapYear year := by
    unfold IsLeapYear
    omega
  by_cases hmonth : month ≤ 12
  · -- the twelve months one by one
    unfold monthLength monthLengths
    interval_cases month
    case «2» =>
      have hfebruary : daysInMonth year 2 =
          if year % 4 = 0 ∧ (year % 100 ≠ 0 ∨ year % 400 = 0) then some 29 else some 28 := rfl
      rw [hfebruary, if_congr hleap rfl rfl]
      exact (apply_ite some _ _ _).symm
    all_goals rfl
  · have hnone : (monthLengths year)[month - 1]? = none := by
      rw [List.getElem?_eq_none_iff]
      simp only [monthLengths, List.length_cons, List.length_nil]
      omega
    rw [monthLength, if_neg (by omega), hnone]
    unfold daysInMonth
    dsimp only
    split <;> first | rfl | omega

/-- The bytes of a fraction, with its point if there is one. -/
def fractionBytes (digits : List (Fin 10)) : List UInt8 :=
  if digits = [] then [] else 46 :: digits.map digitByte

theorem fraction_iff (fraction : List UInt8) :
    ¬ (fraction ≠ [] ∧ (fraction.head? ≠ some 46 ∨ fraction.length = 1
        ∨ ¬ fraction.tail.all isAsciiDigit)) ↔
      ∃ digits, fraction = fractionBytes digits := by
  constructor
  · intro h
    rcases fraction with _ | ⟨point, bytes⟩
    · exact ⟨[], rfl⟩
    · simp only [ne_eq, reduceCtorEq, not_false_eq_true, List.head?_cons, Option.some.injEq,
        List.length_cons, Nat.add_eq_right, List.length_eq_zero_iff, List.tail_cons, true_and,
        not_or, not_not, all_isAsciiDigit_iff] at h
      obtain ⟨rfl, hne, digits, rfl⟩ := h
      refine ⟨digits, ?_⟩
      rw [fractionBytes, if_neg (by simpa using hne)]
  · rintro ⟨digits, rfl⟩
    unfold fractionBytes
    split
    · simp
    · next hne => simp [hne, isAsciiDigit_digitByte]

/-- A test of the check goes on with the number it has read. -/
theorem read_eq_some_true_iff {x : Option (Option ℕ)} {rest : Option ℕ → Option Bool}
    (hrest : rest none = some false) :
    x.bind rest = some true ↔ ∃ n, x = some (some n) ∧ rest (some n) = some true := by
  rcases x with _ | _ | n <;> simp [hrest]

/-- The comparisons at the end of the check. -/
theorem namesSecond_iff {year month day hour minute second : ℕ} (h : year ≤ 9999) :
    NamesSecond year month day hour minute second ↔ ∃ days, daysInMonth year month = some days ∧
      year > 0 ∧ (1 ≤ day ∧ day ≤ days) ∧ hour ≤ 23 ∧ minute ≤ 59 ∧ second ≤ 59 := by
  rw [daysInMonth_eq]
  constructor
  · rintro ⟨⟨hyear, -⟩, ⟨days, hdays, hday⟩, hhour, hminute, hsecond⟩
    exact ⟨days, hdays, hyear, hday, hhour, hminute, hsecond⟩
  · rintro ⟨days, hdays, hyear, hday, hhour, hminute, hsecond⟩
    exact ⟨⟨hyear, h⟩, ⟨days, hdays, hday⟩, hhour, hminute, hsecond⟩

/-- Four digits write no number above 9999. -/
theorem year_le {bytes : List UInt8} {year : List (Fin 10)}
    (h : slice bytes 0 4 = some (year.map digitByte)) : number year ≤ 9999 := by
  have hlength := (drop_of_slice h).2
  have hlt := number_lt year
  rw [List.length_map] at hlength
  rw [hlength] at hlt
  omega

/-- What the check tests: five separators, six numbers, the fraction and the end. -/
theorem validUtcTimestamp_iff (value : String) :
    validUtcTimestamp value = some true ↔
      20 ≤ (asBytes value).length ∧ value.toList.getLast? = some 'Z' ∧
      (asBytes value)[4]? = some 45 ∧ (asBytes value)[7]? = some 45 ∧
      (asBytes value)[10]? = some 84 ∧ (asBytes value)[13]? = some 58 ∧
      (asBytes value)[16]? = some 58 ∧
      ∃ year month day hour minute second fraction : List (Fin 10),
        slice (asBytes value) 0 4 = some (year.map digitByte) ∧
        slice (asBytes value) 5 7 = some (month.map digitByte) ∧
        slice (asBytes value) 8 10 = some (day.map digitByte) ∧
        slice (asBytes value) 11 13 = some (hour.map digitByte) ∧
        slice (asBytes value) 14 16 = some (minute.map digitByte) ∧
        slice (asBytes value) 17 19 = some (second.map digitByte) ∧
        slice (asBytes value) 19 ((asBytes value).length - 1) = some (fractionBytes fraction) ∧
        NamesSecond (number year) (number month) (number day) (number hour) (number minute)
          (number second) := by
  unfold validUtcTimestamp
  dsimp only
  constructor
  · intro h
    split at h
    · cases h
    · next hshape =>
        simp only [not_or, not_lt, not_not] at hshape
        obtain ⟨hlength, hend, hdash, hdash', ht, hcolon, hcolon'⟩ := hshape
        refine ⟨hlength, hend, hdash, hdash', ht, hcolon, hcolon', ?_⟩
        obtain ⟨fraction, hfraction, h⟩ := Option.bind_eq_some_iff.1 h
        split at h
        · cases h
        · next hpoint =>
            obtain ⟨fractionDigits, rfl⟩ := (fraction_iff fraction).1 hpoint
            obtain ⟨year, yearRead, h⟩ := (read_eq_some_true_iff rfl).1 h
            obtain ⟨month, monthRead, h⟩ := (read_eq_some_true_iff rfl).1 h
            obtain ⟨day, dayRead, h⟩ := (read_eq_some_true_iff rfl).1 h
            obtain ⟨hour, hourRead, h⟩ := (read_eq_some_true_iff rfl).1 h
            obtain ⟨minute, minuteRead, h⟩ := (read_eq_some_true_iff rfl).1 h
            obtain ⟨second, secondRead, h⟩ := (read_eq_some_true_iff rfl).1 h
            obtain ⟨year, hyear, rfl⟩ := (field_eq_some_iff (by decide)).1 yearRead
            obtain ⟨month, hmonth, rfl⟩ := (field_eq_some_iff (by decide)).1 monthRead
            obtain ⟨day, hday, rfl⟩ := (field_eq_some_iff (by decide)).1 dayRead
            obtain ⟨hour, hhour, rfl⟩ := (field_eq_some_iff (by decide)).1 hourRead
            obtain ⟨minute, hminute, rfl⟩ := (field_eq_some_iff (by decide)).1 minuteRead
            obtain ⟨second, hsecond, rfl⟩ := (field_eq_some_iff (by decide)).1 secondRead
            refine ⟨year, month, day, hour, minute, second, fractionDigits, hyear, hmonth, hday,
              hhour, hminute, hsecond, hfraction, ?_⟩
            dsimp only at h
            split at h
            · next days hdays =>
                have hcompare := of_decide_eq_true (Option.some.inj h)
                exact (namesSecond_iff (year_le hyear)).2 ⟨days, hdays, hcompare⟩
            · cases h
  · rintro ⟨hlength, hend, hdash, hdash', ht, hcolon, hcolon', year, month, day, hour, minute,
      second, fraction, hyear, hmonth, hday, hhour, hminute, hsecond, hfraction, hvalid⟩
    obtain ⟨days, hdays, hcompare⟩ := (namesSecond_iff (year_le hyear)).1 hvalid
    rw [if_neg (by simp [hend, hdash, hdash', ht, hcolon, hcolon', hlength]), hfraction,
      Option.bind_eq_bind, Option.bind_some, if_neg ((fraction_iff _).2 ⟨fraction, rfl⟩)]
    refine (read_eq_some_true_iff rfl).2 ⟨_, (field_eq_some_iff (by decide)).2 ⟨_, hyear, rfl⟩, ?_⟩
    refine (read_eq_some_true_iff rfl).2 ⟨_, (field_eq_some_iff (by decide)).2 ⟨_, hmonth, rfl⟩, ?_⟩
    refine (read_eq_some_true_iff rfl).2 ⟨_, (field_eq_some_iff (by decide)).2 ⟨_, hday, rfl⟩, ?_⟩
    refine (read_eq_some_true_iff rfl).2 ⟨_, (field_eq_some_iff (by decide)).2 ⟨_, hhour, rfl⟩, ?_⟩
    refine (read_eq_some_true_iff rfl).2
      ⟨_, (field_eq_some_iff (by decide)).2 ⟨_, hminute, rfl⟩, ?_⟩
    refine (read_eq_some_true_iff rfl).2
      ⟨_, (field_eq_some_iff (by decide)).2 ⟨_, hsecond, rfl⟩, ?_⟩
    simp only [hdays]
    exact congrArg some (decide_eq_true hcompare)

/-! ## Bytes and characters -/

theorem asBytes_eq (value : String) : asBytes value = value.toList.flatMap String.utf8EncodeChar := by
  have hbytes : value.toByteArray = (value.toList.flatMap String.utf8EncodeChar).toByteArray := by
    rw [← List.utf8Encode, String.utf8Encode_toList]
  rw [asBytes, String.toUTF8_eq_toByteArray, hbytes, List.data_toByteArray]

/-- ASCII octets are the bytes of the text that they spell. -/
theorem asBytes_ofAscii {bytes : List UInt8} (h : ∀ byte ∈ bytes, byte.toNat < 128) :
    asBytes (String.ofList (bytes.map fun byte => Char.ofNat byte.toNat)) = bytes := by
  have hencode : ∀ n < 128, String.utf8EncodeChar (Char.ofNat n) = [UInt8.ofNat n] := by decide
  rw [asBytes_eq, String.toList_ofList, List.flatMap_map]
  have hsingle : ∀ byte ∈ bytes, String.utf8EncodeChar (Char.ofNat byte.toNat) = [byte] := by
    intro byte hbyte
    rw [hencode _ (h byte hbyte), UInt8.ofNat_toNat]
  rw [List.flatMap_congr hsingle, List.flatMap_singleton']

theorem encode_digitChar (digit : Fin 10) :
    String.utf8EncodeChar (digitChar digit) = [digitByte digit] := by
  decide +revert

theorem encode_digitText (digits : List (Fin 10)) :
    (digitText digits).flatMap String.utf8EncodeChar = digits.map digitByte := by
  induction digits with
  | nil => rfl
  | cons digit digits ih =>
      rw [digitText, List.map_cons, List.flatMap_cons, encode_digitChar]
      exact congrArg _ ih

theorem encode_fractionText (digits : List (Fin 10)) :
    (fractionText digits).flatMap String.utf8EncodeChar = fractionBytes digits := by
  unfold fractionText fractionBytes
  split
  · rfl
  · rw [List.flatMap_cons, encode_digitText]
    rfl

/-- The bytes of a timestamp. -/
def timestampBytes (year month day hour minute second fraction : List (Fin 10)) : List UInt8 :=
  year.map digitByte ++ 45 :: (month.map digitByte ++ 45 :: (day.map digitByte ++ 84 ::
    (hour.map digitByte ++ 58 :: (minute.map digitByte ++ 58 :: (second.map digitByte ++
      (fractionBytes fraction ++ [90]))))))

theorem asBytes_timestampText (year month day hour minute second fraction : List (Fin 10)) :
    asBytes (String.ofList (timestampText year month day hour minute second fraction)) =
      timestampBytes year month day hour minute second fraction := by
  rw [asBytes_eq, String.toList_ofList, timestampText]
  simp only [List.flatMap_append, List.flatMap_cons, List.flatMap_nil, encode_digitText,
    encode_fractionText]
  rfl

/-- A string is determined by its bytes, so bytes of a timestamp make a timestamp. -/
theorem asBytes_eq_timestampBytes_iff {value : String}
    {year month day hour minute second fraction : List (Fin 10)} :
    asBytes value = timestampBytes year month day hour minute second fraction ↔
      value.toList = timestampText year month day hour minute second fraction := by
  rw [← asBytes_timestampText, asBytes_injective.eq_iff]
  constructor
  · rintro rfl
    rw [String.toList_ofList]
  · intro h
    rw [← h, String.ofList_toList]

/-- The last byte of a string that ends with `Z`. -/
theorem drop_last {value : String} (h : value.toList.getLast? = some 'Z') :
    (asBytes value).drop ((asBytes value).length - 1) = [90] := by
  obtain ⟨front, hfront⟩ := List.getLast?_eq_some_iff.1 h
  have hbytes : asBytes value = front.flatMap String.utf8EncodeChar ++ [90] := by
    rw [asBytes_eq, hfront, List.flatMap_append]
    rfl
  rw [hbytes, List.length_append, List.length_singleton, Nat.add_sub_cancel, List.drop_left]

/-! ## The check and the grammar -/

theorem isTimestamp_of_valid {value : String} (h : validUtcTimestamp value = some true) :
    IsTimestamp value := by
  obtain ⟨-, hend, hdash, hdash', ht, hcolon, hcolon', year, month, day, hour, minute, second,
    fraction, hyear, hmonth, hday, hhour, hminute, hsecond, hfraction, hvalid⟩ :=
    (validUtcTimestamp_iff value).1 h
  have hlength {digits : List (Fin 10)} {start stop : ℕ}
      (hpart : slice (asBytes value) start stop = some (digits.map digitByte)) :
      digits.length = stop - start := by
    have hpart := (drop_of_slice hpart).2
    rwa [List.length_map] at hpart
  refine ⟨year, month, day, hour, minute, second, fraction, hlength hyear, hlength hmonth,
    hlength hday, hlength hhour, hlength hminute, hlength hsecond, ?_, hvalid⟩
  -- every test names the front of the bytes that the tests before it have left
  rw [← asBytes_eq_timestampBytes_iff]
  calc asBytes value = year.map digitByte ++ (asBytes value).drop 4 := (drop_of_slice hyear).1
    _ = _ := by
        rw [drop_of_getElem? hdash, (drop_of_slice hmonth).1, drop_of_getElem? hdash',
          (drop_of_slice hday).1, drop_of_getElem? ht, (drop_of_slice hhour).1,
          drop_of_getElem? hcolon, (drop_of_slice hminute).1, drop_of_getElem? hcolon',
          (drop_of_slice hsecond).1, (drop_of_slice hfraction).1, drop_last hend]
        rfl

theorem valid_of_isTimestamp {value : String} (h : IsTimestamp value) :
    validUtcTimestamp value = some true := by
  obtain ⟨year, month, day, hour, minute, second, fraction, hyear, hmonth, hday, hhour, hminute,
    hsecond, htext, hvalid⟩ := h
  have hbytes := asBytes_eq_timestampBytes_iff.2 htext
  have hend : value.toList.getLast? = some 'Z' := by
    rw [htext]
    simp [timestampText, List.getLast?_append, List.getLast?_cons]
  have hlength : (asBytes value).length = 19 + (fractionBytes fraction).length + 1 := by
    rw [hbytes]
    simp only [timestampBytes, List.length_append, List.length_cons, List.length_map,
      List.length_nil]
    omega
  -- what the bytes go on with at each offset of the check
  have h0 : (asBytes value).drop 0 = year.map digitByte ++ _ := hbytes
  have h4 := drop_of_drop h0 (by rw [List.length_map, hyear])
  have h5 := @drop_of_drop _ [45] _ 4 5 h4 rfl
  have h7 := drop_of_drop h5 (by rw [List.length_map, hmonth])
  have h8 := @drop_of_drop _ [45] _ 7 8 h7 rfl
  have h10 := drop_of_drop h8 (by rw [List.length_map, hday])
  have h11 := @drop_of_drop _ [84] _ 10 11 h10 rfl
  have h13 := drop_of_drop h11 (by rw [List.length_map, hhour])
  have h14 := @drop_of_drop _ [58] _ 13 14 h13 rfl
  have h16 := drop_of_drop h14 (by rw [List.length_map, hminute])
  have h17 := @drop_of_drop _ [58] _ 16 17 h16 rfl
  have h19 := drop_of_drop h17 (by rw [List.length_map, hsecond])
  have hfield {start stop : ℕ} {digits : List (Fin 10)} {rest : List UInt8}
      (hdrop : (asBytes value).drop start = digits.map digitByte ++ rest)
      (hdigits : start + digits.length = stop) (hstop : stop ≤ 19) :
      slice (asBytes value) start stop = some (digits.map digitByte) := by
    refine slice_of_drop hdrop ?_ (by omega) (by omega)
    rw [List.length_map]
    omega
  rw [validUtcTimestamp_iff]
  refine ⟨by omega, hend, getElem?_of_drop h4, getElem?_of_drop h7, getElem?_of_drop h10,
    getElem?_of_drop h13, getElem?_of_drop h16, year, month, day, hour, minute, second, fraction,
    hfield h0 (by omega) (by decide), hfield h5 (by omega) (by decide),
    hfield h8 (by omega) (by decide), hfield h11 (by omega) (by decide),
    hfield h14 (by omega) (by decide), hfield h17 (by omega) (by decide), ?_, hvalid⟩
  exact slice_of_drop h19 (by omega) (by omega) (by omega)

/-- **The timestamp check accepts exactly the rendered calendar times, and never panics.** -/
theorem timestamp_check_exact (value : String) :
    ∃ valid, validUtcTimestamp value = some valid ∧ (valid = true ↔ IsTimestamp value) ∧
      (IsTimestamp value ↔ ∃ time : CalendarTime, value = time.render) := by
  obtain ⟨valid, hvalid⟩ := validUtcTimestamp_total value
  refine ⟨valid, hvalid, ?_, isTimestamp_iff_render value⟩
  constructor
  · rintro rfl
    exact isTimestamp_of_valid hvalid
  · intro h
    exact Option.some.inj (hvalid.symm.trans (valid_of_isTimestamp h))

end RsConsole
