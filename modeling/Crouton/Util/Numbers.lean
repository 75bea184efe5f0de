/-
Purpose: Numbers as the C library writes and reads them.
-/
import Crouton.Lib.Search
import Crouton.Util.StringUtils

namespace Crouton

/-- The decimal digits of a number, as `snprintf` writes them. -/
def decimal (n : Nat) : Bytes := (Nat.toDigits 10 n).map fun digit => UInt8.ofNat digit.toNat

def isSpace (byte : UInt8) : Bool := byte = 32 || (9 ≤ byte && byte ≤ 13)

def isDigit (byte : UInt8) : Bool := 48 ≤ byte && byte ≤ 57

def ofDigits (digits : Bytes) : Nat :=
  digits.foldl (fun number digit => 10 * number + (digit.toNat - 48)) 0

/-- A value that does not fit into a 64-bit `long` becomes the nearest one. -/
def clampLong (value : Int) : Int := max (-2 ^ 63) (min value (2 ^ 63 - 1))

/-- Whether there is a minus sign, and what follows the sign. -/
def splitSign : Bytes → Bool × Bytes
  | 45 :: rest => (true, rest)
  | 43 :: rest => (false, rest)
  | number => (false, number)

/-- `strtol(str, &end, 10)`: the result, and the string from `end` on. -/
def strtol (str : Bytes) : Int × Bytes :=
  let (negative, number) := splitSign (str.dropWhile isSpace)
  let digits := number.takeWhile isDigit
  if digits = [] then (0, str)
  else
    let value : Int := ofDigits digits
    (clampLong (if negative then -value else value), number.dropWhile isDigit)

/-! ### Reading what was written -/

variable {byte : UInt8}

/-- The bytes of a decimal number are digits. -/
theorem isDigit_of_mem_decimal {n : Nat} (member : byte ∈ decimal n) : isDigit byte = true := by
  obtain ⟨digit, inDigits, rfl⟩ := List.mem_map.mp member
  have digits := Nat.isDigit_of_mem_toDigits (by decide) (by decide) inDigits
  simp only [Char.isDigit, Bool.and_eq_true, decide_eq_true_eq] at digits
  obtain ⟨low, high⟩ := digits
  have lower : 48 ≤ digit.toNat := low
  have upper : digit.toNat ≤ 57 := high
  simp only [isDigit, Bool.and_eq_true, decide_eq_true_eq, UInt8.le_iff_toNat_le,
    UInt8.toNat_ofNat', UInt8.toNat_ofNat]
  omega

theorem decimal_ne_nil (n : Nat) : decimal n ≠ [] := by
  intro empty
  have none := List.map_eq_nil_iff.mp empty
  have some_digit := Nat.length_toDigits_pos (b := 10) (n := n)
  rw [none] at some_digit
  exact absurd some_digit (by decide)

/-- Reading the digits back. -/
theorem ofDigits_decimal (n : Nat) : ofDigits (decimal n) = n := by
  have reads : ∀ (digits : List Char) (start : Nat), (∀ digit ∈ digits, digit.toNat < 256) →
      (digits.map fun digit => UInt8.ofNat digit.toNat).foldl
          (fun number digit => 10 * number + (digit.toNat - 48)) start =
        Nat.ofDigitChars 10 digits start := by
    intro digits
    induction digits with
    | nil =>
      intro start _
      rfl
    | cons digit digits ih =>
      intro start small
      have fits : (UInt8.ofNat digit.toNat).toNat = digit.toNat := by
        rw [UInt8.toNat_ofNat', Nat.mod_eq_of_lt (small digit List.mem_cons_self)]
      rw [List.map_cons, List.foldl_cons, fits]
      exact ih _ fun other member => small other (List.mem_cons_of_mem _ member)
  have small : ∀ digit ∈ Nat.toDigits 10 n, digit.toNat < 256 := by
    intro digit member
    have digits := Nat.isDigit_of_mem_toDigits (by decide) (by decide) member
    simp only [Char.isDigit, Bool.and_eq_true, decide_eq_true_eq] at digits
    have upper : digit.toNat ≤ 57 := digits.2
    omega
  calc ofDigits (decimal n) = Nat.ofDigitChars 10 (Nat.toDigits 10 n) 0 := reads _ 0 small
    _ = n := Nat.ofDigitChars_toDigits (by decide) (by decide)

/-- A digit is neither white space nor a sign. -/
theorem isDigit_plain (digit : isDigit byte = true) :
    isSpace byte = false ∧ byte ≠ 45 ∧ byte ≠ 43 := by
  simp only [isDigit, isSpace, Bool.and_eq_true, decide_eq_true_eq, Bool.or_eq_false_iff,
    Bool.and_eq_false_iff, decide_eq_false_iff_not] at *
  grind

theorem splitSign_plain (notMinus : byte ≠ 45) (notPlus : byte ≠ 43) (rest : Bytes) :
    splitSign (byte :: rest) = (false, byte :: rest) := by
  unfold splitSign
  split
  · grind
  · grind
  · rfl

/-- `strtol` of a decimal number, with or without a minus sign, reads up to the next byte that
is no digit. -/
theorem strtol_decimal (n : Nat) {rest : Bytes}
    (stops : ∀ byte ∈ rest.head?, isDigit byte = false) :
    strtol (decimal n ++ rest) = (clampLong n, rest) ∧
    strtol (45 :: (decimal n ++ rest)) = (clampLong (-n), rest) := by
  have all : ∀ byte ∈ decimal n, isDigit byte = true :=
    fun byte member => isDigit_of_mem_decimal member
  have taken := Lib.takeWhile_append_stop all stops
  have dropped := Lib.dropWhile_append_stop all stops
  have nonempty := decimal_ne_nil n
  have number := ofDigits_decimal n
  have unsigned : splitSign ((decimal n ++ rest).dropWhile isSpace) = (false, decimal n ++ rest) :=
    by
    cases text : decimal n with
    | nil => exact absurd text nonempty
    | cons digit digits =>
      obtain ⟨notSpace, notMinus, notPlus⟩ := isDigit_plain (all digit (text ▸ List.mem_cons_self))
      rw [List.cons_append, List.dropWhile_cons, notSpace]
      exact splitSign_plain notMinus notPlus _
  have signed : splitSign ((45 :: (decimal n ++ rest)).dropWhile isSpace) =
      (true, decimal n ++ rest) := rfl
  constructor
  · rw [strtol, unsigned]
    simp only [taken, dropped, nonempty, number, if_false, Bool.false_eq_true]
  · simp [strtol, signed, taken, dropped, nonempty, number]

/-- The same at the end of the text. -/
theorem strtol_decimal_end (n : Nat) :
    strtol (decimal n) = (clampLong n, []) ∧ strtol (45 :: decimal n) = (clampLong (-n), []) := by
  have stops : ∀ byte ∈ ([] : Bytes).head?, isDigit byte = false := nofun
  have read := strtol_decimal n stops
  rwa [List.append_nil] at read

end Crouton
