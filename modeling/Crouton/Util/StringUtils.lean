/-
Purpose: The ASCII functions of `support/StringUtils.hh` and the C string search that they
  use.
-/
import Mathlib.Data.List.TakeWhile
import Crouton.Util.Bytes

namespace Crouton

/-! ### ASCII -/

def toLower (c : UInt8) : UInt8 := if 65 ≤ c ∧ c ≤ 90 then c + 32 else c

def toUpper (c : UInt8) : UInt8 := if 97 ≤ c ∧ c ≤ 122 then c - 32 else c

def isAlphanumeric (c : UInt8) : Bool :=
  (48 ≤ c && c ≤ 57) || (65 ≤ c && c ≤ 90) || (97 ≤ c && c ≤ 122)

def isHexDigit (c : UInt8) : Bool := (48 ≤ c && c ≤ 57) || (65 ≤ c && c ≤ 70) || (97 ≤ c && c ≤ 102)

/-- `hexDigitToInt`, with a signed `char`. -/
def hexDigitToInt (c : UInt8) : Int :=
  if c.toInt8.toInt < 65 then c.toInt8.toInt - 48
  else if c.toInt8.toInt < 97 then c.toInt8.toInt - 65 + 10
  else c.toInt8.toInt - 97 + 10

/-- `asHexDigit` of a number below 16. -/
def asHexDigit (n : Nat) : UInt8 :=
  if n < 10 then 48 + UInt8.ofNat n else 65 + UInt8.ofNat (n - 10)

def equalIgnoringCase (a b : Bytes) : Bool := a.map toLower == b.map toLower

@[simp] theorem toLower_toLower (c : UInt8) : toLower (toLower c) = toLower c := by
  grind [toLower]

@[simp] theorem toLower_toUpper (c : UInt8) : toLower (toUpper c) = toLower c := by
  grind [toLower, toUpper]

@[simp] theorem toUpper_toLower (c : UInt8) : toUpper (toLower c) = toUpper c := by
  grind [toLower, toUpper]

/-! ### C strings -/

/-- What a `const char*` to these bytes is read as: they end before the first NUL. -/
def cString (str : Bytes) : Bytes := str.takeWhile (· ≠ 0)

/-- Whether `strchr` finds the character: the NUL at the end of the string is searched
too. -/
def strchr (str : Bytes) (c : UInt8) : Bool := (cString str ++ [0]).contains c

/-- `isURLSafe`: a letter, a digit or one of `-_.~`. -/
def isURLSafe (c : UInt8) : Bool := isAlphanumeric c || strchr [45, 95, 46, 126] c

theorem cString_eq_self {str : Bytes} (free : 0 ∉ str) : cString str = str := by
  refine List.takeWhile_eq_self_iff.mpr fun c member => ?_
  simp only [decide_not, Bool.not_eq_true', decide_eq_false_iff_not]
  rintro rfl
  exact free member

theorem strchr_iff {str : Bytes} {c : UInt8} : strchr str c = true ↔ c ∈ cString str ∨ c = 0 := by
  rw [strchr, List.contains_iff_mem, List.mem_append, List.mem_singleton]

end Crouton
