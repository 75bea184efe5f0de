/-
Purpose: Well-formed UTF-8: the encodings of sequences of Unicode characters, and the
  ranges of RFC 3629 that their bytes are in.
-/
import Mathlib.Data.List.Basic

namespace Crouton.Lib.Utf8

/-- The byte string is the UTF-8 encoding of some characters.  A `Char` is a Unicode
scalar value: at most U+10FFFF and no surrogate. -/
def WellFormed (bytes : List UInt8) : Prop :=
  ∃ chars : List Char, bytes = chars.flatMap String.utf8EncodeChar

/-- `UTF8-tail`. -/
def Tail (byte : UInt8) : Prop := 0x80 ≤ byte.toNat ∧ byte.toNat < 0xC0

/-- `UTF8-char`: the rules of RFC 3629, those for characters of equal length in one. -/
inductive CharBytes : List UInt8 → Prop where
  | one {a : UInt8} (lead : a.toNat < 0x80) : CharBytes [a]
  | two {a b : UInt8} (lead : 0xC2 ≤ a.toNat ∧ a.toNat < 0xE0) (second : Tail b) : CharBytes [a, b]
  | three {a b c : UInt8} (lead : 0xE0 ≤ a.toNat ∧ a.toNat < 0xF0) (second : Tail b)
      (third : Tail c) (short : a.toNat = 0xE0 → 0xA0 ≤ b.toNat)
      (scalar : a.toNat = 0xED → b.toNat < 0xA0) : CharBytes [a, b, c]
  | four {a b c d : UInt8} (lead : 0xF0 ≤ a.toNat ∧ a.toNat < 0xF5) (second : Tail b)
      (third : Tail c) (fourth : Tail d) (short : a.toNat = 0xF0 → 0x90 ≤ b.toNat)
      (scalar : a.toNat = 0xF4 → b.toNat < 0x90) : CharBytes [a, b, c, d]

/-! ### The bytes of one character -/

/-- The encoding by the length that the value of the character asks for. -/
theorem utf8EncodeChar_cases (char : Char) :
    (char.toNat < 0x80 ∧ String.utf8EncodeChar char = [UInt8.ofNat char.toNat]) ∨
    (0x80 ≤ char.toNat ∧ char.toNat < 0x800 ∧
      String.utf8EncodeChar char =
        [UInt8.ofNat (char.toNat / 64 % 32 + 192), UInt8.ofNat (char.toNat % 64 + 128)]) ∨
    (0x800 ≤ char.toNat ∧ char.toNat < 0x10000 ∧
      String.utf8EncodeChar char =
        [UInt8.ofNat (char.toNat / 4096 % 16 + 224), UInt8.ofNat (char.toNat / 64 % 64 + 128),
          UInt8.ofNat (char.toNat % 64 + 128)]) ∨
    (0x10000 ≤ char.toNat ∧
      String.utf8EncodeChar char =
        [UInt8.ofNat (char.toNat / 262144 % 8 + 240), UInt8.ofNat (char.toNat / 4096 % 64 + 128),
          UInt8.ofNat (char.toNat / 64 % 64 + 128), UInt8.ofNat (char.toNat % 64 + 128)]) := by
  have value : char.val.toNat = char.toNat := rfl
  unfold String.utf8EncodeChar
  by_cases one : char.toNat ≤ 127
  · exact .inl ⟨by omega, if_pos one⟩
  · grind

/-- The value of a character is that of a Unicode scalar. -/
theorem char_valid (char : Char) :
    char.toNat < 0xD800 ∨ 0xDFFF < char.toNat ∧ char.toNat < 0x110000 :=
  char.valid

theorem charBytes_utf8EncodeChar (char : Char) : CharBytes (String.utf8EncodeChar char) := by
  have valid := char_valid char
  rcases utf8EncodeChar_cases char with ⟨below, same⟩ | ⟨above, below, same⟩ |
    ⟨above, below, same⟩ | ⟨above, same⟩
  · rw [same]
    refine .one ?_
    simp only [UInt8.toNat_ofNat']
    omega
  · rw [same]
    refine .two ?_ ?_
    · simp only [UInt8.toNat_ofNat']
      omega
    · simp only [Tail, UInt8.toNat_ofNat']
      omega
  · rw [same]
    refine .three ?_ ?_ ?_ ?_ ?_ <;> simp only [Tail, UInt8.toNat_ofNat'] <;> omega
  · rw [same]
    refine .four ?_ ?_ ?_ ?_ ?_ ?_ <;> simp only [Tail, UInt8.toNat_ofNat'] <;> omega

/-- The character of a scalar value. -/
theorem exists_char {value : Nat} (valid : value < 0xD800 ∨ 0xDFFF < value ∧ value < 0x110000) :
    ∃ char : Char, char.toNat = value := by
  have small : (UInt32.ofNat value).toNat = value := by
    rw [UInt32.toNat_ofNat']
    omega
  refine ⟨⟨UInt32.ofNat value, ?_⟩, small⟩
  show ((UInt32.ofNat value).toNat).isValidChar
  rw [small]
  exact valid

theorem ofNat_eq {byte : UInt8} {value : Nat} (same : value = byte.toNat) :
    UInt8.ofNat value = byte := by
  subst same
  exact UInt8.ofNat_toNat

/-- The rules describe exactly the encodings of characters. -/
theorem charBytes_iff {bytes : List UInt8} :
    CharBytes bytes ↔ ∃ char : Char, bytes = String.utf8EncodeChar char := by
  constructor
  · intro rule
    cases rule with
    | @one a =>
      obtain ⟨char, value⟩ := @exists_char a.toNat (by omega)
      refine ⟨char, ?_⟩
      rcases utf8EncodeChar_cases char with ⟨_, same⟩ | ⟨_, _, same⟩ | ⟨_, _, same⟩ | ⟨_, same⟩
      · rw [same, value, UInt8.ofNat_toNat]
      all_goals omega
    | @two a b _ second =>
      unfold Tail at second
      obtain ⟨char, value⟩ := @exists_char ((a.toNat - 192) * 64 + (b.toNat - 128)) (by omega)
      refine ⟨char, ?_⟩
      rcases utf8EncodeChar_cases char with ⟨_, same⟩ | ⟨_, _, same⟩ | ⟨_, _, same⟩ | ⟨_, same⟩
      · omega
      · rw [same, @ofNat_eq a _ (by omega), @ofNat_eq b _ (by omega)]
      all_goals omega
    | @three a b c _ second third =>
      unfold Tail at second third
      obtain ⟨char, value⟩ := @exists_char
        ((a.toNat - 224) * 4096 + (b.toNat - 128) * 64 + (c.toNat - 128)) (by omega)
      refine ⟨char, ?_⟩
      rcases utf8EncodeChar_cases char with ⟨_, same⟩ | ⟨_, _, same⟩ | ⟨_, _, same⟩ | ⟨_, same⟩
      · omega
      · omega
      · rw [same, @ofNat_eq a _ (by omega), @ofNat_eq b _ (by omega), @ofNat_eq c _ (by omega)]
      · omega
    | @four a b c d _ second third fourth =>
      unfold Tail at second third fourth
      obtain ⟨char, value⟩ := @exists_char
        ((a.toNat - 240) * 262144 + (b.toNat - 128) * 4096 + (c.toNat - 128) * 64 +
          (d.toNat - 128)) (by omega)
      refine ⟨char, ?_⟩
      rcases utf8EncodeChar_cases char with ⟨_, same⟩ | ⟨_, _, same⟩ | ⟨_, _, same⟩ | ⟨_, same⟩
      · omega
      · omega
      · omega
      · rw [same, @ofNat_eq a _ (by omega), @ofNat_eq b _ (by omega),
          @ofNat_eq c _ (by omega), @ofNat_eq d _ (by omega)]
  · grind [charBytes_utf8EncodeChar]

/-- The first byte of a character tells where it ends. -/
theorem CharBytes.prefix_free {first second others more : List UInt8} (one : CharBytes first)
    (another : CharBytes second) (same : first ++ others = second ++ more) : others = more := by
  cases one <;> cases another <;>
    simp at same <;> grind

/-! ### Byte strings -/

theorem wellFormed_nil : WellFormed [] := ⟨[], rfl⟩

/-- A byte string behind a character is well-formed exactly if the rest is. -/
theorem wellFormed_append {bytes rest : List UInt8} (char : CharBytes bytes) :
    WellFormed (bytes ++ rest) ↔ WellFormed rest := by
  constructor
  · rintro ⟨chars, same⟩
    cases chars with
    | nil =>
      obtain ⟨rfl, _⟩ := List.append_eq_nil_iff.mp same
      cases char
    | cons first chars => exact ⟨chars, char.prefix_free (charBytes_utf8EncodeChar first) same⟩
  · rintro ⟨chars, rfl⟩
    obtain ⟨first, rfl⟩ := charBytes_iff.mp char
    exact ⟨first :: chars, rfl⟩

/-- A well-formed byte string begins with a character. -/
theorem wellFormed_split {bytes : List UInt8} (wellFormed : WellFormed bytes)
    (nonempty : bytes ≠ []) : ∃ char rest, CharBytes char ∧ bytes = char ++ rest := by
  obtain ⟨chars, rfl⟩ := wellFormed
  cases chars with
  | nil => exact absurd rfl nonempty
  | cons first chars => exact ⟨_, _, charBytes_utf8EncodeChar first, rfl⟩

end Crouton.Lib.Utf8
