/-
Purpose: The payload of Close messages: `isValidUtf8`, `parseClosePayload` and
  `formatClosePayload` of `WebSocketProtocol.hh`, and the constructor, `closeCode` and
  `closeMessage` of `Message`.
-/
import Crouton.Lib.Chunks
import Crouton.Lib.Utf8
import Crouton.WebSocket.Protocol

namespace Crouton.WebSocket
open Lib

open Lib.Utf8

/-! ### The validator -/

/-- `s[i]`. -/
def byteAt (s : Bytes) (i : Nat) : Except Error UInt8 :=
  match s[i]? with
  | some byte => .ok byte
  | none => .error (.undefinedBehavior "s[i]")

/-- The loop of `isValidUtf8`: `s` is what is left up to `e`.  The inner loop, over bytes
without the high bit, goes on with it as the outer one does. -/
def isValidUtf8Loop : (rounds : Nat) → (s : Bytes) → Except Error Bool
  | 0, _ => .error .unfinished
  | rounds + 1, s =>
    if s = [] then .ok true
    else do
      let s0 ← byteAt s 0
      if s0 &&& 0x80 = 0 then isValidUtf8Loop rounds (s.drop 1)
      else if s0 &&& 0x60 = 0x40 then
        if s.length ≤ 1 then .ok false
        else do
          let s1 ← byteAt s 1
          if s1 &&& 0xc0 ≠ 0x80 ∨ s0 &&& 0xfe = 0xc0 then .ok false
          else isValidUtf8Loop rounds (s.drop 2)
      else if s0 &&& 0xf0 = 0xe0 then
        if s.length ≤ 2 then .ok false
        else do
          let s1 ← byteAt s 1
          let s2 ← byteAt s 2
          if s1 &&& 0xc0 ≠ 0x80 ∨ s2 &&& 0xc0 ≠ 0x80 ∨ (s0 = 0xe0 ∧ s1 &&& 0xe0 = 0x80) ∨
              (s0 = 0xed ∧ s1 &&& 0xe0 = 0xa0) then .ok false
          else isValidUtf8Loop rounds (s.drop 3)
      else if s0 &&& 0xf8 = 0xf0 then
        if s.length ≤ 3 then .ok false
        else do
          let s1 ← byteAt s 1
          let s2 ← byteAt s 2
          let s3 ← byteAt s 3
          if s1 &&& 0xc0 ≠ 0x80 ∨ s2 &&& 0xc0 ≠ 0x80 ∨ s3 &&& 0xc0 ≠ 0x80 ∨
              (s0 = 0xf0 ∧ s1 &&& 0xf0 = 0x80) ∨ (s0 = 0xf4 ∧ s1 > 0x8f) ∨ s0 > 0xf4 then
            .ok false
          else isValidUtf8Loop rounds (s.drop 4)
      else .ok false

def isValidUtf8 (s : Bytes) : Except Error Bool := isValidUtf8Loop (s.length + 1) s

/-! ### The masks as ranges -/

section

/-- A mask of the bits from `low` up to `high` clears the others. -/
theorem and_mask (n high low : Nat) (lower : low ≤ high) :
    n &&& (2 ^ high - 2 ^ low) = n % 2 ^ high / 2 ^ low * 2 ^ low := by
  have mask : 2 ^ high - 2 ^ low = (2 ^ (high - low) - 1) * 2 ^ low := by
    rw [Nat.sub_mul, ← Nat.pow_add, Nat.sub_add_cancel lower, Nat.one_mul]
  apply Nat.eq_of_testBit_eq
  intro bit
  rw [mask, Nat.testBit_and, Nat.testBit_mul_two_pow, Nat.testBit_mul_two_pow,
    Nat.testBit_two_pow_sub_one, Nat.testBit_div_two_pow, Nat.testBit_mod_two_pow]
  by_cases inside : low ≤ bit
  · grind
  · simp [inside]

variable (byte : UInt8)
include byte

/-- What is left of a byte under a mask is a value when the byte is in the range of those
whose masked bits are the value's. -/
theorem and_mask_eq (high low value : Nat) (proper : high ≤ 8 ∧ low ≤ high ∧ value < 256)
    {range : Prop} (masked : byte.toNat < 256 →
      (byte.toNat % 2 ^ high / 2 ^ low * 2 ^ low = value ↔ range)) :
    byte &&& UInt8.ofNat (2 ^ high - 2 ^ low) = UInt8.ofNat value ↔ range := by
  obtain ⟨fits, lower, small⟩ := proper
  have byteMask : 2 ^ high - 2 ^ low < 256 := by
    have := Nat.pow_le_pow_right (by decide : 0 < 2) fits
    have := Nat.two_pow_pos low
    omega
  rw [← UInt8.toNat_inj, UInt8.toNat_and, UInt8.toNat_ofNat_of_lt' byteMask,
    UInt8.toNat_ofNat_of_lt' small, and_mask _ _ _ lower]
  exact masked byte.toNat_lt

theorem and_80_eq : byte &&& 0x80 = 0 ↔ byte.toNat < 0x80 :=
  and_mask_eq byte 8 7 0 (by decide) (by omega)

theorem and_60_eq (high : ¬ byte.toNat < 0x80) :
    byte &&& 0x60 = 0x40 ↔ 0xc0 ≤ byte.toNat ∧ byte.toNat < 0xe0 :=
  and_mask_eq byte 7 5 0x40 (by decide) (by omega)

theorem and_f0_eq_e0 : byte &&& 0xf0 = 0xe0 ↔ 0xe0 ≤ byte.toNat ∧ byte.toNat < 0xf0 :=
  and_mask_eq byte 8 4 0xe0 (by decide) (by omega)

theorem and_f8_eq : byte &&& 0xf8 = 0xf0 ↔ 0xf0 ≤ byte.toNat ∧ byte.toNat < 0xf8 :=
  and_mask_eq byte 8 3 0xf0 (by decide) (by omega)

theorem and_c0_eq : byte &&& 0xc0 = 0x80 ↔ Tail byte :=
  and_mask_eq byte 8 6 0x80 (by decide) (by unfold Tail; omega)

theorem and_fe_eq : byte &&& 0xfe = 0xc0 ↔ 0xc0 ≤ byte.toNat ∧ byte.toNat < 0xc2 :=
  and_mask_eq byte 8 1 0xc0 (by decide) (by omega)

theorem and_e0_eq_80 : byte &&& 0xe0 = 0x80 ↔ 0x80 ≤ byte.toNat ∧ byte.toNat < 0xa0 :=
  and_mask_eq byte 8 5 0x80 (by decide) (by omega)

theorem and_e0_eq_a0 : byte &&& 0xe0 = 0xa0 ↔ 0xa0 ≤ byte.toNat ∧ byte.toNat < 0xc0 :=
  and_mask_eq byte 8 5 0xa0 (by decide) (by omega)

theorem and_f0_eq_80 : byte &&& 0xf0 = 0x80 ↔ 0x80 ≤ byte.toNat ∧ byte.toNat < 0x90 :=
  and_mask_eq byte 8 4 0x80 (by decide) (by omega)

end

/-! ### The rounds of the loop -/

/-- The string begins with the encoding of a character. -/
def Begins (s rest : Bytes) : Prop := ∃ char, CharBytes char ∧ s = char ++ rest

/-- A round of the loop takes a character off the string, or there is none and it
returns false. -/
def Decides (rounds : Nat) (s : Bytes) : Prop :=
  (∃ rest, Begins s rest ∧ isValidUtf8Loop (rounds + 1) s = isValidUtf8Loop rounds rest) ∨
    ((∀ rest, ¬ Begins s rest) ∧ isValidUtf8Loop (rounds + 1) s = .ok false)

section

variable (rounds : Nat) {a : UInt8} (s : Bytes)

theorem decides_ascii (one : a.toNat < 0x80) : Decides rounds (a :: s) := by
  refine .inl ⟨s, ⟨[a], .one one, rfl⟩, ?_⟩
  rw [isValidUtf8Loop]
  simp only [reduceCtorEq, if_false, byteAt, List.getElem?_cons_zero, ok_bind,
    (and_80_eq a).mpr one, if_true, List.drop_succ_cons, List.drop_zero]

theorem decides_two (two : 0xc0 ≤ a.toNat ∧ a.toNat < 0xe0) : Decides rounds (a :: s) := by
  have large : ¬ a.toNat < 0x80 := by omega
  unfold Decides
  rw [isValidUtf8Loop]
  simp only [reduceCtorEq, if_false, byteAt, List.getElem?_cons_zero, ok_bind]
  rw [if_neg (mt (and_80_eq a).mp large), if_pos ((and_60_eq a large).mpr two)]
  match s with
  | [] =>
    refine .inr ⟨?_, rfl⟩
    rintro rest ⟨char, rule, same⟩
    cases rule <;> grind
  | b :: s =>
    by_cases refused : b &&& 0xc0 ≠ 0x80 ∨ a &&& 0xfe = 0xc0
    · refine .inr ⟨?_, if_pos refused⟩
      simp only [ne_eq, and_c0_eq, and_fe_eq] at refused
      rintro rest ⟨char, rule, same⟩
      cases rule <;> grind
    · refine .inl ⟨s, ⟨[a, b], ?_, rfl⟩, if_neg refused⟩
      simp only [ne_eq, and_c0_eq, and_fe_eq, not_or, not_not] at refused
      exact .two (by omega) refused.1

theorem decides_three (three : 0xe0 ≤ a.toNat ∧ a.toNat < 0xf0) : Decides rounds (a :: s) := by
  have large : ¬ a.toNat < 0x80 := by omega
  unfold Decides
  rw [isValidUtf8Loop]
  simp only [reduceCtorEq, if_false, byteAt, List.getElem?_cons_zero, ok_bind]
  rw [if_neg (mt (and_80_eq a).mp large), if_neg (mt (and_60_eq a large).mp (by omega)),
    if_pos ((and_f0_eq_e0 a).mpr three)]
  match s with
  | [] | [_] =>
    refine .inr ⟨?_, rfl⟩
    rintro rest ⟨char, rule, same⟩
    cases rule <;> grind
  | b :: c :: s =>
    by_cases refused : b &&& 0xc0 ≠ 0x80 ∨ c &&& 0xc0 ≠ 0x80 ∨
        (a = 0xe0 ∧ b &&& 0xe0 = 0x80) ∨ (a = 0xed ∧ b &&& 0xe0 = 0xa0)
    · refine .inr ⟨?_, if_pos refused⟩
      simp only [ne_eq, and_c0_eq, and_e0_eq_80, and_e0_eq_a0] at refused
      simp only [← UInt8.toNat_inj, UInt8.reduceToNat] at refused
      rintro rest ⟨char, rule, same⟩
      cases rule <;> grind
    · refine .inl ⟨s, ⟨[a, b, c], ?_, rfl⟩, if_neg refused⟩
      simp only [ne_eq, and_c0_eq, and_e0_eq_80, and_e0_eq_a0, not_or, not_not, not_and] at refused
      obtain ⟨second, third, short, scalar⟩ := refused
      unfold Tail at second
      refine .three three second third (fun value => ?_) (fun value => ?_)
      · have := short (UInt8.toNat_inj.mp value)
        omega
      · have := scalar (UInt8.toNat_inj.mp value)
        omega

theorem decides_four (four : 0xf0 ≤ a.toNat ∧ a.toNat < 0xf8) : Decides rounds (a :: s) := by
  have large : ¬ a.toNat < 0x80 := by omega
  unfold Decides
  rw [isValidUtf8Loop]
  simp only [reduceCtorEq, if_false, byteAt, List.getElem?_cons_zero, ok_bind]
  rw [if_neg (mt (and_80_eq a).mp large), if_neg (mt (and_60_eq a large).mp (by omega)),
    if_neg (mt (and_f0_eq_e0 a).mp (by omega)), if_pos ((and_f8_eq a).mpr four)]
  match s with
  | [] | [_] | [_, _] =>
    refine .inr ⟨?_, rfl⟩
    rintro rest ⟨char, rule, same⟩
    cases rule <;> grind
  | b :: c :: d :: s =>
    by_cases refused : b &&& 0xc0 ≠ 0x80 ∨ c &&& 0xc0 ≠ 0x80 ∨ d &&& 0xc0 ≠ 0x80 ∨
        (a = 0xf0 ∧ b &&& 0xf0 = 0x80) ∨ (a = 0xf4 ∧ b > 0x8f) ∨ a > 0xf4
    · refine .inr ⟨?_, if_pos refused⟩
      simp only [ne_eq, and_c0_eq, and_f0_eq_80, gt_iff_lt, UInt8.lt_iff_toNat_lt] at refused
      simp only [← UInt8.toNat_inj, UInt8.reduceToNat] at refused
      rintro rest ⟨char, rule, same⟩
      cases rule <;> grind
    · refine .inl ⟨s, ⟨[a, b, c, d], ?_, rfl⟩, if_neg refused⟩
      simp only [ne_eq, and_c0_eq, and_f0_eq_80, gt_iff_lt, UInt8.lt_iff_toNat_lt, not_or,
        not_not, not_and] at refused
      obtain ⟨second, third, fourth, short, scalar, lead⟩ := refused
      have last : (0xf4 : UInt8).toNat = 0xf4 := rfl
      have limit : (0x8f : UInt8).toNat = 0x8f := rfl
      unfold Tail at second
      refine .four (by omega) second third fourth (fun value => ?_) (fun value => ?_)
      · have := short (UInt8.toNat_inj.mp value)
        omega
      · have := scalar (UInt8.toNat_inj.mp value)
        omega

theorem decides_other (none : ¬ a.toNat < 0x80 ∧ (a.toNat < 0xc0 ∨ 0xf8 ≤ a.toNat)) :
    Decides rounds (a :: s) := by
  unfold Decides
  rw [isValidUtf8Loop]
  simp only [reduceCtorEq, if_false, byteAt, List.getElem?_cons_zero, ok_bind]
  rw [if_neg (mt (and_80_eq a).mp none.1), if_neg (mt (and_60_eq a none.1).mp (by omega)),
    if_neg (mt (and_f0_eq_e0 a).mp (by omega)), if_neg (mt (and_f8_eq a).mp (by omega))]
  refine .inr ⟨?_, rfl⟩
  rintro rest ⟨char, rule, same⟩
  cases rule <;> grind

theorem decides {s : Bytes} (nonempty : s ≠ []) : Decides rounds s := by
  match s with
  | a :: s =>
    by_cases one : a.toNat < 0x80
    · exact decides_ascii rounds s one
    · by_cases two : 0xc0 ≤ a.toNat ∧ a.toNat < 0xe0
      · exact decides_two rounds s two
      · by_cases three : 0xe0 ≤ a.toNat ∧ a.toNat < 0xf0
        · exact decides_three rounds s three
        · by_cases four : 0xf0 ≤ a.toNat ∧ a.toNat < 0xf8
          · exact decides_four rounds s four
          · exact decides_other rounds s ⟨one, by omega⟩

end

/-! ### What the validator accepts -/

theorem isValidUtf8Loop_iff {rounds : Nat} {s : Bytes} (enough : s.length < rounds) :
    ∃ valid, isValidUtf8Loop rounds s = .ok valid ∧ (valid = true ↔ WellFormed s) := by
  induction rounds generalizing s with
  | zero => omega
  | succ rounds ih =>
    by_cases empty : s = []
    · subst empty
      exact ⟨true, rfl, iff_of_true rfl wellFormed_nil⟩
    · rcases decides rounds empty with ⟨rest, ⟨char, rule, rfl⟩, same⟩ | ⟨none, same⟩
      · have shorter : rest.length < rounds := by
          cases rule <;> simp only [List.length_append, List.length_cons] at enough <;> omega
        rw [same, wellFormed_append rule]
        exact ih shorter
      · refine ⟨false, same, iff_of_false Bool.false_ne_true fun wellFormed => ?_⟩
        obtain ⟨char, rest, rule, split⟩ := wellFormed_split wellFormed empty
        exact none rest ⟨char, rule, split⟩

/-- The validator reads only the string and accepts exactly well-formed UTF-8. -/
theorem isValidUtf8_iff (s : Bytes) :
    ∃ valid, isValidUtf8 s = .ok valid ∧ (valid = true ↔ WellFormed s) :=
  isValidUtf8Loop_iff (Nat.lt_succ_self _)

/-! ### Close messages -/

/-- `CloseFrame`; the empty one has no code and no message. -/
structure CloseFrame where
  code : Nat := 0
  message : Bytes := []
deriving Repr, DecidableEq

/-- The codes that `parseClosePayload` refuses. -/
def refusesCode (code : Nat) : Bool :=
  code < 1000 || code > 4999 || (code > 1011 && code < 4000) || (code ≥ 1004 && code ≤ 1006)

def parseClosePayload (src : Bytes) : Except Error CloseFrame :=
  if src.length ≥ 2 then
    let cf : CloseFrame := { code := ofNetwork (src.take 2), message := src.drop 2 }
    if refusesCode cf.code then .ok {}
    else do
      if ← isValidUtf8 cf.message then .ok cf
      else .ok {}
  else .ok {}

/-- `formatClosePayload`: the payload as it is written to the start of `dst`, and its
length. -/
def formatClosePayload (dst : Bytes) (code : UInt16) (message : Bytes) :
    Except Error (Bytes × Nat) :=
  if code ≠ 0 then do
    let dst ← overwrite dst (toNetwork 2 code.toNat ++ message)
    .ok (dst, message.length + 2)
  else .ok (dst, 0)

/-- The constructor of a Close message.  The `CloseCode` is converted to `uint16_t`. -/
def Message.close (code : Int) (message : Bytes) : Except Error Message := do
  let data := List.replicate (message.length + 2) 0
  let (data, size) ← formatClosePayload data (UInt16.ofNat (code % 2 ^ 16).toNat) message
  if size ≤ data.length then .ok { type := .close, payload := resize data size }
  else .error (.preconditionFailed "sz <= size()")

def noCode : Nat := 1005

def Message.closeCode (msg : Message) : Except Error Nat :=
  if msg.type ≠ .close then .error (.crouton .invalidArgument "Not a CLOSE message")
  else do
    let payload ← parseClosePayload msg.payload
    .ok (if payload.code ≠ 0 then payload.code else noCode)

def Message.closeMessage (msg : Message) : Except Error Bytes :=
  if msg.type ≠ .close then .error (.crouton .invalidArgument "Not a CLOSE message")
  else do
    let payload ← parseClosePayload msg.payload
    .ok payload.message

/-! ### Close messages are read as they were made -/

/-- The codes that a Close message is meant to carry. -/
def CarriedCode (code : Nat) : Prop :=
  (1000 ≤ code ∧ code ≤ 1003) ∨ (1007 ≤ code ∧ code ≤ 1011) ∨ (4000 ≤ code ∧ code ≤ 4999)

theorem refusesCode_iff (code : Nat) : refusesCode code = false ↔ CarriedCode code := by
  simp only [refusesCode, CarriedCode, Bool.or_eq_false_iff, Bool.and_eq_false_iff,
    decide_eq_false_iff_not]
  omega

/-- The payload of a message that was made with a code. -/
theorem close_payload {code : UInt16} (nonzero : code ≠ 0) (message : Bytes) :
    Message.close code.toNat message =
      .ok { type := .close, payload := toNetwork 2 code.toNat ++ message } := by
  have converted : UInt16.ofNat ((code.toNat : Int) % 2 ^ 16).toNat = code := by
    have bound := code.toNat_lt
    have same : ((code.toNat : Int) % 2 ^ 16).toNat = code.toNat := by omega
    rw [same, UInt16.ofNat_toNat]
  obtain ⟨data, written⟩ : ∃ data, overwrite (List.replicate (message.length + 2) 0)
      (toNetwork 2 code.toNat ++ message) = .ok data := by
    refine ⟨_, if_pos ?_⟩
    simp only [List.length_append, length_toNetwork, List.length_replicate]
    omega
  have cut : resize data (message.length + 2) = toNetwork 2 code.toNat ++ message := by
    exact resize_overwrite written
  have room : message.length + 2 ≤ data.length := by
    unfold overwrite at written
    split at written
    · cases written
      simp only [List.length_append, length_toNetwork]
      omega
    · cases written
  unfold Message.close formatClosePayload
  simp only [converted, nonzero, ne_eq, not_false_eq_true, if_true, written, ok_bind, room, cut]

theorem parseClosePayload_append (code : UInt16) (message : Bytes) :
    parseClosePayload (toNetwork 2 code.toNat ++ message) =
      if refusesCode code.toNat then .ok {}
      else isValidUtf8 message >>= fun valid =>
        if valid then .ok { code := code.toNat, message := message } else .ok {} := by
  have bytes := length_toNetwork 2 code.toNat
  have front : (toNetwork 2 code.toNat ++ message).take 2 = toNetwork 2 code.toNat :=
    List.take_left' bytes
  have back : (toNetwork 2 code.toNat ++ message).drop 2 = message := List.drop_left' bytes
  have number : ofNetwork (toNetwork 2 code.toNat) = code.toNat := ofNetwork_toNetwork code.toNat_lt
  unfold parseClosePayload
  rw [if_pos (by simp [bytes])]
  simp only [front, back, number]

end Crouton.WebSocket
