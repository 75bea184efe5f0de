/-
Purpose: The masking of WebSocket payloads in `WebSocketProtocol.hh`: the loops of
  the sender and of the receiver, and that all of them combine a payload with the
  same repeated mask.
-/
import Crouton.Util.Bytes

namespace Crouton.WebSocket

/-- `mask[4]`. -/
structure Mask where
  byte0 : UInt8
  byte1 : UInt8
  byte2 : UInt8
  byte3 : UInt8
deriving Repr, DecidableEq, Inhabited

namespace Mask

/-- The mask as it lies in memory. -/
def bytes (mask : Mask) : Bytes := [mask.byte0, mask.byte1, mask.byte2, mask.byte3]

/-- `mask[i % 4]`. -/
def get (mask : Mask) (i : Nat) : UInt8 :=
  match i % 4 with
  | 0 => mask.byte0
  | 1 => mask.byte1
  | 2 => mask.byte2
  | _ => mask.byte3

/-- `mask[i % 4] = byte`. -/
def set (mask : Mask) (i : Nat) (byte : UInt8) : Mask :=
  match i % 4 with
  | 0 => { mask with byte0 := byte }
  | 1 => { mask with byte1 := byte }
  | 2 => { mask with byte2 := byte }
  | _ => { mask with byte3 := byte }

/-- The four bytes that are copied out of a frame's header. -/
def ofBytes : Bytes → Mask
  | [a, b, c, d] => ⟨a, b, c, d⟩
  | _ => default

/-! ### What masking is -/

/-- The mask as the next byte of the payload sees it. -/
def next (mask : Mask) : Mask := ⟨mask.byte1, mask.byte2, mask.byte3, mask.byte0⟩

/-- The mask after `n` bytes of the payload. -/
def rotate (mask : Mask) : Nat → Mask
  | 0 => mask
  | n + 1 => mask.next.rotate n

/-- Every byte of the payload is combined with the next byte of the mask, which
starts over after four bytes. -/
def apply (mask : Mask) : Bytes → Bytes
  | [] => []
  | byte :: payload => (byte ^^^ mask.byte0) :: mask.next.apply payload

variable (mask : Mask)
include mask

@[simp] theorem ofBytes_bytes : ofBytes mask.bytes = mask := rfl

@[simp] theorem length_bytes : mask.bytes.length = 4 := rfl

@[simp] theorem rotate_zero : mask.rotate 0 = mask := rfl

theorem rotate_succ (n : Nat) : mask.rotate (n + 1) = mask.next.rotate n := rfl

@[simp] theorem rotate_rotate (m n : Nat) : (mask.rotate m).rotate n = mask.rotate (m + n) := by
  induction m generalizing mask with
  | zero => rw [rotate_zero, Nat.zero_add]
  | succ m ih => rw [rotate_succ, ih, Nat.succ_add, rotate_succ]

theorem next_rotate (n : Nat) : (mask.rotate n).next = mask.rotate (n + 1) :=
  mask.rotate_rotate n 1

theorem rotate_four : mask.rotate 4 = mask := rfl

/-- Four steps lead back to the start. -/
theorem rotate_mod (n : Nat) : mask.rotate (n % 4) = mask.rotate n := by
  have multiple (k : Nat) : mask.rotate (4 * k) = mask := by
    induction k with
    | zero => rfl
    | succ k ih => rw [Nat.mul_succ, ← rotate_rotate, ih, rotate_four]
  calc mask.rotate (n % 4) = (mask.rotate (4 * (n / 4))).rotate (n % 4) := by rw [multiple]
    _ = mask.rotate n := by rw [rotate_rotate, Nat.div_add_mod]

@[simp] theorem length_apply (payload : Bytes) : (mask.apply payload).length = payload.length := by
  induction payload generalizing mask with
  | nil => rfl
  | cons byte payload ih => simp [apply, ih]

theorem apply_append (first second : Bytes) :
    mask.apply (first ++ second) = mask.apply first ++ (mask.rotate first.length).apply second := by
  induction first generalizing mask with
  | nil => rfl
  | cons byte first ih => simp only [List.cons_append, apply, ih, List.length_cons, rotate_succ]

/-- Masking twice gives the payload back. -/
@[simp] theorem apply_apply (payload : Bytes) : mask.apply (mask.apply payload) = payload := by
  induction payload generalizing mask with
  | nil => rfl
  | cons byte payload ih =>
    simp only [apply, ih, UInt8.xor_assoc, UInt8.xor_self, UInt8.xor_zero]

theorem get_eq (n : Nat) : mask.get n = (mask.rotate n).byte0 := by
  rw [← rotate_mod]
  have bound : n % 4 < 4 := Nat.mod_lt _ (by decide)
  unfold get
  rcases cases : n % 4 with _ | _ | _ | _ | k
  · rfl
  · rfl
  · rfl
  · rfl
  · omega

/-- Fewer than five bytes meet the mask from its start. -/
theorem apply_short {payload : Bytes} (short : payload.length ≤ 4) :
    mask.apply payload = List.zipWith (· ^^^ ·) payload mask.bytes := by
  match payload, short with
  | [], _ => rfl
  | [_], _ => rfl
  | [_, _], _ => rfl
  | [_, _, _], _ => rfl
  | [_, _, _, _], _ => rfl

end Mask

/-! ### The loops of the receiver -/

/-- `unmaskPrecise`: four bytes at a time, then the rest. -/
def unmaskPrecise (mask : Mask) : Bytes → Bytes
  | a :: b :: c :: d :: rest =>
    (a ^^^ mask.byte0) :: (b ^^^ mask.byte1) :: (c ^^^ mask.byte2) :: (d ^^^ mask.byte3) ::
      unmaskPrecise mask rest
  | rest => List.zipWith (· ^^^ ·) rest mask.bytes

/-- `unmaskInplace`: the same loops over the bytes that it overwrites. -/
def unmaskInplace (mask : Mask) (data : Bytes) : Bytes := unmaskPrecise mask data

/-- How `consumeContinuation` unmasks the rest of a frame: its whole words, then
the remaining bytes. -/
def unmaskRemaining (mask : Mask) (data : Bytes) : Bytes :=
  let n := data.length / 4
  unmaskInplace mask (data.take (n * 4)) ++ List.zipWith (· ^^^ ·) (data.drop (n * 4)) mask.bytes

def rotateMask (offset : Nat) (mask : Mask) : Mask :=
  (((mask.set (0 + offset) mask.byte0).set (1 + offset) mask.byte1).set
    (2 + offset) mask.byte2).set (3 + offset) mask.byte3

theorem unmaskPrecise_eq (mask : Mask) (data : Bytes) :
    unmaskPrecise mask data = mask.apply data := by
  fun_induction unmaskPrecise mask data with
  | case1 a b c d rest ih =>
    simp only [ih, Mask.apply]
    rfl
  | case2 rest fewer =>
    have short : rest.length ≤ 4 := by
      rcases rest with _ | ⟨a, _ | ⟨b, _ | ⟨c, _ | ⟨d, rest⟩⟩⟩⟩
      · simp
      · simp
      · simp
      · simp
      · exact absurd rfl (fewer a b c d rest)
    exact (mask.apply_short short).symm

theorem unmaskInplace_eq (mask : Mask) (data : Bytes) : unmaskInplace mask data = mask.apply data :=
  unmaskPrecise_eq mask data

theorem unmaskRemaining_eq (mask : Mask) (data : Bytes) :
    unmaskRemaining mask data = mask.apply data := by
  have words : (data.take (data.length / 4 * 4)).length = data.length / 4 * 4 := by
    rw [List.length_take]
    omega
  have aligned : mask.rotate (data.length / 4 * 4) = mask := by
    rw [← Mask.rotate_mod, Nat.mul_mod_left, Mask.rotate_zero]
  have short : (data.drop (data.length / 4 * 4)).length ≤ 4 := by
    rw [List.length_drop]
    omega
  calc unmaskRemaining mask data
      = mask.apply (data.take (data.length / 4 * 4)) ++
          mask.apply (data.drop (data.length / 4 * 4)) := by
        rw [unmaskRemaining, unmaskInplace_eq, mask.apply_short short]
    _ = mask.apply data := by
        conv_rhs => rw [← List.take_append_drop (data.length / 4 * 4) data]
        rw [Mask.apply_append, words, aligned]

/-- The receiver turns the mask by what is missing to a whole word. -/
theorem rotateMask_eq (mask : Mask) (n : Nat) : rotateMask (4 - n % 4) mask = mask.rotate n := by
  rw [← Mask.rotate_mod]
  have bound : n % 4 < 4 := Nat.mod_lt _ (by decide)
  rcases cases : n % 4 with _ | _ | _ | _ | k
  · rfl
  · rfl
  · rfl
  · rfl
  · omega

/-! ### The loops of the sender -/

/-- The first loop of `formatMessage`: single bytes until the address is a multiple
of four.  Returns what was masked, `offset`, and what is left. -/
def maskUntilAligned (mask : Mask) : Nat → Nat → Bytes → Bytes × Nat × Bytes
  | _, offset, [] => ([], offset, [])
  | address, offset, byte :: rest =>
    if address % 4 ≠ 0 then
      let (masked, reached, left) := maskUntilAligned mask (address + 1) (offset + 1) rest
      ((byte ^^^ mask.get offset) :: masked, reached, left)
    else ([], offset, byte :: rest)

/-- The masking in `formatMessage` of a payload that lies at the given address: up
to a multiple of four, then word by word and the rest with the rotated mask. -/
def maskPayload (address : Nat) (mask : Mask) (payload : Bytes) : Bytes :=
  let (masked, offset, rest) := maskUntilAligned mask address 0 payload
  masked ++ unmaskPrecise (mask.rotate offset) rest

theorem maskUntilAligned_eq (mask : Mask) (address offset : Nat) (payload : Bytes) :
    (maskUntilAligned mask address offset payload).1 ++
        (mask.rotate (maskUntilAligned mask address offset payload).2.1).apply
          (maskUntilAligned mask address offset payload).2.2 =
      (mask.rotate offset).apply payload := by
  induction payload generalizing address offset with
  | nil => rfl
  | cons byte rest ih =>
    rw [maskUntilAligned]
    split
    · grind [Mask.apply, Mask.next_rotate, Mask.get_eq]
    · rfl

theorem maskPayload_eq (address : Nat) (mask : Mask) (payload : Bytes) :
    maskPayload address mask payload = mask.apply payload := by
  have whole := maskUntilAligned_eq mask address 0 payload
  rw [Mask.rotate_zero] at whole
  rw [← whole, ← unmaskPrecise_eq]
  rfl

end Crouton.WebSocket
