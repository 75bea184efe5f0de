/-
Purpose: Byte strings and the big-endian words of `support/Endian.hh` and of the
  socket headers, and the errors that the modelled code raises.
-/
import Mathlib.Algebra.Group.Int.Defs
import Mathlib.Algebra.GroupWithZero.Nat
import Mathlib.Data.List.Basic

namespace Crouton

/-- A `string`, `ConstBytes` or `MutableBytes`: what is read of it is the byte
sequence, never the address. -/
abbrev Bytes := List UInt8

/-- The codes of `CroutonError` that the modelled code raises. -/
inductive CroutonError where
  | parseError
  | logicError
  | invalidURL
  | unexpectedEOF
  | invalidArgument
deriving Repr, DecidableEq, Inhabited

/-- `blip::ProtocolError`: fatal errors of the BLIP protocol. -/
inductive ProtocolError where
  | invalidFrame
  | propertiesTooLarge
  | compressionError
  | badChecksum
deriving Repr, DecidableEq, Inhabited

/-- How a call can end other than by returning.  The first three are thrown
`Error`s of the three domains; a failed `precondition` or `assert` terminates
the process; `undefinedBehavior` is an access outside a span, which the code
does not check; `unfinished` is a codec loop that outran the loop bound of the
model. -/
inductive Error where
  | crouton (code : CroutonError) (message : String)
  | protocol (code : ProtocolError) (message : String)
  | webSocket (closeCode : Nat) (message : String)
  | preconditionFailed (condition : String)
  | undefinedBehavior (operation : String)
  | unfinished
deriving Repr, DecidableEq, Inhabited

/-- The error is one that the code throws. -/
def Error.Thrown : Error → Prop
  | .crouton _ _ | .protocol _ _ | .webSocket _ _ => True
  | .preconditionFailed _ | .undefinedBehavior _ | .unfinished => False

/-- `endian::encodeBig` of a `uint32_t`, as the bytes it is copied into. -/
def encodeBig (word : UInt32) : Bytes :=
  [UInt8.ofNat (word.toNat / 2 ^ 24), UInt8.ofNat (word.toNat / 2 ^ 16),
    UInt8.ofNat (word.toNat / 2 ^ 8), UInt8.ofNat word.toNat]

/-- `endian::decodeBig` of the four bytes read into a `uint32_t`. -/
def decodeBig (bytes : Bytes) : UInt32 :=
  UInt32.ofNat (bytes.foldl (fun word byte => word * 256 + byte.toNat) 0)

@[simp] theorem length_encodeBig (word : UInt32) : (encodeBig word).length = 4 := rfl

@[simp] theorem decodeBig_encodeBig (word : UInt32) : decodeBig (encodeBig word) = word := by
  have bound := word.toNat_lt
  apply UInt32.toNat_inj.mp
  simp only [decodeBig, encodeBig, List.foldl_cons, List.foldl_nil,
    UInt32.toNat_ofNat', UInt8.toNat_ofNat']
  omega

/-- `htons` and `htobe64`: the bytes of a number in network order. -/
def toNetwork : Nat → Nat → Bytes
  | 0, _ => []
  | width + 1, number => UInt8.ofNat (number / 256 ^ width) :: toNetwork width number

/-- `ntohs` and `be64toh`. -/
def ofNetwork (bytes : Bytes) : Nat := bytes.foldl (fun number byte => number * 256 + byte.toNat) 0

@[simp] theorem length_toNetwork (width number : Nat) :
    (toNetwork width number).length = width := by
  induction width with
  | zero => rfl
  | succ width ih => simp [toNetwork, ih]

/-- A number that fits is read back. -/
theorem ofNetwork_toNetwork {width number : Nat} (fits : number < 256 ^ width) :
    ofNetwork (toNetwork width number) = number := by
  -- the bytes that follow are appended to what was read before
  have reads (width start : Nat) :
      (toNetwork width number).foldl (fun number byte => number * 256 + byte.toNat) start =
        start * 256 ^ width + number % 256 ^ width := by
    induction width generalizing start with
    | zero => simp [toNetwork, Nat.mod_one]
    | succ width ih =>
      calc _ = (start * 256 + number / 256 ^ width % 256) * 256 ^ width + number % 256 ^ width := by
            rw [toNetwork, List.foldl_cons, ih, UInt8.toNat_ofNat']
        _ = start * (256 ^ width * 256) +
              (number % 256 ^ width + 256 ^ width * (number / 256 ^ width % 256)) := by
            rw [Nat.add_mul, Nat.mul_assoc, Nat.mul_comm 256, Nat.add_assoc,
              Nat.mul_comm (number / 256 ^ width % 256), Nat.add_comm (256 ^ width * _)]
        _ = start * 256 ^ (width + 1) + number % 256 ^ (width + 1) := by
            rw [← Nat.mod_pow_succ, Nat.pow_succ]
  rw [ofNetwork, reads, Nat.zero_mul, Nat.zero_add, Nat.mod_eq_of_lt fits]

/-! ### Buffers -/

/-- Data that is written to the start of a buffer. -/
def overwrite (buffer data : Bytes) : Except Error Bytes :=
  if data.length ≤ buffer.length then .ok (data ++ buffer.drop data.length)
  else .error (.undefinedBehavior "write past the end of a buffer")

def resize (s : Bytes) (size : Nat) : Bytes := s.take size ++ List.replicate (size - s.length) 0

/-- What was written is what is left of the buffer once it is cut to that size. -/
theorem resize_overwrite {buffer data written : Bytes}
    (fits : overwrite buffer data = .ok written) : resize written data.length = data := by
  unfold overwrite at fits
  split at fits
  · cases fits
    simp [resize]
  · cases fits

end Crouton
