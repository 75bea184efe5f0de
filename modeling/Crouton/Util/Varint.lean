/-
Purpose: The unsigned varints of `util/Varint.hh` and `support/Varint.cc`: that
  reading undoes writing, that nothing shorter can be read back, and which numbers
  are read from bytes that were not written by `put`.
-/
import Mathlib.Tactic.Linarith
import Crouton.Util.Bytes

namespace Crouton.Uvarint

/-- The maximum size in bytes of a varint. -/
def kMaxSize : Nat := 10

/-- The loop of `put`: seven bits a byte, least significant first, the high bit
set on every byte but the last.  A `uint64_t` is used up after nine rounds, so
the first argument never runs out on one. -/
def putLoop : Nat → Nat → Bytes
  | 0, n => [UInt8.ofNat n]
  | rounds + 1, n =>
    if n ≥ 0x80 then
      (UInt8.ofNat n ||| 0x80) :: putLoop rounds (n >>> 7)
    else
      [UInt8.ofNat n]

/-- `uvarint::put`: the bytes written for `n`. -/
def put (n : Nat) : Bytes := putLoop (kMaxSize - 1) n

/-- What `readPartial` finds: a number and the bytes after it, only a prefix of
a varint, or `kMaxSize` bytes with their high bit set (it then throws). -/
inductive Partial where
  | number (n : Nat) (rest : Bytes)
  | incomplete
  | invalid
deriving Repr, DecidableEq, Inhabited

/-- The loop of `readPartial`: `room` bytes may still be read, the bits read so
far are `n` and the next ones go to `shift`.  The shifts are those of a
`uint64_t`, so bits from 2^64 on are dropped. -/
def readLoop : (room shift n : Nat) → Bytes → Partial
  | 0, _, _, _ => .invalid
  | _ + 1, _, _, [] => .incomplete
  | room + 1, shift, n, byte :: rest =>
    if byte &&& 0x80 ≠ 0 then
      readLoop room (shift + 7) (n ||| ((byte &&& 0x7F).toNat <<< shift) % 2 ^ 64) rest
    else
      .number (n ||| (byte.toNat <<< shift) % 2 ^ 64) rest

def readPartial (bytes : Bytes) : Partial := readLoop kMaxSize 0 0 bytes

/-- `uvarint::read`: the number and the bytes after it. -/
def read (bytes : Bytes) : Except Error (Nat × Bytes) :=
  match readPartial bytes with
  | .number n rest => .ok (n, rest)
  | .incomplete => .error (.crouton .parseError "invalid varint")
  | .invalid => .error (.crouton .parseError "invalid varint")

/-! ### The size of a varint -/

theorem length_putLoop (rounds n : Nat) :
    1 ≤ (putLoop rounds n).length ∧ (putLoop rounds n).length ≤ rounds + 1 := by
  induction rounds generalizing n with
  | zero => simp [putLoop]
  | succ rounds ih => grind [putLoop]

theorem length_put_le (n : Nat) : (put n).length ≤ kMaxSize := (length_putLoop 9 n).2

theorem put_ne_nil (n : Nat) : put n ≠ [] := List.length_pos_iff.mp (length_putLoop 9 n).1

/-! ### One byte of a varint -/

theorem toNat_or_high (n : Nat) : (UInt8.ofNat n ||| 0x80).toNat = n % 128 + 128 := by
  have onBytes : ∀ byte : Fin 256, byte.val ||| 128 = byte.val % 128 + 128 := by decide +kernel
  have here := onBytes ⟨n % 256, Nat.mod_lt _ (by decide)⟩
  have high : (UInt8.ofNat n ||| 0x80).toNat = n % 256 ||| 128 := by simp
  simp only at here
  omega

theorem and_high_ne_zero (byte : UInt8) : (byte &&& 0x80 ≠ 0) ↔ 128 ≤ byte.toNat := by
  have onBytes : ∀ value : Fin 256, (UInt8.ofNat value.val &&& 0x80 ≠ 0) ↔ 128 ≤ value.val := by
    decide +kernel
  have here := onBytes ⟨byte.toNat, byte.toNat_lt⟩
  simpa using here

theorem toNat_and_low (byte : UInt8) : (byte &&& 0x7F).toNat = byte.toNat % 128 := by
  have onBytes : ∀ value : Fin 256, value.val &&& 127 = value.val % 128 := by decide +kernel
  simpa using onBytes ⟨byte.toNat, byte.toNat_lt⟩

/-! ### Reading what was written -/

variable {n shift low room number k : Nat} {bytes rest encoding high : Bytes} {last : UInt8}

/-- Bits that all lie above those already read are added to them. -/
private theorem or_shiftLeft (below : low < 2 ^ shift) (fits : low + n * 2 ^ shift < 2 ^ 64) :
    low ||| (n <<< shift) % 2 ^ 64 = low + n * 2 ^ shift := by
  rw [Nat.shiftLeft_eq, Nat.mod_eq_of_lt (by omega), Nat.or_comm,
    Nat.mul_comm n, ← Nat.two_pow_add_eq_or_of_lt below]
  omega

/-- The last byte of a varint ends the reader's loop. -/
private theorem readLoop_last (rest : Bytes) (small : n < 128) (below : low < 2 ^ shift)
    (fits : low + n * 2 ^ shift < 2 ^ 64) :
    readLoop (room + 1) shift low ([UInt8.ofNat n] ++ rest) =
      .number (low + n * 2 ^ shift) rest := by
  have value : (UInt8.ofNat n).toNat = n := by
    simp only [UInt8.toNat_ofNat']
    omega
  have last : ¬ (UInt8.ofNat n &&& 0x80 ≠ 0) := by
    rw [and_high_ne_zero, value]
    omega
  simp only [List.singleton_append, readLoop, last, if_false, value]
  rw [or_shiftLeft below fits]

/-- Writing a number and reading it back, from any position of the two loops.
The induction is on the rounds of the writer; `low` is what the reader has
already put together, all of it below the current shift. -/
theorem readLoop_putLoop (rounds : Nat) :
    ∀ {n shift low room : Nat} (rest : Bytes),
      rounds < room → low < 2 ^ shift → n < 2 ^ (7 * (rounds + 1)) →
      low + n * 2 ^ shift < 2 ^ 64 →
      readLoop room shift low (putLoop rounds n ++ rest) = .number (low + n * 2 ^ shift) rest := by
  induction rounds with
  | zero =>
    intro n shift low room rest enough below small fits
    obtain ⟨room, rfl⟩ : ∃ fewer, room = fewer + 1 := ⟨room - 1, by omega⟩
    exact readLoop_last rest (by simpa using small) below fits
  | succ rounds ih =>
    intro n shift low room rest enough below small fits
    obtain ⟨room, rfl⟩ : ∃ fewer, room = fewer + 1 := ⟨room - 1, by omega⟩
    by_cases more : n ≥ 0x80
    · have value := toNat_or_high n
      have continues : (UInt8.ofNat n ||| 0x80) &&& 0x80 ≠ 0 := by
        rw [and_high_ne_zero, value]
        omega
      have shiftRight : n >>> 7 = n / 128 := Nat.shiftRight_eq_div_pow n 7
      -- the seven low bits join `low`, the others wait for the next round
      have split : n = n % 128 + 128 * (n / 128) := by omega
      have shifted : 2 ^ (shift + 7) = 128 * 2 ^ shift := by
        rw [Nat.pow_add]
        omega
      have total : low + n % 128 * 2 ^ shift + n / 128 * 2 ^ (shift + 7) = low + n * 2 ^ shift := by
        nlinarith [split]
      have lowFits : low + n % 128 * 2 ^ shift < 2 ^ 64 := by grind
      have nextBelow : low + n % 128 * 2 ^ shift < 2 ^ (shift + 7) := by
        have : n % 128 * 2 ^ shift ≤ 127 * 2 ^ shift := Nat.mul_le_mul_right _ (by omega)
        omega
      have nextSmall : n / 128 < 2 ^ (7 * (rounds + 1)) := by grind
      have next := @ih (n / 128) (shift + 7) (low + n % 128 * 2 ^ shift) room rest
        (by omega) nextBelow nextSmall (by omega)
      simp only [putLoop, more, if_true, List.cons_append, readLoop, toNat_and_low, value]
      rw [if_pos continues, show (n % 128 + 128) % 128 = n % 128 by omega,
        or_shiftLeft below lowFits, shiftRight, next, total]
    · simp only [putLoop, more, if_false]
      exact readLoop_last rest (by omega) below fits

/-- Only 64 bits are read. -/
theorem readLoop_lt (small : n < 2 ^ 64)
    (found : readLoop room shift n bytes = .number number rest) : number < 2 ^ 64 := by
  have joined (value : Nat) : n ||| value % 2 ^ 64 < 2 ^ 64 :=
    Nat.or_lt_two_pow small (Nat.mod_lt _ (by decide))
  induction room generalizing shift n bytes with
  | zero => cases found
  | succ room ih =>
    cases bytes with
    | nil => cases found
    | cons byte bytes =>
      rw [readLoop] at found
      split at found
      · exact ih (joined _) found
          fun value => Nat.or_lt_two_pow (joined _) (Nat.mod_lt _ (by decide))
      · cases found
        exact joined _

theorem read_lt (found : read bytes = .ok (n, rest)) : n < 2 ^ 64 := by
  unfold read at found
  split at found
  · next partial_ =>
    cases found
    exact readLoop_lt (by decide) partial_
  · cases found
  · cases found

/-- `readPartial` finds what `put` wrote and leaves exactly the bytes after it. -/
theorem readPartial_put (fits : n < 2 ^ 64) (rest : Bytes) :
    readPartial (put n ++ rest) = .number n rest := by
  have back := @readLoop_putLoop (kMaxSize - 1) n 0 0 kMaxSize rest (by decide) (by decide)
    (by simp only [kMaxSize]; omega) (by omega)
  simp only [Nat.zero_add, Nat.pow_zero, Nat.mul_one] at back
  exact back

/-- `read` returns what `put` wrote and leaves exactly the bytes after it. -/
theorem read_put {n : Nat} (fits : n < 2 ^ 64) (rest : Bytes) :
    read (put n ++ rest) = .ok (n, rest) := by
  rw [read, readPartial_put fits rest]

/-- The first bytes of what was written are not mistaken for a number. -/
theorem readLoop_take_putLoop {rounds : Nat} (enough : rounds < room)
    (cut : k < (putLoop rounds n).length) :
    readLoop room shift low ((putLoop rounds n).take k) = .incomplete := by
  obtain ⟨room, rfl⟩ : ∃ fewer, room = fewer + 1 := ⟨room - 1, by omega⟩
  induction rounds generalizing n room shift low k with
  | zero =>
    obtain rfl : k = 0 := by simpa [putLoop] using cut
    rfl
  | succ rounds ih =>
    cases k with
    | zero => rfl
    | succ k =>
      rw [putLoop] at cut ⊢
      split at cut
      · next more =>
        have continues : (UInt8.ofNat n ||| 0x80) &&& 0x80 ≠ 0 := by
          rw [and_high_ne_zero, toNat_or_high n]
          omega
        obtain ⟨room, rfl⟩ : ∃ fewer, room = fewer + 1 := ⟨room - 1, by omega⟩
        rw [if_pos more, List.take_succ_cons, readLoop, if_pos continues]
        exact ih (by simpa using cut) room (by omega)
      · simp at cut

theorem readPartial_take_put (cut : k < (put n).length) :
    readPartial ((put n).take k) = .incomplete :=
  readLoop_take_putLoop (by decide) cut

/-! ### The numbers that bytes stand for -/

/-- Bytes with their high bit set, and then one without. -/
def IsVarint : Bytes → Prop
  | [] => False
  | byte :: rest => if 128 ≤ byte.toNat then IsVarint rest else rest = []

/-- The mathematical value of a varint: seven bits a byte, least significant first. -/
def value : Bytes → Nat
  | [] => 0
  | byte :: rest => byte.toNat % 128 + 128 * value rest

theorem value_lt (bytes : Bytes) : value bytes < 128 ^ bytes.length := by
  induction bytes with
  | nil => decide
  | cons byte rest ih =>
    rw [value, List.length_cons, Nat.pow_succ]
    omega

theorem value_append (first second : Bytes) :
    value (first ++ second) = value first + 128 ^ first.length * value second := by
  induction first with
  | nil => simp [value]
  | cons byte first ih =>
    rw [List.cons_append, value, value, ih, List.length_cons, Nat.pow_succ,
      Nat.mul_add, Nat.mul_comm (128 ^ first.length) 128, Nat.mul_assoc, Nat.add_assoc]

/-- Seven more bits, of which those from 2^64 on are dropped. -/
private theorem or_shiftLeft_mod {bits : Nat} (below : low < 2 ^ shift) (inWord : shift ≤ 64) :
    low ||| (bits <<< shift) % 2 ^ 64 = (low + bits * 2 ^ shift) % 2 ^ 64 := by
  obtain ⟨width, isWidth⟩ : ∃ width, 64 = shift + width := ⟨64 - shift, by omega⟩
  have shifted : (bits <<< shift) % 2 ^ 64 = 2 ^ shift * (bits % 2 ^ width) := by
    rw [Nat.shiftLeft_eq, isWidth, Nat.pow_add, Nat.mul_comm, Nat.mul_mod_mul_left]
  have kept : (low + bits * 2 ^ shift) % 2 ^ 64 = low + 2 ^ shift * (bits % 2 ^ width) := by
    rw [isWidth, Nat.pow_add, Nat.mod_mul, Nat.add_mul_mod_self_right, Nat.mod_eq_of_lt below,
      Nat.add_mul_div_right _ _ (Nat.two_pow_pos shift), Nat.div_eq_of_lt below, Nat.zero_add]
  rw [shifted, kept, Nat.or_comm, ← Nat.two_pow_add_eq_or_of_lt below, Nat.add_comm]

/-- The reader's loop on a varint that it has room for. -/
theorem readLoop_isVarint {encoding : Bytes} (isVarint : IsVarint encoding) (rest : Bytes)
    {room shift low : Nat} (fits : encoding.length ≤ room) (inWord : shift + 7 * room ≤ 70)
    (below : low < 2 ^ shift) :
    readLoop room shift low (encoding ++ rest) =
      .number ((low + value encoding * 2 ^ shift) % 2 ^ 64) rest := by
  induction encoding generalizing room shift low with
  | nil => exact absurd isVarint id
  | cons byte encoding ih =>
    rw [List.length_cons] at fits
    obtain ⟨room, rfl⟩ : ∃ fewer, room = fewer + 1 := ⟨room - 1, by omega⟩
    rw [IsVarint] at isVarint
    rw [List.cons_append, readLoop, value]
    split at isVarint
    · next high =>
      have nonempty : 0 < encoding.length := by
        cases encoding with
        | nil => exact absurd isVarint id
        | cons second encoding => exact Nat.succ_pos _
      have shifted : 2 ^ (shift + 7) = 128 * 2 ^ shift := by
        rw [Nat.pow_add]
        omega
      have bits : byte.toNat % 128 * 2 ^ shift ≤ 127 * 2 ^ shift :=
        Nat.mul_le_mul_right _ (by omega)
      have inside : low + byte.toNat % 128 * 2 ^ shift < 2 ^ (shift + 7) := by omega
      have word : 2 ^ (shift + 7) ≤ 2 ^ 64 := Nat.pow_le_pow_right (by decide) (by omega)
      rw [if_pos ((and_high_ne_zero byte).mpr high), toNat_and_low,
        or_shiftLeft_mod below (by omega), Nat.mod_eq_of_lt (Nat.lt_of_lt_of_le inside word),
        ih isVarint (by omega) (by omega) inside, shifted]
      congr 2
      rw [Nat.add_mul, ← Nat.mul_assoc, Nat.mul_comm (value encoding) 128, Nat.add_assoc]
    · next low_ =>
      subst isVarint
      rw [if_neg fun high => low_ ((and_high_ne_zero byte).mp high),
        or_shiftLeft_mod below (by omega), value, Nat.mod_eq_of_lt (Nat.not_le.mp low_)]
      rfl

/-- What the reader's loop finds a number in starts with a varint. -/
theorem isVarint_of_readLoop (found : readLoop room shift low bytes = .number number rest) :
    ∃ encoding, bytes = encoding ++ rest ∧ IsVarint encoding ∧ encoding.length ≤ room := by
  induction room generalizing shift low bytes with
  | zero => cases found
  | succ room ih =>
    cases bytes with
    | nil => cases found
    | cons byte bytes =>
      rw [readLoop] at found
      split at found
      · next high =>
        obtain ⟨encoding, rfl, isVarint, fits⟩ := ih found
        refine ⟨byte :: encoding, rfl, ?_, Nat.succ_le_succ fits⟩
        rw [IsVarint, if_pos ((and_high_ne_zero byte).mp high)]
        exact isVarint
      · next last =>
        cases found
        refine ⟨[byte], rfl, ?_, Nat.succ_le_succ (Nat.zero_le room)⟩
        rw [IsVarint, if_neg fun high => last ((and_high_ne_zero byte).mpr high)]

/-- `readPartial` on a varint of at most ten bytes returns its value, without the bits from
2^64 on. -/
theorem readPartial_isVarint (isVarint : IsVarint encoding) (fits : encoding.length ≤ kMaxSize)
    (rest : Bytes) : readPartial (encoding ++ rest) = .number (value encoding % 2 ^ 64) rest := by
  have found := @readLoop_isVarint encoding isVarint rest kMaxSize 0 0 fits (by decide) (by decide)
  rw [Nat.zero_add, Nat.pow_zero, Nat.mul_one] at found
  exact found

/-- The bytes in which `readPartial` finds a number are those that start with a varint of at
most ten bytes. -/
theorem readPartial_number (found : readPartial bytes = .number number rest) :
    ∃ encoding, bytes = encoding ++ rest ∧ IsVarint encoding ∧ encoding.length ≤ kMaxSize ∧
      number = value encoding % 2 ^ 64 := by
  obtain ⟨encoding, rfl, isVarint, fits⟩ := isVarint_of_readLoop found
  refine ⟨encoding, rfl, isVarint, fits, ?_⟩
  rw [readPartial_isVarint isVarint fits] at found
  cases found
  rfl

/-! ### Writing is as short as possible -/

/-- A number of so many digits to the base 128 is written in as many bytes. -/
theorem length_putLoop_le {digits : Nat} (rounds : Nat) (small : n < 128 ^ (digits + 1)) :
    (putLoop rounds n).length ≤ digits + 1 := by
  induction rounds generalizing digits n with
  | zero => exact Nat.succ_le_succ (Nat.zero_le digits)
  | succ rounds ih =>
    rw [putLoop]
    split
    · next more =>
      cases digits with
      | zero => exact absurd small (Nat.not_lt.mpr more)
      | succ digits =>
        have fewer : n >>> 7 < 128 ^ (digits + 1) := by grind [Nat.shiftRight_eq_div_pow]
        exact Nat.succ_le_succ (ih fewer)
    · exact Nat.succ_le_succ (Nat.zero_le digits)

/-- No number is read from fewer bytes than it is written in. -/
theorem length_put_le_of_readPartial (found : readPartial bytes = .number n rest) :
    (put n).length + rest.length ≤ bytes.length := by
  obtain ⟨encoding, rfl, isVarint, fits, rfl⟩ := readPartial_number found
  rw [List.length_append]
  apply Nat.add_le_add_right
  cases encoding with
  | nil => exact absurd isVarint id
  | cons byte encoding =>
    apply length_putLoop_le
    exact Nat.lt_of_le_of_lt (Nat.mod_le _ _) (value_lt (byte :: encoding))

/-- Ten bytes with their high bit set are refused. -/
theorem readLoop_high (enough : room ≤ bytes.length)
    (high : ∀ byte ∈ bytes.take room, 128 ≤ byte.toNat) :
    readLoop room shift low bytes = .invalid := by
  induction room generalizing shift low bytes with
  | zero => rfl
  | succ room ih =>
    cases bytes with
    | nil => exact absurd enough (Nat.not_succ_le_zero room)
    | cons byte bytes =>
      rw [readLoop, if_pos ((and_high_ne_zero byte).mpr (high byte List.mem_cons_self))]
      exact ih (Nat.le_of_succ_le_succ enough) fun later member =>
        high later (List.mem_cons_of_mem byte member)

/-- A number is written in one to ten bytes, and in as few as it can be read from.  It is
read back from them and nothing else is read, no number is read from only the first of
them, and ten bytes with their high bit set are refused. -/
theorem put_roundtrip {n : Nat} (fits : n < 2 ^ 64) (s : Bytes) :
    (1 ≤ (put n).length ∧ (put n).length ≤ 10) ∧
      (∀ bytes rest, readPartial bytes = .number n rest →
        (put n).length + rest.length ≤ bytes.length) ∧
      read (put n ++ s) = .ok (n, s) ∧
      (∀ begins, begins <+: put n → begins ≠ put n → readPartial begins = .incomplete) ∧
      ∀ bytes : Bytes, 10 ≤ bytes.length → (∀ byte ∈ bytes.take 10, 128 ≤ byte.toNat) →
        readPartial bytes = .invalid := by
  refine ⟨length_putLoop 9 n, fun bytes rest found => length_put_le_of_readPartial found,
    read_put fits s, fun begins isPrefix strict => ?_, fun bytes enough high => ?_⟩
  · have shorter : begins.length < (put n).length :=
      Nat.lt_of_le_of_ne isPrefix.length_le fun same => strict (isPrefix.eq_of_length same)
    rw [List.prefix_iff_eq_take.mp isPrefix]
    exact readPartial_take_put shorter
  · exact readLoop_high enough high

/-- The largest number, followed by one more byte. -/
theorem put_roundtrip_max :
    put (2 ^ 64 - 1) = List.replicate 9 0xFF ++ [1] ∧
      read (put (2 ^ 64 - 1) ++ [7]) = .ok (2 ^ 64 - 1, [7]) :=
  ⟨by decide, (put_roundtrip (by decide) [7]).2.2.1⟩

/-! ### Bits that are lost -/

/-- What `readPartial` returns is the value of the bytes it has read, and a varint whose
value does not fit in 64 bits is rejected. -/
def ReadsExactly (bytes : Bytes) : Prop :=
  (∀ n rest, readPartial bytes = .number n rest →
    ∃ consumed, bytes = consumed ++ rest ∧ n = value consumed) ∧
  ∀ encoding rest, bytes = encoding ++ rest → IsVarint encoding → 2 ^ 64 ≤ value encoding →
    ∀ n left, readPartial bytes ≠ .number n left

/-- If there are nine bytes with their high bit set then the tenth has it set too, or is 0
or 1. -/
def TenthFits (bytes : Bytes) : Prop :=
  ∀ high last rest, bytes = high ++ last :: rest → high.length = 9 →
    (∀ byte ∈ high, 128 ≤ byte.toNat) → last.toNat < 2 ∨ 128 ≤ last.toNat

theorem isVarint_concat (all : ∀ byte ∈ high, 128 ≤ byte.toNat) (low : last.toNat < 128) :
    IsVarint (high ++ [last]) := by
  induction high with
  | nil => rw [List.nil_append, IsVarint, if_neg (Nat.not_le.mpr low)]
  | cons byte high ih => grind [IsVarint]

/-- The parts of a varint. -/
theorem IsVarint.concat (isVarint : IsVarint encoding) :
    ∃ high last, encoding = high ++ [last] ∧ (∀ byte ∈ high, 128 ≤ byte.toNat) ∧
      last.toNat < 128 := by
  induction encoding with
  | nil => exact absurd isVarint id
  | cons byte encoding ih =>
    rw [IsVarint] at isVarint
    split at isVarint
    · grind
    · next isLast =>
      subst isVarint
      exact ⟨[], byte, rfl, nofun, Nat.not_le.mp isLast⟩

/-- Bytes start with at most one varint. -/
theorem IsVarint.unique {first second : Bytes} (isFirst : IsVarint first)
    (isSecond : IsVarint second) {left : Bytes} (same : first ++ rest = second ++ left) :
    first = second := by
  induction first generalizing second with
  | nil => exact absurd isFirst id
  | cons byte first ih =>
    cases second with
    | nil => exact absurd isSecond id
    | cons other second =>
      rw [IsVarint] at isFirst isSecond
      by_cases high : 128 ≤ byte.toNat
      · grind
      · grind

/-- Only a tenth byte can have bits from 2^64 on. -/
theorem value_lt_iff (fits : high.length ≤ 9) (low : last.toNat < 128) :
    value (high ++ [last]) < 2 ^ 64 ↔ high.length = 9 → last.toNat < 2 := by
  have rest : value high < 128 ^ high.length := value_lt high
  have isValue : value (high ++ [last]) = value high + 128 ^ high.length * last.toNat := by
    rw [value_append, value, value, Nat.mod_eq_of_lt low, Nat.mul_zero, Nat.add_zero]
  rcases Nat.lt_or_eq_of_le fits with shorter | isNine
  · refine iff_of_true ?_ fun isNine => absurd isNine (Nat.ne_of_lt shorter)
    have digits : 128 ^ high.length ≤ 128 ^ 8 := Nat.pow_le_pow_right (by decide) (by omega)
    have product : 128 ^ high.length * last.toNat ≤ 128 ^ 8 * 127 :=
      Nat.mul_le_mul digits (by omega)
    omega
  · grind

/-- `readPartial` is exact, and rejects what does not fit in 64 bits, exactly if there is no
tenth byte with bits from 2^64 on. -/
theorem readPartial_exact_iff (bytes : Bytes) : ReadsExactly bytes ↔ TenthFits bytes := by
  constructor
  · rintro ⟨_, rejects⟩ high last rest rfl isNine all
    by_contra neither
    rw [not_or, Nat.not_lt, Nat.not_le] at neither
    have isVarint := isVarint_concat all neither.2
    have fits : (high ++ [last]).length ≤ kMaxSize := by
      rw [List.length_append, isNine]
      exact Nat.le_refl 10
    have large : ¬ value (high ++ [last]) < 2 ^ 64 := by grind [value_lt_iff]
    have split : high ++ last :: rest = high ++ [last] ++ rest := by simp
    have found := readPartial_isVarint isVarint fits rest
    rw [← split] at found
    exact rejects _ rest split isVarint (Nat.not_lt.mp large) _ rest found
  · intro tenth
    -- What is read fits
    have exact_ (n : Nat) (rest : Bytes) (found : readPartial bytes = .number n rest) :
        ∃ encoding, bytes = encoding ++ rest ∧ IsVarint encoding ∧ n = value encoding := by
      obtain ⟨encoding, rfl, isVarint, fits, rfl⟩ := readPartial_number found
      refine ⟨encoding, rfl, isVarint, Nat.mod_eq_of_lt ?_⟩
      obtain ⟨high, last, rfl, all, low⟩ := isVarint.concat
      rw [List.length_append] at fits
      rw [value_lt_iff (Nat.le_of_succ_le_succ fits) low]
      intro isNine
      refine (tenth high last rest (by simp) isNine all).resolve_right ?_
      exact Nat.not_le.mpr low
    refine ⟨fun n rest found => ?_, fun encoding rest split isVarint large n left found => ?_⟩
    · grind
    · obtain ⟨other, again, isOther, isValue⟩ := exact_ n left found
      have same := isVarint.unique isOther (split.symm.trans again)
      have small : n < 2 ^ 64 := readLoop_lt (by decide) found
      rw [isValue, ← same] at small
      exact absurd small (Nat.not_lt.mpr large)

/-- A varint of ten bytes that stands for 2^64 is read as zero. -/
theorem readPartial_overflow :
    IsVarint (List.replicate 9 0x80 ++ [2]) ∧ value (List.replicate 9 0x80 ++ [2]) = 2 ^ 64 ∧
      readPartial (List.replicate 9 0x80 ++ [2]) = .number 0 [] := by
  refine ⟨isVarint_concat (fun byte member => ?_) (by decide), by decide, by decide⟩
  obtain rfl := List.eq_of_mem_replicate member
  decide

end Crouton.Uvarint
