import Mathlib.Algebra.BigOperators.Intervals
import Mathlib.Algebra.BigOperators.Ring.Finset
import ScopedMemory.Proofs.RoundTrip
import ScopedMemory.Proofs.Turning

/-! The laws of the codec.

A value that was written to the front of a buffer is found there, whatever stands behind it
(`Carrier.decodeFront?_encode_append`), and the two byte orders differ by reversal. What the bytes
say is said once, for the little-endian order: they are the digits of a number in base 256
(`littleEndian`), which a carrier takes as it is, in two's complement, or as the bits of a floating
point value (`Carrier.reading`). -/
namespace ScopedMemory

/-! ### Digits -/

/-- The number that the first bytes spell in base 256, the least significant digit first. -/
def littleEndian (count : Nat) (bytes : List UInt8) : Nat :=
  ∑ i ∈ Finset.range count, (bytes.getD i 0).toNat * 256 ^ i

theorem littleEndian_cons (count : Nat) (byte : UInt8) (rest : List UInt8) :
    littleEndian (count + 1) (byte :: rest) = byte.toNat + 256 * littleEndian count rest := by
  have hshift : ∑ i ∈ Finset.range count, (rest.getD i 0).toNat * 256 ^ (i + 1) =
      256 * littleEndian count rest := by
    rw [littleEndian, Finset.mul_sum]
    refine Finset.sum_congr rfl fun i _ => ?_
    rw [pow_succ', Nat.mul_left_comm]
  rw [littleEndian, Finset.sum_range_succ', Nat.add_comm]
  simp only [List.getD_cons_zero, List.getD_cons_succ, pow_zero, Nat.mul_one, hshift]

theorem natOfBytes_take (count : Nat) (bytes : List UInt8) :
    natOfBytes (bytes.take count) = littleEndian count bytes := by
  induction count generalizing bytes with
  | zero => rfl
  | succ count ih =>
    cases bytes with
    | nil => simp [natOfBytes, littleEndian]
    | cons byte rest => rw [List.take_succ_cons, natOfBytes, ih, littleEndian_cons]

/-- The integer that a pattern of so many bytes stands for, if the upper half of the patterns is for
the negative ones. -/
def twosComplement (size pattern : Nat) : Int :=
  if 2 * pattern < 256 ^ size then pattern else pattern - 256 ^ size

theorem toInt_ofNat_eq_twosComplement (size : Nat) {pattern : Nat}
    (h : pattern < 1 <<< (8 * size)) :
    (BitVec.ofNat (8 * size) pattern).toInt = twosComplement size pattern := by
  rw [Nat.one_shiftLeft] at h
  rw [BitVec.toInt_eq_toNat_cond, BitVec.toNat_ofNat, Nat.mod_eq_of_lt h, Nat.pow_mul, twosComplement]
  norm_cast

namespace Carrier
variable {c : Carrier}

/-! ### Readings -/

/-- What a bit pattern says to the carrier. -/
def reading (c : Carrier) (pattern : Nat) : Literal :=
  match c with
  | .bool => .truth (pattern != 0)
  | .ubyte | .char | .uint | .ulong => .number pattern
  | .byte | .short | .int | .long => .number (twosComplement c.size pattern)
  | .float | .double => .pattern pattern

theorem literal_ofBits {pattern : Nat} (h : pattern < 1 <<< (8 * c.size)) :
    c.literal (c.ofBits pattern) = c.reading pattern := by
  cases c with
  | bool => rfl
  | byte => exact congrArg Literal.number (toInt_ofNat_eq_twosComplement 1 h)
  | ubyte => simp only [literal, ofBits, reading, UInt8.toNat_ofNat_of_lt' h]
  | char => simp only [literal, ofBits, reading, UInt16.toNat_ofNat_of_lt' h]
  | short => exact congrArg Literal.number (toInt_ofNat_eq_twosComplement 2 h)
  | int => exact congrArg Literal.number (toInt_ofNat_eq_twosComplement 4 h)
  | uint => simp only [literal, ofBits, reading, UInt32.toNat_ofNat_of_lt' h]
  | float => simp only [literal, ofBits, reading, UInt32.toNat_ofNat_of_lt' h]
  | long => exact congrArg Literal.number (toInt_ofNat_eq_twosComplement 8 h)
  | ulong => simp only [literal, ofBits, reading, UInt64.toNat_ofNat_of_lt' h]
  | double => simp only [literal, ofBits, reading, UInt64.toNat_ofNat_of_lt' h]

/-- **Bytes say what their digits say.** -/
theorem literal_decode {buffer : List UInt8} (room : c.size ≤ buffer.length) :
    c.literal (c.decode .little (buffer.take c.size)) = c.reading (littleEndian c.size buffer) := by
  have hbits := natOfBytes_lt (buffer.take c.size)
  rw [List.length_take_of_le room] at hbits
  rw [decode, ByteOrder.arrange, literal_ofBits hbits, natOfBytes_take]

/-! ### Fronts of buffers -/

/-- Bytes that are turned around say the same in the other order. -/
theorem decode_reverse {order other : ByteOrder} (h : order ≠ other) (bytes : List UInt8) :
    c.decode other bytes.reverse = c.decode order bytes := by
  rw [decode, decode, ByteOrder.arrange_reverse h]

/-- A value is found in front of whatever stands behind it. -/
theorem decodeFront?_encode_append (order : ByteOrder) (v : c.Value) (rest : List UInt8) :
    c.decodeFront? order (c.encode order v ++ rest) = some v := by
  have hlength := length_encode c order v
  have hroom : c.size ≤ (c.encode order v ++ rest).length := by
    rw [List.length_append, hlength]
    exact Nat.le_add_right _ _
  rw [decodeFront?_of_room hroom, List.take_left' hlength, decode_encode]

/-- **The codec loses nothing.** A value that is written to the front of a buffer is read back bit
for bit, and so are bytes but for truth values. Bytes turned around hold it in the other order. In
the little-endian order it is the number that they spell in base 256. -/
theorem codec_loses_nothing (c : Carrier) (order : ByteOrder) (buffer : List UInt8)
    (room : c.size ≤ buffer.length) :
    (∀ v, ∃ written, c.encodeFront? order v buffer = some written ∧
      written.length = buffer.length ∧ written.drop c.size = buffer.drop c.size ∧
      c.decodeFront? order written = some v) ∧
    (∃ v, c.decodeFront? order buffer = some v ∧
      (c ≠ .bool → ∀ target : List UInt8, c.size ≤ target.length →
        ∃ written, c.encodeFront? order v target = some written ∧
          written.take c.size = buffer.take c.size) ∧
      ∀ other, order ≠ other →
        c.decodeFront? other (buffer.take c.size).reverse = some v) ∧
    ∃ v, c.decodeFront? .little buffer = some v ∧
      c.literal v = c.reading (littleEndian c.size buffer) := by
  have hfront : (buffer.take c.size).length = c.size := List.length_take_of_le room
  refine ⟨fun v => ?_, ⟨_, decodeFront?_of_room room order, ?_, ?_⟩,
    _, decodeFront?_of_room room .little, literal_decode room⟩
  · refine ⟨_, encodeFront?_of_room room order v, ?_, List.drop_left' (length_encode c order v),
      decodeFront?_encode_append order v _⟩
    rw [List.length_append, length_encode, List.length_drop, Nat.add_sub_cancel' room]
  · intro several target htarget
    refine ⟨_, encodeFront?_of_room htarget order _, ?_⟩
    rw [List.take_left' (length_encode c order _), encode_decode several order hfront]
  · intro other hother
    have hwhole : (buffer.take c.size).reverse.length = c.size := List.length_reverse.trans hfront
    rw [decodeFront?_of_room (Nat.le_of_eq hwhole.symm), List.take_of_length_le (Nat.le_of_eq hwhole),
      decode_reverse hother]

/-- The sign is in the last byte, or in the first when the bytes are turned around. A third byte is
neither looked at nor written. -/
theorem codec_loses_nothing_negative :
    let buffer : List UInt8 := [0x2e, 0xfb, 0x07]
    Carrier.size .short ≤ buffer.length ∧
    (∃ written, encodeFront? .short .little (513 : Int16) buffer = some written ∧
      written.drop 2 = [0x07] ∧ decodeFront? .short .little written = some (513 : Int16)) ∧
    (∃ v, decodeFront? .short .little buffer = some v ∧
      (∃ written, encodeFront? .short .little v [0, 0, 0, 0] = some written ∧
        written.take 2 = [0x2e, 0xfb]) ∧
      decodeFront? .short .big [0xfb, 0x2e] = some v) ∧
    ∃ v, decodeFront? .short .little buffer = some v ∧ literal .short v = .number (-1234) := by
  have hroom : Carrier.size .short ≤ ([0x2e, 0xfb, 0x07] : List UInt8).length := by decide
  obtain ⟨hwrite, ⟨v, hv, hagain, hother⟩, w, hw, hreading⟩ :=
    codec_loses_nothing .short .little [0x2e, 0xfb, 0x07] hroom
  obtain ⟨written, hwritten, -, hbehind, hback⟩ := hwrite (513 : Int16)
  refine ⟨hroom, ⟨written, hwritten, hbehind, hback⟩, ⟨v, hv, ?_, hother .big (by decide)⟩,
    w, hw, hreading.trans ?_⟩
  · exact hagain (by decide) [0, 0, 0, 0] (by decide)
  · decide

end Carrier

end ScopedMemory
