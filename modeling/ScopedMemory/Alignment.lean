import ScopedMemory.Word

/-! Alignments.

An alignment is a power of two below `2 ^ 64`, kept as its exponent. Words are tested and rounded
by the mask of the bits below the alignment. -/
namespace ScopedMemory

/-- A power of two that a word can hold. -/
structure Alignment where
  exponent : Fin 64
deriving DecidableEq

namespace Alignment

/-- Every address is a multiple of this one. -/
def one : Alignment := ⟨⟨0, by decide⟩⟩

/-- The power of two itself. -/
def bytes (a : Alignment) : Word := UInt64.ofNat (1 <<< a.exponent.val)

theorem toNat_bytes (a : Alignment) : a.bytes.toNat = 1 <<< a.exponent.val := by
  have h : 1 <<< a.exponent.val < 2 ^ 64 := by
    rw [Nat.one_shiftLeft]
    exact Nat.pow_lt_pow_right (by decide) a.exponent.isLt
  rw [bytes, UInt64.toNat_ofNat_of_lt' h]

/-- The alignment of that many bytes, if it is a power of two. -/
def ofBytes? (bytes : Word) : Option Alignment :=
  if h : bytes.toNat = 1 <<< bytes.toNat.log2 then
    some ⟨bytes.toNat.log2, by
      have hlt := UInt64.toNat_lt bytes
      rw [h, Nat.one_shiftLeft] at hlt
      exact (Nat.pow_lt_pow_iff_right (by decide)).mp hlt⟩
  else none

theorem ofBytes?_bytes (a : Alignment) : ofBytes? a.bytes = some a := by
  unfold ofBytes?
  simp only [toNat_bytes, Nat.one_shiftLeft, Nat.log2_two_pow, dite_true]

theorem bytes_of_ofBytes? {w : Word} {a : Alignment} (h : ofBytes? w = some a) : a.bytes = w := by
  unfold ofBytes? at h
  split at h
  · rename_i hw
    cases h
    apply UInt64.toNat_inj.mp
    rw [toNat_bytes]
    exact hw.symm
  · contradiction

/-- The bits below the alignment. -/
def mask (a : Alignment) : Word := a.bytes - 1

theorem toNat_mask (a : Alignment) : a.mask.toNat = 1 <<< a.exponent.val - 1 := by
  have hone : (1 : Word) ≤ a.bytes := by
    rw [UInt64.le_iff_toNat_le, toNat_bytes, Nat.one_shiftLeft]
    exact Nat.one_le_two_pow
  rw [mask, UInt64.toNat_sub_of_le _ _ hone, toNat_bytes]
  rfl

/-- Clearing the bits below the alignment rounds down. -/
theorem toNat_clear (a : Alignment) (w : Word) :
    (w &&& ~~~a.mask).toNat = w.toNat / (1 <<< a.exponent.val) * (1 <<< a.exponent.val) := by
  rw [Nat.one_shiftLeft]
  have hmask : 2 ^ a.exponent.val - 1 < 2 ^ 64 := by
    rw [← Nat.one_shiftLeft, ← toNat_mask]
    exact UInt64.toNat_lt _
  have hsize : UInt64.size - 1 - (2 ^ a.exponent.val - 1) =
      2 ^ 64 - (2 ^ a.exponent.val - 1 + 1) := by
    show 2 ^ 64 - 1 - (2 ^ a.exponent.val - 1) = _
    rw [Nat.sub_sub, Nat.add_comm]
  apply Nat.eq_of_testBit_eq
  intro i
  rw [UInt64.toNat_and, Nat.testBit_and, UInt64.toNat_not, toNat_mask, Nat.one_shiftLeft,
    Nat.testBit_mul_two_pow, Nat.testBit_div_two_pow, hsize, Nat.testBit_two_pow_sub_succ hmask,
    Nat.testBit_two_pow_sub_one]
  by_cases hi : a.exponent.val ≤ i
  · rw [Nat.sub_add_cancel hi]
    by_cases hword : i < 64
    · simp [hi, hword, Nat.not_lt.mpr hi]
    · have hhigh : w.toNat.testBit i = false :=
        Nat.testBit_lt_two_pow (Nat.lt_of_lt_of_le (UInt64.toNat_lt w)
          (Nat.pow_le_pow_right (by decide) (Nat.le_of_not_lt hword)))
      simp [hhigh]
  · simp [hi, Nat.lt_of_not_le hi]

/-- The least multiple of the alignment from `w` on, if it is a word. -/
def roundUp? (a : Alignment) (w : Word) : Option Word :=
  (w.add? a.mask).map (· &&& ~~~a.mask)

theorem le_of_roundUp? {a : Alignment} {w v : Word} (h : a.roundUp? w = some v) :
    w.toNat ≤ v.toNat := by
  obtain ⟨sum, hsum, rfl⟩ := Option.map_eq_some_iff.mp h
  have hadd := Word.add?_eq_some_iff.mp hsum
  have hpos : 0 < 1 <<< a.exponent.val := by
    rw [Nat.one_shiftLeft]
    exact Nat.two_pow_pos a.exponent.val
  have hdiv := Nat.div_add_mod' sum.toNat (1 <<< a.exponent.val)
  have hmod := Nat.mod_lt sum.toNat hpos
  rw [toNat_mask] at hadd
  rw [toNat_clear]
  omega

/-- The stricter of two alignments. -/
def strictest (a b : Alignment) : Alignment :=
  if a.exponent < b.exponent then b else a

end Alignment

/-- Some bit of the address below the alignment is set. -/
def Word.offAlignment (address alignment : Word) : Bool :=
  address &&& (alignment - 1) != 0

end ScopedMemory
