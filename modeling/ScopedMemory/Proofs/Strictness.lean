import ScopedMemory.Proofs.Granting

/-! How strict an alignment can be.

A segment reports the strictest alignment that it can meet. Over native memory this is the lowest
bit of the address, one shifted by as many places as there are zeros below
(`Segment.toNat_lowestBit`), while the check puts a mask on the address. The two agree because a
power of two divides a number exactly if it has that many zeros at the end
(`Word.dvd_iff_le_trailingZeros`). Over an array it is the width of an element, whatever the
address. -/
namespace ScopedMemory

/-! ### Zeros at the end -/

namespace Word
variable {w : Word} {exponent : Nat}

/-- How many zeros stand below the lowest bit that is set. -/
def trailingZeros (w : Word) : Nat := w.toBitVec.ctz.toNat

theorem testBit_trailingZeros (h : w ≠ 0) : w.toNat.testBit w.trailingZeros = true :=
  BitVec.getLsbD_true_ctz_of_ne_zero fun hzero => h (UInt64.toBitVec_inj.mp hzero)

theorem trailingZeros_lt (h : w ≠ 0) : w.trailingZeros < 64 := by
  by_contra hbeyond
  have hlarge : w.toNat < 2 ^ w.trailingZeros := Nat.lt_of_lt_of_le (UInt64.toNat_lt w)
    (Nat.pow_le_pow_right (by decide) (Nat.le_of_not_lt hbeyond))
  have hbit := testBit_trailingZeros h
  rw [Nat.testBit_lt_two_pow hlarge] at hbit
  cases hbit

/-- Up to its lowest bit, a word has only this bit. -/
theorem toNat_mod_lowest (h : w ≠ 0) :
    w.toNat % 1 <<< (w.trailingZeros + 1) = 1 <<< w.trailingZeros := by
  apply Nat.eq_of_testBit_eq
  intro i
  rw [Nat.one_shiftLeft, Nat.one_shiftLeft, Nat.testBit_mod_two_pow, Nat.testBit_two_pow]
  obtain hlt | rfl | hgt := Nat.lt_trichotomy i w.trailingZeros
  · have hzero : w.toNat.testBit i = false := BitVec.getLsbD_false_of_lt_ctz hlt
    simp [hzero, Nat.ne_of_gt hlt]
  · simp [testBit_trailingZeros h]
  · simp [Nat.ne_of_lt hgt, Nat.not_lt.mpr hgt]

/-- What stands above the lowest bit. -/
theorem exists_above (h : w ≠ 0) :
    ∃ above, w.toNat = 1 <<< (w.trailingZeros + 1) * above + 1 <<< w.trailingZeros := by
  refine ⟨w.toNat / 1 <<< (w.trailingZeros + 1), ?_⟩
  rw [← toNat_mod_lowest h, Nat.div_add_mod]

theorem dvd_iff_le_trailingZeros (h : w ≠ 0) :
    1 <<< exponent ∣ w.toNat ↔ exponent ≤ w.trailingZeros := by
  obtain ⟨above, habove⟩ := exists_above h
  simp only [Nat.one_shiftLeft] at habove ⊢
  constructor
  · intro hdvd
    by_contra hlt
    have hfew : 2 ^ (w.trailingZeros + 1) ∣ w.toNat :=
      Nat.dvd_trans (Nat.pow_dvd_pow 2 (Nat.lt_of_not_le hlt)) hdvd
    rw [habove, Nat.dvd_add_right (Nat.dvd_mul_right _ _),
      Nat.pow_dvd_pow_iff_le_right (by decide)] at hfew
    exact Nat.not_succ_le_self _ hfew
  · intro hle
    rw [habove]
    exact Nat.dvd_add
      (Nat.dvd_mul_right_of_dvd (Nat.pow_dvd_pow 2 (Nat.le_succ_of_le hle)) above)
      (Nat.pow_dvd_pow 2 hle)

/-- A number and the one before it have the same bits above the lowest; the lowest itself is in the
one, and the bits below it are in the other. -/
theorem testBit_less (zeros above i : Nat) :
    ((1 <<< (zeros + 1) * above + 1 <<< zeros).testBit i &&
      !(1 <<< (zeros + 1) * above + (1 <<< zeros - 1)).testBit i) = decide (zeros = i) := by
  simp only [Nat.one_shiftLeft]
  have hnext : 2 ^ zeros < 2 ^ (zeros + 1) := Nat.pow_lt_pow_right (by decide) (Nat.lt_succ_self _)
  have hbelow : 2 ^ zeros - 1 < 2 ^ (zeros + 1) := Nat.lt_of_le_of_lt (Nat.sub_le _ _) hnext
  rw [Nat.testBit_two_pow_mul_add _ hnext, Nat.testBit_two_pow_mul_add _ hbelow, Nat.testBit_two_pow,
    Nat.testBit_two_pow_sub_one]
  by_cases hi : i < zeros + 1
  · rw [if_pos hi, if_pos hi]
    by_cases hlowest : zeros = i <;> simp [hlowest]
  · have hother : zeros ≠ i := fun h => hi (h ▸ Nat.lt_succ_self zeros)
    rw [if_neg hi, if_neg hi]
    simp [hother]

end Word

/-- What is less than a power of two is at most half of it, if it is a power of two itself. -/
theorem Alignment.toNat_bytes_le {a : Alignment} {n : Nat} (h : a.bytes.toNat < 1 <<< (n + 1)) :
    a.bytes.toNat ≤ 1 <<< n := by
  rw [toNat_bytes, Nat.one_shiftLeft, Nat.one_shiftLeft] at h ⊢
  exact Nat.pow_le_pow_right (by decide)
    (Nat.le_of_lt_succ ((Nat.pow_lt_pow_iff_right (by decide)).mp h))

namespace Segment
variable {w : Word} {x : Segment} {a : Alignment}

/-- **The lowest bit is one, shifted by the zeros below it.** -/
theorem toNat_lowestBit (h : w ≠ 0) : (lowestBit w).toNat = 1 <<< w.trailingZeros := by
  obtain ⟨above, habove⟩ := Word.exists_above h
  have hword := UInt64.toNat_lt w
  have hpos : 0 < 1 <<< w.trailingZeros := by
    rw [Nat.one_shiftLeft]
    exact Nat.two_pow_pos _
  have hless : w.toNat - 1 =
      1 <<< (w.trailingZeros + 1) * above + (1 <<< w.trailingZeros - 1) := by omega
  -- The negative has the bits that the number before the word has not.
  have hnegative : (0 - w).toNat = 2 ^ 64 - (w.toNat - 1 + 1) := by
    rw [UInt64.toNat_sub, UInt64.toNat_zero]
    omega
  apply Nat.eq_of_testBit_eq
  intro i
  have hbit := Word.testBit_less w.trailingZeros above i
  rw [← habove, ← hless] at hbit
  rw [lowestBit, UInt64.toNat_and, Nat.testBit_and, hnegative,
    Nat.testBit_two_pow_sub_succ (by omega), Nat.one_shiftLeft, Nat.testBit_two_pow, ← hbit]
  by_cases hi : i < 64
  · simp [hi]
  · have hother : w.trailingZeros ≠ i := fun heq => hi (heq ▸ Word.trailingZeros_lt h)
    simp [hi, hbit, hother]

/-- A power of two is no larger than the lowest bit exactly if it divides the word. -/
theorem le_lowestBit_iff (h : w ≠ 0) : a.bytes ≤ lowestBit w ↔ a.bytes.toNat ∣ w.toNat := by
  rw [UInt64.le_iff_toNat_le, toNat_lowestBit h, Alignment.toNat_bytes,
    Word.dvd_iff_le_trailingZeros h, Nat.one_shiftLeft, Nat.one_shiftLeft,
    Nat.pow_le_pow_iff_right (by decide)]

/-! ### Segments -/

theorem checkAlignment_front (native : x.backing.isHeap = false) :
    x.checkAlignment 0 a.bytes = .ok () ↔ a.bytes.toNat ∣ x.address.toNat := by
  have hnone : ∀ array, x.backing = .heap array → ¬ array.element.width < a.bytes := by
    intro array harray
    rw [harray] at native
    cases native
  rw [checkAlignment_eq_ok, Word.offAlignment_sum, UInt64.toNat_zero, Nat.add_zero]
  exact and_iff_right hnone

theorem maxAlignment_of_native (native : x.backing.isHeap = false) (h : x.address ≠ 0) :
    x.maxAlignment = lowestBit x.address := by
  unfold maxAlignment
  cases hbacking : x.backing with
  | heap array => rw [hbacking] at native; cases native
  | native => exact if_neg h
  | mapped mapping => exact if_neg h

/-- An array refuses what is stricter than its elements are wide, wherever it starts. -/
theorem checkAlignment_of_stricter (heap : x.backing.isHeap = true) {offset alignment : Word}
    (h : x.maxAlignment < alignment) : x.checkAlignment offset alignment ≠ .ok () := by
  intro hcheck
  cases hbacking : x.backing with
  | heap array =>
    rw [maxAlignment, hbacking] at h
    exact (checkAlignment_eq_ok.mp hcheck).1 array hbacking h
  | native => rw [hbacking] at heap; cases heap
  | mapped mapping => rw [hbacking] at heap; cases heap

end Segment

namespace State
variable {s s' : State} {t : Thread} {x : Segment} {a : Alignment} {block : Block}

/-- An empty block takes no memory, and lies at its alignment. -/
theorem reserve_empty {zeroed : Bool} (h : s.reserve 0 a zeroed = .ok (block, s')) :
    block.address = a.bytes := by
  unfold reserve at h
  split at h
  · cases h
  · cases h
    rfl

/-- What is allocated meets the alignment that was asked for. At address zero, where the report is a
fixed one, there is no empty block, and no other block is described with the largest alignment. -/
theorem allocate_le_maxAlignment {arena : Arena} {size alignment : Word} (aligns : s.system.Aligns)
    (h : arena.allocate t s size alignment = .ok (x, s')) : alignment ≤ x.maxAlignment := by
  obtain ⟨a, block, s₁, ha, -, hreserve, -, rfl, -⟩ := allocate_steps h
  obtain ⟨hdvd, -⟩ := reserve_aligned aligns hreserve
  rw [← Alignment.bytes_of_ofBytes? ha]
  by_cases hzero : block.address = 0
  · have hsize : size ≠ 0 := by
      rintro rfl
      have hpos := a.toNat_bytes_pos
      rw [← reserve_empty hreserve, hzero] at hpos
      exact absurd hpos (Nat.lt_irrefl 0)
    have hhalf : a.bytes.toNat ≤ 1 <<< 62 := by
      have hdescribed := reserve_describable hreserve
      have hsome : size.toNat ≠ 0 := fun hnone => hsize (UInt64.toNat_inj.mp hnone)
      exact Alignment.toNat_bytes_le (by omega)
    have hreport : Segment.maxAlignment ⟨block.address, size, .native, false, arena.scope⟩ =
        Segment.alignmentAtZero := if_pos hzero
    rw [hreport]
    exact UInt64.le_iff_toNat_le.mpr hhalf
  · rw [Segment.maxAlignment_of_native rfl hzero]
    exact (Segment.le_lowestBit_iff hzero).mpr hdvd

/-- **The reported alignment is the one that is met.** Native memory has an aligned slice at its
front exactly if the alignment is no stricter than reported, and over an array no stricter access
passes. What an arena has allocated reports at least what it was asked for. -/
theorem maxAlignment_is_met (s : State) :
    (∀ x : Segment, x.backing.isHeap = false → x.address ≠ 0 → s.isAlive x.scope = true →
      ∀ a : Alignment, (∃ y, s.slice x 0 0 a.bytes = .ok y) ↔ a.bytes ≤ x.maxAlignment) ∧
    (∀ x : Segment, x.backing.isHeap = true → ∀ t offset length alignment mode,
      x.maxAlignment < alignment → s.check t x offset length alignment mode ≠ .ok ()) ∧
    ∀ (arena : Arena) t size alignment x s', s.system.Aligns →
      arena.allocate t s size alignment = .ok (x, s') → alignment ≤ x.maxAlignment := by
  refine ⟨fun x native haddress alive a => ?_, fun x heap t offset length alignment mode h => ?_,
    fun arena t size alignment x s' aligns h => allocate_le_maxAlignment aligns h⟩
  · rw [Segment.maxAlignment_of_native native haddress, Segment.le_lowestBit_iff haddress,
      ← Segment.checkAlignment_front native]
    constructor
    · rintro ⟨y, hslice⟩
      exact (slice_eq_ok_iff.mp hslice).2.2.1
    · intro haligned
      exact ⟨_, slice_eq_ok_iff.mpr ⟨alive, Nat.zero_le _, haligned, rfl⟩⟩
  · intro hcheck
    obtain ⟨⟨⟩, -, hrest⟩ := bind_eq_ok.mp hcheck
    obtain ⟨⟨⟩, haligned, -⟩ := bind_eq_ok.mp hrest
    exact Segment.checkAlignment_of_stricter heap h haligned

/-- The second half of a block of eight bytes starts at a multiple of four and not of eight. Two
bytes of an array of bytes cannot be had at a multiple of two, though they lie at zero. And a block
at a page's start reports at least a page. -/
theorem maxAlignment_is_met_lent :
    let arena : Arena := ⟨0, 1, {}, false⟩
    let x : Segment := ⟨0x1000000004, 4, .native, false, 1⟩
    let z : Segment := ⟨0, 6, .heap ⟨0, .ubyte, 6⟩, false, 1⟩
    (∃ y, lent.slice x 0 0 4 = .ok y) ∧ (¬ ∃ y, lent.slice x 0 0 8 = .ok y) ∧
    sixBytes.check 1 z 0 2 2 .read ≠ .ok () ∧
    ∃ y s', arena.allocate 0 lent 24 4096 = .ok (y, s') ∧ 4096 ≤ y.maxAlignment := by
  obtain ⟨hnative, -, harena⟩ := maxAlignment_is_met lent
  obtain ⟨-, hheap, -⟩ := maxAlignment_is_met sixBytes
  have halive : lent.isAlive 1 = true := by decide +kernel
  have hslice := hnative ⟨0x1000000004, 4, .native, false, 1⟩ rfl (by decide) halive
  refine ⟨(hslice ⟨⟨2, by decide⟩⟩).mpr (by decide), fun h => ?_,
    hheap ⟨0, 6, .heap ⟨0, .ubyte, 6⟩, false, 1⟩ rfl 1 0 2 2 .read (by decide), ?_⟩
  · exact absurd ((hslice ⟨⟨3, by decide⟩⟩).mp h) (by decide)
  · have hok : (Arena.allocate ⟨0, 1, {}, false⟩ 0 lent 24 4096).isOk = true := by decide +kernel
    cases h : Arena.allocate ⟨0, 1, {}, false⟩ 0 lent 24 4096 with
    | error e =>
      rw [h] at hok
      cases hok
    | ok made => exact ⟨made.1, made.2, rfl, harena _ _ _ _ _ _ System.bump_aligns h⟩

end State

end ScopedMemory
