import ScopedMemory.Proofs.Derivation

/-! Slices are views.

A slice differs from the segment that it was cut out of in its address and its size, and addresses
add up: what lies at an offset of the slice lies at the sum of two offsets of the segment
(`Segment.checkAlignment_part`, `State.bytesAt_part`). Sizes bound the sum, so it never goes round,
though the address may. What is asked of a slice inside of its bounds is therefore what is asked of
the segment, and so on through slices of slices (`Segment.Sliced.eq_part`). -/
namespace ScopedMemory

namespace Segment

/-- The segment is cut out of `x` by a slice of a slice of a slice, to any depth, each taken in the
state that the session was in by then. It starts at the sum of the offsets. -/
inductive Sliced (x : Segment) : Word → Segment → Prop where
  | whole : Sliced x 0 x
  | slice {y z : Segment} {s : State} {start offset size alignment : Word} :
      Sliced x start y → s.slice y offset size alignment = .ok z → Sliced x (start + offset) z

section
variable {x y z : Segment} {start offset size length alignment : Word}

/-! ### Parts of parts -/

theorem part_zero (x : Segment) : x.part 0 x.size = x := by
  rw [part, UInt64.add_zero]

theorem part_part (x : Segment) (start size offset length : Word) :
    (x.part start size).part offset length = x.part (start + offset) length := by
  simp only [part, UInt64.add_assoc]

theorem checkAlignment_part (x : Segment) (start size offset alignment : Word) :
    (x.part start size).checkAlignment offset alignment =
      x.checkAlignment (start + offset) alignment := by
  simp only [checkAlignment, part, UInt64.add_assoc]

/-- The sum of the offsets is exact, since the bytes lie in the segment. -/
theorem toNat_add_of_inside (fits : start.toNat + size.toNat ≤ x.size.toNat)
    (inside : offset.toNat + length.toNat ≤ size.toNat) :
    (start + offset).toNat = start.toNat + offset.toNat := by
  have hword := Word.toNat_lt x.size
  unfold Word.limit at hword
  exact (UInt64.toNat_add _ _).trans (Nat.mod_eq_of_lt (by omega))

theorem checkBounds_part (fits : start.toNat + size.toNat ≤ x.size.toNat)
    (inside : offset.toNat + length.toNat ≤ size.toNat) :
    (x.part start size).checkBounds offset length = x.checkBounds (start + offset) length := by
  have hpart : (x.part start size).checkBounds offset length = .ok () := checkBounds_eq_ok.mpr inside
  have hwhole : x.checkBounds (start + offset) length = .ok () := by
    rw [checkBounds_eq_ok, toNat_add_of_inside fits inside]
    omega
  rw [hpart, hwhole]

/-! ### Chains of slices -/

/-- However deep, a slice is the part at the sum of the offsets, and lies inside. -/
theorem Sliced.eq_part (h : x.Sliced start y) :
    y = x.part start y.size ∧ start.toNat + y.size.toNat ≤ x.size.toNat := by
  induction h with
  | whole => exact ⟨x.part_zero.symm, Nat.le_of_eq (Nat.zero_add _)⟩
  | @slice y z s start offset size alignment _ hslice ih =>
    obtain ⟨hy, hfits⟩ := ih
    obtain ⟨-, hinside, rfl⟩ := State.slice_ok hslice
    have hsum := toNat_add_of_inside hfits hinside
    have hsize : (y.part offset size).size = size := rfl
    refine ⟨?_, ?_⟩
    · rw [hsize]
      nth_rewrite 1 [hy]
      exact x.part_part start y.size offset size
    · rw [hsize, hsum]
      omega

theorem Sliced.trans (h : x.Sliced start y) (h' : y.Sliced offset z) :
    x.Sliced (start + offset) z := by
  induction h' with
  | whole =>
    rw [UInt64.add_zero]
    exact h
  | slice _ hslice ih =>
    rw [← UInt64.add_assoc]
    exact ih.slice hslice

/-! ### Distances -/

/-- The distance to a part is its offset, as a signed word. -/
theorem offsetOf_part (x : Segment) (start size : Word) :
    x.offsetOf (x.part start size) = .ok start.toInt64 := by
  have hshares : x.sharesMemory (x.part start size) = true := decide_eq_true rfl
  have hdistance : x.address + start - x.address = start := by grind
  rw [offsetOf, if_pos hshares]
  exact congrArg (fun w : Word => Except.ok w.toInt64) hdistance

theorem Sliced.offsetOf_eq (h : x.Sliced start y) : x.offsetOf y = .ok start.toInt64 := by
  rw [h.eq_part.1]
  exact x.offsetOf_part start y.size

end

end Segment

namespace State
variable {s : State} {t : Thread} {x : Segment} {start size offset length alignment : Word}

theorem bytesAt_part (s : State) (x : Segment) (start size offset : Word) (count : Nat) :
    s.bytesAt (x.part start size) offset count = s.bytesAt x (start + offset) count := by
  simp only [bytesAt, Segment.part, Segment.space, UInt64.add_assoc]

theorem store_part (s : State) (x : Segment) (start size offset : Word) (bytes : List UInt8) :
    s.store (x.part start size) offset bytes = s.store x (start + offset) bytes := by
  simp only [store, Segment.part, Segment.space, UInt64.add_assoc]

section
variable (fits : start.toNat + size.toNat ≤ x.size.toNat)
include fits

/-- Inside of a part, the check is the check of the whole. -/
theorem check_part (inside : offset.toNat + length.toNat ≤ size.toNat) (mode : AccessMode) :
    s.check t (x.part start size) offset length alignment mode =
      s.check t x (start + offset) length alignment mode := by
  unfold check checkRange
  rw [Segment.checkBounds_part fits inside, Segment.checkAlignment_part]
  rfl

theorem slice_part (inside : offset.toNat + length.toNat ≤ size.toNat) :
    s.slice (x.part start size) offset length alignment =
      s.slice x (start + offset) length alignment := by
  unfold slice
  rw [Segment.checkBounds_part fits inside, Segment.checkAlignment_part, Segment.part_part]
  rfl

variable {c : Carrier} (layout : ValueLayout c) (inside : offset.toNat + c.size ≤ size.toNat)
include inside

theorem get_part : s.get t (x.part start size) layout offset = s.get t x layout (start + offset) := by
  rw [← Carrier.toNat_width] at inside
  unfold get
  rw [check_part fits inside, bytesAt_part]

theorem set_part (value : c.Value) :
    s.set t (x.part start size) layout offset value = s.set t x layout (start + offset) value := by
  rw [← Carrier.toNat_width] at inside
  unfold set
  rw [check_part fits inside, store_part]

end

end State

namespace Segment

/-- **A slice is a faithful view**, cut out once or many times over. Its bytes are checked, read and
written as the same bytes of the segment that it was cut out of, errors included. Slices of it are
slices of that segment, and distances add up. -/
theorem slice_views_faithfully {x y : Segment} {start : Word} (h : x.Sliced start y) :
    (∀ offset length : Word, offset.toNat + length.toNat ≤ y.size.toNat →
      start.add? offset = some (start + offset) ∧
      (∀ (s : State) (t : Thread) (alignment : Word) (mode : AccessMode),
        s.check t y offset length alignment mode =
          s.check t x (start + offset) length alignment mode) ∧
      ∀ (s : State) (alignment : Word),
        s.slice y offset length alignment = s.slice x (start + offset) length alignment) ∧
    (∀ (s : State) (t : Thread) (c : Carrier) (layout : ValueLayout c) (offset : Word),
      offset.toNat + c.size ≤ y.size.toNat →
      s.get t y layout offset = s.get t x layout (start + offset) ∧
      ∀ value : c.Value, s.set t y layout offset value = s.set t x layout (start + offset) value) ∧
    x.offsetOf y = .ok start.toInt64 ∧
    ∀ (offset : Word) (z : Segment), y.Sliced offset z →
      y.offsetOf z = .ok offset.toInt64 ∧ x.offsetOf z = .ok (start.toInt64 + offset.toInt64) := by
  obtain ⟨hpart, hfits⟩ := h.eq_part
  refine ⟨fun offset length hinside => ⟨?_, fun s t alignment mode => ?_, fun s alignment => ?_⟩,
    fun s t c layout offset hinside => ⟨?_, fun value => ?_⟩, h.offsetOf_eq, fun offset z hz => ?_⟩
  · exact Word.add?_eq_some_iff.mpr (toNat_add_of_inside hfits hinside).symm
  · nth_rewrite 1 [hpart]
    exact State.check_part hfits hinside mode
  · nth_rewrite 1 [hpart]
    exact State.slice_part hfits hinside
  · nth_rewrite 1 [hpart]
    exact State.get_part hfits layout hinside
  · nth_rewrite 1 [hpart]
    exact State.set_part hfits layout hinside value
  · rw [← UInt64.toInt64_add]
    exact ⟨hz.offsetOf_eq, (h.trans hz).offsetOf_eq⟩

/-- Sixteen bytes out of forty, across the end of the address space. -/
theorem slice_views_faithfully_across :
    let x := writable 0xFFFFFFFFFFFFFFE0 40
    let y := writable 0xFFFFFFFFFFFFFFF8 16
    x.Sliced 24 y ∧
    (∀ s : State, s.check 0 y 9 4 4 .write = s.check 0 x 33 4 4 .write) ∧
    (∀ (s : State) (v : UInt32), s.set 0 y (.natural .uint) 8 v = s.set 0 x (.natural .uint) 32 v) ∧
    x.offsetOf (writable 0 8) = .ok (24 + 8) := by
  have houter : (State.initial .bump).slice (writable 0xFFFFFFFFFFFFFFE0 40) 16 24 16 =
      .ok (writable 0xFFFFFFFFFFFFFFF0 24) := rfl
  have hinner : (State.initial .bump).slice (writable 0xFFFFFFFFFFFFFFF0 24) 8 16 8 =
      .ok (writable 0xFFFFFFFFFFFFFFF8 16) := rfl
  have hlast : (State.initial .bump).slice (writable 0xFFFFFFFFFFFFFFF8 16) 8 8 8 =
      .ok (writable 0 8) := rfl
  have hsliced : (writable 0xFFFFFFFFFFFFFFE0 40).Sliced 24 (writable 0xFFFFFFFFFFFFFFF8 16) :=
    (Sliced.whole.slice houter).slice hinner
  obtain ⟨hchecks, hvalues, -, hdistances⟩ := slice_views_faithfully hsliced
  refine ⟨hsliced, fun s => ?_, fun s v => ?_, (hdistances 8 _ (.slice .whole hlast)).2⟩
  · exact (hchecks 9 4 (by decide)).2.1 s 0 4 .write
  · exact (hvalues s 0 .uint (.natural .uint) 8 (by decide)).2 v

end Segment

end ScopedMemory
