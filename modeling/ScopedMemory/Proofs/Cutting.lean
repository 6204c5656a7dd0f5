import ScopedMemory.Proofs.Bumping

/-! Elements and the layout that they are cut by.

A segment is cut at multiples of the layout's size, and only the first element's address is looked
at. Cut out on its own, an element is looked at again, at its own address. The two agree on all
elements exactly where the layout can be repeated without a gap, which a sequence requires of it
and the cutting does not (`elements_usable_in_sequence`). -/
namespace ScopedMemory

/-! ### Layouts that can be repeated -/

theorem Shape.size_mod_eq_zero_iff {element : Shape} : element.size % element.alignment.bytes = 0 ↔
    element.alignment.bytes.toNat ∣ element.size.toNat := by
  rw [Nat.dvd_iff_mod_eq_zero, ← UInt64.toNat_mod, ← UInt64.toNat_inj]
  rfl

theorem Shape.sequence_eq_ok_iff {count : Word} {element whole : Shape} :
    Shape.sequence count element = .ok whole ↔
      element.alignment.bytes.toNat ∣ element.size.toNat ∧
        count.toNat * element.size.toNat = whole.size.toNat ∧ element.alignment = whole.alignment := by
  unfold sequence
  split
  · rename_i hne
    simp [mt size_mod_eq_zero_iff.mpr hne]
  · rename_i heven
    rw [← Word.mul?_eq_some_iff, ← size_mod_eq_zero_iff, not_not.mp heven]
    cases hproduct : count.mul? element.size with
    | none => simp
    | some size =>
      obtain ⟨wholeSize, wholeAlignment⟩ := whole
      simp

/-- Values and addresses, as opposed to shapes that were put together. -/
def Layout.isScalar : Layout → Bool
  | .value .. | .address _ => true
  | .shape _ => false

/-- A scalar's size is a power of two, so an alignment that fits into it divides it. -/
theorem Layout.alignment_dvd {layout : Layout} (scalar : layout.isScalar = true)
    (fits : layout.toShape.alignment.bytes ≤ layout.toShape.size) :
    layout.toShape.alignment.bytes.toNat ∣ layout.toShape.size.toNat := by
  rw [Alignment.toNat_bytes]
  cases layout with
  | value c layout => exact c.toNat_width ▸ ValueLayout.alignment_dvd fits
  | address layout =>
    -- an address is as wide as a word, and is aligned like one
    exact @ValueLayout.alignment_dvd .ulong ⟨layout.alignment, layout.order, none⟩ fits
  | shape s => cases scalar

/-! ### Cutting -/

namespace Segment
variable {x : Segment} {shape : Shape} {e : Elements}

theorem getElem?_take_elements (h : x.elements shape = .ok e) {i : Nat} {slice : Segment} :
    (e.take (x.elementCount shape)).1[i]? = some slice ↔
      i < x.elementCount shape ∧ slice = x.part (elementOffset shape i) shape.size := by
  rw [(take_elements h).1]
  exact getElem?_map_element

/-- As many elements as cover the segment never overflow, so a sequence of them is refused for its
gaps alone. -/
theorem sequence_covers_iff (whole : shape.size.toNat ∣ x.size.toNat) :
    Shape.sequence (UInt64.ofNat (x.elementCount shape)) shape = .ok ⟨x.size, shape.alignment⟩ ↔
      shape.alignment.bytes.toNat ∣ shape.size.toNat := by
  have hcount : (UInt64.ofNat (x.elementCount shape)).toNat = x.elementCount shape :=
    UInt64.toNat_ofNat_of_lt' (Nat.lt_of_le_of_lt (Nat.div_le_self _ _) (Word.toNat_lt x.size))
  rw [Shape.sequence_eq_ok_iff, hcount]
  exact and_iff_left ⟨Nat.div_mul_cancel whole, rfl⟩

/-- Behind an aligned start, the offset alone decides. -/
theorem checkAlignment_behind {a : Alignment} (start : x.checkAlignment 0 a.bytes = .ok ())
    (offset : Word) : x.checkAlignment offset a.bytes =
      if a.bytes.toNat ∣ offset.toNat then .ok ()
      else .error (.misaligned (x.address + offset) a.bytes) := by
  obtain ⟨hwide, haligned⟩ := checkAlignment_eq_ok.mp start
  have hstart : a.bytes.toNat ∣ x.address.toNat := Word.offAlignment_sum.mp haligned
  have hok : x.checkAlignment offset a.bytes = .ok () ↔ a.bytes.toNat ∣ offset.toNat := by
    rw [checkAlignment_eq_ok, Word.offAlignment_sum, Nat.dvd_add_right hstart]
    exact and_iff_right hwide
  split
  · exact hok.mpr ‹_›
  · exact checkAlignment_eq_error (mt hok.mp ‹_›)

end Segment

namespace State
variable {s : State} {x : Segment} {shape : Shape} {e : Segment.Elements}

/-- The element of index `i`, cut out on its own. -/
def sliceElement (s : State) (x : Segment) (shape : Shape) (i : Nat) : Except AccessError Segment :=
  s.slice x (Segment.elementOffset shape i) shape.size shape.alignment.bytes

/-- In a live scope, and inside of the segment, only the alignment is left to go wrong. -/
theorem slice_inside {offset size : Word} {a : Alignment} (alive : s.isAlive x.scope = true)
    (inside : offset.toNat + size.toNat ≤ x.size.toNat) :
    s.slice x offset size a.bytes =
      (x.checkAlignment offset a.bytes).map fun _ => x.part offset size := by
  have halive : s.checkAlive x.scope = .ok () := checkAlive_eq_ok.mpr alive
  have hbounds : x.checkBounds offset size = .ok () := Segment.checkBounds_eq_ok.mpr inside
  rw [slice, Alignment.ofBytes_bytes, halive, hbounds]
  cases x.checkAlignment offset a.bytes <;> rfl

theorem sliceElement_eq (alive : s.isAlive x.scope = true) (h : x.elements shape = .ok e) {i : Nat}
    (inside : i < x.elementCount shape) :
    s.sliceElement x shape i =
      if shape.alignment.bytes.toNat ∣ i * shape.size.toNat then
        .ok (x.part (Segment.elementOffset shape i) shape.size)
      else .error (.misaligned (x.address + Segment.elementOffset shape i) shape.alignment.bytes) := by
  obtain ⟨-, -, hwhole, hstart, -⟩ := Segment.elements_eq_ok_iff.mp h
  obtain ⟨hoffset, hroom⟩ := Segment.elementOffset_room hwhole inside
  rw [sliceElement, slice_inside alive (hoffset ▸ hroom), Segment.checkAlignment_behind hstart, hoffset]
  split <;> rfl

/-- Every element is what is cut out there exactly if there is one at most, or the layout's size is
a multiple of its alignment. -/
theorem sliceElement_all_iff (alive : s.isAlive x.scope = true) (h : x.elements shape = .ok e) :
    (∀ i slice, (e.take (x.elementCount shape)).1[i]? = some slice →
        s.sliceElement x shape i = .ok slice) ↔
      x.elementCount shape ≤ 1 ∨ shape.alignment.bytes.toNat ∣ shape.size.toNat := by
  constructor
  · intro husable
    rcases Nat.lt_or_ge 1 (x.elementCount shape) with hmany | hfew
    · -- the second element starts one size behind an aligned address
      have hsecond := husable 1 _ ((Segment.getElem?_take_elements h).mpr ⟨hmany, rfl⟩)
      rw [sliceElement_eq alive h hmany, Nat.one_mul] at hsecond
      by_contra hneither
      rw [if_neg (mt Or.inr hneither)] at hsecond
      cases hsecond
    · exact .inl hfew
  · intro hdvd i slice hi
    obtain ⟨hinside, rfl⟩ := (Segment.getElem?_take_elements h).mp hi
    rw [sliceElement_eq alive h hinside, if_pos]
    rcases hdvd with hfew | hdvd
    · obtain rfl : i = 0 := by omega
      rw [Nat.zero_mul]
      exact Nat.dvd_zero _
    · exact Nat.dvd_mul_left_of_dvd hdvd i

/-- **Elements are usable as what they were cut by** where their offset is a multiple of the
alignment, and are refused at their address where it is not. So all are exactly if there is at most
one, or if a sequence of them makes up the segment, as it does of values. -/
theorem elements_usable_in_sequence {layout : Layout} (alive : s.isAlive x.scope = true)
    (h : x.elements layout.toShape = .ok e) :
    let shape := layout.toShape
    let count := x.elementCount shape
    let slices := (e.take count).1
    slices.length = count ∧ (e.take count).2.next? = none ∧
    (∀ i slice, slices[i]? = some slice → s.sliceElement x shape i =
      if shape.alignment.bytes.toNat ∣ i * shape.size.toNat then .ok slice
      else .error (.misaligned slice.address shape.alignment.bytes)) ∧
    ((∀ i slice, slices[i]? = some slice → s.sliceElement x shape i = .ok slice) ↔
      count ≤ 1 ∨ Shape.sequence (UInt64.ofNat count) shape = .ok ⟨x.size, shape.alignment⟩) ∧
    (layout.isScalar = true →
      ∀ i slice, slices[i]? = some slice → s.sliceElement x shape i = .ok slice) := by
  intro shape count slices
  obtain ⟨-, hfits, hwhole, -, -⟩ := Segment.elements_eq_ok_iff.mp h
  obtain ⟨hparts, hlast⟩ := Segment.take_elements h
  have hall := sliceElement_all_iff alive h
  refine ⟨?_, hlast, fun i slice hi => ?_, ?_, fun scalar => hall.mpr (.inr ?_)⟩
  · exact (congrArg List.length hparts).trans (by rw [List.length_map, List.length_range])
  · obtain ⟨hinside, rfl⟩ := (Segment.getElem?_take_elements h).mp hi
    exact sliceElement_eq alive h hinside
  · exact hall.trans (or_congr_right (Segment.sequence_covers_iff hwhole).symm)
  · exact Layout.alignment_dvd scalar hfits

/-- An array of three longs. -/
def threeLongs : Segment := ⟨0, 24, .heap ⟨0, .long, 3⟩, false, processScope⟩

/-- Twelve bytes, aligned like a long. -/
def twelveBytes : Shape := ⟨12, Carrier.long.alignment⟩

/-- Of the two elements the second starts in the middle of a long. -/
theorem elements_usable_in_sequence_twelve :
    (initial .bump).isAlive threeLongs.scope = true ∧
    threeLongs.elements twelveBytes = .ok ⟨threeLongs, 12, 0⟩ ∧
    (Segment.Elements.take ⟨threeLongs, 12, 0⟩ 2).1 = [threeLongs.part 0 12, threeLongs.part 12 12] ∧
    (initial .bump).sliceElement threeLongs twelveBytes 0 = .ok (threeLongs.part 0 12) ∧
    (initial .bump).sliceElement threeLongs twelveBytes 1 = .error (.misaligned 12 8) ∧
    Shape.sequence 2 twelveBytes ≠ .ok ⟨24, Carrier.long.alignment⟩ := by
  have halive : (initial .bump).isAlive threeLongs.scope = true := rfl
  have helements : threeLongs.elements (Layout.shape twelveBytes).toShape = .ok ⟨threeLongs, 12, 0⟩ :=
    Segment.elements_eq_ok_iff.mpr ⟨by decide, by decide, by decide, by decide, rfl⟩
  obtain ⟨-, -, heach, hall, -⟩ := elements_usable_in_sequence halive helements
  have hsecond := (heach 1 (threeLongs.part 12 12) (by decide)).trans (if_neg (by decide))
  refine ⟨halive, helements, by decide, ?_, hsecond, fun hsequence => ?_⟩
  · exact (heach 0 (threeLongs.part 0 12) (by decide)).trans (if_pos (by decide))
  · have husable := hall.mpr (.inr hsequence) 1 (threeLongs.part 12 12) (by decide)
    exact absurd (hsecond.symm.trans husable) (by simp)

end State

end ScopedMemory
