import ScopedMemory.Proofs.Derivation

/-! What two segments share.

A segment whose end is an address is a range of addresses (`Segment.covers_iff`). The overlap of two
such segments of one memory is the intersection of their ranges, seen through the first
(`Segment.inRange_overlap`). Ends are capped at the largest word, and below it the cap does nothing;
that is all that the ends are needed for. -/
namespace ScopedMemory

/-- Backed by the same memory: by one array, or by memory off the heap, mapped or not. -/
def Backing.Same : Backing → Backing → Prop
  | .heap array, .heap other => array.id = other.id
  | .heap _, _ | _, .heap _ => False
  | .native, _ | .mapped _, _ => True

theorem Backing.space_eq_iff (b b' : Backing) : b.space = b'.space ↔ b.Same b' := by
  cases b <;> cases b' <;> simp [space, Same]

instance (b b' : Backing) : Decidable (b.Same b') := decidable_of_iff _ (Backing.space_eq_iff b b')

namespace Segment

/-- The address is one of the segment's, counted without going round. -/
def InRange (x : Segment) (address : Word) : Prop :=
  x.address.toNat ≤ address.toNat ∧ address.toNat < x.address.toNat + x.size.toNat

/-- The end of the segment is an address. -/
def Ends (x : Segment) : Prop := x.address.toNat + x.size.toNat < Word.limit

section
variable {x y z : Segment}

theorem sharesMemory_iff (x y : Segment) : x.sharesMemory y = true ↔ x.backing.Same y.backing := by
  rw [sharesMemory, decide_eq_true_iff]
  exact Backing.space_eq_iff x.backing y.backing

theorem toNat_stop (h : x.Ends) : x.stop.toNat = x.address.toNat + x.size.toNat := by
  have hsum : (x.address + x.size).toNat = x.address.toNat + x.size.toNat :=
    (UInt64.toNat_add _ _).trans (Nat.mod_eq_of_lt h)
  have hadd : Word.add? x.address x.size = some (x.address + x.size) := if_pos h
  rw [stop, Word.addCapped, hadd, Option.getD_some, hsum]

/-- A segment with an end covers a range of its space. -/
theorem covers_iff (h : x.Ends) {space : Space} {address : Word} :
    x.Covers space address ↔ space = x.space ∧ x.InRange address := by
  have hword := Word.toNat_lt address
  have hfirst := Word.toNat_lt x.address
  unfold Ends Word.limit at *
  apply and_congr_right
  intro _
  rw [Memory.within, decide_eq_true_iff, InRange, UInt64.toNat_sub]
  omega

/-- A part of a segment with an end lies in its range. -/
theorem PartOf.bounds (h : z.PartOf x) (hx : x.Ends) :
    x.address.toNat ≤ z.address.toNat ∧
      z.address.toNat + z.size.toNat ≤ x.address.toNat + x.size.toNat := by
  obtain ⟨offset, haddress, hfits⟩ := h.inside
  unfold Ends Word.limit at hx
  have hsum : z.address.toNat = x.address.toNat + offset.toNat := by
    rw [haddress, UInt64.toNat_add]
    exact Nat.mod_eq_of_lt (by omega)
  omega

/-! ### The range of the overlap -/

/-- The overlap, by its first address and the address after its last. -/
theorem overlap_eq (x y : Segment) :
    x.overlap y =
      if x.backing.Same y.backing ∧ max x.address y.address < min x.stop y.stop then
        some { x with
          address := max x.address y.address
          size := min x.stop y.stop - max x.address y.address }
      else none := by
  have hstart : x.address + (max x.address y.address - x.address) = max x.address y.address := by
    grind
  simp only [overlap, part, hstart, Bool.and_eq_true, decide_eq_true_eq, sharesMemory_iff]

/-- Two ranges meet from the later start to the earlier end. -/
theorem inRange_both_iff (hx : x.Ends) (hy : y.Ends) (address : Word) :
    x.InRange address ∧ y.InRange address ↔
      max x.address y.address ≤ address ∧ address < min x.stop y.stop := by
  rw [UInt64.le_iff_toNat_le, UInt64.lt_iff_toNat_lt, Word.toNat_max, Word.toNat_min, toNat_stop hx,
    toNat_stop hy]
  unfold InRange
  omega

/-- A word between two others is one of the range from the first to the second. -/
theorem inRange_of_bounds {start stop : Word} (h : start < stop) (address : Word) :
    ({ x with address := start, size := stop - start } : Segment).InRange address ↔
      start ≤ address ∧ address < stop := by
  have hlt := UInt64.lt_iff_toNat_lt.mp h
  have hsize := UInt64.toNat_sub_of_le stop start (UInt64.le_of_lt h)
  rw [InRange, hsize, UInt64.le_iff_toNat_le, UInt64.lt_iff_toNat_lt]
  dsimp only
  omega

/-- **The overlap is the intersection** of the ranges. -/
theorem inRange_overlap (hx : x.Ends) (hy : y.Ends) (h : x.overlap y = some z) (address : Word) :
    z.InRange address ↔ x.InRange address ∧ y.InRange address := by
  rw [overlap_eq] at h
  split at h
  · rename_i hmeet
    rw [← Option.some.inj h, inRange_of_bounds hmeet.2, inRange_both_iff hx hy]
  · cases h

/-- There is none exactly if no byte is shared. -/
theorem overlap_eq_none_iff (hx : x.Ends) (hy : y.Ends) :
    x.overlap y = none ↔
      ¬ x.backing.Same y.backing ∨ ∀ address, ¬ (x.InRange address ∧ y.InRange address) := by
  have hmeet : max x.address y.address < min x.stop y.stop ↔
      ∃ address, x.InRange address ∧ y.InRange address := by
    constructor
    · intro hlt
      exact ⟨_, (inRange_both_iff hx hy _).mpr ⟨UInt64.le_refl _, hlt⟩⟩
    · rintro ⟨address, hboth⟩
      have hbounds := (inRange_both_iff hx hy address).mp hboth
      exact UInt64.lt_of_le_of_lt hbounds.1 hbounds.2
  rw [overlap_eq, ite_eq_right_iff, imp_iff_not (Option.some_ne_none _), hmeet, not_and_or, not_exists]

/-- Segments that overlap are backed by the same memory, and the overlap is the first's. -/
theorem overlap_keeps (h : x.overlap y = some z) :
    x.backing.Same y.backing ∧ z.backing = x.backing ∧ z.scope = x.scope ∧
      z.readOnly = x.readOnly := by
  rw [overlap_eq] at h
  split at h
  · rename_i hmeet
    rw [← Option.some.inj h]
    exact ⟨hmeet.1, rfl, rfl, rfl⟩
  · cases h

/-- It has the bytes that both have. -/
theorem covers_overlap (hx : x.Ends) (hy : y.Ends) (h : x.overlap y = some z) (space : Space)
    (address : Word) :
    z.Covers space address ↔ x.Covers space address ∧ y.Covers space address := by
  have hends : z.Ends := Nat.lt_of_le_of_lt ((partOf_of_overlap h).bounds hx).2 hx
  have hkeeps := overlap_keeps h
  have hz : z.space = x.space := congrArg Backing.space hkeeps.2.1
  have hy' : y.space = x.space := ((Backing.space_eq_iff _ _).mpr hkeeps.1).symm
  rw [covers_iff hends, covers_iff hx, covers_iff hy, hz, hy', inRange_overlap hx hy h]
  exact and_and_left

/-! ### Both ways, and parts -/

/-- Seen from either side, the overlap lies in the same place. -/
theorem overlap_comm (x y : Segment) :
    (x.overlap y).map (fun z => (z.address, z.size)) =
      (y.overlap x).map fun z => (z.address, z.size) := by
  have hmax : max y.address x.address = max x.address y.address := by
    apply UInt64.toNat_inj.mp
    rw [Word.toNat_max, Word.toNat_max, Nat.max_comm]
  have hmin : min y.stop x.stop = min x.stop y.stop := by
    apply UInt64.toNat_inj.mp
    rw [Word.toNat_min, Word.toNat_min, Nat.min_comm]
  have hsame : y.backing.Same x.backing ↔ x.backing.Same y.backing := by
    rw [← Backing.space_eq_iff, ← Backing.space_eq_iff, eq_comm]
  rw [overlap_eq, overlap_eq, hmax, hmin]
  simp only [hsame]
  split <;> rfl

/-- **What is made from a segment** is all of its overlap with that segment. -/
theorem PartOf.overlap_eq_some (h : z.PartOf x) (hx : x.Ends) (some_bytes : z.size ≠ 0) :
    x.overlap z = some { z with readOnly := x.readOnly } := by
  have hbounds := h.bounds hx
  have hz : z.Ends := Nat.lt_of_le_of_lt hbounds.2 hx
  have hpositive : 0 < z.size.toNat := by
    apply Nat.pos_of_ne_zero
    intro hzero
    exact some_bytes (UInt64.toNat_inj.mp hzero)
  have hstart : max x.address z.address = z.address := by
    apply UInt64.toNat_inj.mp
    rw [Word.toNat_max, Nat.max_eq_right hbounds.1]
  have hstop : min x.stop z.stop = z.stop := by
    apply UInt64.toNat_inj.mp
    rw [Word.toNat_min, toNat_stop hx, toNat_stop hz, Nat.min_eq_right hbounds.2]
  have hlt : z.address < z.stop := by
    rw [UInt64.lt_iff_toNat_lt, toNat_stop hz]
    omega
  have hsize : z.stop - z.address = z.size := by
    apply UInt64.toNat_inj.mp
    rw [UInt64.toNat_sub_of_le _ _ (UInt64.le_of_lt hlt), toNat_stop hz, Nat.add_sub_cancel_left]
  have hsame : x.backing.Same z.backing := by
    rw [h.backing, ← Backing.space_eq_iff]
  rw [overlap_eq, hstart, hstop, if_pos ⟨hsame, hlt⟩, hsize, ← h.backing, ← h.scope]

/-- **An overlap is an intersection of ranges**, and there is none where that is empty. It lies in
the same place whichever segment is asked, and has the backing, the scope and the read-only mark of
the one that is. A segment overlaps all of itself, and of what is made from it. -/
theorem overlap_is_intersection (hx : x.Ends) (hy : y.Ends) :
    (x.overlap y = none ↔
      ¬ x.backing.Same y.backing ∨ ∀ address, ¬ (x.InRange address ∧ y.InRange address)) ∧
    (∀ z, x.overlap y = some z →
      (∀ address, z.InRange address ↔ x.InRange address ∧ y.InRange address) ∧
      (∀ space address, z.Covers space address ↔ x.Covers space address ∧ y.Covers space address) ∧
      z.backing = x.backing ∧ z.scope = x.scope ∧ z.readOnly = x.readOnly) ∧
    (x.overlap y).map (fun z => (z.address, z.size)) =
      (y.overlap x).map (fun z => (z.address, z.size)) ∧
    (x.size ≠ 0 → x.overlap x = some x) ∧
    ∀ z, x.Derived z → z.size ≠ 0 → x.overlap z = some { z with readOnly := x.readOnly } := by
  refine ⟨overlap_eq_none_iff hx hy, ?_, overlap_comm x y, (PartOf.refl x).overlap_eq_some hx, ?_⟩
  · intro z hz
    exact ⟨inRange_overlap hx hy hz, covers_overlap hx hy hz, (overlap_keeps hz).2⟩
  · intro z hz
    exact hz.partOf.overlap_eq_some hx

end

/-- Thirty-one bytes that end with the last address but one share their second half with a mapping,
and with their own slice there. -/
theorem overlap_is_intersection_mapped :
    let x : Segment := ⟨0xFFFFFFFFFFFFFFE0, 31, .native, false, processScope⟩
    let y : Segment := ⟨0xFFFFFFFFFFFFFFF0, 15, .mapped 0, true, 1⟩
    let z : Segment := ⟨0xFFFFFFFFFFFFFFF0, 15, .native, false, processScope⟩
    x.Ends ∧ y.Ends ∧ x.overlap y = some z ∧
    (∀ space address, z.Covers space address ↔ x.Covers space address ∧ y.Covers space address) ∧
    (y.overlap x).map (fun w => (w.address, w.size)) = some (z.address, z.size) ∧
    x.overlap x = some x ∧ x.Derived z ∧ x.overlap z = some z := by
  intro x y z
  have hx : x.Ends := by unfold Ends; decide
  have hy : y.Ends := by unfold Ends; decide
  have hz : x.overlap y = some z := by decide +kernel
  have hslice : (SliceRange.aligned 16 15 16).slice (.initial .bump) x = .ok z := by decide +kernel
  have hderived : x.Derived z := Derived.refl.slice hslice
  have hall := overlap_is_intersection hx hy
  refine ⟨hx, hy, hz, (hall.2.1 z hz).2.1, ?_, hall.2.2.2.1 (by decide), hderived,
    hall.2.2.2.2 z hderived (by decide)⟩
  rw [← hall.2.2.1, hz]
  rfl

end Segment

end ScopedMemory
