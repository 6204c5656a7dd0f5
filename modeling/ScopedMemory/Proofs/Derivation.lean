import ScopedMemory.Proofs.Elements

/-! Segments made from segments.

Slices, read-only views, overlaps, elements and what allocators carve are made from a segment
(`Derived`). Whatever the steps, the result is a part of that segment, in its scope and with no more
rights (`Derived.partOf`). -/
namespace ScopedMemory

namespace Segment

/-- Some of the bytes of another segment, with no more rights. -/
structure PartOf (y x : Segment) : Prop where
  backing : y.backing = x.backing
  scope : y.scope = x.scope
  readOnly : x.readOnly = true → y.readOnly = true
  inside : ∃ offset : Word, y.address = x.address + offset ∧
    offset.toNat + y.size.toNat ≤ x.size.toNat

/-- A segment is made from another, in any number of steps. -/
inductive Derived (x : Segment) : Segment → Prop where
  | refl : Derived x x
  | readOnly {y : Segment} : Derived x y → Derived x y.asReadOnly
  | slice {y z : Segment} {s : State} {range : SliceRange} :
      Derived x y → range.slice s y = .ok z → Derived x z
  | overlap {y z other : Segment} : Derived x y → y.overlap other = some z → Derived x z
  | element {y z : Segment} {shape : Shape} {elements : Elements} {count : Nat} :
      Derived x y → y.elements shape = .ok elements → z ∈ (elements.take count).1 → Derived x z
  | carved {carver : Carver} {z : Segment} {s : State} {size alignment : Word} :
      Derived x carver.segment → (carver.carve s size alignment).1 = .ok z → Derived x z

section
variable {x y z : Segment} {s : State}

theorem PartOf.refl (x : Segment) : PartOf x x :=
  ⟨rfl, rfl, id, 0, (UInt64.add_zero _).symm, by simp⟩

theorem PartOf.trans (h : PartOf z y) (h' : PartOf y x) : PartOf z x := by
  obtain ⟨inner, hz, hfits⟩ := h.inside
  obtain ⟨outer, hy, hfits'⟩ := h'.inside
  refine ⟨h.backing.trans h'.backing, h.scope.trans h'.scope,
    fun hr => h.readOnly (h'.readOnly hr), outer + inner, ?_, ?_⟩
  · rw [hz, hy, UInt64.add_assoc]
  · have hword := UInt64.toNat_lt x.size
    rw [UInt64.toNat_add, Nat.mod_eq_of_lt (by omega)]
    omega

theorem PartOf.asReadOnly (x : Segment) : PartOf x.asReadOnly x :=
  ⟨rfl, rfl, fun _ => rfl, 0, (UInt64.add_zero _).symm, by simp [Segment.asReadOnly]⟩

theorem PartOf.part {offset size : Word} (fits : offset.toNat + size.toNat ≤ x.size.toNat) :
    PartOf (x.part offset size) x :=
  ⟨rfl, rfl, id, offset, rfl, fits⟩

/-- A part covers no more than the whole. -/
theorem PartOf.covers (h : PartOf y x) {space : Space} {address : Word}
    (hc : y.Covers space address) : x.Covers space address := by
  obtain ⟨offset, hy, hfits⟩ := h.inside
  obtain ⟨rfl, hw⟩ := hc
  rw [hy] at hw
  have hspace : y.space = x.space := by rw [Segment.space, h.backing, Segment.space]
  exact hspace ▸ covers_of_within hfits hw

/-! ### Each step gives a part -/

theorem partOf_of_slice {offset size alignment : Word} (h : s.slice x offset size alignment = .ok y) :
    PartOf y x := by
  obtain ⟨-, hfits, rfl⟩ := State.slice_ok h
  exact .part hfits

theorem partOf_of_range {range : SliceRange} (h : range.slice s x = .ok y) : PartOf y x := by
  cases range with
  | «from» offset =>
    obtain ⟨-, size, hfits, rfl⟩ := State.sliceFrom_ok (access_eq_ok.mp h)
    exact .part hfits
  | sized offset size => exact partOf_of_slice (access_eq_ok.mp h)
  | aligned offset size alignment => exact partOf_of_slice (access_eq_ok.mp h)
  | shaped offset layout =>
    obtain ⟨layout, -, h⟩ := bind_eq_ok.mp h
    exact partOf_of_slice (access_eq_ok.mp h)

theorem toNat_stop_le (x : Segment) : x.stop.toNat ≤ x.address.toNat + x.size.toNat := by
  unfold stop Word.addCapped
  cases hsum : Word.add? x.address x.size with
  | none =>
    have hbig : ¬ x.address.toNat + x.size.toNat < Word.limit := by
      intro hlt
      simp [Word.add?, hlt] at hsum
    have hlast : Word.last.toNat < Word.limit := Word.toNat_lt _
    rw [Option.getD_none]
    omega
  | some sum =>
    rw [Option.getD_some]
    exact Nat.le_of_eq (Word.add?_eq_some_iff.mp hsum).symm

theorem partOf_of_overlap (h : x.overlap y = some z) : PartOf z x := by
  unfold overlap at h
  dsimp only at h
  split at h
  · rename_i hmeet
    obtain rfl := Option.some.inj h
    rw [Bool.and_eq_true, decide_eq_true_eq] at hmeet
    have hstart : x.address.toNat ≤ (max x.address y.address).toNat := by
      show _ ≤ UInt64.toNat (if x.address ≤ y.address then y.address else x.address)
      split
      · exact UInt64.le_iff_toNat_le.mp ‹_›
      · exact Nat.le_refl _
    have hstop : (min x.stop y.stop).toNat ≤ x.stop.toNat :=
      UInt64.le_iff_toNat_le.mp Std.min_le_left
    have hlt := UInt64.lt_iff_toNat_lt.mp hmeet.2
    have hend := x.toNat_stop_le
    apply PartOf.part
    rw [UInt64.toNat_sub_of_le _ _ (UInt64.le_iff_toNat_le.mpr hstart),
      UInt64.toNat_sub_of_le _ _ (UInt64.le_of_lt hmeet.2)]
    omega
  · cases h

/-- An element is a part, however many are taken. -/
theorem partOf_of_element {shape : Shape} {e : Elements} {count : Nat}
    (h : x.elements shape = .ok e) (hy : y ∈ (e.take count).1) : PartOf y x := by
  obtain ⟨i, hi, rfl⟩ := mem_take_elements h hy
  obtain ⟨hoffset, hroom⟩ := elementOffset_room (elements_eq_ok_iff.mp h).2.2.1 hi
  exact .part (hoffset ▸ hroom)

theorem partOf_of_carve {carver : Carver} {size alignment : Word}
    (h : (carver.carve s size alignment).1 = .ok y) :
    s.isAlive carver.segment.scope = true ∧ PartOf y carver.segment := by
  cases carver with
  | slicing x used =>
    simp only [Carver.carve] at h
    split at h
    · rename_i slice used' hbump
      obtain rfl := Except.ok.inj h
      unfold Carver.bump at hbump
      split at hbump
      · split at hbump
        · obtain ⟨z, hz, hbump⟩ := bind_eq_ok.mp hbump
          obtain ⟨rfl, -⟩ := Prod.mk.inj (pure_eq_ok.mp hbump)
          have hslice := liftAccess_eq_ok.mp hz
          exact ⟨(State.slice_ok hslice).1, partOf_of_slice hslice⟩
        · simp at hbump
      · simp at hbump
    · cases h
  | front x =>
    simp only [Carver.carve, Carver.takeFront] at h
    split at h
    · cases h
    · have hslice := liftAccess_eq_ok.mp h
      exact ⟨(State.slice_ok hslice).1, partOf_of_slice hslice⟩

theorem Derived.trans (h : Derived x y) (h' : Derived y z) : Derived x z := by
  induction h' with
  | refl => exact h
  | readOnly _ ih => exact ih.readOnly
  | slice _ hslice ih => exact ih.slice hslice
  | overlap _ hoverlap ih => exact ih.overlap hoverlap
  | element _ helements hz ih => exact ih.element helements hz
  | carved _ hcarve ih => exact ih.carved hcarve

/-- **Whatever is made from a segment is a part of it.** -/
theorem Derived.partOf (h : Derived x y) : PartOf y x := by
  induction h with
  | refl => exact .refl x
  | readOnly _ ih => exact (PartOf.asReadOnly _).trans ih
  | slice _ hslice ih => exact (partOf_of_range hslice).trans ih
  | overlap _ hoverlap ih => exact (partOf_of_overlap hoverlap).trans ih
  | element _ helements hz ih => exact (partOf_of_element helements hz).trans ih
  | carved _ hcarve ih => exact (partOf_of_carve hcarve).2.trans ih

/-- **Derived segments never gain rights.** However many steps lie between them, what is made from a
segment has its backing and its scope, is read-only if it is, and lies inside of it: the offset
counts around the end of the address space, the bound does not. -/
theorem derived_gains_nothing (h : Derived x y) :
    y.backing = x.backing ∧ y.scope = x.scope ∧ (x.readOnly = true → y.readOnly = true) ∧
      ∃ offset : Word, y.address = x.address + offset ∧
        offset.toNat + y.size.toNat ≤ x.size.toNat :=
  ⟨h.partOf.backing, h.partOf.scope, h.partOf.readOnly, h.partOf.inside⟩

end

/-- A writable native segment of the process. -/
def writable (address size : Word) : Segment := ⟨address, size, .native, false, processScope⟩

/-- What a carver takes from the bytes that an element beyond the end of the address space shares
with another segment. -/
theorem derived_gains_nothing_across :
    ∃ z, Derived (writable 0xFFFFFFFFFFFFFFE0 64) z ∧ z = (writable 10 2).asReadOnly ∧
      z.backing = .native ∧ z.scope = processScope ∧
      ∃ offset : Word, z.address = 0xFFFFFFFFFFFFFFE0 + offset ∧
        offset.toNat + z.size.toNat ≤ 64 := by
  have hback : (SliceRange.from 24).slice (.initial .bump) (writable 0xFFFFFFFFFFFFFFE0 64) =
      .ok (writable 0xFFFFFFFFFFFFFFF8 40) := rfl
  have helements : (writable 0xFFFFFFFFFFFFFFF8 40).elements ⟨8, .one⟩ =
      .ok ⟨writable 0xFFFFFFFFFFFFFFF8 40, 8, 0⟩ := rfl
  have helement : writable 8 8 ∈
      (Elements.take ⟨writable 0xFFFFFFFFFFFFFFF8 40, 8, 0⟩ 3).1 := by decide
  have hshared : (writable 8 8).overlap ⟨4, 8, .mapped 0, true, 7⟩ = some (writable 8 4) := rfl
  have hcarved : ((Carver.slicing (writable 8 4).asReadOnly 1).carve (.initial .bump) 2 2).1 =
      .ok (writable 10 2).asReadOnly := rfl
  have hderived : Derived (writable 0xFFFFFFFFFFFFFFE0 64) (writable 10 2).asReadOnly :=
    (((Derived.refl.slice hback).element helements helement).overlap hshared).readOnly.carved hcarved
  obtain ⟨hbacking, hscope, -, hinside⟩ := derived_gains_nothing hderived
  exact ⟨_, hderived, rfl, hbacking, hscope, hinside⟩

end Segment

end ScopedMemory
