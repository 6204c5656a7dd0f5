import ScopedMemory.Proofs.Derivation

/-! A segment and its elements.

Elements come one at a time, each with the elements that are left after it. They never leave the
multiples of the element size: however many came, what is left is the elements from an index on
(`Segment.yields_elementsFrom_iff`), because the size divides the segment's and the cursor stops at
its end. A byte belongs to the element whose index is the byte's offset divided by the size, so
every byte of the segment belongs to one element and to no other. -/
namespace ScopedMemory

namespace Segment

/-- Slices that come one after the other, and the elements that are left after them. -/
inductive Elements.Yields : Elements → List Segment → Elements → Prop where
  | nothing (e : Elements) : Yields e [] e
  | next {e rest last : Elements} {first : Segment} {more : List Segment} :
      e.next? = some (first, rest) → Yields rest more last → Yields e (first :: more) last

/-- The two segments have no byte in common. -/
def Disjoint (y z : Segment) : Prop :=
  ∀ space address, y.Covers space address → ¬ z.Covers space address

/-! ### Runs -/

/-- What is taken is what comes. -/
theorem Elements.yields_take (e : Elements) (count : Nat) :
    e.Yields (e.take count).1 (e.take count).2 := by
  induction count generalizing e with
  | zero => exact .nothing e
  | succ count ih =>
    rw [Elements.take]
    split
    · exact .nothing e
    · exact .next ‹_› (ih _)

section
variable {x : Segment} {shape : Shape} {i : Nat} (whole : shape.size.toNat ∣ x.size.toNat)
  (positive : 0 < shape.size.toNat)
include whole positive

/-- The elements from an index on come as they are asked for, until the last. -/
theorem yields_elementsFrom (i count : Nat) (h : i + count ≤ x.elementCount shape) :
    (x.elementsFrom shape i).Yields ((List.range' i count).map (x.element shape))
      (x.elementsFrom shape (i + count)) := by
  have htake := (x.elementsFrom shape i).yields_take count
  rw [take_elementsFrom whole positive (by omega), Nat.min_eq_left (by omega)] at htake
  exact htake

/-- **Every run**: nothing else comes, and what is left is the elements from a later index on. -/
theorem yields_elementsFrom_iff {slices : List Segment} {now : Elements}
    (h : i ≤ x.elementCount shape) :
    (x.elementsFrom shape i).Yields slices now ↔ ∃ count, i + count ≤ x.elementCount shape ∧
      slices = (List.range' i count).map (x.element shape) ∧ now = x.elementsFrom shape (i + count) := by
  constructor
  · intro hrun
    -- along the run, the index goes up by one with every slice
    generalize hstart : x.elementsFrom shape i = e at hrun
    induction hrun generalizing i with
    | nothing e => exact ⟨0, h, rfl, hstart.symm⟩
    | next hnext _ ih =>
      rw [← hstart, next?_elementsFrom whole positive h] at hnext
      split at hnext
      · rename_i hlt
        obtain ⟨rfl, hrest⟩ := Prod.mk.inj (Option.some.inj hnext)
        obtain ⟨count, hroom, rfl, rfl⟩ := ih hlt hrest
        refine ⟨count + 1, by omega, ?_, ?_⟩
        · rw [List.range'_succ, List.map_cons]
        · rw [show i + 1 + count = i + (count + 1) by omega]
      · cases hnext
  · rintro ⟨count, hroom, rfl, rfl⟩
    exact yields_elementsFrom whole positive i count hroom

/-- Whatever came so far, the rest of the elements is left, is announced, and is reached without an
overflow. -/
theorem Elements.Yields.left {front : List Segment} {now : Elements}
    (h : (x.elementsFrom shape 0).Yields front now) :
    ∃ back, front ++ back = (List.range (x.elementCount shape)).map (x.element shape) ∧
      now.Yields back (x.elementsFrom shape (x.elementCount shape)) ∧
      now.length.toNat = back.length ∧ now.next ≤ x.size ∧
      ∀ slice rest, now.next? = some (slice, rest) → now.next.add? now.size = some rest.next := by
  obtain ⟨count, hroom, rfl, rfl⟩ :=
    (yields_elementsFrom_iff whole positive (Nat.zero_le _)).mp h
  rw [Nat.zero_add] at hroom ⊢
  obtain ⟨left, hleft⟩ := Nat.exists_eq_add_of_le hroom
  refine ⟨(List.range' count left).map (x.element shape), ?_, ?_, ?_, ?_, fun slice rest hnext => ?_⟩
  · have happend := List.range'_append_1 (s := 0) (m := count) (n := left)
    rw [Nat.zero_add] at happend
    rw [← List.map_append, happend, hleft, List.range_eq_range']
  · rw [hleft]
    exact yields_elementsFrom whole positive count left (Nat.le_of_eq hleft.symm)
  · rw [length_elementsFrom whole hroom, List.length_map, List.length_range', hleft,
      Nat.add_sub_cancel_left]
  · obtain ⟨hoffset, hle⟩ := toNat_elementOffset whole hroom
    exact UInt64.le_iff_toNat_le.mpr (Nat.le_trans (Nat.le_of_eq hoffset) hle)
  · rw [next?_elementsFrom whole positive hroom] at hnext
    split at hnext
    · obtain ⟨-, rfl⟩ := Prod.mk.inj (Option.some.inj hnext)
      exact add?_elementOffset whole ‹_›
    · cases hnext

end

/-! ### The bytes -/

/-- A part has the bytes between its start and its end, counted from the start of the whole. -/
theorem covers_part_iff {x : Segment} {space : Space} {address offset size : Word}
    (fits : offset.toNat + size.toNat ≤ x.size.toNat) :
    (x.part offset size).Covers space address ↔ space = x.space ∧
      offset.toNat ≤ (address - x.address).toNat ∧
      (address - x.address).toNat < offset.toNat + size.toNat := by
  refine and_congr_right fun _ => ?_
  constructor
  · intro hwithin
    have hsplit := sub_toNat_of_within hwithin fits (Word.toNat_lt x.size)
    have hlt : (address - (x.address + offset)).toNat < size.toNat := decide_eq_true_iff.mp hwithin
    omega
  · rintro ⟨hstart, hend⟩
    have hback : (address - (x.address + offset)).toNat =
        (address - x.address).toNat - offset.toNat := by
      rw [← UInt64.toNat_sub_of_le _ _ (UInt64.le_iff_toNat_le.mpr hstart)]
      congr 1
      grind
    show Memory.within (x.address + offset) size.toNat address = true
    rw [Memory.within, decide_eq_true_eq, hback]
    omega

section
variable {x : Segment} {shape : Shape} {space : Space} {address : Word}
  (whole : shape.size.toNat ∣ x.size.toNat) (positive : 0 < shape.size.toNat)
include whole positive

/-- **A byte belongs to the element whose index is its offset divided by the size.** -/
theorem covers_element_iff {i : Nat} (h : i < x.elementCount shape) :
    (x.element shape i).Covers space address ↔
      x.Covers space address ∧ (address - x.address).toNat / shape.size.toNat = i := by
  obtain ⟨hoffset, hroom⟩ := elementOffset_room whole h
  rw [element, covers_part_iff (hoffset ▸ hroom), hoffset, Nat.div_eq_iff positive]
  unfold Covers Memory.within
  rw [decide_eq_true_eq]
  constructor
  · rintro ⟨hspace, hstart, hend⟩
    exact ⟨⟨hspace, by omega⟩, by omega, by omega⟩
  · rintro ⟨⟨hspace, -⟩, hstart, hend⟩
    exact ⟨hspace, by omega, by omega⟩

/-- Elements of different indices share no byte. -/
theorem disjoint_element {i j : Nat} (hi : i < x.elementCount shape)
    (hj : j < x.elementCount shape) (hne : i ≠ j) :
    Disjoint (x.element shape i) (x.element shape j) := by
  intro space address hleft hright
  have hileft := ((covers_element_iff whole positive hi).mp hleft).2
  have hjright := ((covers_element_iff whole positive hj).mp hright).2
  exact hne (hileft.symm.trans hjright)

/-- Every byte of the segment is a byte of one of its elements. -/
theorem covers_iff_element : x.Covers space address ↔
    ∃ i < x.elementCount shape, (x.element shape i).Covers space address := by
  constructor
  · intro hcovers
    have hlt : (address - x.address).toNat < x.size.toNat := by
      simpa [Memory.within] using hcovers.2
    have hindex : (address - x.address).toNat / shape.size.toNat < x.elementCount shape := by
      rw [Nat.div_lt_iff_lt_mul positive, elementCount, Nat.div_mul_cancel whole]
      exact hlt
    exact ⟨_, hindex, (covers_element_iff whole positive hindex).mpr ⟨hcovers, rfl⟩⟩
  · rintro ⟨i, hi, hcovers⟩
    exact ((covers_element_iff whole positive hi).mp hcovers).1

end

/-- **The elements of a segment partition it.** There are as many as fit. Each starts where the one
before ends, no two share a byte, and every byte of the segment is one of theirs. After any of them
those announced are those that are left, and the cursor does not overflow. -/
theorem elements_partition {x : Segment} {shape : Shape} {e : Elements}
    (h : x.elements shape = .ok e) :
    ∃ slices last, e.Yields slices last ∧ last.next? = none ∧
      slices.length = x.size.toNat / shape.size.toNat ∧
      (∀ i slice, slices[i]? = some slice →
        ∃ offset : Word, offset.toNat = i * shape.size.toNat ∧ slice = x.part offset shape.size) ∧
      (∀ i slice following, slices[i]? = some slice → slices[i + 1]? = some following →
        following.address = slice.address + slice.size) ∧
      slices.Pairwise Disjoint ∧
      (∀ space address, x.Covers space address ↔ ∃ slice ∈ slices, slice.Covers space address) ∧
      ∀ front now, e.Yields front now → ∃ back, front ++ back = slices ∧ now.Yields back last ∧
        now.length.toNat = back.length ∧ now.next ≤ x.size ∧
        ∀ slice rest, now.next? = some (slice, rest) → now.next.add? now.size = some rest.next := by
  obtain ⟨hpositive, -, hwhole, -, -⟩ := elements_eq_ok_iff.mp h
  have hall := yields_elementsFrom hwhole hpositive 0 (x.elementCount shape)
    (Nat.le_of_eq (Nat.zero_add _))
  rw [Nat.zero_add, ← List.range_eq_range'] at hall
  have hdone := next?_elementsFrom hwhole hpositive (Nat.le_refl (x.elementCount shape))
  rw [if_neg (Nat.lt_irrefl _)] at hdone
  rw [eq_elementsFrom h]
  refine ⟨_, _, hall, hdone, by rw [List.length_map, List.length_range, elementCount],
    fun i slice hi => ?_, fun i slice following hi hnext => ?_, ?_, fun space address => ?_,
    fun front now hfront => ?_⟩
  · obtain ⟨hlt, rfl⟩ := getElem?_map_element.mp hi
    exact ⟨_, (toNat_elementOffset hwhole (Nat.le_of_lt hlt)).1, rfl⟩
  · obtain ⟨-, rfl⟩ := getElem?_map_element.mp hi
    obtain ⟨-, rfl⟩ := getElem?_map_element.mp hnext
    show x.address + elementOffset shape (i + 1) = x.address + elementOffset shape i + shape.size
    rw [elementOffset_succ, UInt64.add_assoc]
  · refine List.pairwise_map.mpr (List.pairwise_lt_range.imp_of_mem fun hi hj hlt => ?_)
    exact disjoint_element hwhole hpositive (List.mem_range.mp hi) (List.mem_range.mp hj)
      (Nat.ne_of_lt hlt)
  · rw [covers_iff_element hwhole hpositive]
    simp only [List.mem_map, List.mem_range, exists_exists_and_eq_and]
  · exact hfront.left hwhole hpositive

/-- All addresses but one, starting with the last sixteen. -/
def allButOne : Segment := writable 0xFFFFFFFFFFFFFFF0 0xFFFFFFFFFFFFFFFF

/-- A third of that, at any address. -/
def third : Shape := ⟨0x5555555555555555, .one⟩

/-- The first of the three slices goes round, the cursor ends at the last word, and only the one
address is in none of them. -/
theorem elements_partition_thirds :
    allButOne.elements third = .ok ⟨allButOne, 0x5555555555555555, 0⟩ ∧
    ∃ slices last, Elements.Yields ⟨allButOne, 0x5555555555555555, 0⟩ slices last ∧
      last.next? = none ∧ slices.length = 3 ∧ slices.Pairwise Disjoint ∧
      ∀ address, address ≠ 0xFFFFFFFFFFFFFFEF → ∃ slice ∈ slices, slice.Covers .native address := by
  have helements : allButOne.elements third = .ok ⟨allButOne, 0x5555555555555555, 0⟩ :=
    elements_eq_ok_iff.mpr ⟨by decide, by decide, by decide, by decide, rfl⟩
  obtain ⟨slices, last, hyields, hdone, hlength, -, -, hdisjoint, hcovers, -⟩ :=
    elements_partition helements
  refine ⟨helements, slices, last, hyields, hdone, hlength, hdisjoint, fun address hne => ?_⟩
  refine (hcovers .native address).mp ⟨rfl, ?_⟩
  show decide ((address - 0xFFFFFFFFFFFFFFF0).toNat < 0xFFFFFFFFFFFFFFFF) = true
  rw [decide_eq_true_eq]
  by_contra hlast
  have hword := UInt64.toNat_lt (address - 0xFFFFFFFFFFFFFFF0)
  have hdistance : address - 0xFFFFFFFFFFFFFFF0 = 0xFFFFFFFFFFFFFFFF := UInt64.toNat_inj.mp <|
    show _ = 0xFFFFFFFFFFFFFFFF by omega
  exact hne (by grind)

end Segment

end ScopedMemory
