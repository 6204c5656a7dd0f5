import ScopedMemory.Proofs.Writing

/-! The elements of a segment.

A segment that can be cut by a shape has a whole number of elements, and the cursor stands where one
of them starts or at the end of the last. One equation says what a step does there
(`Segment.next?_elementsFrom`). What is taken in any number of steps follows from it. -/
namespace ScopedMemory

namespace Segment

section
variable {x y : Segment} {shape : Shape} {e : Elements}

theorem elements_eq_ok_iff : x.elements shape = .ok e ↔
    0 < shape.size.toNat ∧ shape.alignment.bytes ≤ shape.size ∧ shape.size.toNat ∣ x.size.toNat ∧
      x.checkAlignment 0 shape.alignment.bytes = .ok () ∧ e = ⟨x, shape.size, 0⟩ := by
  have hpositive : 0 < shape.size.toNat ↔ ¬ shape.size = 0 := by
    rw [Nat.pos_iff_ne_zero, Ne, ← UInt64.toNat_inj]
    rfl
  have heven : shape.size.toNat ∣ x.size.toNat ↔ ¬ x.size % shape.size ≠ 0 := by
    rw [Nat.dvd_iff_mod_eq_zero, not_not, ← UInt64.toNat_mod, ← UInt64.toNat_inj]
    rfl
  rw [hpositive, ← UInt64.not_lt, heven]
  simp only [elements]
  split
  · simp [*]
  · split
    · simp [*]
    · split
      · simp [*]
      · rename_i hsize hfits hwhole
        constructor
        · intro h
          obtain ⟨⟨⟩, haligned, h⟩ := bind_eq_ok.mp h
          exact ⟨hsize, hfits, hwhole, haligned, (pure_eq_ok.mp h).symm⟩
        · rintro ⟨-, -, -, haligned, rfl⟩
          exact bind_eq_ok.mpr ⟨(), haligned, rfl⟩

end

/-! ### Where elements start -/

/-- How many elements of the shape the segment holds. -/
def elementCount (x : Segment) (shape : Shape) : Nat := x.size.toNat / shape.size.toNat

/-- Where the element of index `i` starts. -/
def elementOffset (shape : Shape) (i : Nat) : Word := UInt64.ofNat (i * shape.size.toNat)

/-- The element of index `i`. -/
def element (x : Segment) (shape : Shape) (i : Nat) : Segment :=
  x.part (elementOffset shape i) shape.size

/-- The elements from the one of index `i` on. -/
def elementsFrom (x : Segment) (shape : Shape) (i : Nat) : Elements :=
  ⟨x, shape.size, elementOffset shape i⟩

theorem elementOffset_succ (shape : Shape) (i : Nat) :
    elementOffset shape (i + 1) = elementOffset shape i + shape.size := by
  rw [elementOffset, Nat.succ_mul, UInt64.ofNat_add, UInt64.ofNat_toNat, elementOffset]

theorem getElem?_map_element {x y : Segment} {shape : Shape} {count i : Nat} :
    ((List.range count).map (x.element shape))[i]? = some y ↔ i < count ∧ y = x.element shape i := by
  simp only [List.getElem?_map, Option.map_eq_some_iff]
  grind

section
variable {x y : Segment} {shape : Shape} {i : Nat} (whole : shape.size.toNat ∣ x.size.toNat)
  (positive : 0 < shape.size.toNat)
include whole

/-- Elements start at exact offsets, and so does the end of the last. -/
theorem toNat_elementOffset (h : i ≤ x.elementCount shape) :
    (elementOffset shape i).toNat = i * shape.size.toNat ∧ i * shape.size.toNat ≤ x.size.toNat := by
  have hle : i * shape.size.toNat ≤ x.size.toNat :=
    calc i * shape.size.toNat ≤ x.elementCount shape * shape.size.toNat := Nat.mul_le_mul_right _ h
      _ = x.size.toNat := Nat.div_mul_cancel whole
  exact ⟨UInt64.toNat_ofNat_of_lt' (Nat.lt_of_le_of_lt hle (Word.toNat_lt x.size)), hle⟩

/-- An element ends where the segment ends at the latest. -/
theorem elementOffset_room (h : i < x.elementCount shape) :
    (elementOffset shape i).toNat = i * shape.size.toNat ∧
      i * shape.size.toNat + shape.size.toNat ≤ x.size.toNat := by
  obtain ⟨hstart, -⟩ := toNat_elementOffset whole (Nat.le_of_lt h)
  obtain ⟨-, hend⟩ := toNat_elementOffset whole h
  exact ⟨hstart, Nat.succ_mul i shape.size.toNat ▸ hend⟩

/-! ### Steps -/

/-- Stepping over an element does not overflow. -/
theorem add?_elementOffset (h : i < x.elementCount shape) :
    (elementOffset shape i).add? shape.size = some (elementOffset shape (i + 1)) := by
  rw [Word.add?_eq_some_iff, (toNat_elementOffset whole (Nat.le_of_lt h)).1,
    (toNat_elementOffset whole h).1, Nat.succ_mul]

/-- What is announced is how many there are from the index on. -/
theorem length_elementsFrom (h : i ≤ x.elementCount shape) :
    (x.elementsFrom shape i).length.toNat = x.elementCount shape - i := by
  obtain ⟨hoffset, hle⟩ := toNat_elementOffset whole h
  have hleft : (x.size - elementOffset shape i).toNat = x.size.toNat - shape.size.toNat * i := by
    rw [UInt64.toNat_sub_of_le _ _ (UInt64.le_iff_toNat_le.mpr (hoffset ▸ hle)), hoffset,
      Nat.mul_comm]
  unfold Elements.length elementsFrom
  rw [UInt64.toNat_div, hleft, Nat.sub_mul_div, elementCount]

include positive

/-- **One step**: the element of the index comes while there is one, and nothing after the last. -/
theorem next?_elementsFrom (h : i ≤ x.elementCount shape) :
    (x.elementsFrom shape i).next? = if i < x.elementCount shape then
      some (x.element shape i, x.elementsFrom shape (i + 1)) else none := by
  have hsize : x.elementCount shape * shape.size.toNat = x.size.toNat := Nat.div_mul_cancel whole
  have hinside : elementOffset shape i < x.size ↔ i < x.elementCount shape := by
    rw [UInt64.lt_iff_toNat_lt, (toNat_elementOffset whole h).1, ← hsize,
      Nat.mul_lt_mul_right positive]
  unfold Elements.next? elementsFrom
  rw [elementOffset_succ]
  exact if_congr hinside rfl rfl

/-- **Any number of steps**: they give that many elements, or as many as there are. -/
theorem take_elementsFrom (h : i ≤ x.elementCount shape) (count : Nat) :
    (x.elementsFrom shape i).take count =
      ((List.range' i (min count (x.elementCount shape - i))).map (x.element shape),
        x.elementsFrom shape (i + min count (x.elementCount shape - i))) := by
  induction count generalizing i with
  | zero => rw [Nat.zero_min]; rfl
  | succ count ih =>
    rw [Elements.take, next?_elementsFrom whole positive h]
    by_cases hlt : i < x.elementCount shape
    · have hmin : min (count + 1) (x.elementCount shape - i) =
          min count (x.elementCount shape - (i + 1)) + 1 := by omega
      have hrest : (x.elementsFrom shape (i + 1)).take count = _ := ih hlt
      rw [if_pos hlt, hmin, List.range'_succ, List.map_cons]
      dsimp only
      rw [hrest, Nat.add_assoc i 1, Nat.add_comm 1]
    · rw [if_neg hlt, show x.elementCount shape - i = 0 by omega, Nat.min_zero]
      rfl

end

/-! ### Cutting a segment -/

section
variable {x y : Segment} {shape : Shape} {e : Elements}

theorem eq_elementsFrom (h : x.elements shape = .ok e) : e = x.elementsFrom shape 0 := by
  obtain ⟨-, -, -, -, rfl⟩ := elements_eq_ok_iff.mp h
  rw [elementsFrom, elementOffset, Nat.zero_mul]
  rfl

/-- What is taken is among the elements. -/
theorem mem_take_elements (h : x.elements shape = .ok e) {count : Nat} (hy : y ∈ (e.take count).1) :
    ∃ i < x.elementCount shape, y = x.element shape i := by
  obtain ⟨hpositive, -, hwhole, -, -⟩ := elements_eq_ok_iff.mp h
  rw [eq_elementsFrom h, take_elementsFrom hwhole hpositive (Nat.zero_le _)] at hy
  obtain ⟨i, hi, rfl⟩ := List.mem_map.mp hy
  have hrange := List.mem_range'_1.mp hi
  exact ⟨i, by omega, rfl⟩

/-- **The elements are all parts**, one after the other from the front. -/
theorem take_elements (h : x.elements shape = .ok e) :
    (e.take (x.elementCount shape)).1 =
        (List.range (x.elementCount shape)).map (x.element shape) ∧
      (e.take (x.elementCount shape)).2.next? = none := by
  obtain ⟨hpositive, -, hwhole, -, -⟩ := elements_eq_ok_iff.mp h
  rw [eq_elementsFrom h, take_elementsFrom hwhole hpositive (Nat.zero_le _), Nat.sub_zero,
    Nat.min_self, Nat.zero_add, List.range_eq_range',
    next?_elementsFrom hwhole hpositive (Nat.le_refl _), if_neg (Nat.lt_irrefl _)]
  exact ⟨rfl, rfl⟩

end

end Segment

end ScopedMemory
