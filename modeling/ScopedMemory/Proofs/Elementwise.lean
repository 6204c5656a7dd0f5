import Mathlib.Data.List.Forall2
import ScopedMemory.Proofs.Atomicity
import ScopedMemory.Proofs.Derivation

/-! Runs of values, value by value.

A segment that is read as a whole, or written as a run, is checked once, at its front. When no
element is aligned more strictly than it is wide, that one check passes for every element
(`checkAlignment_element`), the bytes of the run are the bytes of its elements one after the other,
and so the run comes to what access by access comes to. -/
namespace ScopedMemory

/-! ### Alignment of elements -/

theorem Alignment.pow_pos (a : Alignment) : 0 < 1 <<< a.exponent.val := by
  rw [Nat.one_shiftLeft]
  exact Nat.two_pow_pos a.exponent.val

theorem Alignment.dvd_limit (a : Alignment) : 1 <<< a.exponent.val ∣ Word.limit := by
  rw [Word.limit, Nat.one_shiftLeft, Nat.one_shiftLeft]
  exact Nat.pow_dvd_pow 2 (Nat.le_of_lt a.exponent.isLt)

theorem Word.offAlignment_eq_false_iff {w : Word} {a : Alignment} :
    w.offAlignment a.bytes = false ↔ 1 <<< a.exponent.val ∣ w.toNat := by
  have hmask : (w &&& a.mask).toNat = w.toNat % 1 <<< a.exponent.val := by
    rw [UInt64.toNat_and, Alignment.toNat_mask, Nat.one_shiftLeft, Nat.and_two_pow_sub_one_eq_mod]
  rw [Nat.dvd_iff_mod_eq_zero, ← hmask, Word.offAlignment, bne_eq_false_iff_eq, ← UInt64.toNat_inj]
  rfl

/-- An address is as aligned as one that lies a multiple of the alignment before it. -/
theorem Word.offAlignment_add {w step : Word} {a : Alignment} (h : w.offAlignment a.bytes = false)
    (even : 1 <<< a.exponent.val ∣ step.toNat) : (w + step).offAlignment a.bytes = false := by
  rw [offAlignment_eq_false_iff] at h ⊢
  rw [UInt64.toNat_add]
  exact (Nat.dvd_mod_iff a.dvd_limit).mpr (Nat.dvd_add h even)

/-- The mask is put on a sum that may have gone round, and tells whether the exact sum is a
multiple. -/
theorem Word.offAlignment_sum {w step : Word} {a : Alignment} :
    (w + step).offAlignment a.bytes = false ↔ a.bytes.toNat ∣ w.toNat + step.toNat := by
  rw [offAlignment_eq_false_iff, UInt64.toNat_add, Alignment.toNat_bytes]
  exact Nat.dvd_mod_iff a.dvd_limit

namespace ValueLayout
variable {c : Carrier} {layout : ValueLayout c}

/-- No stricter than wide, an alignment divides the width. -/
theorem alignment_dvd (fits : layout.alignment.bytes ≤ c.width) :
    1 <<< layout.alignment.exponent.val ∣ c.size := by
  have hle : 1 <<< layout.alignment.exponent.val ≤ c.size := by
    rw [← Alignment.toNat_bytes, ← Carrier.toNat_width]
    exact UInt64.le_iff_toNat_le.mp fits
  rw [Carrier.size, Nat.one_shiftLeft, Nat.one_shiftLeft] at hle ⊢
  exact Nat.pow_dvd_pow 2 ((Nat.pow_le_pow_iff_right (by decide)).mp hle)

end ValueLayout

theorem Carrier.size_pos (c : Carrier) : 0 < c.size := c.alignment.pow_pos

namespace Segment
variable {x : Segment}

theorem checkAlignment_eq_ok {offset alignment : Word} :
    x.checkAlignment offset alignment = .ok () ↔
      (∀ array, x.backing = .heap array → ¬ array.element.width < alignment) ∧
        (x.address + offset).offAlignment alignment = false := by
  unfold checkAlignment
  cases x.backing <;> simp

theorem checkAlignment_eq_error {offset alignment : Word}
    (h : ¬ x.checkAlignment offset alignment = .ok ()) :
    x.checkAlignment offset alignment = .error (.misaligned (x.address + offset) alignment) := by
  unfold checkAlignment at h ⊢
  exact (ite_eq_or_eq _ _ _).resolve_right h

/-- **One check at the front is enough**: where one element may start, so may every element. -/
theorem checkAlignment_element {c : Carrier} {layout : ValueLayout c} {offset : Word}
    (fits : layout.alignment.bytes ≤ c.width)
    (h : x.checkAlignment offset layout.alignment.bytes = .ok ()) (i : Nat)
    (word : i * c.size < Word.limit) :
    x.checkAlignment (offset + UInt64.ofNat (i * c.size)) layout.alignment.bytes = .ok () := by
  obtain ⟨hwide, haligned⟩ := checkAlignment_eq_ok.mp h
  refine checkAlignment_eq_ok.mpr ⟨hwide, ?_⟩
  rw [← UInt64.add_assoc]
  apply Word.offAlignment_add haligned
  rw [UInt64.toNat_ofNat_of_lt' word]
  exact Nat.dvd_mul_left_of_dvd (ValueLayout.alignment_dvd fits) i

end Segment

/-! ### Bytes of elements -/

namespace Memory
variable {m : Memory} {space : Space} {start : Word}

/-- A window of a range is a range of its own. -/
theorem bytes_window {skipped length count : Nat} (room : skipped + length ≤ count) :
    ((m.bytes space start count).drop skipped).take length =
      m.bytes space (start + UInt64.ofNat skipped) length := by
  refine List.ext_getElem ?_ fun i hleft hright => ?_
  · simp only [bytes, List.length_take, List.length_drop, List.length_map, List.length_range]
    omega
  · simp only [bytes, List.getElem_take, List.getElem_drop, List.getElem_map, List.getElem_range,
      UInt64.ofNat_add, UInt64.add_assoc]

theorem read_write (m : Memory) (space : Space) (start : Word) (stored : List UInt8) (place : Space)
    (address : Word) :
    (m.write space start stored).read place address =
      if place = space then (stored[(address - start).toNat]?).getD (m.read place address)
      else m.read place address := by
  rw [write, read_splice, List.getElem?_toArray]

/-- Bytes can be stored in two parts, as long as both together do not go round the address space. -/
theorem write_append {front back : List UInt8} (room : front.length + back.length ≤ Word.limit) :
    m.write space start (front ++ back) =
      (m.write space start front).write space (start + UInt64.ofNat front.length) back := by
  apply eq_of_read
  intro place address
  rw [read_write, read_write, read_write]
  by_cases hplace : place = space
  · rw [if_pos hplace, if_pos hplace, if_pos hplace]
    have hback : address - (start + UInt64.ofNat front.length) =
        address - start - UInt64.ofNat front.length := by grind
    have hlimit : Word.limit = 18446744073709551616 := rfl
    have hword := Word.toNat_lt (address - start)
    rw [hback]
    generalize address - start = distance at hword ⊢
    by_cases hin : distance.toNat < front.length
    · -- in the front: counted from the start of the back, the address lies beyond its end
      have hfar : ¬ (distance - UInt64.ofNat front.length).toNat < back.length := by
        rw [UInt64.toNat_sub, UInt64.toNat_ofNat']
        omega
      rw [List.getElem?_append_left hin, List.getElem?_eq_none (Nat.le_of_not_lt hfar)]
      rfl
    · have hlength : (UInt64.ofNat front.length).toNat = front.length :=
        UInt64.toNat_ofNat_of_lt' (show _ < Word.limit by omega)
      have hle : UInt64.ofNat front.length ≤ distance := by
        rw [UInt64.le_iff_toNat_le, hlength]
        omega
      rw [List.getElem?_append_right (by omega), UInt64.toNat_sub_of_le _ _ hle, hlength,
        List.getElem?_eq_none (Nat.le_of_not_lt hin), Option.getD_none]
  · rw [if_neg hplace, if_neg hplace, if_neg hplace]

end Memory

namespace Carrier
variable {c : Carrier}

/-- The values of a run, index by index. -/
theorem decodeAll_eq_map (order : ByteOrder) (count : Nat) (bytes : List UInt8) :
    c.decodeAll order count bytes =
      (List.range count).map fun i => c.decode order ((bytes.drop (i * c.size)).take c.size) := by
  induction count generalizing bytes with
  | zero => rfl
  | succ count ih =>
    rw [decodeAll, ih, List.range_succ_eq_map, List.map_cons, List.map_map, Nat.zero_mul,
      List.drop_zero]
    congr 2
    funext i
    rw [List.drop_drop, Function.comp_apply, Nat.succ_mul, Nat.add_comm]

end Carrier

namespace State

section
variable {c : Carrier} {s s' : State} {t : Thread} {x : Segment} {layout : ValueLayout c}
  {offset length : Word} {mode : AccessMode}

/-- The one check of a run is the check of each of its elements. -/
theorem check_element (fits : layout.alignment.bytes ≤ c.width)
    (h : s.check t x offset length layout.alignment.bytes mode = .ok ()) {i : Nat}
    (inside : (i + 1) * c.size ≤ length.toNat) :
    s.check t x (offset + UInt64.ofNat (i * c.size)) c.width layout.alignment.bytes mode = .ok () := by
  obtain ⟨⟨⟩, hrange, h⟩ := bind_eq_ok.mp h
  obtain ⟨⟨⟩, halign, hmode⟩ := bind_eq_ok.mp h
  obtain ⟨hentry, hbounds⟩ := checkRange_ok hrange
  have hword := UInt64.toNat_lt x.size
  rw [Nat.succ_mul] at inside
  have hstep : (UInt64.ofNat (i * c.size)).toNat = i * c.size :=
    UInt64.toNat_ofNat_of_lt' (Nat.lt_of_le_of_lt (by omega) hword)
  have hinside : x.checkBounds (offset + UInt64.ofNat (i * c.size)) c.width = .ok () := by
    rw [Segment.checkBounds_eq_ok, UInt64.toNat_add, hstep, Carrier.toNat_width,
      Nat.mod_eq_of_lt (by omega)]
    omega
  unfold check checkRange
  rw [hentry, hinside, Segment.checkAlignment_element fits halign i (Nat.lt_of_le_of_lt (by omega) hword),
    hmode]
  rfl

theorem get_of_check (h : s.check t x offset c.width layout.alignment.bytes .read = .ok ()) :
    s.get t x layout offset = .ok (c.decode layout.order (s.bytesAt x offset c.size)) :=
  bind_eq_ok.mpr ⟨(), h, rfl⟩

/-- The converse of `indexOffset_ok`. -/
theorem indexOffset_of_product {shape : Shape} {index : Word}
    (fits : shape.alignment.bytes ≤ shape.size)
    (product : index.toNat * shape.size.toNat = offset.toNat) :
    indexOffset x shape index = .ok offset := by
  have hwide : ¬ shape.size < shape.alignment.bytes := UInt64.not_lt.mpr fits
  have hproduct : index.mul? shape.size = some offset := Word.mul?_eq_some_iff.mpr product
  simp only [indexOffset, if_neg hwide, hproduct]

/-! ### Reading -/

/-- The value that element `i` of a segment holds. -/
def element (s : State) (x : Segment) (layout : ValueLayout c) (i : Nat) : c.Value :=
  c.decode layout.order (s.bytesAt x (UInt64.ofNat (i * c.size)) c.size)

/-- Values are decoded each from its own bytes. -/
theorem decodeAll_bytesAt {count size : Nat} (whole : count * c.size = size) :
    c.decodeAll layout.order count (s.bytesAt x 0 size) =
      (List.range count).map (s.element x layout) := by
  rw [Carrier.decodeAll_eq_map]
  refine List.map_congr_left fun i hi => ?_
  have hlast : (i + 1) * c.size ≤ count * c.size :=
    Nat.mul_le_mul_right _ (List.mem_range.mp hi)
  rw [Nat.succ_mul] at hlast
  rw [element, bytesAt, bytesAt, Memory.bytes_window (by omega), UInt64.add_zero]

theorem checkValues_ok (h : s.checkValues t x layout = .ok ()) :
    (x.size / c.width).toNat * c.size = x.size.toNat ∧
      s.check t x 0 x.size layout.alignment.bytes .read = .ok () := by
  unfold checkValues at h
  split at h
  · simp [bind, Except.bind] at h
  · rename_i heven
    have hmod : x.size.toNat % c.size = 0 := by
      rw [← Carrier.toNat_width, ← UInt64.toNat_mod, not_not.mp heven]
      rfl
    refine ⟨?_, h⟩
    rw [UInt64.toNat_div, Carrier.toNat_width, Nat.div_mul_cancel (Nat.dvd_of_mod_eq_zero hmod)]

/-- What reading all values comes to: they are those of the elements. -/
theorem values_ok {v : List c.Value} (h : s.values t x layout = .ok v) :
    v.length * c.size = x.size.toNat ∧
      s.check t x 0 x.size layout.alignment.bytes .read = .ok () ∧
      v = (List.range v.length).map (s.element x layout) := by
  obtain ⟨⟨⟩, hcheck, h⟩ := bind_eq_ok.mp h
  obtain ⟨hwhole, hcheck⟩ := checkValues_ok hcheck
  obtain rfl := pure_eq_ok.mp h
  rw [decodeAll_bytesAt hwhole, List.length_map, List.length_range]
  exact ⟨hwhole, hcheck, rfl⟩

section
variable {count : Nat} (fits : layout.alignment.bytes ≤ c.width)
  (whole : count * c.size = x.size.toNat)
  (checked : s.check t x 0 x.size layout.alignment.bytes .read = .ok ())
include fits whole checked

/-- Every element passes on its own. -/
theorem get_element {i : Nat} (inside : i < count) :
    s.get t x layout (UInt64.ofNat (i * c.size)) = .ok (s.element x layout i) := by
  have hlast : (i + 1) * c.size ≤ x.size.toNat := whole ▸ Nat.mul_le_mul_right _ inside
  have hcheck := check_element fits checked hlast
  rw [UInt64.zero_add] at hcheck
  exact get_of_check hcheck

theorem getAt_element {i : Nat} (inside : i < count) :
    s.getAt t x layout (UInt64.ofNat i) = .ok (s.element x layout i) := by
  have hlast : (i + 1) * c.size ≤ x.size.toNat := whole ▸ Nat.mul_le_mul_right _ inside
  have hword := UInt64.toNat_lt x.size
  have hpositive := c.size_pos
  have hle : i ≤ i * c.size := Nat.le_mul_of_pos_right i hpositive
  rw [Nat.succ_mul] at hlast
  have hindex : (UInt64.ofNat i).toNat = i :=
    UInt64.toNat_ofNat_of_lt' (Nat.lt_of_le_of_lt (by omega) hword)
  have hoffset : indexOffset x layout.shape (UInt64.ofNat i) = .ok (UInt64.ofNat (i * c.size)) := by
    apply indexOffset_of_product fits
    rw [hindex, ValueLayout.shape, Carrier.toNat_width,
      UInt64.toNat_ofNat_of_lt' (Nat.lt_of_le_of_lt (by omega) hword)]
  exact bind_eq_ok.mpr ⟨_, hoffset, get_element fits whole checked inside⟩

omit fits in
theorem readRun_whole :
    s.readRun t x layout 0 (UInt64.ofNat count) =
      .ok ((List.range count).map (s.element x layout)) := by
  have hword := Word.toNat_lt x.size
  have hle : count ≤ count * c.size := Nat.le_mul_of_pos_right count c.size_pos
  have hcount : (UInt64.ofNat count).toNat = count :=
    UInt64.toNat_ofNat_of_lt' (show count < Word.limit by omega)
  have hlength : runLength c x 0 count = .ok x.size := by
    unfold runLength
    rw [whole, if_pos hword, UInt64.ofNat_toNat]
  refine bind_eq_ok.mpr ⟨x.size, hcount.symm ▸ hlength, bind_eq_ok.mpr ⟨(), checked, ?_⟩⟩
  rw [hcount, decodeAll_bytesAt whole]
  rfl

/-- A slice of one element reads as the element does. -/
theorem get_slice {i : Nat} (inside : i < count) :
    s.get t (x.part (UInt64.ofNat (i * c.size)) c.width) layout 0 = .ok (s.element x layout i) := by
  have hlast : (i + 1) * c.size ≤ x.size.toNat := whole ▸ Nat.mul_le_mul_right _ inside
  have hcheck := check_element fits checked hlast
  rw [UInt64.zero_add] at hcheck
  obtain ⟨⟨⟩, hrange, hcheck⟩ := bind_eq_ok.mp hcheck
  obtain ⟨⟨⟩, halign, -⟩ := bind_eq_ok.mp hcheck
  have hpart : (x.part (UInt64.ofNat (i * c.size)) c.width).checkAlignment 0
      layout.alignment.bytes = .ok () := by
    have hsame : ∀ w : Word, w + 0 = w := UInt64.add_zero
    rw [Segment.checkAlignment_eq_ok] at halign ⊢
    rwa [hsame]
  have hbounds : (x.part (UInt64.ofNat (i * c.size)) c.width).checkBounds 0 c.width = .ok () := by
    rw [Segment.checkBounds_eq_ok]
    exact Nat.le_of_eq (Nat.zero_add _)
  have hentry : s.checkEntry t (x.part (UInt64.ofNat (i * c.size)) c.width).scope = .ok () :=
    (checkRange_ok hrange).1
  have hread : s.check t (x.part (UInt64.ofNat (i * c.size)) c.width) 0 c.width
      layout.alignment.bytes .read = .ok () := by
    unfold check checkRange
    rw [hentry, hbounds, hpart]
    rfl
  rw [get_of_check hread, element, bytesAt, bytesAt, UInt64.add_zero]
  rfl

theorem elements_whole :
    ∃ e, x.elements layout.shape = .ok e ∧ e.length.toNat = count ∧
      (e.take count).1 = (List.range count).map
        (fun i => x.part (UInt64.ofNat (i * c.size)) c.width) ∧
      (e.take count).2.next? = none := by
  obtain ⟨⟨⟩, -, hcheck⟩ := bind_eq_ok.mp checked
  obtain ⟨⟨⟩, halign, -⟩ := bind_eq_ok.mp hcheck
  have hsize : layout.shape.size.toNat = c.size := c.toNat_width
  have hpositive : 0 < layout.shape.size.toNat := hsize ▸ c.size_pos
  have heven : layout.shape.size.toNat ∣ x.size.toNat := ⟨count, by rw [hsize, ← whole, Nat.mul_comm]⟩
  have helements : x.elements layout.shape = .ok ⟨x, layout.shape.size, 0⟩ :=
    Segment.elements_eq_ok_iff.mpr ⟨hpositive, fits, heven, halign, rfl⟩
  have hcount : x.elementCount layout.shape = count := by
    rw [Segment.elementCount, hsize, ← whole, Nat.mul_div_cancel _ c.size_pos]
  have htake := Segment.take_elements helements
  rw [hcount] at htake
  refine ⟨_, helements, ?_, ?_, htake.2⟩
  · show ((x.size - 0) / layout.shape.size).toNat = count
    rw [UInt64.sub_zero, UInt64.toNat_div]
    exact hcount
  · refine htake.1.trans (List.map_congr_left fun i _ => ?_)
    rw [Segment.element, Segment.elementOffset, hsize]
    rfl

end

/-! ### Writing -/

theorem set_of_check {value : c.Value}
    (h : s.check t x offset c.width layout.alignment.bytes .write = .ok ()) :
    s.set t x layout offset value = .ok (s.store x offset (c.encode layout.order value)) :=
  bind_eq_ok.mpr ⟨(), h, rfl⟩

theorem store_nil : s.store x offset [] = s := by
  have hmemory : s.memory.write x.space (x.address + offset) [] = s.memory := by
    apply Memory.eq_of_read
    intro place address
    simp [Memory.read_write]
  rw [store, hmemory]

theorem store_append {front back : List UInt8} (room : front.length + back.length ≤ Word.limit) :
    s.store x offset (front ++ back) =
      (s.store x offset front).store x (offset + UInt64.ofNat front.length) back := by
  simp only [store, Memory.write_append room, UInt64.add_assoc]

/-- From index `first` on, values are stored one by one where the run of them is. -/
theorem setEach_from (values : List c.Value) (first : Nat)
    (room : values.length * c.size ≤ Word.limit)
    (checked : ∀ i < values.length, s.check t x (offset + UInt64.ofNat ((first + i) * c.size)) c.width
      layout.alignment.bytes .write = .ok ()) :
    (values.zipIdx first).foldlM (fun s entry =>
      s.set t x layout (offset + UInt64.ofNat (entry.2 * c.size)) entry.1) s =
        .ok (s.store x (offset + UInt64.ofNat (first * c.size))
          (c.encodeAll layout.order values)) := by
  induction values generalizing s first with
  | nil =>
    rw [Carrier.encodeAll, List.flatMap_nil, store_nil]
    rfl
  | cons value rest ih =>
    rw [List.length_cons, Nat.succ_mul] at room
    have hfirst := checked 0 (Nat.zero_lt_succ _)
    rw [Nat.add_zero] at hfirst
    rw [List.zipIdx_cons, List.foldlM_cons]
    refine bind_eq_ok.mpr ⟨_, set_of_check hfirst, ?_⟩
    refine (ih (first + 1) (by omega) fun i hi => ?_).trans ?_
    · have hnext := checked (i + 1) (Nat.succ_lt_succ hi)
      rwa [← Nat.add_assoc, Nat.add_right_comm] at hnext
    · have hbytes : (c.encode layout.order value).length + (c.encodeAll layout.order rest).length ≤
          Word.limit := by
        rw [length_encodeAll, Carrier.length_encode]
        omega
      rw [Nat.succ_mul, UInt64.ofNat_add, ← UInt64.add_assoc, Carrier.encodeAll,
        Carrier.encodeAll, List.flatMap_cons, ← Carrier.encodeAll, store_append hbytes,
        Carrier.length_encode]

theorem setEach_of_writeRun (fits : layout.alignment.bytes ≤ c.width) {values : List c.Value}
    (h : s.writeRun t x layout offset values = .ok s') :
    s.setEach t x layout offset values = .ok s' := by
  obtain ⟨length, hlength, h⟩ := bind_eq_ok.mp h
  obtain ⟨⟨⟩, hcheck, h⟩ := bind_eq_ok.mp h
  obtain rfl := pure_eq_ok.mp h
  have hbytes := runLength_ok hlength
  have hword := Word.toNat_lt length
  refine (setEach_from values 0 (by omega) fun i hi => ?_).trans ?_
  · rw [Nat.zero_add]
    exact check_element fits hcheck (hbytes ▸ Nat.mul_le_mul_right _ hi)
  · rw [Nat.zero_mul]
    simp

/-- **Runs agree with single accesses**, for a layout no stricter than it is wide. The values of a
segment are what accesses by index give, and what its slices hold. Values that can be stored as a
run can be stored one by one, and that leaves the same state. -/
theorem run_agrees_elementwise (layout : ValueLayout c) (fits : layout.alignment.bytes ≤ c.width)
    (s : State) (t : Thread) (x : Segment) :
    (∀ v, s.values t x layout = .ok v →
      v.length = x.size.toNat / c.size ∧
      (∀ i value, v[i]? = some value → s.getAt t x layout (UInt64.ofNat i) = .ok value) ∧
      s.readRun t x layout 0 (UInt64.ofNat v.length) = .ok v ∧
      ∃ e, x.elements layout.shape = .ok e ∧ e.length.toNat = v.length ∧
        List.Forall₂ (fun slice value => s.get t slice layout 0 = .ok value) (e.take v.length).1 v ∧
        (e.take v.length).2.next? = none) ∧
    ∀ offset values s', s.writeRun t x layout offset values = .ok s' →
      s.setEach t x layout offset values = .ok s' := by
  refine ⟨fun v hv => ?_, fun offset values s' => setEach_of_writeRun fits⟩
  obtain ⟨hwhole, hchecked, hmap⟩ := values_ok hv
  obtain ⟨e, helements, hlength, hslices, hlast⟩ := elements_whole fits hwhole hchecked
  refine ⟨?_, fun i value hi => ?_, ?_, e, helements, hlength, ?_, hlast⟩
  · rw [← hwhole, Nat.mul_div_cancel _ c.size_pos]
  · obtain ⟨hinside, -⟩ := List.getElem?_eq_some_iff.mp hi
    rw [hmap, List.getElem?_map, List.getElem?_range hinside] at hi
    rw [getAt_element fits hwhole hchecked hinside, ← Option.some.inj hi]
  · rw [readRun_whole hwhole hchecked, ← hmap]
  · rw [hslices]
    nth_rewrite 2 [hmap]
    rw [List.forall₂_map_left_iff, List.forall₂_map_right_iff, List.forall₂_same]
    exact fun i hi => get_slice fits hwhole hchecked (List.mem_range.mp hi)

end

/-- Six bytes under one name. -/
def sixBytes : State :=
  ((Operation.make (.array .ubyte ([1, 2, 3, 4, 5, 6] : List UInt8)) (some "x")).perform
    (fun _ s => (none, s)) 1 (.initial .bump)).2

/-- Two numbers of two bytes at an odd address, high byte first: read, and turned around. -/
theorem run_agrees_elementwise_odd :
    let layout : ValueLayout .char := ⟨.one, .big, none⟩
    let x : Segment := ⟨1, 4, .heap ⟨0, .ubyte, 6⟩, false, 1⟩
    layout.alignment.bytes ≤ Carrier.width .char ∧
    sixBytes.values 1 x layout = .ok ([0x0203, 0x0405] : List UInt16) ∧
    sixBytes.getAt 1 x layout 1 = .ok (0x0405 : UInt16) ∧
    ∃ s', sixBytes.setEach 1 x layout 0 ([0x0504, 0x0302] : List UInt16) = .ok s' ∧
      s'.memory.read (.array 0) 2 = 4 := by
  obtain ⟨hread, hwrite⟩ := run_agrees_elementwise (c := .char) ⟨.one, .big, none⟩ (by decide) sixBytes 1
    ⟨1, 4, .heap ⟨0, .ubyte, 6⟩, false, 1⟩
  have hvalues : sixBytes.values 1 ⟨1, 4, .heap ⟨0, .ubyte, 6⟩, false, 1⟩
      (⟨.one, .big, none⟩ : ValueLayout .char) = .ok ([0x0203, 0x0405] : List UInt16) := rfl
  exact ⟨by decide, hvalues, (hread _ hvalues).2.1 1 (0x0405 : UInt16) rfl,
    _, hwrite 0 ([0x0504, 0x0302] : List UInt16) _ rfl, rfl⟩

end State

end ScopedMemory
