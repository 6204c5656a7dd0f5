import ScopedMemory.Proofs.Elementwise

/-! What is written is read.

A value is stored as the bytes of its bit pattern, and either byte order gives the pattern back
(`Carrier.decode_encode`). Stored bytes stay as they are until a write reaches them, so a value that
was written is read back bit for bit (`State.get_of_set`), and what is read from bytes that the
write did not reach is read as before (`State.WritesAt.get_eq`). -/
namespace ScopedMemory

/-! ### Bit patterns -/

namespace Carrier
variable {c : Carrier}

theorem bits_lt (v : c.Value) : c.bits v < 1 <<< (8 * c.size) := by
  cases c with
  | bool => cases v <;> decide
  | byte => exact (Int8.toUInt8 v).toNat_lt
  | ubyte => exact UInt8.toNat_lt v
  | char => exact UInt16.toNat_lt v
  | short => exact (Int16.toUInt16 v).toNat_lt
  | int => exact (Int32.toUInt32 v).toNat_lt
  | uint => exact UInt32.toNat_lt v
  | float => exact UInt32.toNat_lt v
  | long => exact (Int64.toUInt64 v).toNat_lt
  | ulong => exact UInt64.toNat_lt v
  | double => exact UInt64.toNat_lt v

/-- A value is known by its bits. -/
theorem ofBits_bits (v : c.Value) : c.ofBits (c.bits v) = v := by
  cases c with
  | bool => cases v <;> rfl
  | byte => simp only [ofBits, bits, UInt8.ofNat_toNat]; exact Int8.toInt8_toUInt8 v
  | ubyte => exact UInt8.ofNat_toNat
  | char => exact UInt16.ofNat_toNat
  | short => simp only [ofBits, bits, UInt16.ofNat_toNat]; exact Int16.toInt16_toUInt16 v
  | int => simp only [ofBits, bits, UInt32.ofNat_toNat]; exact Int32.toInt32_toUInt32 v
  | uint => exact UInt32.ofNat_toNat
  | float => exact UInt32.ofNat_toNat
  | long => simp only [ofBits, bits, UInt64.ofNat_toNat]; exact Int64.toInt64_toUInt64 v
  | ulong => exact UInt64.ofNat_toNat
  | double => exact UInt64.ofNat_toNat

/-- **The bytes of a value are the value**, in either order. -/
theorem decode_encode (order : ByteOrder) (v : c.Value) :
    c.decode order (c.encode order v) = v := by
  rw [decode, encode, ByteOrder.arrange_arrange, natOfBytes_bytesOfNat,
    Nat.mod_eq_of_lt (bits_lt v), ofBits_bits]

/-- Every pattern that is not too wide is some value's, but for `bool`, which has two values only.
-/
theorem bits_ofBits {n : Nat} (several : c ≠ .bool) (h : n < 1 <<< (8 * c.size)) :
    c.bits (c.ofBits n) = n := by
  cases c with
  | bool => exact absurd rfl several
  | byte => exact (congrArg UInt8.toNat (UInt8.toUInt8_toInt8 _)).trans (UInt8.toNat_ofNat_of_lt' h)
  | ubyte => exact UInt8.toNat_ofNat_of_lt' h
  | char => exact UInt16.toNat_ofNat_of_lt' h
  | short =>
    exact (congrArg UInt16.toNat (UInt16.toUInt16_toInt16 _)).trans (UInt16.toNat_ofNat_of_lt' h)
  | int =>
    exact (congrArg UInt32.toNat (UInt32.toUInt32_toInt32 _)).trans (UInt32.toNat_ofNat_of_lt' h)
  | uint => exact UInt32.toNat_ofNat_of_lt' h
  | float => exact UInt32.toNat_ofNat_of_lt' h
  | long =>
    exact (congrArg UInt64.toNat (UInt64.toUInt64_toInt64 _)).trans (UInt64.toNat_ofNat_of_lt' h)
  | ulong => exact UInt64.toNat_ofNat_of_lt' h
  | double => exact UInt64.toNat_ofNat_of_lt' h

/-- **Bytes are known by the value that they hold**, in either order. -/
theorem encode_decode (several : c ≠ .bool) (order : ByteOrder) {bytes : List UInt8}
    (whole : bytes.length = c.size) : c.encode order (c.decode order bytes) = bytes := by
  have hlength : (order.arrange bytes).length = c.size := (order.length_arrange bytes).trans whole
  have hbits := natOfBytes_lt (order.arrange bytes)
  rw [hlength] at hbits
  rw [encode, decode, bits_ofBits several hbits, ← hlength, bytesOfNat_natOfBytes,
    ByteOrder.arrange_arrange]

end Carrier

/-! ### Stored bytes -/

/-- Stored bytes are read back, as long as there are no more of them than addresses. -/
theorem Memory.bytes_write (m : Memory) (space : Space) (start : Word) {stored : List UInt8}
    (room : stored.length ≤ Word.limit) :
    (m.write space start stored).bytes space start stored.length = stored := by
  refine List.ext_getElem (by simp [bytes]) fun i _ hi => ?_
  have hback : (start + UInt64.ofNat i - start).toNat = i :=
    (sub_toNat_eq_iff (Nat.lt_of_lt_of_le hi room)).mpr rfl
  simp only [bytes, List.getElem_map, List.getElem_range, read_write, if_true, hback,
    List.getElem?_eq_getElem hi, Option.getD_some]

/-- Two ranges of bytes, each of a segment of its own, have no byte in common. -/
def Segment.Apart (x : Segment) (offset length : Nat) (y : Segment) (offset' length' : Nat) : Prop :=
  ∀ space address, x.Spans offset length space address → ¬ y.Spans offset' length' space address

namespace State

section
variable {s s' : State} {x : Segment} {offset length : Nat}

/-- A read of other bytes does not notice a write. -/
theorem WritesAt.get_eq (h : WritesAt x offset length s s') (u : Thread) {y : Segment} {d : Carrier}
    (layout : ValueLayout d) {position : Word}
    (apart : x.Apart offset length y position.toNat d.size) :
    s'.get u y layout position = s.get u y layout position := by
  obtain ⟨memory, rfl, hsame⟩ := h
  have hbytes : memory.bytes y.space (y.address + position) d.size =
      s.memory.bytes y.space (y.address + position) d.size := by
    refine List.map_congr_left fun i hi => hsame _ _ fun hx => apart _ _ hx ⟨rfl, i, ?_, ?_⟩
    · exact List.mem_range.mp hi
    · rw [UInt64.ofNat_add, UInt64.ofNat_toNat, UInt64.add_assoc]
  unfold get bytesAt
  rw [hbytes]
  rfl

theorem WritesAt.getAt_eq (h : WritesAt x offset length s s') (u : Thread) {y : Segment}
    {d : Carrier} (layout : ValueLayout d) {index : Word}
    (apart : x.Apart offset length y (index.toNat * d.size) d.size) :
    s'.getAt u y layout index = s.getAt u y layout index := by
  unfold getAt
  cases hposition : indexOffset y layout.shape index with
  | error e => rfl
  | ok position =>
    have hproduct := indexOffset_ok hposition
    rw [ValueLayout.shape, Carrier.toNat_width] at hproduct
    exact h.get_eq u layout (hproduct ▸ apart)

end

section
variable {c : Carrier} {s s' : State} {t : Thread} {x : Segment} {layout : ValueLayout c}
  {offset index length alignment : Word} {value : c.Value}

/-- What may be written may be read. -/
theorem check_read (h : s.check t x offset length alignment .write = .ok ()) :
    s.check t x offset length alignment .read = .ok () := by
  obtain ⟨⟨⟩, hrange, h⟩ := bind_eq_ok.mp h
  obtain ⟨⟨⟩, halign, -⟩ := bind_eq_ok.mp h
  exact bind_eq_ok.mpr ⟨(), hrange, bind_eq_ok.mpr ⟨(), halign, rfl⟩⟩

theorem get_of_set (h : s.set t x layout offset value = .ok s') :
    s'.get t x layout offset = .ok value := by
  obtain ⟨⟨⟩, hcheck, h⟩ := bind_eq_ok.mp h
  obtain rfl := pure_eq_ok.mp h
  -- the check looks at everything but the bytes, so it passes again
  have hagain : (s.store x offset (c.encode layout.order value)).check t x offset c.width
      layout.alignment.bytes .read = .ok () := check_read hcheck
  have hroom : (c.encode layout.order value).length ≤ Word.limit := by
    rw [Carrier.length_encode, ← Carrier.toNat_width]
    exact Nat.le_of_lt (Word.toNat_lt c.width)
  have hbytes := s.memory.bytes_write x.space (x.address + offset) hroom
  rw [Carrier.length_encode] at hbytes
  rw [get_of_check hagain, bytesAt, store, hbytes, Carrier.decode_encode]

theorem getAt_of_setAt (h : s.setAt t x layout index value = .ok s') :
    s'.getAt t x layout index = .ok value := by
  obtain ⟨offset, hoffset, h⟩ := bind_eq_ok.mp h
  exact bind_eq_ok.mpr ⟨offset, hoffset, get_of_set h⟩

/-- Every read of bytes other than these gives the same in both states, be it a value or an error.
-/
structure ReadsAlike (s s' : State) (x : Segment) (offset length : Nat) : Prop where
  get : ∀ (u : Thread) (y : Segment) (d : Carrier) (layout : ValueLayout d) (position : Word),
    x.Apart offset length y position.toNat d.size →
      s'.get u y layout position = s.get u y layout position
  getAt : ∀ (u : Thread) (y : Segment) (d : Carrier) (layout : ValueLayout d) (index : Word),
    x.Apart offset length y (index.toNat * d.size) d.size →
      s'.getAt u y layout index = s.getAt u y layout index

theorem WritesAt.readsAlike {offset length : Nat} (h : WritesAt x offset length s s') :
    ReadsAlike s s' x offset length :=
  ⟨fun u _ _ layout _ apart => h.get_eq u layout apart,
    fun u _ _ layout _ apart => h.getAt_eq u layout apart⟩

/-- **What is written is read**, bit for bit, by offset and by index. What any thread reads through
any segment, as any kind of value, is the same before and after, unless it reads one of the bytes
that were written. -/
theorem written_is_read (s : State) (t : Thread) (x : Segment) (layout : ValueLayout c)
    (value : c.Value) :
    (∀ offset s', s.set t x layout offset value = .ok s' →
      s'.get t x layout offset = .ok value ∧ ReadsAlike s s' x offset.toNat c.size) ∧
    ∀ index s', s.setAt t x layout index value = .ok s' →
      s'.getAt t x layout index = .ok value ∧ ReadsAlike s s' x (index.toNat * c.size) c.size := by
  constructor
  · intro offset s' h
    exact ⟨get_of_set h, (set_wroteAt h).writes.readsAlike⟩
  · intro index s' h
    exact ⟨getAt_of_setAt h, (setAt_wroteAt h).writes.readsAlike⟩

end

/-- A signalling NaN at an odd address, high byte first, leaves the byte behind it alone, which
another segment over the same array has as its last. -/
theorem written_is_read_signalling :
    let layout : ValueLayout .float := ⟨.one, .big, none⟩
    let x : Segment := ⟨1, 4, .heap ⟨0, .ubyte, 6⟩, false, 1⟩
    let y : Segment := ⟨0, 6, .heap ⟨0, .ubyte, 6⟩, false, 1⟩
    ∃ s', sixBytes.set 1 x layout 0 (0x7fa00001 : UInt32) = .ok s' ∧
      s'.get 1 x layout 0 = .ok (0x7fa00001 : UInt32) ∧
      s'.get 2 y (.natural .ubyte) 5 = .ok (6 : UInt8) := by
  obtain ⟨hset, -⟩ := written_is_read (c := .float) sixBytes 1
    ⟨1, 4, .heap ⟨0, .ubyte, 6⟩, false, 1⟩ ⟨.one, .big, none⟩ (0x7fa00001 : UInt32)
  obtain ⟨hread, halike⟩ := hset 0 _ rfl
  refine ⟨_, rfl, hread, (halike.get 2 _ .ubyte (.natural .ubyte) 5 ?_).trans rfl⟩
  have hoff : ∀ i < 4, ∀ j < 1, (1 : Word) + UInt64.ofNat (0 + i) ≠ 0 + UInt64.ofNat (5 + j) := by
    decide
  rintro space address ⟨-, i, hi, haddress⟩ ⟨-, j, hj, haddress'⟩
  exact hoff i hi j hj (haddress.symm.trans haddress')

end State

end ScopedMemory
