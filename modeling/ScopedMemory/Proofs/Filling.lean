import ScopedMemory.Proofs.Decoding
import ScopedMemory.Proofs.Orders
import ScopedMemory.Proofs.RoundTrip

/-! Contents are read back.

What fills a segment fills it from its front on: a run of values all of it
(`State.values_of_writeRun`), a text all of it but for the zero byte at its end
(`State.writeTerminated_ok`). The check that let the contents in lets a reader in, too, and looks at
no byte. So the values, and a text that ends at its first zero byte, are read back as they were. -/
namespace ScopedMemory

/-! ### Runs -/

namespace Carrier
variable {c : Carrier}

theorem decodeAll_encodeAll (order : ByteOrder) (values : List c.Value) :
    c.decodeAll order values.length (c.encodeAll order values) = values := by
  induction values with
  | nil => rfl
  | cons v rest ih =>
    have hlength : (c.encode order v).length = c.size := c.length_encode order v
    rw [encodeAll, List.flatMap_cons, ← encodeAll, List.length_cons, decodeAll,
      List.take_left' hlength, List.drop_left' hlength, decode_encode, ih]

/-- A byte is stored as it is. -/
theorem encode_ubyte (order : ByteOrder) (byte : UInt8) : encode .ubyte order byte = [byte] := by
  have hbytes : bytesOfNat 1 byte.toNat = [byte] := by simp [bytesOfNat]
  show order.arrange (bytesOfNat 1 byte.toNat) = [byte]
  rw [hbytes]
  cases order <;> rfl

theorem encodeAll_ubyte (order : ByteOrder) (bytes : List UInt8) :
    encodeAll .ubyte order bytes = bytes := by
  have hencode : encode .ubyte order = fun byte : UInt8 => [byte] := by
    funext byte
    exact encode_ubyte order byte
  show bytes.flatMap (encode .ubyte order) = bytes
  rw [hencode]
  exact List.flatMap_singleton' bytes

end Carrier

namespace Memory
variable {m : Memory} {space : Space} {start : Word} {count : Nat} {byte : UInt8}

theorem bytes_succ (m : Memory) (space : Space) (start : Word) (count : Nat) :
    m.bytes space start (count + 1) = m.read space start :: m.bytes space (start + 1) count := by
  have hfirst : start + UInt64.ofNat 0 = start := UInt64.add_zero start
  have hrest : ∀ i, start + UInt64.ofNat (i + 1) = start + 1 + UInt64.ofNat i := by
    intro i
    rw [Nat.add_comm, UInt64.ofNat_add, UInt64.add_assoc]
    rfl
  simp only [bytes, List.range_succ_eq_map, List.map_cons, List.map_map, hfirst]
  refine congrArg _ (List.map_congr_left fun i _ => ?_)
  rw [Function.comp_apply, hrest]

/-- The search stops at the first byte that is looked for. -/
theorem findFrom_of_bytes {found : List UInt8} (seen : Nat)
    (held : m.bytes space start (found.length + 1) = found ++ [byte]) (absent : byte ∉ found)
    (room : found.length < count) :
    m.findFrom space byte seen start count = some (seen + found.length) := by
  induction found generalizing start count seen with
  | nil =>
    obtain ⟨count, rfl⟩ := Nat.exists_eq_succ_of_ne_zero (Nat.ne_of_gt room)
    rw [List.length_nil, bytes_succ] at held
    have hread : m.read space start = byte := (List.cons.inj held).1
    rw [findFrom, if_pos hread]
    rfl
  | cons first rest ih =>
    obtain ⟨count, rfl⟩ := Nat.exists_eq_succ_of_ne_zero (Nat.ne_of_gt (Nat.zero_lt_of_lt room))
    rw [List.length_cons, bytes_succ, List.cons_append] at held
    obtain ⟨hread, hrest⟩ := List.cons.inj held
    obtain ⟨hfirst, hlater⟩ := not_or.mp (mt List.mem_cons.mpr absent)
    have hother : ¬ m.read space start = byte := fun heq => hfirst (heq.symm.trans hread)
    rw [findFrom, if_neg hother, ih (seen + 1) hrest hlater (Nat.lt_of_succ_lt_succ room),
      List.length_cons, Nat.add_right_comm]
    rfl

theorem bytes_take (m : Memory) (space : Space) (start : Word) {fewer : Nat} (h : fewer ≤ count) :
    (m.bytes space start count).take fewer = m.bytes space start fewer := by
  rw [bytes, ← List.map_take, List.take_range, Nat.min_eq_left h]
  rfl

/-- The first of the bytes that are held. -/
theorem bytes_front {front : List UInt8} (back : List UInt8)
    (held : m.bytes space start (front ++ back).length = front ++ back) :
    m.bytes space start front.length = front := by
  have hle : front.length ≤ (front ++ back).length := by
    rw [List.length_append]
    omega
  rw [← bytes_take m space start hle, held, List.take_left]

end Memory

namespace State
variable {c : Carrier} {s s' : State} {t : Thread} {x : Segment} {layout : ValueLayout c}

/-- What is stored is there. -/
theorem bytesAt_store (offset : Word) {bytes : List UInt8} (room : bytes.length ≤ Word.limit) :
    (s.store x offset bytes).bytesAt x offset bytes.length = bytes :=
  Memory.bytes_write s.memory x.space (x.address + offset) room

/-- **A run that fills a segment is read back.** -/
theorem values_of_writeRun {values : List c.Value} (h : s.writeRun t x layout 0 values = .ok s')
    (whole : values.length * c.size = x.size.toNat) : s'.values t x layout = .ok values := by
  obtain ⟨length, hlength, h⟩ := bind_eq_ok.mp h
  obtain ⟨⟨⟩, hcheck, h⟩ := bind_eq_ok.mp h
  obtain rfl := pure_eq_ok.mp h
  have hsame : length = x.size := UInt64.toNat_inj.mp ((runLength_ok hlength).trans whole)
  have hbytes : (c.encodeAll layout.order values).length = x.size.toNat := by
    rw [length_encodeAll, whole]
  have hcount : (x.size / c.width).toNat = values.length := by
    rw [UInt64.toNat_div, Carrier.toNat_width, ← whole, Nat.mul_div_cancel _ c.size_pos]
  have heven : x.size % c.width = 0 := by
    apply UInt64.toNat_inj.mp
    rw [UInt64.toNat_mod, Carrier.toNat_width, ← whole]
    exact Nat.mul_mod_left _ _
  rw [hsame] at hcheck
  -- the check looks at everything but the bytes, so it passes again
  have hagain : (s.store x 0 (c.encodeAll layout.order values)).checkValues t x layout = .ok () := by
    unfold checkValues
    rw [if_neg (not_not.mpr heven)]
    exact check_read hcheck
  have hroom : (c.encodeAll layout.order values).length ≤ Word.limit :=
    Nat.le_of_lt (hbytes ▸ Word.toNat_lt x.size)
  have hheld := bytesAt_store (s := s) (x := x) 0 hroom
  refine bind_eq_ok.mpr ⟨(), hagain, ?_⟩
  rw [hbytes] at hheld
  rw [hheld, hcount]
  exact congrArg Except.ok (Carrier.decodeAll_encodeAll layout.order values)

/-- Values are written at aligned addresses only. -/
theorem aligned_of_writeRun {values : List c.Value} (h : s.writeRun t x layout 0 values = .ok s') :
    x.Admits layout.alignment ∧ layout.alignment.bytes.toNat ∣ x.address.toNat := by
  obtain ⟨length, -, h⟩ := bind_eq_ok.mp h
  obtain ⟨⟨⟩, hcheck, -⟩ := bind_eq_ok.mp h
  obtain ⟨⟨⟩, -, hcheck⟩ := bind_eq_ok.mp hcheck
  obtain ⟨⟨⟩, haligned, -⟩ := bind_eq_ok.mp hcheck
  obtain ⟨hwide, hoff⟩ := Segment.checkAlignment_eq_ok.mp haligned
  refine ⟨fun array harray => UInt64.not_lt.mp (hwide array harray), ?_⟩
  exact Word.offAlignment_sum.mp hoff

/-! ### Texts -/

/-- A text and the zero byte after it are stored as one run of bytes. -/
theorem writeTerminated_ok {bytes : List UInt8} (h : s.writeTerminated t x bytes = .ok s') :
    s' = s.store x 0 (bytes ++ [0]) ∧ bytes.length + 1 ≤ x.size.toNat := by
  have hfits := (writeTerminated_wroteAt h).fits
  rw [Nat.zero_add] at hfits
  have hword := Word.toNat_lt x.size
  obtain ⟨middle, hrun, hzero⟩ := bind_eq_ok.mp h
  obtain ⟨length, -, hrun⟩ := bind_eq_ok.mp hrun
  obtain ⟨⟨⟩, -, hrun⟩ := bind_eq_ok.mp hrun
  obtain rfl := pure_eq_ok.mp hrun
  obtain ⟨⟨⟩, -, hzero⟩ := bind_eq_ok.mp hzero
  obtain rfl := pure_eq_ok.mp hzero
  refine ⟨?_, hfits⟩
  have hroom : bytes.length + [(0 : UInt8)].length ≤ Word.limit := Nat.le_of_lt (by
    rw [List.length_singleton]
    omega)
  rw [store_append hroom, Carrier.encodeAll_ubyte, Carrier.encode_ubyte, UInt64.zero_add]

/-- Who is let in gets at bytes at any offset. -/
theorem check_bytes {offset length : Word} {mode : AccessMode}
    (entered : s.checkEntry t x.scope = .ok ())
    (fits : offset.toNat + length.toNat ≤ x.size.toNat) (may : x.checkMode mode = .ok ()) :
    s.check t x offset length 1 mode = .ok () := by
  have hbounds : x.checkBounds offset length = .ok () := Segment.checkBounds_eq_ok.mpr fits
  unfold check checkRange
  rw [entered, hbounds, checkAlignment_one, may]
  rfl

/-- **A text is read** up to its first zero byte. -/
theorem getText_of_held {offset : Word} {bytes : List UInt8}
    (entered : s.checkEntry t x.scope = .ok ())
    (held : s.bytesAt x offset (bytes.length + 1) = bytes ++ [0]) (absent : 0 ∉ bytes)
    (room : offset.toNat + bytes.length < x.size.toNat) :
    s.getText t x offset = .ok (Text.Utf8.decode bytes) := by
  have hle : offset ≤ x.size := UInt64.le_iff_toNat_le.mpr (by omega)
  have hrest : offset.toNat + (x.size - offset).toNat = x.size.toNat := by
    rw [UInt64.toNat_sub_of_le _ _ hle]
    omega
  have hremaining : x.size.sub? offset = some (x.size - offset) :=
    Word.sub?_eq_some_iff.mpr hrest
  have hfind : s.memory.find? x.space (x.address + offset) (x.size - offset).toNat 0 =
      some bytes.length := by
    rw [Memory.find?, Memory.findFrom_of_bytes 0 held absent (by omega), Nat.zero_add]
  have hfront : s.bytesAt x offset bytes.length = bytes := by
    refine Memory.bytes_front [0] ?_
    rw [List.length_append]
    exact held
  have hcheck : s.check t x offset (x.size - offset) 1 .read = .ok () :=
    check_bytes entered (Nat.le_of_eq hrest) rfl
  simp only [getText, hremaining, hcheck, hfind, hfront]
  rfl

/-- A text is read back from a segment that it fills, if it has no zero byte before its end. -/
theorem getText_of_writeTerminated {bytes : List UInt8} (h : s.writeTerminated t x bytes = .ok s')
    (absent : 0 ∉ bytes) : s'.getText t x 0 = .ok (Text.Utf8.decode bytes) := by
  have hentry := (writeTerminated_wroteAt h).entered
  obtain ⟨rfl, hfits⟩ := writeTerminated_ok h
  have hall : (bytes ++ [0]).length = bytes.length + 1 := List.length_append
  have hroom : (bytes ++ [(0 : UInt8)]).length ≤ Word.limit :=
    Nat.le_of_lt (Nat.lt_of_le_of_lt (hall ▸ hfits) (Word.toNat_lt x.size))
  have hheld := bytesAt_store (s := s) (x := x) 0 hroom
  rw [hall] at hheld
  have hinside : (0 : Word).toNat + bytes.length < x.size.toNat := by
    rw [UInt64.toNat_zero, Nat.zero_add]
    exact hfits
  exact getText_of_held hentry hheld absent hinside

end State

/-! ### Allocations -/

/-- What was allocated has been filled. -/
theorem Allocation.fillWith_ok {allocation : Allocation} {x : Segment}
    {fill : State → Segment → Except AccessError State}
    (h : (allocation.fillWith fill).result = .ok x) : allocation.result = .ok x ∧
      fill allocation.state x = .ok (allocation.fillWith fill).state := by
  obtain ⟨result, allocator, s⟩ := allocation
  cases result with
  | error e => cases h
  | ok y =>
    cases hfill : fill s y with
    | error e => simp [fillWith, hfill] at h
    | ok s' =>
      simp only [fillWith, hfill] at h ⊢
      obtain rfl := Except.ok.inj h
      exact ⟨rfl, hfill⟩

namespace Allocator
variable {a : Allocator} {t : Thread} {s : State} {x : Segment} {c : Carrier}
  {layout : ValueLayout c}

/-- An array has room for its values, and no more. -/
theorem allocateFrom_ok {values : List c.Value}
    (h : (a.allocateFrom t s layout values).result = .ok x) :
    x.size.toNat = values.length * c.size ∧
      ∃ s' : State, s'.writeRun t x layout 0 values = .ok (a.allocateFrom t s layout values).state := by
  obtain ⟨hresult, hwrite⟩ := Allocation.fillWith_ok h
  refine ⟨?_, _, hwrite⟩
  rw [Order.allocateArray_eq] at hresult
  cases hextent : Order.arrayExtent layout.shape (UInt64.ofNat values.length) with
  | error e => simp [hextent] at hresult
  | ok extent =>
    obtain ⟨size, alignment⟩ := extent
    simp only [hextent] at hresult
    obtain rfl := allocate_size hresult
    obtain ⟨whole, hwhole, hextent⟩ := bind_eq_ok.mp hextent
    obtain ⟨hsize, -⟩ := Prod.mk.inj (pure_eq_ok.mp hextent)
    obtain ⟨-, hlength, -⟩ := Shape.sequence_eq_ok_iff.mp hwhole
    -- the values fit, so there are no more of them than a word can count
    have hfits : 0 + values.length * c.size ≤ x.size.toNat := (State.writeRun_wroteAt hwrite).fits
    have hcount : values.length ≤ values.length * c.size := Nat.le_mul_of_pos_right _ c.size_pos
    have hword : values.length < Word.limit :=
      Nat.lt_of_le_of_lt (by omega) (Word.toNat_lt x.size)
    rw [← hsize, ← hlength, UInt64.toNat_ofNat_of_lt' hword]
    exact congrArg _ c.toNat_width

/-- A text has room for its bytes and the zero byte. -/
theorem allocateText_ok {text : String} (h : (a.allocateText t s text).result = .ok x) :
    x.size.toNat = (Text.Utf8.encode text).length + 1 ∧ ∃ s' : State,
      s'.writeTerminated t x (Text.Utf8.encode text) = .ok (a.allocateText t s text).state := by
  obtain ⟨hresult, hwrite⟩ := Allocation.fillWith_ok h
  refine ⟨?_, _, hwrite⟩
  have hword : (Text.Utf8.encode text).length + 1 < Word.limit :=
    Nat.lt_of_le_of_lt (State.writeTerminated_ok hwrite).2 (Word.toNat_lt x.size)
  rw [allocate_size hresult, UInt64.toNat_add, UInt64.toNat_ofNat_of_lt' (Nat.lt_of_succ_lt hword)]
  exact Nat.mod_eq_of_lt hword

end Allocator

end ScopedMemory
