import Mathlib.Tactic.Common
import ScopedMemory.Program.Change
import ScopedMemory.Proofs.Moving

/-! What a change writes.

A change that succeeds has passed its checks, and differs from the state before in the bytes of one
segment alone, those that it was asked to write (`Change.apply_wroteAt`). -/
namespace ScopedMemory

/-! ### Outcomes -/

theorem bind_eq_ok {ε α β : Type} {x : Except ε α} {f : α → Except ε β} {b : β} :
    (x >>= f) = .ok b ↔ ∃ a, x = .ok a ∧ f a = .ok b := by
  cases x with
  | error e => simp [bind, Except.bind]
  | ok a => simp [bind, Except.bind]

@[simp] theorem pure_eq_ok {ε α : Type} {a b : α} : (pure a : Except ε α) = .ok b ↔ a = b := by
  simp [pure, Except.pure]

@[simp] theorem throw_ne_ok {ε α : Type} {e : ε} {a : α} : ¬ (throw e : Except ε α) = .ok a := nofun

@[simp] theorem access_eq_ok {α : Type} {r : Except AccessError α} {a : α} :
    access r = .ok a ↔ r = .ok a := by
  cases r <;> simp [access, Except.mapError]

@[simp] theorem allocating_eq_ok {α : Type} {r : Except ArenaError α} {a : α} :
    allocating r = .ok a ↔ r = .ok a := by
  cases r <;> simp [allocating, Except.mapError]

@[simp] theorem liftAccess_eq_ok {α : Type} {r : Except AccessError α} {a : α} :
    liftAccess r = .ok a ↔ r = .ok a := by
  cases r <;> simp [liftAccess, Except.mapError]

@[simp] theorem named_eq_ok {α : Type} {found : Option α} {a : α} :
    named found = .ok a ↔ found = some a := by
  cases found <;> simp [named]

/-! ### Ranges -/

namespace Segment

/-- The byte at that address of that space is one of the segment's. -/
def Covers (x : Segment) (space : Space) (address : Word) : Prop :=
  space = x.space ∧ Memory.within x.address x.size.toNat address = true

/-- A sum that is no word is larger than any size. -/
theorem add?_any_le {offset length size : Word} :
    (offset.add? length).any (· ≤ size) = true ↔ offset.toNat + length.toNat ≤ size.toNat := by
  cases hsum : offset.add? length with
  | none =>
    have hsize := Word.toNat_lt size
    have hlarge : ¬ offset.toNat + length.toNat < Word.limit := by
      intro hword
      simp [Word.add?, hword] at hsum
    simp only [Option.any_none, Bool.false_eq_true, false_iff]
    omega
  | some stop =>
    rw [Word.add?_eq_some_iff.mp hsum, ← UInt64.le_iff_toNat_le]
    exact decide_eq_true_iff

theorem checkBounds_eq_ok {x : Segment} {offset length : Word} {u : Unit} :
    x.checkBounds offset length = .ok u ↔ offset.toNat + length.toNat ≤ x.size.toNat := by
  rw [← add?_any_le]
  unfold checkBounds
  split <;> simp_all

theorem sub_toNat_of_within {start offset address : Word} {count size : Nat}
    (h : Memory.within (start + offset) count address = true)
    (fits : offset.toNat + count ≤ size) (word : size < Word.limit) :
    (address - start).toNat = (address - (start + offset)).toNat + offset.toNat := by
  have hlt : (address - (start + offset)).toNat < count := by simpa [Memory.within] using h
  have hsplit : address - start = address - (start + offset) + offset := by grind
  unfold Word.limit at word
  rw [hsplit, UInt64.toNat_add, Nat.mod_eq_of_lt (by omega)]

/-- The byte is one of the `length` bytes from `offset` on. -/
def Spans (x : Segment) (offset length : Nat) (space : Space) (address : Word) : Prop :=
  space = x.space ∧ ∃ i < length, address = x.address + UInt64.ofNat (offset + i)

theorem spans_of_within {x : Segment} {offset address : Word} {count : Nat}
    (h : Memory.within (x.address + offset) count address = true) :
    x.Spans offset.toNat count x.space address := by
  refine ⟨rfl, (address - (x.address + offset)).toNat, by simpa [Memory.within] using h, ?_⟩
  rw [UInt64.ofNat_add, UInt64.ofNat_toNat, UInt64.ofNat_toNat]
  grind

theorem covers_of_spans {x : Segment} {offset length : Nat} {space : Space} {address : Word}
    (fits : offset + length ≤ x.size.toNat) (h : x.Spans offset length space address) :
    x.Covers space address := by
  obtain ⟨rfl, i, hi, rfl⟩ := h
  have hword : x.size.toNat < UInt64.size := UInt64.toNat_lt x.size
  have hback : x.address + UInt64.ofNat (offset + i) - x.address = UInt64.ofNat (offset + i) := by
    grind
  refine ⟨rfl, ?_⟩
  rw [Memory.within, decide_eq_true_eq, hback, UInt64.toNat_ofNat_of_lt' (by omega)]
  omega

/-- A range inside of another spans no more. -/
theorem Spans.mono {x : Segment} {offset length offset' length' : Nat} {space : Space}
    {address : Word} (h : x.Spans offset length space address) (start : offset' ≤ offset)
    (stop : offset + length ≤ offset' + length') : x.Spans offset' length' space address := by
  obtain ⟨hspace, i, hi, haddress⟩ := h
  refine ⟨hspace, offset - offset' + i, by omega, ?_⟩
  rw [haddress]
  congr 2
  omega

/-- A range of a part is a range of the whole. -/
theorem Spans.whole {x : Segment} {start size : Word} {length : Nat} {space : Space}
    {address : Word} (h : (x.part start size).Spans 0 length space address) :
    x.Spans start.toNat length space address := by
  obtain ⟨hspace, i, hi, haddress⟩ := h
  refine ⟨hspace, i, hi, haddress.trans ?_⟩
  rw [Nat.zero_add, UInt64.ofNat_add, UInt64.ofNat_toNat, ← UInt64.add_assoc]
  rfl

/-- A range inside of the segment's range is covered by the segment. -/
theorem covers_of_within {x : Segment} {offset address : Word} {count : Nat}
    (fits : offset.toNat + count ≤ x.size.toNat)
    (h : Memory.within (x.address + offset) count address = true) : x.Covers x.space address := by
  have heq := sub_toNat_of_within h fits (Word.toNat_lt x.size)
  have hlt : (address - (x.address + offset)).toNat < count := by simpa [Memory.within] using h
  refine ⟨rfl, ?_⟩
  simp only [Memory.within, decide_eq_true_eq]
  omega

end Segment

namespace State

/-- The states differ in the bytes of the segment at most. -/
def Writes (x : Segment) (s s' : State) : Prop :=
  ∃ memory, s' = { s with memory } ∧
    ∀ space address, ¬ x.Covers space address →
      memory.read space address = s.memory.read space address

theorem Writes.trans {x : Segment} {s s' s'' : State} (h : Writes x s s') (h' : Writes x s' s'') :
    Writes x s s'' := by
  obtain ⟨memory, rfl, hsame⟩ := h
  obtain ⟨memory', rfl, hsame'⟩ := h'
  exact ⟨memory', rfl, fun space address hc =>
    (hsame' space address hc).trans (hsame space address hc)⟩

/-- The states differ in the `length` bytes from `offset` on at most. -/
def WritesAt (x : Segment) (offset length : Nat) (s s' : State) : Prop :=
  ∃ memory, s' = { s with memory } ∧
    ∀ space address, ¬ x.Spans offset length space address →
      memory.read space address = s.memory.read space address

theorem WritesAt.trans {x : Segment} {offset length : Nat} {s s' s'' : State}
    (h : WritesAt x offset length s s') (h' : WritesAt x offset length s' s'') :
    WritesAt x offset length s s'' := by
  obtain ⟨memory, rfl, hsame⟩ := h
  obtain ⟨memory', rfl, hsame'⟩ := h'
  exact ⟨memory', rfl, fun space address hc =>
    (hsame' space address hc).trans (hsame space address hc)⟩

theorem WritesAt.mono {x y : Segment} {offset length offset' length' : Nat} {s s' : State}
    (h : WritesAt x offset length s s')
    (sub : ∀ space address, x.Spans offset length space address →
      y.Spans offset' length' space address) : WritesAt y offset' length' s s' := by
  obtain ⟨memory, rfl, hsame⟩ := h
  exact ⟨memory, rfl, fun space address hc => hsame space address fun hx => hc (sub _ _ hx)⟩

theorem WritesAt.writes {x : Segment} {offset length : Nat} {s s' : State}
    (h : WritesAt x offset length s s') (fits : offset + length ≤ x.size.toNat) : Writes x s s' := by
  obtain ⟨memory, rfl, hsame⟩ := h
  exact ⟨memory, rfl, fun space address hc =>
    hsame space address fun hs => hc (Segment.covers_of_spans fits hs)⟩

theorem writesAt_overlay (s : State) (x : Segment) (offset : Word) (count : Nat)
    (content : Nat → UInt8) :
    WritesAt x offset.toNat count s { s with
      memory := s.memory.overlay x.space (x.address + offset) count content } := by
  refine ⟨_, rfl, fun space address hc => ?_⟩
  rw [Memory.read_overlay, if_neg]
  rintro ⟨rfl, hw⟩
  exact hc (Segment.spans_of_within hw)

/-! ### Checks -/

section
variable {s s' : State} {t : Thread} {x : Segment} {offset length alignment : Word} {u : Unit}

theorem checkRange_ok (h : s.checkRange t x offset length = .ok u) :
    s.checkEntry t x.scope = .ok () ∧ offset.toNat + length.toNat ≤ x.size.toNat := by
  obtain ⟨⟨⟩, hentry, hbounds⟩ := bind_eq_ok.mp h
  exact ⟨hentry, Segment.checkBounds_eq_ok.mp hbounds⟩

theorem check_ok {mode : AccessMode} (h : s.check t x offset length alignment mode = .ok u) :
    s.checkEntry t x.scope = .ok () ∧ offset.toNat + length.toNat ≤ x.size.toNat ∧
      (mode = .write → x.readOnly = false) := by
  obtain ⟨⟨⟩, hrange, h⟩ := bind_eq_ok.mp h
  obtain ⟨⟨⟩, -, hmode⟩ := bind_eq_ok.mp h
  refine ⟨(checkRange_ok hrange).1, (checkRange_ok hrange).2, ?_⟩
  rintro rfl
  simp only [Segment.checkMode] at hmode
  split at hmode
  · cases hmode
  · simpa using ‹¬ x.readOnly = true›

/-- What a successful write through a segment comes to. -/
structure Wrote (t : Thread) (x : Segment) (s s' : State) : Prop where
  entered : s.checkEntry t x.scope = .ok ()
  writable : x.readOnly = false
  writes : Writes x s s'

/-- What a successful write of `length` bytes at `offset` comes to. -/
structure WroteAt (t : Thread) (x : Segment) (offset length : Nat) (s s' : State) : Prop where
  entered : s.checkEntry t x.scope = .ok ()
  writable : x.readOnly = false
  fits : offset + length ≤ x.size.toNat
  writes : WritesAt x offset length s s'

theorem WroteAt.wrote {offset length : Nat} (h : WroteAt t x offset length s s') : Wrote t x s s' :=
  ⟨h.entered, h.writable, h.writes.writes h.fits⟩

theorem wroteAt_overlay (h : s.check t x offset length alignment .write = .ok u)
    (content : Nat → UInt8) :
    WroteAt t x offset.toNat length.toNat s { s with
      memory := s.memory.overlay x.space (x.address + offset) length.toNat content } := by
  obtain ⟨hentry, hbounds, hmode⟩ := check_ok h
  exact ⟨hentry, hmode rfl, hbounds, writesAt_overlay s x offset length.toNat content⟩

theorem store_wroteAt {bytes : List UInt8}
    (h : s.check t x offset length alignment .write = .ok u) (hlen : bytes.length = length.toNat) :
    WroteAt t x offset.toNat length.toNat s (s.store x offset bytes) := by
  have hstore := wroteAt_overlay h fun i => bytes.toArray.getD i 0
  rw [← hlen, ← List.size_toArray] at hstore ⊢
  exact hstore

end

section
variable {c : Carrier} {s s' : State} {t : Thread} {x : Segment}

theorem set_wroteAt {layout : ValueLayout c} {offset : Word} {value : c.Value}
    (h : s.set t x layout offset value = .ok s') : WroteAt t x offset.toNat c.size s s' := by
  obtain ⟨⟨⟩, hcheck, h⟩ := bind_eq_ok.mp h
  obtain rfl := pure_eq_ok.mp h
  have hlength : (c.encode layout.order value).length = c.width.toNat := by
    simp [Carrier.toNat_width]
  have hstore := store_wroteAt hcheck hlength
  rwa [Carrier.toNat_width] at hstore

theorem indexOffset_ok {shape : Shape} {index offset : Word}
    (h : indexOffset x shape index = .ok offset) : offset.toNat = index.toNat * shape.size.toNat := by
  simp only [indexOffset] at h
  split at h
  · cases h
  · split at h
    · rename_i product hproduct
      obtain rfl := Except.ok.inj h
      exact (Word.mul?_eq_some_iff.mp hproduct).symm
    · cases h

theorem setAt_wroteAt {layout : ValueLayout c} {index : Word} {value : c.Value}
    (h : s.setAt t x layout index value = .ok s') :
    WroteAt t x (index.toNat * c.size) c.size s s' := by
  obtain ⟨offset, hoffset, h⟩ := bind_eq_ok.mp h
  have hset := set_wroteAt h
  rwa [indexOffset_ok hoffset, ValueLayout.shape, Carrier.toNat_width] at hset

theorem length_encodeAll (order : ByteOrder) (values : List c.Value) :
    (c.encodeAll order values).length = values.length * c.size := by
  induction values with
  | nil => simp [Carrier.encodeAll]
  | cons v rest ih =>
    rw [Carrier.encodeAll] at ih ⊢
    rw [List.flatMap_cons, List.length_append, ih, Carrier.length_encode, List.length_cons,
      Nat.succ_mul, Nat.add_comm]

theorem runLength_ok {offset length : Word} {count : Nat}
    (h : runLength c x offset count = .ok length) : length.toNat = count * c.size := by
  unfold runLength at h
  split at h
  · cases h
    exact UInt64.toNat_ofNat_of_lt' ‹_›
  · cases h

theorem writeRun_wroteAt {layout : ValueLayout c} {offset : Word} {values : List c.Value}
    (h : s.writeRun t x layout offset values = .ok s') :
    WroteAt t x offset.toNat (values.length * c.size) s s' := by
  obtain ⟨length, hlength, h⟩ := bind_eq_ok.mp h
  obtain ⟨⟨⟩, hcheck, h⟩ := bind_eq_ok.mp h
  obtain rfl := pure_eq_ok.mp h
  have hbytes : (c.encodeAll layout.order values).length = length.toNat := by
    rw [length_encodeAll, runLength_ok hlength]
  have hstore := store_wroteAt hcheck hbytes
  rwa [runLength_ok hlength] at hstore

end

section
variable {s s' : State} {t : Thread} {x : Segment}

theorem setAddress_wroteAt {layout : AddressLayout} {offset : Word} {value : Segment}
    (h : s.setAddress t x layout offset value = .ok s') :
    WroteAt t x offset.toNat AddressLayout.width.toNat s s' := by
  unfold setAddress at h
  split at h
  · simp [bind, Except.bind] at h
  · obtain ⟨⟨⟩, hcheck, h⟩ := bind_eq_ok.mp h
    obtain rfl := pure_eq_ok.mp h
    exact store_wroteAt hcheck (Carrier.length_encode .ulong _ _)

theorem setAddressAt_wroteAt {layout : AddressLayout} {index : Word} {value : Segment}
    (h : s.setAddressAt t x layout index value = .ok s') :
    WroteAt t x (index.toNat * AddressLayout.width.toNat) AddressLayout.width.toNat s s' := by
  obtain ⟨offset, hoffset, h⟩ := bind_eq_ok.mp h
  have hset := setAddress_wroteAt h
  rwa [indexOffset_ok hoffset] at hset

theorem writeBytes_wroteAt {offset : Word} {bytes : List UInt8}
    (h : s.writeRun t x byteLayout offset bytes = .ok s') :
    WroteAt t x offset.toNat bytes.length s s' := by
  have hw := writeRun_wroteAt h
  have hone : Carrier.size .ubyte = 1 := rfl
  rwa [hone, Nat.mul_one] at hw

theorem writeTerminated_wroteAt {bytes : List UInt8} (h : s.writeTerminated t x bytes = .ok s') :
    WroteAt t x 0 (bytes.length + 1) s s' := by
  obtain ⟨middle, hfirst, hlast⟩ := bind_eq_ok.mp h
  have hrun : WroteAt t x 0 bytes.length s middle := writeBytes_wroteAt hfirst
  have hword : x.size.toNat < UInt64.size := UInt64.toNat_lt x.size
  have hfits := hrun.fits
  have hend : (UInt64.ofNat bytes.length).toNat = bytes.length :=
    UInt64.toNat_ofNat_of_lt' (by omega)
  have hzero : WroteAt t x bytes.length 1 middle s' := hend ▸ set_wroteAt hlast
  refine ⟨hrun.entered, hrun.writable, by simpa using hzero.fits, ?_⟩
  exact (hrun.writes.mono fun _ _ hs => hs.mono (Nat.le_refl 0) (by omega)).trans
    (hzero.writes.mono fun _ _ hs => hs.mono (Nat.zero_le _) (by omega))

theorem checkAlive_eq_ok {id : ScopeId} {u : Unit} :
    s.checkAlive id = .ok u ↔ s.isAlive id = true := by
  unfold checkAlive
  split <;> simp_all

theorem slice_ok {y : Segment} {offset size alignment : Word}
    (h : s.slice x offset size alignment = .ok y) :
    s.isAlive x.scope = true ∧ offset.toNat + size.toNat ≤ x.size.toNat ∧
      y = x.part offset size := by
  obtain ⟨-, -, h⟩ := bind_eq_ok.mp h
  obtain ⟨⟨⟩, halive, h⟩ := bind_eq_ok.mp h
  obtain ⟨⟨⟩, hbounds, h⟩ := bind_eq_ok.mp h
  obtain ⟨⟨⟩, -, h⟩ := bind_eq_ok.mp h
  exact ⟨checkAlive_eq_ok.mp halive, Segment.checkBounds_eq_ok.mp hbounds,
    (pure_eq_ok.mp h).symm⟩

theorem sliceFrom_ok {y : Segment} {offset : Word} (h : s.sliceFrom x offset = .ok y) :
    s.isAlive x.scope = true ∧ ∃ size, offset.toNat + size.toNat ≤ x.size.toNat ∧
      y = x.part offset size := by
  obtain ⟨⟨⟩, halive, h⟩ := bind_eq_ok.mp h
  refine ⟨checkAlive_eq_ok.mp halive, ?_⟩
  cases hsize : x.size.sub? offset with
  | none => simp [hsize] at h
  | some size =>
    simp only [hsize, pure_eq_ok] at h
    exact ⟨size, Nat.le_of_eq (Word.sub?_eq_some_iff.mp hsize), h.symm⟩

theorem setText_wroteAt {offset : Word} {text : String}
    (h : s.setText t x offset text = .ok s') :
    WroteAt t x offset.toNat ((Text.Utf8.encode text).length + 1) s s' := by
  obtain ⟨target, hslice, h⟩ := bind_eq_ok.mp h
  obtain ⟨-, hfits, rfl⟩ := slice_ok hslice
  have hw := writeTerminated_wroteAt h
  have hinner := hw.fits
  rw [Nat.zero_add] at hinner
  exact ⟨hw.entered, hw.writable, Nat.le_trans (Nat.add_le_add_left hinner _) hfits,
    hw.writes.mono fun _ _ hs => hs.whole⟩

theorem copy_wroteAt {source : Segment} {sourceOffset offset length : Word}
    (h : s.copy t source sourceOffset x offset length = .ok s') :
    WroteAt t x offset.toNat length.toNat s s' := by
  obtain ⟨⟨⟩, -, h⟩ := bind_eq_ok.mp h
  obtain ⟨⟨⟩, hcheck, h⟩ := bind_eq_ok.mp h
  obtain rfl := pure_eq_ok.mp h
  obtain ⟨content, hmove⟩ := s.memory.exists_move_eq_overlay source.space
    (source.address + sourceOffset) x.space (x.address + offset) length.toNat
  rw [hmove]
  exact wroteAt_overlay hcheck content

theorem fill_wroteAt {byte : UInt8} (h : s.fill t x byte = .ok s') :
    WroteAt t x 0 x.size.toNat s s' := by
  obtain ⟨⟨⟩, hcheck, h⟩ := bind_eq_ok.mp h
  obtain rfl := pure_eq_ok.mp h
  have hw := wroteAt_overlay hcheck fun _ => byte
  rwa [UInt64.add_zero] at hw

end

section
variable {c d : Carrier} {s s' : State} {t : Thread} {source x : Segment}
  {sourceLayout : ValueLayout c} {layout : ValueLayout d} {sourceOffset offset count : Word}

theorem checkElements_ok {length : Word}
    (h : s.checkElements t source sourceLayout sourceOffset x layout offset count = .ok length) :
    length.toNat = count.toNat * c.size ∧
      s.check t source sourceOffset length sourceLayout.alignment.bytes .read = .ok () ∧
      s.check t x offset length layout.alignment.bytes .write = .ok () := by
  simp only [checkElements] at h
  iterate 3
    split at h
    · simp [bind, Except.bind] at h
  cases hlength : count.mul? c.width with
  | none => simp [hlength, bind, Except.bind] at h
  | some bytes =>
    simp only [hlength, pure_bind] at h
    obtain ⟨⟨⟩, hread, h⟩ := bind_eq_ok.mp h
    obtain ⟨⟨⟩, hwrite, h⟩ := bind_eq_ok.mp h
    obtain rfl := pure_eq_ok.mp h
    refine ⟨?_, hread, hwrite⟩
    rw [← Word.mul?_eq_some_iff.mp hlength, Carrier.toNat_width]

theorem copyElements_wroteAt
    (h : s.copyElements t source sourceLayout sourceOffset x layout offset count = .ok s') :
    WroteAt t x offset.toNat (count.toNat * c.size) s s' := by
  obtain ⟨length, hcheck, h⟩ := bind_eq_ok.mp h
  obtain rfl := pure_eq_ok.mp h
  obtain ⟨hlength, -, hwrite⟩ := checkElements_ok hcheck
  obtain ⟨content, hmoved⟩ := s.memory.exists_movedElements_eq_overlay
    (turnsElements sourceLayout layout) source.space (source.address + sourceOffset) x.space
    (x.address + offset) (hlength ▸ Nat.dvd_mul_left c.size count.toNat)
  rw [← hlength, hmoved]
  exact wroteAt_overlay hwrite content

end

theorem segmentNamed_ok {s : State} {name : String} {x : Segment}
    (h : s.segmentNamed name = .ok x) : s.handles.segments.find? name = some x :=
  named_eq_ok.mp h

end State

/-- The segment that a change writes through. -/
def Change.target : Change → String
  | .set segment .. | .setAddress segment .. | .setText segment .. | .setRun segment ..
  | .fill segment _ => segment
  | .copy _ _ target .. | .copyAll _ target | .copyElements _ _ _ target .. => target

/-- Where in a segment a value of that size stands. -/
def Position.range (size : Nat) : Position → Nat × Nat
  | .offset bytes => (bytes.toNat, size)
  | .index elements => (elements.toNat * size, size)

/-- The size of the segment of that name. -/
def State.sizeNamed (s : State) (name : String) : Nat :=
  ((s.handles.segments.find? name).map fun x => x.size.toNat).getD 0

/-- Which bytes of its target a change is asked to write: from where on, and how many. -/
def Change.range (s : State) : Change → Nat × Nat
  | .set _ layout position _ => position.range layout.carrier.size
  | .setAddress _ _ position _ => position.range AddressLayout.width.toNat
  | .setText _ offset text => (offset.toNat, (Text.Utf8.encode text).length + 1)
  | .setRun _ layout offset values => (offset.toNat, values.length * layout.carrier.size)
  | .fill segment _ => (0, s.sizeNamed segment)
  | .copy _ _ _ targetOffset length => (targetOffset.toNat, length.toNat)
  | .copyAll source _ => (0, s.sizeNamed source)
  | .copyElements _ sourceLayout _ _ _ targetOffset count =>
    (targetOffset.toNat, count.toNat * sourceLayout.carrier.size)

open State

theorem State.sizeNamed_eq {s : State} {name : String} {x : Segment}
    (h : s.segmentNamed name = .ok x) : s.sizeNamed name = x.size.toNat := by
  rw [sizeNamed, segmentNamed_ok h]
  rfl

/-- **What a change does.** It writes through the segment it names, which it may, and there what it
was asked to write. -/
theorem Change.apply_wroteAt {t : Thread} {s s' : State} {c : Change} (h : c.apply t s = .ok s') :
    ∃ x, s.handles.segments.find? c.target = some x ∧
      WroteAt t x (c.range s).1 (c.range s).2 s s' := by
  cases c with
  | set segment layout position value =>
    obtain ⟨x, hx, h⟩ := bind_eq_ok.mp h
    obtain ⟨layout, -, h⟩ := bind_eq_ok.mp h
    refine ⟨x, segmentNamed_ok hx, ?_⟩
    cases position with
    | offset offset => exact set_wroteAt (access_eq_ok.mp h)
    | index index => exact setAt_wroteAt (access_eq_ok.mp h)
  | setAddress segment layout position value =>
    obtain ⟨x, hx, h⟩ := bind_eq_ok.mp h
    obtain ⟨value, -, h⟩ := bind_eq_ok.mp h
    obtain ⟨layout, -, h⟩ := bind_eq_ok.mp h
    refine ⟨x, segmentNamed_ok hx, ?_⟩
    cases position with
    | offset offset => exact setAddress_wroteAt (access_eq_ok.mp h)
    | index index => exact setAddressAt_wroteAt (access_eq_ok.mp h)
  | setText segment offset text =>
    obtain ⟨x, hx, h⟩ := bind_eq_ok.mp h
    exact ⟨x, segmentNamed_ok hx, setText_wroteAt (access_eq_ok.mp h)⟩
  | setRun segment layout offset values =>
    obtain ⟨x, hx, h⟩ := bind_eq_ok.mp h
    obtain ⟨layout, -, h⟩ := bind_eq_ok.mp h
    exact ⟨x, segmentNamed_ok hx, writeRun_wroteAt (access_eq_ok.mp h)⟩
  | fill segment byte =>
    obtain ⟨x, hx, h⟩ := bind_eq_ok.mp h
    refine ⟨x, segmentNamed_ok hx, ?_⟩
    simp only [range, sizeNamed_eq hx]
    exact fill_wroteAt (access_eq_ok.mp h)
  | copy source sourceOffset target targetOffset length =>
    obtain ⟨source, -, h⟩ := bind_eq_ok.mp h
    obtain ⟨x, hx, h⟩ := bind_eq_ok.mp h
    exact ⟨x, segmentNamed_ok hx, copy_wroteAt (access_eq_ok.mp h)⟩
  | copyAll source target =>
    obtain ⟨y, hy, h⟩ := bind_eq_ok.mp h
    obtain ⟨x, hx, h⟩ := bind_eq_ok.mp h
    refine ⟨x, segmentNamed_ok hx, ?_⟩
    simp only [range, sizeNamed_eq hy]
    exact copy_wroteAt (access_eq_ok.mp h)
  | copyElements source sourceLayout sourceOffset target targetLayout targetOffset count =>
    obtain ⟨source, -, h⟩ := bind_eq_ok.mp h
    obtain ⟨x, hx, h⟩ := bind_eq_ok.mp h
    obtain ⟨sourceLayout, -, h⟩ := bind_eq_ok.mp h
    obtain ⟨targetLayout, -, h⟩ := bind_eq_ok.mp h
    refine ⟨x, segmentNamed_ok hx, ?_⟩
    split at h
    · obtain ⟨length, -, h⟩ := bind_eq_ok.mp h
      obtain ⟨⟨⟩, -, h⟩ := bind_eq_ok.mp h
      exact copyElements_wroteAt (access_eq_ok.mp h)
    · exact copyElements_wroteAt (access_eq_ok.mp h)

theorem Change.apply_wrote {t : Thread} {s s' : State} {c : Change} (h : c.apply t s = .ok s') :
    ∃ x, s.handles.segments.find? c.target = some x ∧ Wrote t x s s' := by
  obtain ⟨x, hx, hw⟩ := apply_wroteAt h
  exact ⟨x, hx, hw.wrote⟩

end ScopedMemory
