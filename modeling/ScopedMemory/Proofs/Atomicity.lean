import ScopedMemory.Program.Perform
import ScopedMemory.Proofs.Writing

/-! Changes are all or nothing.

A change works in place: what it has stored by the time it fails stays stored (`InPlace`). Each
change looks at everything that can refuse it before it stores its first byte. The one that stores
twice is the text with its zero byte: it cuts out a slice that has room for both, and after the text
is stored the zero byte cannot be refused (`terminator_fits`). So every change that fails has stored
nothing, and one that succeeds has stored inside of the range it was asked to write. -/
namespace ScopedMemory

/-- Steps over a value of type `σ` in place: a step that fails leaves what the ones before it did.
-/
def InPlace (σ ε α : Type) : Type := σ → Except ε α × σ

namespace InPlace
variable {σ ε α β : Type}

instance : Monad (InPlace σ ε) where
  pure a := fun s => (.ok a, s)
  bind m k := fun s => match m s with
    | (.ok a, s') => k a s'
    | (.error e, s') => (.error e, s')

/-- Looks at the value as it is now, and may fail. -/
def inspect (f : σ → Except ε α) : InPlace σ ε α := fun s => (f s, s)

/-- Changes the value. -/
def alter (f : σ → σ) : InPlace σ ε Unit := fun s => (.ok (), f s)

/-- The same steps, whose access errors are faults. -/
def accessing (m : InPlace σ AccessError α) : InPlace σ Fault α :=
  fun s => (access (m s).1, (m s).2)

/-- From `s` on, the steps end with the given outcome, and a failure leaves `s`. -/
def Settles (m : InPlace σ ε Unit) (s : σ) : Except ε σ → Prop
  | .ok s' => m s = (.ok (), s')
  | .error e => m s = (.error e, s)

theorem Settles.cases {m : InPlace σ ε Unit} {s : σ} {r : Except ε σ} (h : m.Settles s r) :
    (∃ e, r = .error e ∧ m s = (.error e, s)) ∨ ∃ s', r = .ok s' ∧ m s = (.ok (), s') := by
  cases r with
  | error e => exact .inl ⟨e, rfl, h⟩
  | ok s' => exact .inr ⟨s', rfl, h⟩

theorem bind_of_ok {m : InPlace σ ε α} {k : α → InPlace σ ε β} {s s' : σ} {a : α}
    (h : m s = (.ok a, s')) : (m >>= k) s = k a s' := by
  show (match m s with
    | (.ok a, s') => k a s'
    | (.error e, s') => (.error e, s')) = _
  rw [h]

theorem bind_of_error {m : InPlace σ ε α} {k : α → InPlace σ ε β} {s s' : σ} {e : ε}
    (h : m s = (.error e, s')) : (m >>= k) s = (.error e, s') := by
  show (match m s with
    | (.ok a, s') => k a s'
    | (.error e, s') => (.error e, s')) = _
  rw [h]

theorem settles_alter (f : σ → σ) (s : σ) : (alter f : InPlace σ ε Unit).Settles s (pure (f s)) :=
  rfl

/-- A look changes nothing, so what follows decides. -/
theorem settles_inspect {f : σ → Except ε α} {k : α → InPlace σ ε Unit} {s : σ}
    {r : α → Except ε σ} (h : ∀ a, f s = .ok a → (k a).Settles s (r a)) :
    (inspect f >>= k).Settles s (f s >>= r) := by
  cases hf : f s with
  | error e =>
    have hlook : inspect f s = (.error e, s) := Prod.ext hf rfl
    exact bind_of_error hlook
  | ok a =>
    have hlook : inspect f s = (.ok a, s) := Prod.ext hf rfl
    have hk := h a hf
    show (inspect f >>= k).Settles s (r a)
    cases hr : r a with
    | error e =>
      rw [hr] at hk
      exact (bind_of_ok hlook).trans hk
    | ok s' =>
      rw [hr] at hk
      exact (bind_of_ok hlook).trans hk

/-- Two steps settle together if the second cannot fail once the first has succeeded. -/
theorem Settles.andThen {m k : InPlace σ ε Unit} {s : σ} {r : Except ε σ} {r' : σ → Except ε σ}
    (first : m.Settles s r)
    (second : ∀ s', r = .ok s' → k.Settles s' (r' s') ∧ ∃ s'', r' s' = .ok s'') :
    (m >>= fun _ => k).Settles s (r >>= r') := by
  cases r with
  | error e => exact bind_of_error first
  | ok s' =>
    obtain ⟨hk, s'', hr'⟩ := second s' rfl
    show (m >>= fun _ => k).Settles s (r' s')
    rw [hr'] at hk ⊢
    exact (bind_of_ok first).trans hk

theorem Settles.accessing {m : InPlace σ AccessError Unit} {s : σ} {r : Except AccessError σ}
    (h : m.Settles s r) : m.accessing.Settles s (access r) := by
  obtain ⟨e, rfl, hm⟩ | ⟨s', rfl, hm⟩ := h.cases
  · show (access (m s).1, (m s).2) = _
    rw [hm]
    rfl
  · show (access (m s).1, (m s).2) = _
    rw [hm]
    rfl

end InPlace

open InPlace

/-! ### Changes in place -/

namespace State

section
variable {c d : Carrier} (t : Thread) (x : Segment)

def setInPlace (layout : ValueLayout c) (offset : Word) (value : c.Value) :
    InPlace State AccessError Unit := do
  inspect fun s => s.check t x offset c.width layout.alignment.bytes .write
  alter fun s => s.store x offset (c.encode layout.order value)

def setAtInPlace (layout : ValueLayout c) (index : Word) (value : c.Value) :
    InPlace State AccessError Unit := do
  let offset ← inspect fun _ => indexOffset x layout.shape index
  setInPlace t x layout offset value

def setAddressInPlace (layout : AddressLayout) (offset : Word) (value : Segment) :
    InPlace State AccessError Unit := do
  inspect fun _ => if value.backing.isHeap then throw (.illegalArgument .noMachineAddress) else pure ()
  inspect fun s => s.check t x offset AddressLayout.width layout.alignment.bytes .write
  alter fun s => s.store x offset (Carrier.encode .ulong layout.order value.address)

def setAddressAtInPlace (layout : AddressLayout) (index : Word) (value : Segment) :
    InPlace State AccessError Unit := do
  let offset ← inspect fun _ => indexOffset x layout.shape index
  setAddressInPlace t x layout offset value

def writeRunInPlace (layout : ValueLayout c) (offset : Word) (values : List c.Value) :
    InPlace State AccessError Unit := do
  let length ← inspect fun _ => runLength c x offset values.length
  inspect fun s => s.check t x offset length layout.alignment.bytes .write
  alter fun s => s.store x offset (c.encodeAll layout.order values)

/-- The bytes are stored before the check for the zero byte. -/
def writeTerminatedInPlace (bytes : List UInt8) : InPlace State AccessError Unit := do
  writeRunInPlace t x byteLayout 0 bytes
  setInPlace t x byteLayout (UInt64.ofNat bytes.length) (0 : UInt8)

def setTextInPlace (offset : Word) (text : String) : InPlace State AccessError Unit := do
  let bytes := Text.Utf8.encode text
  let target ← inspect fun s => s.slice x offset (UInt64.ofNat bytes.length + 1) 1
  writeTerminatedInPlace t target bytes

def fillInPlace (byte : UInt8) : InPlace State AccessError Unit := do
  inspect fun s => s.check t x 0 x.size 1 .write
  alter fun s => { s with memory := s.memory.fill x.space x.address x.size.toNat byte }

def copyInPlace (source : Segment) (sourceOffset offset length : Word) :
    InPlace State AccessError Unit := do
  inspect fun s => s.check t source sourceOffset length 1 .read
  inspect fun s => s.check t x offset length 1 .write
  alter fun s => { s with
    memory := s.memory.move source.space (source.address + sourceOffset) x.space
      (x.address + offset) length.toNat }

def copyElementsInPlace (source : Segment) (sourceLayout : ValueLayout c) (sourceOffset : Word)
    (layout : ValueLayout d) (offset count : Word) : InPlace State AccessError Unit := do
  let length ← inspect fun s => s.checkElements t source sourceLayout sourceOffset x layout offset count
  alter fun s => { s with
    memory := movedElements s.memory c.size (turnsElements sourceLayout layout) source.space
      (source.address + sourceOffset) x.space (x.address + offset) length.toNat }

end

/-! ### No change fails late -/

section
variable {c d : Carrier} {t : Thread} {x : Segment} {s : State}

theorem setInPlace_settles (layout : ValueLayout c) (offset : Word) (value : c.Value) :
    (setInPlace t x layout offset value).Settles s (s.set t x layout offset value) :=
  settles_inspect fun _ _ => settles_alter _ s

theorem setAtInPlace_settles (layout : ValueLayout c) (index : Word) (value : c.Value) :
    (setAtInPlace t x layout index value).Settles s (s.setAt t x layout index value) :=
  settles_inspect fun offset _ => setInPlace_settles layout offset value

theorem setAddressInPlace_settles (layout : AddressLayout) (offset : Word) (value : Segment) :
    (setAddressInPlace t x layout offset value).Settles s
      (s.setAddress t x layout offset value) := by
  unfold setAddressInPlace setAddress
  cases value.backing.isHeap with
  | true => exact settles_inspect fun _ h => nomatch h
  | false => exact settles_inspect fun _ _ => settles_inspect fun _ _ => settles_alter _ s

theorem setAddressAtInPlace_settles (layout : AddressLayout) (index : Word) (value : Segment) :
    (setAddressAtInPlace t x layout index value).Settles s
      (s.setAddressAt t x layout index value) :=
  settles_inspect fun offset _ => setAddressInPlace_settles layout offset value

theorem writeRunInPlace_settles (layout : ValueLayout c) (offset : Word) (values : List c.Value) :
    (writeRunInPlace t x layout offset values).Settles s (s.writeRun t x layout offset values) :=
  settles_inspect fun _ _ => settles_inspect fun _ _ => settles_alter _ s

theorem fillInPlace_settles (byte : UInt8) :
    (fillInPlace t x byte).Settles s (s.fill t x byte) :=
  settles_inspect fun _ _ => settles_alter _ s

theorem copyInPlace_settles (source : Segment) (sourceOffset offset length : Word) :
    (copyInPlace t x source sourceOffset offset length).Settles s
      (s.copy t source sourceOffset x offset length) :=
  settles_inspect fun _ _ => settles_inspect fun _ _ => settles_alter _ s

theorem copyElementsInPlace_settles (source : Segment) (sourceLayout : ValueLayout c)
    (sourceOffset : Word) (layout : ValueLayout d) (offset count : Word) :
    (copyElementsInPlace t x source sourceLayout sourceOffset layout offset count).Settles s
      (s.copyElements t source sourceLayout sourceOffset x layout offset count) :=
  settles_inspect fun _ _ => settles_alter _ s

/-- Any address will do for a byte. -/
theorem checkAlignment_one (offset : Word) : x.checkAlignment offset 1 = .ok () := by
  have hwide : ∀ c : Carrier, ¬ c.width < 1 := by
    intro c
    cases c <;> decide
  have haligned : Word.offAlignment (x.address + offset) 1 = false := by
    simp [Word.offAlignment]
  unfold Segment.checkAlignment
  cases x.backing <;> simp [hwide, haligned]

/-- A byte can be stored where a run of bytes could be, as long as it lies inside. -/
theorem set_after_writeRun {s' : State} {bytes : List UInt8} {offset position : Word} (byte : UInt8)
    (h : s.writeRun t x byteLayout offset bytes = .ok s') (fits : position.toNat + 1 ≤ x.size.toNat) :
    ∃ s'', s'.set t x byteLayout position byte = .ok s'' := by
  have hrun := writeBytes_wroteAt h
  obtain ⟨memory, rfl, -⟩ := hrun.writes
  have hentry : { s with memory }.checkEntry t x.scope = .ok () := hrun.entered
  have hbounds : x.checkBounds position 1 = .ok () := Segment.checkBounds_eq_ok.mpr fits
  have hmode : x.checkMode .write = .ok () := by simp [Segment.checkMode, hrun.writable]
  have hcheck : { s with memory }.check t x position 1 1 .write = .ok () := by
    unfold check checkRange
    rw [hentry, hbounds, checkAlignment_one position, hmode]
    rfl
  exact ⟨_, bind_eq_ok.mpr ⟨(), hcheck, rfl⟩⟩

/-- **The zero byte is never refused** after the text was stored, in a segment that was cut out for
both. The segment has room for the text, so the count of bytes did not wrap around. -/
theorem terminator_fits {s' : State} {bytes : List UInt8}
    (h : s.writeRun t x byteLayout 0 bytes = .ok s') (cut : x.size = UInt64.ofNat bytes.length + 1) :
    (UInt64.ofNat bytes.length).toNat + 1 ≤ x.size.toNat := by
  have hroom := (writeBytes_wroteAt h).fits
  have hword : x.size.toNat < UInt64.size := UInt64.toNat_lt x.size
  have hlength : (UInt64.ofNat bytes.length).toNat = bytes.length :=
    UInt64.toNat_ofNat_of_lt' (by omega)
  have hsize : x.size.toNat = (bytes.length + 1) % UInt64.size := by
    rw [cut, UInt64.toNat_add, hlength]
    rfl
  by_cases hwrap : bytes.length + 1 < UInt64.size
  · refine Nat.le_of_eq ?_
    rw [hlength, hsize, Nat.mod_eq_of_lt hwrap]
  · have hfull : bytes.length + 1 = UInt64.size := by omega
    rw [hfull, Nat.mod_self] at hsize
    have hlarge : UInt64.size = 18446744073709551616 := rfl
    omega

theorem setTextInPlace_settles (offset : Word) (text : String) :
    (setTextInPlace t x offset text).Settles s (s.setText t x offset text) := by
  refine settles_inspect fun target hslice => ?_
  obtain ⟨-, -, rfl⟩ := slice_ok hslice
  refine (writeRunInPlace_settles byteLayout 0 (Text.Utf8.encode text)).andThen fun s' hrun => ?_
  exact ⟨setInPlace_settles byteLayout _ (0 : UInt8),
    set_after_writeRun 0 hrun (terminator_fits hrun rfl)⟩

end

end State

/-- A change in place. -/
def Change.inPlace (t : Thread) : Change → InPlace State Fault Unit
  | .set segment layout position value => do
    let x ← inspect (·.segmentNamed segment)
    let layout ← inspect fun _ => access layout.build
    accessing <| match position with
      | .offset offset => State.setInPlace t x layout offset value
      | .index index => State.setAtInPlace t x layout index value
  | .setAddress segment layout position value => do
    let x ← inspect (·.segmentNamed segment)
    let value ← inspect (·.segmentNamed value)
    let layout ← inspect fun _ => access layout.build
    accessing <| match position with
      | .offset offset => State.setAddressInPlace t x layout offset value
      | .index index => State.setAddressAtInPlace t x layout index value
  | .setText segment offset text => do
    let x ← inspect (·.segmentNamed segment)
    accessing (State.setTextInPlace t x offset text)
  | .setRun segment layout offset values => do
    let x ← inspect (·.segmentNamed segment)
    let layout ← inspect fun _ => access layout.build
    accessing (State.writeRunInPlace t x layout offset values)
  | .fill segment byte => do
    let x ← inspect (·.segmentNamed segment)
    accessing (State.fillInPlace t x byte)
  | .copy source sourceOffset target targetOffset length => do
    let source ← inspect (·.segmentNamed source)
    let x ← inspect (·.segmentNamed target)
    accessing (State.copyInPlace t x source sourceOffset targetOffset length)
  | .copyAll source target => do
    let source ← inspect (·.segmentNamed source)
    let x ← inspect (·.segmentNamed target)
    accessing (State.copyInPlace t x source 0 0 source.size)
  | .copyElements source sourceLayout sourceOffset target targetLayout targetOffset count => do
    let source ← inspect (·.segmentNamed source)
    let x ← inspect (·.segmentNamed target)
    let sourceLayout ← inspect fun _ => access sourceLayout.build
    let targetLayout ← inspect fun _ => access targetLayout.build
    if State.turnsElements sourceLayout targetLayout then
      let length ← inspect fun s => access (s.checkElements t source sourceLayout sourceOffset x
        targetLayout targetOffset count)
      inspect fun _ => gathering length.toNat
    accessing (State.copyElementsInPlace t x source sourceLayout sourceOffset targetLayout
      targetOffset count)

open State in
/-- **No change fails late**: in place it comes to the same. -/
theorem Change.inPlace_settles (t : Thread) (s : State) (change : Change) :
    (change.inPlace t).Settles s (change.apply t s) := by
  cases change with
  | set segment layout position value =>
    refine settles_inspect fun x _ => settles_inspect fun layout _ => ?_
    cases position with
    | offset offset => exact (setInPlace_settles layout offset value).accessing
    | index index => exact (setAtInPlace_settles layout index value).accessing
  | setAddress segment layout position value =>
    refine settles_inspect fun x _ => settles_inspect fun value _ => settles_inspect fun layout _ => ?_
    cases position with
    | offset offset => exact (setAddressInPlace_settles layout offset value).accessing
    | index index => exact (setAddressAtInPlace_settles layout index value).accessing
  | setText segment offset text =>
    exact settles_inspect fun x _ => (setTextInPlace_settles offset text).accessing
  | setRun segment layout offset values =>
    exact settles_inspect fun x _ => settles_inspect fun layout _ =>
      (writeRunInPlace_settles layout offset values).accessing
  | fill segment byte =>
    exact settles_inspect fun x _ => (fillInPlace_settles byte).accessing
  | copy source sourceOffset target targetOffset length =>
    exact settles_inspect fun source _ => settles_inspect fun x _ =>
      (copyInPlace_settles source sourceOffset targetOffset length).accessing
  | copyAll source target =>
    exact settles_inspect fun source _ => settles_inspect fun x _ =>
      (copyInPlace_settles source 0 0 source.size).accessing
  | copyElements source sourceLayout sourceOffset target targetLayout targetOffset count =>
    refine settles_inspect fun source _ => settles_inspect fun x _ =>
      settles_inspect fun sourceLayout _ => settles_inspect fun targetLayout _ => ?_
    have hcopy := (copyElementsInPlace_settles (t := t) (x := x) (s := s) source sourceLayout
      sourceOffset targetLayout targetOffset count).accessing
    cases State.turnsElements sourceLayout targetLayout with
    | false => exact hcopy
    | true => exact settles_inspect fun length _ => settles_inspect fun _ _ => hcopy

/-! ### Reading into a buffer -/

/-- Decodes bytes into the slots of a buffer, one after the other, as far as the bytes go. -/
def Carrier.decodeInto (c : Carrier) (order : ByteOrder) : List c.Value → List UInt8 → List c.Value
  | [], _ => []
  | slot :: rest, bytes => match c.decodeFront? order bytes with
    | none => slot :: rest
    | some value => value :: c.decodeInto order rest (bytes.drop c.size)

/-- Bytes for every slot fill the buffer. -/
theorem Carrier.decodeInto_eq {c : Carrier} (order : ByteOrder) (buffer : List c.Value)
    (bytes : List UInt8) (h : bytes.length = buffer.length * c.size) :
    c.decodeInto order buffer bytes = c.decodeAll order buffer.length bytes := by
  induction buffer generalizing bytes with
  | nil => rfl
  | cons slot rest ih =>
    rw [List.length_cons, Nat.succ_mul] at h
    have hroom : c.size ≤ bytes.length := by omega
    rw [decodeInto, decodeFront?_of_room hroom, List.length_cons, decodeAll]
    exact congrArg _ (ih _ (by rw [List.length_drop]; omega))

/-- Reads as many values as the buffer has slots into it. -/
def State.readInto {c : Carrier} (s : State) (t : Thread) (x : Segment) (layout : ValueLayout c)
    (offset : Word) : InPlace (List c.Value) AccessError Unit := do
  let length ← inspect fun buffer => runLength c x offset buffer.length
  inspect fun _ => s.check t x offset length layout.alignment.bytes .read
  alter fun buffer => c.decodeInto layout.order buffer (s.bytesAt x offset length.toNat)

theorem State.length_bytesAt (s : State) (x : Segment) (offset : Word) (count : Nat) :
    (s.bytesAt x offset count).length = count := by
  simp [bytesAt, Memory.bytes]

theorem State.readInto_settles {c : Carrier} (s : State) (t : Thread) (x : Segment)
    (layout : ValueLayout c) (offset count : Word) (buffer : List c.Value)
    (h : buffer.length = count.toNat) :
    (s.readInto t x layout offset).Settles buffer (s.readRun t x layout offset count) := by
  unfold readRun
  rw [← h]
  refine settles_inspect fun length hlength => settles_inspect fun _ _ => ?_
  have hbytes : (s.bytesAt x offset length.toNat).length = buffer.length * c.size := by
    rw [length_bytesAt, runLength_ok hlength]
  rw [← c.decodeInto_eq layout.order buffer _ hbytes]
  exact settles_alter _ buffer

/-! ### All or nothing -/

/-- Performing a change is doing it in place. -/
theorem Change.perform_eq_inPlace (change : Change) (nested : Nested) (t : Thread) (s : State) :
    (Operation.change change).perform nested t s =
      ((change.inPlace t s).1.map fun _ => .nothing, (change.inPlace t s).2) := by
  rw [Operation.perform]
  obtain ⟨e, happly, hplace⟩ | ⟨s', happly, hplace⟩ := (change.inPlace_settles t s).cases
  · rw [happly, hplace]
    rfl
  · rw [happly, hplace]
    rfl

open State in
/-- **A change that fails has changed nothing**, though it works in place, and one that succeeds has
left every byte outside of the range it was asked to write. Values are read into a buffer in place
too, and a failure leaves the buffer. -/
theorem changes_all_or_nothing (nested : Nested) (t : Thread) (s : State) :
    (∀ change : Change,
      (Operation.change change).perform nested t s =
        ((change.inPlace t s).1.map fun _ => .nothing, (change.inPlace t s).2) ∧
      match change.inPlace t s with
      | (.error _, s') => s' = s
      | (.ok (), s') => ∃ x memory, s.handles.segments.find? change.target = some x ∧
          (change.range s).1 + (change.range s).2 ≤ x.size.toNat ∧ s' = { s with memory } ∧
          ∀ space address, ¬ x.Spans (change.range s).1 (change.range s).2 space address →
            memory.read space address = s.memory.read space address) ∧
    ∀ (c : Carrier) (x : Segment) (layout : ValueLayout c) (offset count : Word)
      (buffer : List c.Value), buffer.length = count.toNat →
      match s.readInto t x layout offset buffer with
      | (.error e, buffer') => s.readRun t x layout offset count = .error e ∧ buffer' = buffer
      | (.ok (), buffer') => s.readRun t x layout offset count = .ok buffer' := by
  refine ⟨fun change => ⟨change.perform_eq_inPlace nested t s, ?_⟩,
    fun c x layout offset count buffer hlength => ?_⟩
  · obtain ⟨e, -, hplace⟩ | ⟨s', happly, hplace⟩ := (change.inPlace_settles t s).cases
    · rw [hplace]
    · rw [hplace]
      obtain ⟨x, hx, hwrote⟩ := Change.apply_wroteAt happly
      obtain ⟨memory, hs', hsame⟩ := hwrote.writes
      exact ⟨x, memory, hx, hwrote.fits, hs', hsame⟩
  · obtain ⟨e, hread, hplace⟩ | ⟨values, hread, hplace⟩ :=
      (s.readInto_settles t x layout offset count buffer hlength).cases
    · rw [hplace]
      exact ⟨hread, rfl⟩
    · rw [hplace]
      exact hread

/-- Four bytes under one name. -/
def fourBytes : State :=
  ((Operation.make (.array .ubyte ([1, 2, 3, 4] : List UInt8)) (some "x")).perform
    (fun _ s => (none, s)) 1 (.initial .bump)).2

/-- A text that fits but for its zero byte is refused as a whole, and a shorter one leaves the byte
before it. -/
theorem changes_all_or_nothing_text :
    (∃ e, (Change.setText "x" 1 "abc").inPlace 1 fourBytes = (.error e, fourBytes)) ∧
    ∃ s', (Change.setText "x" 1 "ab").inPlace 1 fourBytes = (.ok (), s') ∧
      s'.memory.read (.array 0) 0 = 1 := by
  have hlong : ((Change.setText "x" 1 "abc").inPlace 1 fourBytes).1 =
      .error (.access (.outOfBounds 1 4 4)) := rfl
  have hshort : ((Change.setText "x" 1 "ab").inPlace 1 fourBytes).1 = .ok () := rfl
  have hnamed : fourBytes.handles.segments.find? "x" =
      some ⟨0, 4, .heap ⟨0, .ubyte, 4⟩, false, 1⟩ := rfl
  have hall := fun change => ((changes_all_or_nothing (fun _ s => (none, s)) 1 fourBytes).1 change).2
  constructor
  · have habc := hall (.setText "x" 1 "abc")
    rcases hplace : (Change.setText "x" 1 "abc").inPlace 1 fourBytes with ⟨outcome, s'⟩
    rw [hplace] at hlong habc
    obtain rfl : outcome = _ := hlong
    exact ⟨_, by rw [show s' = fourBytes from habc]⟩
  · have hab := hall (.setText "x" 1 "ab")
    rcases hplace : (Change.setText "x" 1 "ab").inPlace 1 fourBytes with ⟨outcome, s'⟩
    rw [hplace] at hshort hab
    obtain rfl : outcome = _ := hshort
    obtain ⟨x, memory, hx, -, rfl, hsame⟩ := hab
    obtain rfl := Option.some.inj (hnamed.symm.trans hx)
    refine ⟨_, rfl, (hsame (.array 0) 0 ?_).trans rfl⟩
    rintro ⟨-, i, hi, haddress⟩
    have hthree : i = 0 ∨ i = 1 ∨ i = 2 := by
      have hi' : i < 3 := hi
      omega
    rcases hthree with rfl | rfl | rfl <;> exact absurd haddress (by decide)

end ScopedMemory
