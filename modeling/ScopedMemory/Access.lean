import ScopedMemory.Guard
import ScopedMemory.Text.Utf8

/-! Checked access.

Every access passes one check before it touches memory, in a fixed order: the scope lets the thread
in (`checkEntry`), the range lies inside, its start is aligned, and a write is not refused. -/
namespace ScopedMemory.State

/-- The scope lets the thread in, and the `length` bytes at `offset` lie inside. -/
def checkRange (s : State) (t : Thread) (segment : Segment) (offset length : Word) :
    Except AccessError Unit := do
  s.checkEntry t segment.scope
  segment.checkBounds offset length

/-- The thread may access `length` bytes at `offset` in this mode. -/
def check (s : State) (t : Thread) (segment : Segment) (offset length alignment : Word)
    (mode : AccessMode) : Except AccessError Unit := do
  s.checkRange t segment offset length
  segment.checkAlignment offset alignment
  segment.checkMode mode

/-- The bytes at `offset`. -/
def bytesAt (s : State) (segment : Segment) (offset : Word) (count : Nat) : List UInt8 :=
  s.memory.bytes segment.space (segment.address + offset) count

/-- The state with bytes stored at `offset`. -/
def store (s : State) (segment : Segment) (offset : Word) (bytes : List UInt8) : State :=
  { s with memory := s.memory.write segment.space (segment.address + offset) bytes }

/-! ### Slices -/

/-- The segment from `offset` on. -/
def sliceFrom (s : State) (segment : Segment) (offset : Word) : Except AccessError Segment := do
  s.checkAlive segment.scope
  match segment.size.sub? offset with
  | some size => return segment.part offset size
  | none => throw (.outOfBounds offset 0 segment.size)

/-- `size` bytes from `offset` on, at an aligned address. -/
def slice (s : State) (segment : Segment) (offset size alignment : Word) :
    Except AccessError Segment := do
  let _ ← Alignment.ofBytes alignment
  s.checkAlive segment.scope
  segment.checkBounds offset size
  segment.checkAlignment offset alignment
  return segment.part offset size

/-! ### Scalars -/

section
variable {c : Carrier}

def get (s : State) (t : Thread) (segment : Segment) (layout : ValueLayout c) (offset : Word) :
    Except AccessError c.Value := do
  s.check t segment offset c.width layout.alignment.bytes .read
  return c.decode layout.order (s.bytesAt segment offset c.size)

def set (s : State) (t : Thread) (segment : Segment) (layout : ValueLayout c) (offset : Word)
    (value : c.Value) : Except AccessError State := do
  s.check t segment offset c.width layout.alignment.bytes .write
  return s.store segment offset (c.encode layout.order value)

end

/-- Where element `index` of an array of this shape starts. -/
def indexOffset (segment : Segment) (shape : Shape) (index : Word) : Except AccessError Word :=
  let alignment := shape.alignment.bytes
  if shape.size < alignment then .error (.illegalArgument (.overaligned alignment shape.size))
  else match index.mul? shape.size with
    | some offset => .ok offset
    | none => .error (.outOfBounds Word.last shape.size segment.size)

section
variable {c : Carrier}

def getAt (s : State) (t : Thread) (segment : Segment) (layout : ValueLayout c) (index : Word) :
    Except AccessError c.Value := do
  let offset ← indexOffset segment layout.shape index
  s.get t segment layout offset

def setAt (s : State) (t : Thread) (segment : Segment) (layout : ValueLayout c) (index : Word)
    (value : c.Value) : Except AccessError State := do
  let offset ← indexOffset segment layout.shape index
  s.set t segment layout offset value

/-- The segment can be read as a whole number of values. -/
def checkValues (s : State) (t : Thread) (segment : Segment) (layout : ValueLayout c) :
    Except AccessError Unit := do
  if segment.size % c.width ≠ 0 then
    throw (.illegalArgument (.unevenCarrier segment.size c.name c.width))
  s.check t segment 0 segment.size layout.alignment.bytes .read

/-- All values of the segment. -/
def values (s : State) (t : Thread) (segment : Segment) (layout : ValueLayout c) :
    Except AccessError (List c.Value) := do
  s.checkValues t segment layout
  let bytes := s.bytesAt segment 0 segment.size.toNat
  return c.decodeAll layout.order (segment.size / c.width).toNat bytes

end

/-! ### Addresses -/

/-- The address that the bytes at `offset` hold. -/
def addressAt (s : State) (segment : Segment) (layout : AddressLayout) (offset : Word) : Word :=
  Carrier.decode .ulong layout.order (s.bytesAt segment offset AddressLayout.width.toNat)

/-- The segment that a stored address points to: as large as the layout's target, if it has one, at
whose alignment the address must be. -/
def getAddress (s : State) (t : Thread) (segment : Segment) (layout : AddressLayout)
    (offset : Word) : Except AccessError (Segment × State) := do
  s.check t segment offset AddressLayout.width layout.alignment.bytes .read
  let address := s.addressAt segment layout offset
  match layout.target with
  | none => return s.atAddress address 0
  | some target =>
    if address.offAlignment target.alignment.bytes then
      throw (.misaligned address target.alignment.bytes)
    return s.atAddress address target.size

/-- Stores the address of `value`. -/
def setAddress (s : State) (t : Thread) (segment : Segment) (layout : AddressLayout)
    (offset : Word) (value : Segment) : Except AccessError State := do
  if value.backing.isHeap then throw (.illegalArgument .noMachineAddress)
  s.check t segment offset AddressLayout.width layout.alignment.bytes .write
  return s.store segment offset (Carrier.encode .ulong layout.order value.address)

def getAddressAt (s : State) (t : Thread) (segment : Segment) (layout : AddressLayout)
    (index : Word) : Except AccessError (Segment × State) := do
  let offset ← indexOffset segment layout.shape index
  s.getAddress t segment layout offset

def setAddressAt (s : State) (t : Thread) (segment : Segment) (layout : AddressLayout)
    (index : Word) (value : Segment) : Except AccessError State := do
  let offset ← indexOffset segment layout.shape index
  s.setAddress t segment layout offset value

/-! ### Runs of values -/

section
variable {c : Carrier}

/-- The bytes of `count` values. -/
def runLength (c : Carrier) (segment : Segment) (offset : Word) (count : Nat) :
    Except AccessError Word :=
  if count * c.size < Word.limit then .ok (UInt64.ofNat (count * c.size))
  else .error (.outOfBounds offset Word.last segment.size)

/-- `count` values from `offset` on. -/
def readRun (s : State) (t : Thread) (segment : Segment) (layout : ValueLayout c)
    (offset count : Word) : Except AccessError (List c.Value) := do
  let length ← runLength c segment offset count.toNat
  s.check t segment offset length layout.alignment.bytes .read
  return c.decodeAll layout.order count.toNat (s.bytesAt segment offset length.toNat)

/-- Stores values from `offset` on. -/
def writeRun (s : State) (t : Thread) (segment : Segment) (layout : ValueLayout c)
    (offset : Word) (values : List c.Value) : Except AccessError State := do
  let length ← runLength c segment offset values.length
  s.check t segment offset length layout.alignment.bytes .write
  return s.store segment offset (c.encodeAll layout.order values)

/-- Stores values one after the other, the one of index `i` at `offset + i * size`. -/
def setEach (s : State) (t : Thread) (segment : Segment) (layout : ValueLayout c) (offset : Word)
    (values : List c.Value) : Except AccessError State :=
  values.zipIdx.foldlM (fun s entry =>
    s.set t segment layout (offset + UInt64.ofNat (entry.2 * c.size)) entry.1) s

end

/-! ### Text -/

/-- The layout of a byte. -/
def byteLayout : ValueLayout .ubyte := .natural .ubyte

/-- The text up to the first zero byte from `offset` on. -/
def getText (s : State) (t : Thread) (segment : Segment) (offset : Word) :
    Except AccessError String := do
  match segment.size.sub? offset with
  | none => throw (.outOfBounds offset 1 segment.size)
  | some remaining =>
    s.check t segment offset remaining 1 .read
    match s.memory.find? segment.space (segment.address + offset) remaining.toNat 0 with
    | none => throw (.outOfBounds offset (remaining + 1) segment.size)
    | some length => return Text.Utf8.decode (s.bytesAt segment offset length)

/-- Stores bytes and a zero byte in the front of a segment. -/
def writeTerminated (s : State) (t : Thread) (segment : Segment) (bytes : List UInt8) :
    Except AccessError State := do
  let s ← s.writeRun t segment byteLayout 0 bytes
  s.set t segment byteLayout (UInt64.ofNat bytes.length) (0 : UInt8)

/-- Stores a text and a zero byte from `offset` on. -/
def setText (s : State) (t : Thread) (segment : Segment) (offset : Word) (text : String) :
    Except AccessError State := do
  let bytes := Text.Utf8.encode text
  let target ← s.slice segment offset (UInt64.ofNat bytes.length + 1) 1
  s.writeTerminated t target bytes

end ScopedMemory.State
