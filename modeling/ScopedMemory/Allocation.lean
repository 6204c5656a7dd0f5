import ScopedMemory.Access

/-! Allocation.

An arena asks the system for a block, attaches it to its scope and hands out a segment over it. The
other allocators hand out slices of the segment they keep. What is allocated with contents is
allocated first and filled afterwards, so a failure to fill leaves the allocation made. -/
namespace ScopedMemory

namespace State

/-! ### Blocks -/

/-- A block from the system. An empty one takes no memory, and its address is its alignment; one
too large to be described counts as an alignment that cannot be met. -/
def reserve (s : State) (size : Word) (alignment : Alignment) (zeroed : Bool) :
    Except ArenaError (Block × State) :=
  if 1 <<< 63 < size.toNat + alignment.bytes.toNat then .error (.invalidAlignment alignment.bytes)
  else if size = 0 then .ok (⟨alignment.bytes, 0⟩, s)
  else match s.system.place s.journal size alignment with
    | none => .error (.allocationFailed size alignment.bytes)
    | some start =>
      let memory :=
        if zeroed then s.memory.fill .native start size.toNat 0 else s.memory
      .ok (⟨start, size⟩, { s with memory })

/-- The scope takes things from this thread: the owner first, then alive. -/
def checkAttach (s : State) (t : Thread) (id : ScopeId) : Except AccessError Unit := do
  s.checkOwner t id
  s.checkAlive id

/-- The scope has one more block. -/
def gainBlock (s : State) (id : ScopeId) (block : Block) : State :=
  (s.modifyScope id fun scope => { scope with blocks := scope.blocks ++ [block] }).record id
    (.attached block)

/-- The scope has one more cleanup. -/
def gainCleanup (s : State) (id : ScopeId) (cleanup : Cleanup) : State :=
  (s.modifyScope id fun scope => { scope with cleanups := scope.cleanups ++ [cleanup] }).record id
    (.registered cleanup)

/-- The scope takes the block; it is freed when the scope ends. -/
def attachBlock (s : State) (t : Thread) (id : ScopeId) (block : Block) :
    Except AccessError State := do
  s.checkAttach t id
  return s.gainBlock id block

/-- The scope takes the cleanup; it runs when the scope ends. -/
def attachCleanup (s : State) (t : Thread) (id : ScopeId) (cleanup : Cleanup) :
    Except AccessError State := do
  s.checkAttach t id
  return s.gainCleanup id cleanup

end State

/-- An access error inside of an arena's operation. -/
def liftAccess {α : Type} (r : Except AccessError α) : Except ArenaError α :=
  r.mapError ArenaError.access

namespace Arena

/-- Checks, in order: the alignment, the arena's limit, the scope, and the system's memory. -/
def allocate (arena : Arena) (t : Thread) (s : State) (size alignment : Word) :
    Except ArenaError (Segment × State) :=
  match Alignment.ofBytes? alignment with
  | none => .error (.invalidAlignment alignment)
  | some aligned =>
    if arena.config.maxAllocation < size then
      .error (.capacityExceeded size arena.config.maxAllocation)
    else do
      liftAccess (s.checkEntry t arena.scope)
      let (block, s) ← s.reserve size aligned arena.config.zeroed
      let s ← liftAccess (s.attachBlock t arena.scope block)
      let s := s.log (.allocated arena.scope block.address size alignment)
      return (⟨block.address, size, .native, false, arena.scope⟩, s)

end Arena

/-- How an allocation ended: what it gave, and the allocator and the state after it. -/
structure Allocation where
  result : Except ArenaError Segment
  allocator : Allocator
  state : State

namespace Carver

/-- The first aligned offset from `used` on, and `size` bytes there. -/
def bump (s : State) (segment : Segment) (used size alignment : Word) :
    Except ArenaError (Segment × Word) := do
  let some aligned := Alignment.ofBytes? alignment
    | throw (.invalidAlignment alignment)
  let some address := (segment.address.add? used).bind aligned.roundUp?
    | throw (.access (.outOfBounds used size segment.size))
  let start := address - segment.address
  let slice ← liftAccess (s.slice segment start size alignment)
  return (slice, start + size)

/-- `size` bytes from the start. -/
def takeFront (s : State) (segment : Segment) (size alignment : Word) :
    Except ArenaError Segment :=
  match Alignment.ofBytes? alignment with
  | none => .error (.invalidAlignment alignment)
  | some _ => liftAccess (s.slice segment 0 size alignment)

/-- What is carved out, and the carver after it. -/
def carve (c : Carver) (s : State) (size alignment : Word) : Except ArenaError Segment × Carver :=
  match c with
  | .slicing segment used => match bump s segment used size alignment with
    | .ok (slice, used) => (.ok slice, .slicing segment used)
    | .error e => (.error e, c)
  | .front segment => (takeFront s segment size alignment, c)

end Carver

namespace Allocator

/-- Allocates bytes. -/
def allocate (a : Allocator) (t : Thread) (s : State) (size alignment : Word) : Allocation :=
  match a with
  | .arena owner => match owner.allocate t s size alignment with
    | .ok (segment, s) => ⟨.ok segment, a, s⟩
    | .error e => ⟨.error e, a, s⟩
  | .carver before =>
    let (result, after) := before.carve s size alignment
    ⟨result, .carver after, s⟩

/-- Allocates a shape. -/
def allocateShape (a : Allocator) (t : Thread) (s : State) (shape : Shape) : Allocation :=
  a.allocate t s shape.size shape.alignment.bytes

/-- Allocates `count` elements. -/
def allocateArray (a : Allocator) (t : Thread) (s : State) (element : Shape) (count : Word) :
    Allocation :=
  match Shape.sequence count element with
  | .ok shape => a.allocateShape t s shape
  | .error e => ⟨.error (.access e), a, s⟩

end Allocator

/-- Fills what was allocated; if that fails, so does the whole, but the allocation stays made. -/
def Allocation.fillWith (allocation : Allocation)
    (fill : State → Segment → Except AccessError State) : Allocation :=
  match allocation.result with
  | .error _ => allocation
  | .ok segment => match fill allocation.state segment with
    | .ok s => { allocation with state := s }
    | .error e => { allocation with result := .error (.access e) }

namespace Allocator
variable {c : Carrier}

/-- Allocates one value. -/
def allocateValue (a : Allocator) (t : Thread) (s : State) (layout : ValueLayout c)
    (value : c.Value) : Allocation :=
  (a.allocateShape t s layout.shape).fillWith fun s segment => s.set t segment layout 0 value

/-- Allocates an array of values. -/
def allocateFrom (a : Allocator) (t : Thread) (s : State) (layout : ValueLayout c)
    (values : List c.Value) : Allocation :=
  (a.allocateArray t s layout.shape (UInt64.ofNat values.length)).fillWith fun s segment =>
    s.writeRun t segment layout 0 values

/-- Allocates a text and a zero byte after it. -/
def allocateText (a : Allocator) (t : Thread) (s : State) (text : String) : Allocation :=
  let bytes := Text.Utf8.encode text
  (a.allocate t s (UInt64.ofNat bytes.length + 1) 1).fillWith fun s segment =>
    s.writeTerminated t segment bytes

end Allocator

end ScopedMemory
