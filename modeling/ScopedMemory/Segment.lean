import ScopedMemory.Layout
import ScopedMemory.Memory

/-! Segments: bounded views of memory.

A segment has an address and a size, says what backs it, whether it may be written through, and
which scope it is bound to. Slices keep all but address and size. The address of a segment over an
array counts from the array's start. -/
namespace ScopedMemory

/-- The number of a scope, in order of creation. -/
abbrev ScopeId := Nat

/-- The number of a mapping, in order of creation. -/
abbrev MappingId := Nat

/-- An array that backs segments. Accesses are aligned to its elements at most. -/
structure HeapArray where
  id : Nat
  element : Carrier
  length : Nat
deriving DecidableEq

namespace HeapArray

def byteLength (a : HeapArray) : Nat := a.length * a.element.size

def describe (a : HeapArray) : String := s!"{a.element.name}[{a.length}]"

end HeapArray

/-- What a segment's bytes belong to. -/
inductive Backing where
  | heap (array : HeapArray)
  | native
  | mapped (mapping : MappingId)
deriving DecidableEq

namespace Backing

def name : Backing → String
  | .heap _ => "heap"
  | .native => "native"
  | .mapped _ => "mapped"

/-- The space in which the addresses of the segment count. -/
def space : Backing → Space
  | .heap array => .array array.id
  | .native | .mapped _ => .native

def isHeap : Backing → Bool
  | .heap _ => true
  | _ => false

def isMapped : Backing → Bool
  | .mapped _ => true
  | _ => false

end Backing

/-- Whether an access only reads or may change bytes. -/
inductive AccessMode where
  | read
  | write
deriving DecidableEq, Repr

structure Segment where
  address : Word
  size : Word
  backing : Backing
  readOnly : Bool
  scope : ScopeId
deriving DecidableEq

namespace Segment

def space (s : Segment) : Space := s.backing.space

/-! ### Checks -/

/-- `length` bytes from `offset` on lie inside. -/
def checkBounds (s : Segment) (offset length : Word) : Except AccessError Unit :=
  if (offset.add? length).any (· ≤ s.size) then .ok ()
  else .error (.outOfBounds offset length s.size)

/-- The address at `offset` is aligned, and the backing array's elements are wide enough. -/
def checkAlignment (s : Segment) (offset alignment : Word) : Except AccessError Unit :=
  let address := s.address + offset
  let tooStrict := match s.backing with
    | .heap array => array.element.width < alignment
    | _ => false
  if tooStrict || address.offAlignment alignment then .error (.misaligned address alignment)
  else .ok ()

/-- Refuses a write through a read-only segment. -/
def checkMode (s : Segment) : AccessMode → Except AccessError Unit
  | .write => if s.readOnly then .error .readOnly else .ok ()
  | .read => .ok ()

/-! ### Derived segments -/

def asReadOnly (s : Segment) : Segment := { s with readOnly := true }

/-- The part at `offset`, without any check. -/
def part (s : Segment) (offset size : Word) : Segment :=
  { s with address := s.address + offset, size }

/-- Two segments count their addresses in the same space. -/
def sharesMemory (s t : Segment) : Bool := decide (s.space = t.space)

/-- The address after the last byte, or the largest word. -/
def stop (s : Segment) : Word := Word.addCapped s.address s.size

/-- The part of `s` whose bytes are also `t`'s. -/
def overlap (s t : Segment) : Option Segment :=
  let start := max s.address t.address
  let stop := min s.stop t.stop
  if s.sharesMemory t && start < stop then some (s.part (start - s.address) (stop - start))
  else none

/-- From the start of `s` to the start of `t`. -/
def offsetOf (s t : Segment) : Except AccessError Int64 :=
  if s.sharesMemory t then .ok (Word.distance s.address t.address)
  else .error (.illegalArgument .separateMemories)

/-- The same first byte. -/
def sameStart (s t : Segment) : Bool := s.sharesMemory t && s.address == t.address

/-! ### Elements -/

/-- A segment cut into elements of one size, from `next` on. -/
structure Elements where
  segment : Segment
  size : Word
  next : Word
deriving DecidableEq

/-- Cuts the whole segment into elements. -/
def elements (s : Segment) (shape : Shape) : Except AccessError Elements :=
  let alignment := shape.alignment.bytes
  if shape.size = 0 then .error (.illegalArgument .emptyElement)
  else if shape.size < alignment then
    .error (.illegalArgument (.overaligned alignment shape.size))
  else if s.size % shape.size ≠ 0 then
    .error (.illegalArgument (.unevenElements s.size shape.size))
  else do
    s.checkAlignment 0 alignment
    return ⟨s, shape.size, 0⟩

namespace Elements

/-- The next element and the elements after it. -/
def next? (e : Elements) : Option (Segment × Elements) :=
  if e.next < e.segment.size then
    some (e.segment.part e.next e.size, { e with next := e.next + e.size })
  else none

/-- How many elements are left. -/
def length (e : Elements) : Word := (e.segment.size - e.next) / e.size

/-- At most `count` elements from the front, and the elements after them. -/
def take (e : Elements) : (count : Nat) → List Segment × Elements
  | 0 => ([], e)
  | count + 1 => match e.next? with
    | none => ([], e)
    | some (first, rest) =>
      let (more, last) := rest.take count
      (first :: more, last)

end Elements

/-! ### Properties -/

/-- The alignment reported for address zero. -/
def alignmentAtZero : Word := UInt64.ofNat (1 <<< 62)

/-- The lowest bit that is set. -/
def lowestBit (w : Word) : Word := w &&& (0 - w)

/-- The strictest alignment that an access through the segment can ask for. -/
def maxAlignment (s : Segment) : Word :=
  match s.backing with
  | .heap array => array.element.width
  | .native | .mapped _ => if s.address = 0 then alignmentAtZero else lowestBit s.address

def display (s : Segment) : String :=
  let plain := s!"{s.backing.name} segment @ {s.address.hex} [{s.size} bytes]"
  if s.readOnly then plain ++ " (read-only)" else plain

end Segment

end ScopedMemory
