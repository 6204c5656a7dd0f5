import ScopedMemory.Allocation

/-! Segments with known contents. -/
namespace ScopedMemory

/-- Byte `i` of the pattern with a seed. -/
def patternByte (i seed : Word) : UInt8 := ((i * 31 + seed) % 251).toUInt8

/-- The first `length` bytes of the pattern. -/
def patternBytes (seed : Word) (length : Nat) : List UInt8 :=
  (List.range length).map fun i => patternByte (UInt64.ofNat i) seed

/-- `0, 1, 2, ...`, starting over after 255. -/
def countingBytes (length : Nat) : List UInt8 := (List.range length).map UInt8.ofNat

namespace State

/-- Allocates bytes and fills them. Nothing is listed to be written before there is room for it. -/
def filled (s : State) (t : Thread) (arena : Arena) (length alignment : Word)
    (fill : State → Segment → Except AccessError State) : Except ArenaError (Segment × State) := do
  let (segment, s) ← arena.allocate t s length alignment
  let s ← liftAccess (fill s segment)
  return (segment, s)

/-- Allocates bytes that count up; they are set one after the other. -/
def counting (s : State) (t : Thread) (arena : Arena) (length : Word) :
    Except ArenaError (Segment × State) :=
  s.filled t arena length 8 fun s segment =>
    s.setEach t segment byteLayout 0 (countingBytes length.toNat)

/-- An array of bytes that count up. -/
def countingArray (s : State) (length : Nat) : Segment × State :=
  s.newArray .ubyte (countingBytes length)

/-- Allocates bytes that follow the pattern; they are written all at once. -/
def patterned (s : State) (t : Thread) (arena : Arena) (length seed : Word) :
    Except ArenaError (Segment × State) :=
  s.filled t arena length 64 fun s segment =>
    s.writeRun t segment byteLayout 0 (patternBytes seed length.toNat)

/-- An array of as many whole words as fit into `length` bytes; its bytes follow the pattern. -/
def patternedArray (s : State) (length seed : Word) : Segment × State :=
  let words := (List.range (length / 8).toNat).map fun w =>
    Carrier.decode .ulong .native
      ((List.range 8).map fun j => patternByte (UInt64.ofNat (w * 8 + j)) seed)
  s.newArray .ulong words

end State

end ScopedMemory
