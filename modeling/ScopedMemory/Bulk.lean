import ScopedMemory.Access

/-! Copies, fills and comparisons of whole ranges.

Both ends are checked before a byte moves. Bytes that keep their order are moved one at a time;
elements that are turned around are gathered before the first of them is stored. -/
namespace ScopedMemory.State

/-- Copies bytes. -/
def copy (s : State) (t : Thread) (source : Segment) (sourceOffset : Word) (target : Segment)
    (targetOffset length : Word) : Except AccessError State := do
  s.check t source sourceOffset length 1 .read
  s.check t target targetOffset length 1 .write
  let memory := s.memory.move source.space (source.address + sourceOffset)
    target.space (target.address + targetOffset) length.toNat
  return { s with memory }

/-- The first `count` elements of a buffer, each of `size` bytes, with their bytes reversed. -/
def reversedElements (size count : Nat) (buffer : Array UInt8) : List UInt8 :=
  (List.range count).flatMap fun i => (buffer.extract (i * size) (i * size + size)).toList.reverse

/-- Elements of more than one byte are turned around if the orders differ. -/
def turnsElements {c d : Carrier} (sourceLayout : ValueLayout c) (targetLayout : ValueLayout d) :
    Bool :=
  c.size ≠ 1 && sourceLayout.order ≠ targetLayout.order

/-- Memory with the bytes of elements of `size` bytes moved, which are turned around or not. -/
def movedElements (m : Memory) (size : Nat) (turns : Bool) (source : Space) (sourceStart : Word)
    (target : Space) (targetStart : Word) (length : Nat) : Memory :=
  if turns then
    let buffer := (m.bytes source sourceStart length).toArray
    m.write target targetStart (reversedElements size (length / size) buffer)
  else m.move source sourceStart target targetStart length

/-- The elements can be copied; answers how many bytes they have. -/
def checkElements {c d : Carrier} (s : State) (t : Thread) (source : Segment)
    (sourceLayout : ValueLayout c) (sourceOffset : Word) (target : Segment)
    (targetLayout : ValueLayout d) (targetOffset count : Word) : Except AccessError Word := do
  let size := c.width
  if size ≠ d.width then throw (.illegalArgument (.sizesDiffer size d.width))
  if size < sourceLayout.alignment.bytes then
    throw (.illegalArgument (.overalignedEnd .source sourceLayout.alignment.bytes size))
  if size < targetLayout.alignment.bytes then
    throw (.illegalArgument (.overalignedEnd .destination targetLayout.alignment.bytes size))
  let length ← match count.mul? size with
    | some length => pure length
    | none => throw (.outOfBounds sourceOffset Word.last source.size)
  s.check t source sourceOffset length sourceLayout.alignment.bytes .read
  s.check t target targetOffset length targetLayout.alignment.bytes .write
  return length

/-- Copies elements, turning their bytes around if the orders differ. -/
def copyElements {c d : Carrier} (s : State) (t : Thread) (source : Segment)
    (sourceLayout : ValueLayout c) (sourceOffset : Word) (target : Segment)
    (targetLayout : ValueLayout d) (targetOffset count : Word) : Except AccessError State := do
  let length ← s.checkElements t source sourceLayout sourceOffset target targetLayout targetOffset
    count
  let memory := movedElements s.memory c.size (turnsElements sourceLayout targetLayout) source.space
    (source.address + sourceOffset) target.space (target.address + targetOffset) length.toNat
  return { s with memory }

/-- Sets every byte. -/
def fill (s : State) (t : Thread) (segment : Segment) (byte : UInt8) :
    Except AccessError State := do
  s.check t segment 0 segment.size 1 .write
  return { s with memory := s.memory.fill segment.space segment.address segment.size.toNat byte }

/-- Copies all of `source` to the front of `target`. -/
def copyAll (s : State) (t : Thread) (source target : Segment) : Except AccessError State :=
  s.copy t source 0 target 0 source.size

/-- The length of a range, whose end must not lie before its start. -/
def rangeLength (segment : Segment) (start stop : Word) : Except AccessError Word :=
  match stop.sub? start with
  | some length => .ok length
  | none => .error (.outOfBounds start 0 segment.size)

/-- The index of the first difference of two ranges. If one is the front of the other it is the
shorter length; equal ranges have none. -/
def mismatchRange (s : State) (t : Thread) (a : Segment) (aStart aStop : Word) (b : Segment)
    (bStart bStop : Word) : Except AccessError (Option Word) := do
  let aLength ← rangeLength a aStart aStop
  let bLength ← rangeLength b bStart bStop
  s.check t a aStart aLength 1 .read
  s.check t b bStart bLength 1 .read
  let shorter := min aLength bLength
  match s.memory.firstDifference? a.space (a.address + aStart) b.space (b.address + bStart)
      shorter.toNat with
  | some i => return some (UInt64.ofNat i)
  | none => return if aLength = bLength then none else some shorter

/-- The index of the first difference of two segments. -/
def mismatch (s : State) (t : Thread) (a b : Segment) : Except AccessError (Option Word) :=
  s.mismatchRange t a 0 a.size b 0 b.size

end ScopedMemory.State
