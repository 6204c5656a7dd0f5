import ScopedMemory.Program.Query

/-! Changes of memory, and the making of segments. -/
namespace ScopedMemory

/-- The state after a change. -/
def Change.apply (t : Thread) (s : State) : Change → Except Fault State
  | .set segment layout position value => do
    let segment ← s.segmentNamed segment
    let layout ← access layout.build
    access <| match position with
      | .offset offset => s.set t segment layout offset value
      | .index index => s.setAt t segment layout index value
  | .setAddress segment layout position value => do
    let segment ← s.segmentNamed segment
    let value ← s.segmentNamed value
    let layout ← access layout.build
    access <| match position with
      | .offset offset => s.setAddress t segment layout offset value
      | .index index => s.setAddressAt t segment layout index value
  | .setText segment offset text => do
    let segment ← s.segmentNamed segment
    access (s.setText t segment offset text)
  | .setRun segment layout offset values => do
    let segment ← s.segmentNamed segment
    let layout ← access layout.build
    access (s.writeRun t segment layout offset values)
  | .fill segment byte => do
    let segment ← s.segmentNamed segment
    access (s.fill t segment byte)
  | .copy source sourceOffset target targetOffset length => do
    let source ← s.segmentNamed source
    let target ← s.segmentNamed target
    access (s.copy t source sourceOffset target targetOffset length)
  | .copyAll source target => do
    let source ← s.segmentNamed source
    let target ← s.segmentNamed target
    access (s.copyAll t source target)
  | .copyElements source sourceLayout sourceOffset target targetLayout targetOffset count => do
    let source ← s.segmentNamed source
    let target ← s.segmentNamed target
    let sourceLayout ← access sourceLayout.build
    let targetLayout ← access targetLayout.build
    if State.turnsElements sourceLayout targetLayout then
      let length ← access (s.checkElements t source sourceLayout sourceOffset target targetLayout
        targetOffset count)
      gathering length.toNat
    access (s.copyElements t source sourceLayout sourceOffset target targetLayout targetOffset
      count)

/-- A part of a segment. -/
def SliceRange.slice (s : State) (segment : Segment) : SliceRange → Except Fault Segment
  | .from offset => access (s.sliceFrom segment offset)
  | .sized offset size => access (s.slice segment offset size 1)
  | .aligned offset size alignment => access (s.slice segment offset size alignment)
  | .shaped offset layout => do
    let shape := (← access layout.build).toShape
    access (s.slice segment offset shape.size shape.alignment.bytes)

/-- The segment made, and the state after it. -/
def Making.make (t : Thread) (s : State) : Making → Except Fault (Segment × State)
  | .array c values => .ok (s.newArray c values)
  | .zeros c length => do
    gathering (length.toNat * c.size)
    return s.newArray c (List.replicate length.toNat (c.ofBits 0))
  | .wrapAgain segment => do
    let segment ← s.segmentNamed segment
    match segment.backing with
    | .heap backing => return s.overArray backing
    | _ => throw .badRequest
  | .atAddress address => .ok (s.atAddress address 0)
  | .counting arena length => do
    let arena ← s.arenaNamed arena
    match s.counting t arena length with
    | .ok made => return made
    | .error _ => throw (.panic none)
  | .countingArray length => do
    gathering length.toNat
    return s.countingArray length.toNat
  | .patterned arena length seed => do
    let arena ← s.arenaNamed arena
    allocating (s.patterned t arena length seed)
  | .patternedArray length seed => do
    gathering ((length / 8).toNat * 8)
    return s.patternedArray length seed
  | .readOnly segment => do
    return ((← s.segmentNamed segment).asReadOnly, s)
  | .slice segment range => do
    let segment ← s.segmentNamed segment
    return (← range.slice s segment, s)
  | .fromAddress segment layout position => do
    let segment ← s.segmentNamed segment
    let layout ← access layout.build
    access <| match position with
      | .offset offset => s.getAddress t segment layout offset
      | .index index => s.getAddressAt t segment layout index
  | .resize segment size token => do
    let segment ← s.segmentNamed segment
    let token ← s.tokenNamed token
    access (s.resize token segment size)
  | .rebind segment size scope cleanup token => do
    let segment ← s.segmentNamed segment
    let scope ← s.scopeNamed scope
    let token ← s.tokenNamed token
    let cleanup ← cleanup.mapM fun (tag, script) => do return (tag, ← s.findScript script)
    access (s.rebind t token segment (size.getD segment.size) scope cleanup)
  | .map mapping address size fixed scope => do
    let mapping ← s.mappingNamed mapping
    let scope ← s.scopeNamed scope
    return (← access (s.mapSegment t mapping address size fixed scope), s)

end ScopedMemory
