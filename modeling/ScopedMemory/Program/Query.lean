import ScopedMemory.Program.Answer

/-! Looking up handles, and queries. -/
namespace ScopedMemory

/-- What a name must stand for. -/
def named {α : Type} (found : Option α) : Except Fault α :=
  match found with
  | some a => .ok a
  | none => .error .badRequest

/-- An access error as a fault. -/
def access {α : Type} (r : Except AccessError α) : Except Fault α := r.mapError Fault.access

/-- An arena error as a fault. -/
def allocating {α : Type} (r : Except ArenaError α) : Except Fault α := r.mapError Fault.arena

/-- Values are gathered in a buffer; none has `2 ^ 63` bytes or more. -/
def gathering (bytes : Nat) : Except Fault Unit :=
  if bytes < 1 <<< 63 then .ok () else .error (.panic none)

namespace State

def arenaNamed (s : State) (name : String) : Except Fault Arena :=
  named (s.handles.arenas.find? name)

def segmentNamed (s : State) (name : String) : Except Fault Segment :=
  named (s.handles.segments.find? name)

def allocatorNamed (s : State) (name : String) : Except Fault Carver :=
  named (s.handles.allocators.find? name)

def mappingNamed (s : State) (name : String) : Except Fault MappingId :=
  named (s.handles.mappings.find? name)

/-- The token of that name; without a name, the one every program starts with. -/
def tokenNamed (s : State) (name : Option String) : Except Fault Token :=
  match name with
  | none => .ok ⟨"driver"⟩
  | some name => named (s.handles.tokens.find? name)

/-- The scope of an arena or a segment. -/
def scopeNamed (s : State) : ScopeRef → Except Fault ScopeId
  | .arena name => return (← s.arenaNamed name).scope
  | .segment name => return (← s.segmentNamed name).scope

/-- An action with its handles found. -/
def findAction (s : State) : Action String String → Except Fault (Action ArenaId Segment)
  | .close arena => return .close (← s.arenaNamed arena).id
  | .alloc arena size alignment => return .alloc (← s.arenaNamed arena).id size alignment
  | .load segment => return .load (← s.segmentNamed segment)
  | .get segment offset => return .get (← s.segmentNamed segment) offset
  | .panic text => return .panic text
  | .perform operation => return .perform operation

/-- Actions with their handles found. -/
def findScript (s : State) (script : ScriptText) : Except Fault Script := script.mapM s.findAction

end State

namespace Query

def reportArena (s : State) (t : Thread) (arena : Arena) : ArenaReport :=
  let scope := s.scope arena.scope
  { kind := scope.discipline.kind
    alive := scope.isAlive
    scope := arena.scope
    owner := scope.discipline.owner?
    accessible := scope.discipline.accessibleBy t
    config := arena.config
    description := if arena.processWide then none else some (s.describeArena arena) }

def reportSegment (s : State) (t : Thread) (segment : Segment) : SegmentReport :=
  let scope := s.scope segment.scope
  { segment
    kind := scope.discipline.kind
    alive := scope.isAlive
    accessible := scope.discipline.accessibleBy t
    owner := scope.discipline.owner?
    description := s.describe segment }

def usage? : Carver → Option Usage
  | .slicing segment used => some ⟨used, segment.size - used⟩
  | _ => none

/-- The check for an alignment as it was asked for. Alignment to zero bytes means nothing, which
shows once the range is found good. -/
def checkAsked (s : State) (t : Thread) (segment : Segment) (offset length alignment : Word)
    (mode : AccessMode) : Except Fault Unit := do
  if alignment = 0 then
    access (s.checkRange t segment offset length)
    throw (.panic none)
  access (s.check t segment offset length alignment mode)

/-- The answer to a query. -/
def answer (t : Thread) (s : State) : Query → Except Fault Answer
  | .arenaInfo arena => do
    return .arena (reportArena s t (← s.arenaNamed arena))
  | .allocatorInfo allocator => do
    let allocator ← s.allocatorNamed allocator
    return .allocator (usage? allocator) (s.describeCarver allocator)
  | .segmentInfo segment => do
    return .report (reportSegment s t (← s.segmentNamed segment))
  | .accessible segment thread => do
    let segment ← s.segmentNamed segment
    return .truth ((s.scope segment.scope).discipline.accessibleBy thread)
  | .compare a b => do
    let a ← s.segmentNamed a
    let b ← s.segmentNamed b
    return .comparison (a.sameStart b) (a.scope == b.scope)
  | .offsetOf a b => do
    let a ← s.segmentNamed a
    let b ← s.segmentNamed b
    return .distance (← access (a.offsetOf b))
  | .elements segment layout count => do
    let segment ← s.segmentNamed segment
    let layout ← access layout.build
    let elements ← access (segment.elements layout.toShape)
    let (first, rest) := elements.take count.toNat
    return .elements elements.length first rest.length
  | .check segment offset length alignment mode => do
    let segment ← s.segmentNamed segment
    checkAsked s t segment offset length alignment mode
    return .nothing
  | .get segment layout position => do
    let segment ← s.segmentNamed segment
    let layout ← access layout.build
    let value ← access <| match position with
      | .offset offset => s.get t segment layout offset
      | .index index => s.getAt t segment layout index
    return .scalar _ value
  | .values segment layout => do
    let segment ← s.segmentNamed segment
    let layout ← access layout.build
    access (s.checkValues t segment layout)
    gathering segment.size.toNat
    return .scalars _ (← access (s.values t segment layout))
  | .bytes segment => do
    let segment ← s.segmentNamed segment
    access (s.checkValues t segment State.byteLayout)
    gathering segment.size.toNat
    return .bytes (← access (s.values t segment State.byteLayout))
  | .text segment offset => do
    let segment ← s.segmentNamed segment
    return .text (← access (s.getText t segment offset))
  | .run segment expr offset count => do
    let segment ← s.segmentNamed segment
    let layout ← access expr.build
    gathering (count.toNat * expr.carrier.size)
    return .scalars _ (← access (s.readRun t segment layout offset count))
  | .mismatch a b => do
    let a ← s.segmentNamed a
    let b ← s.segmentNamed b
    return ((← access (s.mismatch t a b)).map Answer.number).getD .nothing
  | .mismatchRange a aStart aStop b bStart bStop => do
    let a ← s.segmentNamed a
    let b ← s.segmentNamed b
    let found ← access (s.mismatchRange t a aStart aStop b bStart bStop)
    return (found.map Answer.number).getD .nothing
  | .policy => .ok (.text s.policy.name)
  | .calls mapping => do
    let id ← s.mappingNamed mapping
    match s.mapping? id with
    | some (.recorder r) => return .calls r.calls
    | _ => throw .badRequest

end Query

end ScopedMemory
