import ScopedMemory.Program.Change

/-! Performing operations.

An operation that fails binds no name. Binding a name that is taken makes the new thing first and
then lets go of the old one. -/
namespace ScopedMemory

namespace State
variable (nested : Nested) (t : Thread)

/-! ### Names -/

/-- Lets go of a segment that nothing needs to keep. -/
def forget (s : State) (segment : Segment) : State := s.releaseSegments nested t [segment]

/-- Names the segment; without a name it is let go of at once. -/
def bindSegment (s : State) (name : Option String) (segment : Segment) : State :=
  match name with
  | none => s.forget nested t segment
  | some name =>
    let old := s.handles.segments.find? name
    let s := { s with handles.segments := s.handles.segments.put name segment }
    match old with
    | none => s
    | some old => s.forget nested t old

def bindArena (s : State) (name : String) (arena : Arena) : State :=
  let old := s.handles.arenas.find? name
  let s := { s with handles.arenas := s.handles.arenas.put name arena }
  match old with
  | none => s
  | some old => s.releaseArena nested t old

def bindAllocator (s : State) (name : String) (carver : Carver) : State :=
  let old := s.handles.allocators.find? name
  let s := { s with handles.allocators := s.handles.allocators.put name carver }
  match old with
  | none => s
  | some old => s.forget nested t old.segment

/-- Takes up a new mapping under a name. -/
def bindMapping (s : State) (name : String) (mapping : Mapping) : State :=
  let old := s.handles.mappings.find? name
  let id := s.mappings.size
  let s := { s with
    mappings := s.mappings.push (some mapping)
    handles.mappings := s.handles.mappings.put name id }
  match old with
  | none => s
  | some old => s.releaseMapping nested old

def bindToken (s : State) (name : Option String) (token : Token) : State :=
  match name with
  | none => s
  | some name => { s with handles.tokens := s.handles.tokens.put name token }

/-- Drops a handle. -/
def drop (s : State) : HandleRef → Except Fault State
  | .arena name => do
    let arena ← s.arenaNamed name
    let s := { s with handles.arenas := s.handles.arenas.erase name }
    return s.releaseArena nested t arena
  | .segment name => do
    let segment ← s.segmentNamed name
    let s := { s with handles.segments := s.handles.segments.erase name }
    return s.forget nested t segment
  | .allocator name => do
    let carver ← s.allocatorNamed name
    let s := { s with handles.allocators := s.handles.allocators.erase name }
    return s.forget nested t carver.segment
  | .mapping name => do
    let mapping ← s.mappingNamed name
    let s := { s with handles.mappings := s.handles.mappings.erase name }
    return s.releaseMapping nested mapping

/-! ### Arenas -/

/-- A new arena. Without a configuration a global arena is that of the process. -/
def openArena (s : State) (kind : ScopeKind) (config : Option ArenaConfig) :
    Except ArenaError (Arena × State) :=
  let id := s.arenas
  let s := { s with arenas := id + 1 }
  match kind, config with
  | .global, none => .ok (⟨id, processScope, {}, true⟩, s)
  | kind, config => do
    let config := config.getD {}
    config.validate
    let (scope, s) := s.newScope (.ofKind t kind)
    return (⟨id, scope, config, false⟩, s.log (.arenaCreated scope kind))

/-! ### Allocations -/

def sourceNamed (s : State) : AllocatorRef → Except Fault Allocator
  | .arena name => return .arena (← s.arenaNamed name)
  | .allocator name => return .carver (← s.allocatorNamed name)

/-- Keeps the allocator as it is after an allocation. -/
def updateSource (s : State) (source : AllocatorRef) (allocator : Allocator) : State :=
  match source, allocator with
  | .allocator name, .carver carver =>
    { s with handles.allocators := s.handles.allocators.put name carver }
  | _, _ => s

end State

/-- Allocates; an error on the way to the allocator is a fault of its own. -/
def Contents.allocate (t : Thread) (s : State) (a : Allocator) :
    Contents → Except Fault Allocation
  | .bytes size alignment => .ok (a.allocate t s size alignment)
  | .shape layout => do
    return a.allocateShape t s (← access layout.build).toShape
  | .array layout count => do
    return a.allocateArray t s (← access layout.build).toShape count
  | .value layout v => do
    return a.allocateValue t s (← access layout.build) v
  | .values layout vs => do
    return a.allocateFrom t s (← access layout.build) vs
  | .text content => .ok (a.allocateText t s content)

/-! ### Operations -/

/-- An outcome that comes with a new state only if it is an answer. -/
def orElseSame (s : State) : Except Fault (Answer × State) → Except Fault Answer × State
  | .ok (answer, s) => (.ok answer, s)
  | .error fault => (.error fault, s)

/-- Performs one operation on a thread. -/
def Operation.perform (nested : Nested) (t : Thread) (s : State) :
    Operation → Except Fault Answer × State
  | .query q => (q.answer t s, s)
  | .change c => orElseSame s do return (.nothing, ← c.apply t s)
  | .make m name => orElseSame s do
    let (segment, s) ← m.make t s
    return (.segment segment, s.bindSegment nested t name segment)
  | .overlap a b name => orElseSame s do
    match (← s.segmentNamed a).overlap (← s.segmentNamed b) with
    | none => return (.nothing, s)
    | some segment => return (.segment segment, s.bindSegment nested t name segment)
  | .allocate source contents name =>
    match (do contents.allocate t s (← s.sourceNamed source) : Except Fault Allocation) with
    | .error fault => (.error fault, s)
    | .ok ⟨result, allocator, s⟩ =>
      let s := s.updateSource source allocator
      match result with
      | .error e => (.error (.arena e), s)
      | .ok segment => (.ok (.segment segment), s.bindSegment nested t name segment)
  | .openArena name kind config => orElseSame s do
    let (arena, s) ← allocating (s.openArena t kind config)
    return (.arenaOpened arena.scope, s.bindArena nested t name arena)
  | .closeArena arena => match s.arenaNamed arena with
    | .error fault => (.error fault, s)
    | .ok arena =>
      let (result, s) := s.closeArena nested t arena
      (result.map fun _ => .nothing, s)
  | .openAllocator name carving segment => orElseSame s do
    let segment ← s.segmentNamed segment
    let carver := match carving with
      | .slicing => .slicing segment 0
      | .front => .front segment
    return (.nothing, s.bindAllocator nested t name carver)
  | .resetAllocator name => orElseSame s do
    let carver ← named (← s.allocatorNamed name).reset?
    return (.nothing, s.updateSource (.allocator name) (.carver carver))
  | .openRecorder name failsForce =>
    (.ok .nothing, s.bindMapping nested name (.recorder { failsForce }))
  | .openScripted name scripts failures loaded => orElseSame s do
    let load ← s.findScript scripts.load
    let unload ← s.findScript scripts.unload
    let isLoaded ← s.findScript scripts.isLoaded
    let force ← s.findScript scripts.force
    let scripts := ⟨load, unload, isLoaded, force⟩
    return (.nothing, s.bindMapping nested name (.scripted { name, scripts, failures, loaded }))
  | .ask segment request => match s.segmentNamed segment with
    | .error fault => (.error fault, s)
    | .ok segment =>
      let (result, s) := s.ask nested t segment request
      (result.map fun b => if request = .isLoaded then .truth b else .nothing, s)
  | .setPolicy text => orElseSame s do
    return (.nothing, { s with policy := ← allocating (Policy.parse text) })
  | .enableAccess caller name => orElseSame s do
    let (token, s) ← access (s.enableAccess caller)
    return (.token token, s.bindToken name token)
  | .freshScope =>
    let (id, s) := s.newScope .global
    (.ok (.scopeId id), s)
  | .drop handle => orElseSame s do return (.nothing, ← s.drop nested t handle)

end ScopedMemory
