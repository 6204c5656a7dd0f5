import ScopedMemory.Arena
import ScopedMemory.Event
import ScopedMemory.Journal
import ScopedMemory.Mapping
import ScopedMemory.Table

/-! The state of a session.

It holds the memory, every scope and mapping, the accesses each thread is inside of, the policy on
native access, the named handles, and what has happened so far. A scope or mapping that nothing
keeps any more has ended; what keeps it is read off the state (`keepsScope`, `keepsMapping`). -/
namespace ScopedMemory

/-- A thread is inside of a scope, that many accesses deep. The depth has no bound, where a count of
32 bits could overflow; and threads do not end, where one that is ending may have no holds left to
find. -/
structure Hold where
  thread : Thread
  scope : ScopeId
  depth : Nat
deriving DecidableEq, Repr

/-- An access that a thread is inside of, whatever the scope. -/
structure Guard where
  thread : Thread
  scope : ScopeId
deriving DecidableEq, Repr

/-- What the program has names for. -/
structure Handles where
  arenas : Table Arena := {}
  segments : Table Segment := {}
  allocators : Table Carver := {}
  mappings : Table MappingId := {}
  tokens : Table Token := {}

structure State where
  memory : Memory
  /-- Gives out native memory. -/
  system : System
  /-- By number; number zero is the scope of the process. -/
  scopes : Array Scope
  /-- By number; nothing where a mapping has ended. -/
  mappings : Array (Option Mapping)
  /-- Every array that was made, by number. -/
  arrays : Array HeapArray
  /-- How many arena handles have been made. -/
  arenas : Nat
  /-- The accesses under way, the latest first. -/
  guards : List Guard
  /-- What every thread remembers of its accesses to closeable scopes. -/
  holds : List Hold
  policy : Policy
  /-- Callers that have been warned about. -/
  warned : List String
  handles : Handles
  /-- Segments that are still there though nothing else need keep them: they are being let go of,
  one after the other, or a callback is under way that uses them. -/
  outgoing : List Segment
  /-- What happened in this step, the earliest first. -/
  events : List Event
  /-- What happened to every scope, the earliest first. -/
  journal : List Entry
  /-- Callbacks were nested too deep, and nothing goes on. -/
  aborted : Bool

/-- The scope that never ends. -/
def processScope : ScopeId := 0

/-! ### Native memory -/

/-- What native memory holds before anything is written. -/
def untouched : UInt8 := 0xCD

/-- What a freed block is filled with. -/
def freedByte : UInt8 := 0xDD

/-- Memory in which nothing was written; arrays hold zeros. -/
def Memory.blank : Memory :=
  ⟨fun space _ => match space with
    | .native => untouched
    | .array _ => 0⟩

namespace State

/-- Where every session starts. -/
def initial (system : System) : State where
  memory := .blank
  system
  scopes := #[{ discipline := .global }]
  mappings := #[]
  arrays := #[]
  arenas := 0
  guards := []
  holds := []
  policy := .warn
  warned := []
  handles := {}
  outgoing := []
  events := []
  journal := [⟨processScope, .opened⟩]
  aborted := false

def emit (s : State) (e : Event) : State := { s with events := s.events ++ [e] }

def log (s : State) (entry : LogEntry) : State := s.emit (.logged entry)

/-- Writes into the journal. -/
def record (s : State) (id : ScopeId) (deed : Deed) : State :=
  { s with journal := s.journal ++ [⟨id, deed⟩] }

/-! ### Scopes -/

/-- The scope of that number; a number that was never given out is a closed scope's. -/
def scope (s : State) (id : ScopeId) : Scope :=
  s.scopes.getD id { discipline := .global, phase := .closed }

def isAlive (s : State) (id : ScopeId) : Bool := (s.scope id).isAlive

def modifyScope (s : State) (id : ScopeId) (f : Scope → Scope) : State :=
  { s with scopes := s.scopes.modify id f }

/-- A new scope and its number. -/
def newScope (s : State) (d : Discipline) : ScopeId × State :=
  let id := s.scopes.size
  (id, { s with scopes := s.scopes.push { discipline := d } }.record id .opened)

/-- A new empty segment at an address, in a scope of its own that is never closed. -/
def atAddress (s : State) (address size : Word) : Segment × State :=
  let (scope, s) := s.newScope .global
  (⟨address, size, .native, false, scope⟩, s)

/-- A new segment over a whole array, in a scope of its own that is never closed. -/
def overArray (s : State) (array : HeapArray) : Segment × State :=
  let (scope, s) := s.newScope .global
  (⟨0, UInt64.ofNat array.byteLength, .heap array, false, scope⟩, s)

/-- A new array that holds the values, and a segment over it. -/
def newArray (s : State) (c : Carrier) (values : List c.Value) : Segment × State :=
  let array : HeapArray := ⟨s.arrays.size, c, values.length⟩
  let memory := s.memory.write (.array array.id) 0 (c.encodeAll .native values)
  { s with memory, arrays := s.arrays.push array }.overArray array

/-! ### What keeps what -/

def mapping? (s : State) (id : MappingId) : Option Mapping := (s.mappings[id]?).join

/-- Every segment that something keeps: a name, an allocator, a mapping or a pending cleanup; or
that is still there for a callback. -/
def keptSegments (s : State) : List Segment :=
  s.outgoing ++ s.handles.segments.values ++
    s.handles.allocators.values.map Carver.segment ++
    s.mappings.toList.flatMap (fun m => (m.map Mapping.segments).getD []) ++
    s.scopes.toList.flatMap fun scope => scope.cleanups.flatMap (·.script.segments)

def keepsScope (s : State) (id : ScopeId) : Bool :=
  id == processScope || s.handles.arenas.values.any (·.scope == id) ||
    s.keptSegments.any (·.scope == id)

def keepsMapping (s : State) (id : MappingId) : Bool :=
  s.handles.mappings.values.any (· == id) ||
    s.keptSegments.any (fun segment => segment.backing = .mapped id)

/-- The arena of that handle, while the handle is there. -/
def arena? (s : State) (id : ArenaId) : Option Arena :=
  s.handles.arenas.values.find? (·.id == id)

/-! ### Descriptions -/

def describeBacking (s : State) : Backing → String
  | .heap array => s!"Heap({array.describe})"
  | .native => "Native"
  | .mapped id =>
    let mapping := ((s.mapping? id).map Mapping.describe).getD ""
    s!"Mapped({mapping})"

def describe (s : State) (segment : Segment) : String :=
  s!"Segment \x7b kind: {s.describeBacking segment.backing}, address: {segment.address.hex}, " ++
    s!"byte_size: {segment.size}, read_only: {segment.readOnly}, " ++
    s!"scope: ScopeId({segment.scope}) \x7d"

def describeArena (s : State) (arena : Arena) : String :=
  let scope := s.scope arena.scope
  s!"Arena \x7b scope: Scope \x7b id: ScopeId({arena.scope}), " ++
    s!"kind: {scope.discipline.kind.label}, alive: {scope.isAlive}, " ++
    s!"held_bytes: {scope.heldBytes} \x7d, config: {arena.config.describe} \x7d"

def describeCarver (s : State) : Carver → String
  | .slicing segment used =>
    s!"SlicingAllocator \x7b segment: {s.describe segment}, cursor: Cell \x7b value: {used} \x7d \x7d"
  | .front segment => s!"PrefixAllocator \x7b segment: {s.describe segment} \x7d"

end State

end ScopedMemory
