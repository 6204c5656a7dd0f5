import ScopedMemory.Bulk
import ScopedMemory.NativeAccess
import ScopedMemory.Pattern

/-! What operations answer. -/
namespace ScopedMemory

structure ArenaReport where
  kind : ScopeKind
  alive : Bool
  scope : ScopeId
  owner : Option Thread
  accessible : Bool
  config : ArenaConfig
  /-- The arena of the process has no description. -/
  description : Option String

structure SegmentReport where
  segment : Segment
  kind : ScopeKind
  alive : Bool
  accessible : Bool
  owner : Option Thread
  description : String

/-- What a slicing allocator has used and has left. -/
structure Usage where
  used : Word
  remaining : Word

inductive Answer where
  | nothing
  | truth (b : Bool)
  | number (w : Word)
  | distance (d : Int64)
  | text (s : String)
  | scalar (c : Carrier) (v : c.Value)
  | scalars (c : Carrier) (vs : List c.Value)
  | bytes (bytes : List UInt8)
  | segment (s : Segment)
  | arenaOpened (scope : ScopeId)
  | arena (report : ArenaReport)
  | allocator (usage : Option Usage) (description : String)
  | report (report : SegmentReport)
  | comparison (sameStart sameScope : Bool)
  | elements (length : Word) (first : List Segment) (left : Word)
  | scopeId (id : ScopeId)
  | token (token : Token)
  | calls (calls : List MappingCall)

/-- What a step gave: its answer or its fault, and what happened meanwhile. -/
structure Reply where
  outcome : Except Fault Answer
  events : List Event

end ScopedMemory
