import ScopedMemory.Config
import ScopedMemory.Layout.Expression
import ScopedMemory.Request
import ScopedMemory.Segment

/-! Operations over named handles.

A query answers and changes nothing; a change writes memory or is refused; a making gives a new
segment, which may get a name. The rest allocates, opens, closes and drops things. Callbacks do
actions, and any operation is an action too. -/
namespace ScopedMemory

/-- Where in a segment a value stands. -/
inductive Position where
  | offset (bytes : Word)
  | index (elements : Word)

/-- A scope, by something bound to it. -/
inductive ScopeRef where
  | arena (name : String)
  | segment (name : String)

/-- What to allocate from. -/
inductive AllocatorRef where
  | arena (name : String)
  | allocator (name : String)

/-- What to allocate. -/
inductive Contents where
  | bytes (size alignment : Word)
  | shape (layout : LayoutExpr)
  | array (layout : LayoutExpr) (count : Word)
  | value (layout : ValueExpr) (v : layout.carrier.Value)
  | values (layout : ValueExpr) (vs : List layout.carrier.Value)
  | text (content : String)

/-- Which part of a segment. -/
inductive SliceRange where
  | from (offset : Word)
  | sized (offset size : Word)
  | aligned (offset size alignment : Word)
  | shaped (offset : Word) (layout : LayoutExpr)

/-- Answers from the state as it is. -/
inductive Query where
  | arenaInfo (arena : String)
  | allocatorInfo (allocator : String)
  | segmentInfo (segment : String)
  | accessible (segment : String) (thread : Thread)
  | compare (a b : String)
  | offsetOf (a b : String)
  | elements (segment : String) (layout : LayoutExpr) (count : Word)
  | check (segment : String) (offset length alignment : Word) (mode : AccessMode)
  | get (segment : String) (layout : ValueExpr) (position : Position)
  | values (segment : String) (layout : ValueExpr)
  | bytes (segment : String)
  | text (segment : String) (offset : Word)
  | run (segment : String) (layout : ValueExpr) (offset count : Word)
  | mismatch (a b : String)
  | mismatchRange (a : String) (aStart aStop : Word) (b : String) (bStart bStop : Word)
  | policy
  | calls (mapping : String)

/-- Writes memory. -/
inductive Change where
  | set (segment : String) (layout : ValueExpr) (position : Position)
      (value : layout.carrier.Value)
  | setAddress (segment : String) (layout : AddressExpr) (position : Position) (value : String)
  | setText (segment : String) (offset : Word) (text : String)
  | setRun (segment : String) (layout : ValueExpr) (offset : Word)
      (values : List layout.carrier.Value)
  | fill (segment : String) (byte : UInt8)
  | copy (source : String) (sourceOffset : Word) (target : String) (targetOffset length : Word)
  | copyAll (source target : String)
  | copyElements (source : String) (sourceLayout : ValueExpr) (sourceOffset : Word)
      (target : String) (targetLayout : ValueExpr) (targetOffset count : Word)

/-- What a callback does, over references `α` to arenas and `σ` to segments, and operations `ω`. -/
inductive ActionOver (α σ ω : Type) where
  | close (arena : α)
  | alloc (arena : α) (size alignment : Word)
  | load (segment : σ)
  | get (segment : σ) (offset : Word)
  | panic (text : String)
  | perform (operation : ω)

/-- A handle to be dropped. -/
inductive HandleRef where
  | arena (name : String)
  | segment (name : String)
  | allocator (name : String)
  | mapping (name : String)

/-- The two ways of carving a segment. -/
inductive Carving where
  | slicing
  | front

mutual

/-- Makes a segment. -/
inductive Making where
  | array (carrier : Carrier) (values : List carrier.Value)
  | zeros (carrier : Carrier) (length : Word)
  | wrapAgain (segment : String)
  | atAddress (address : Word)
  | counting (arena : String) (length : Word)
  | countingArray (length : Word)
  | patterned (arena : String) (length seed : Word)
  | patternedArray (length seed : Word)
  | readOnly (segment : String)
  | slice (segment : String) (range : SliceRange)
  | fromAddress (segment : String) (layout : AddressExpr) (position : Position)
  | resize (segment : String) (size : Word) (token : Option String)
  | rebind (segment : String) (size : Option Word) (scope : ScopeRef)
      (cleanup : Option (String × List (ActionOver String String Operation))) (token : Option String)
  | map (mapping : String) (address size : Word) (readOnly : Bool) (scope : ScopeRef)

inductive Operation where
  | query (q : Query)
  | change (c : Change)
  | make (m : Making) (name : Option String)
  | overlap (a b : String) (name : Option String)
  | allocate (source : AllocatorRef) (contents : Contents) (name : Option String)
  | openArena (name : String) (kind : ScopeKind) (config : Option ArenaConfig)
  | closeArena (arena : String)
  | openAllocator (name : String) (carving : Carving) (segment : String)
  | resetAllocator (allocator : String)
  | openRecorder (name : String) (failsForce : Bool)
  | openScripted (name : String) (scripts : PerRequest (List (ActionOver String String Operation)))
      (failures : PerRequest (Option String)) (loaded : Bool)
  | ask (segment : String) (request : Request)
  | setPolicy (text : String)
  | enableAccess (caller : String) (name : Option String)
  | freshScope
  | drop (handle : HandleRef)

end

/-- What a callback does, over references `α` to arenas and `σ` to segments. -/
abbrev Action (α σ : Type) := ActionOver α σ Operation

/-- Actions as they are written, over names. -/
abbrev ScriptText := List (Action String String)

namespace ActionOver
variable {α σ ω : Type}

def name : ActionOver α σ ω → String
  | .close .. => "close"
  | .alloc .. => "alloc"
  | .load .. => "load"
  | .get .. => "get"
  | .panic .. => "panic"
  | .perform .. => "perform"

/-- The segment that the action keeps. -/
def segment? : ActionOver α σ ω → Option σ
  | .load segment | .get segment _ => some segment
  | _ => none

end ActionOver

/-- An operation on a thread. -/
structure Step where
  thread : Thread
  operation : Operation

end ScopedMemory
