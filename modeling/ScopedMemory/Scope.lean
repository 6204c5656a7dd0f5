import ScopedMemory.Operation

/-! Scopes: lifetimes shared by segments.

A scope is alive until it is closed or its last handle goes. Blocks and cleanups are attached to
it; when it ends the cleanups run in the order of their registration, and then the blocks are
freed. Cleanups and scripted mappings carry actions, which may use the library again. -/
namespace ScopedMemory

/-- Who may use a scope and how it ends. -/
inductive Discipline where
  | confined (owner : Thread)
  | shared
  | auto
  | global
deriving DecidableEq, Repr

namespace Discipline

def kind : Discipline → ScopeKind
  | .confined _ => .confined
  | .shared => .shared
  | .auto => .auto
  | .global => .global

/-- The discipline of a scope of that kind, made by thread `t`. -/
def ofKind (t : Thread) : ScopeKind → Discipline
  | .confined => .confined t
  | .shared => .shared
  | .auto => .auto
  | .global => .global

def owner? : Discipline → Option Thread
  | .confined owner => some owner
  | _ => none

/-- The thread may use segments of the scope. -/
def accessibleBy (d : Discipline) (t : Thread) : Bool :=
  match d with
  | .confined owner => owner == t
  | _ => true

end Discipline

/-- The phases of a scope, which only ever move on. -/
inductive Phase where
  | alive
  | closing
  | closed
deriving DecidableEq, Repr

/-- Native memory handed out by the system. -/
structure Block where
  address : Word
  size : Word
deriving DecidableEq, Repr

/-- The serial number of an arena handle. -/
abbrev ArenaId := Nat

/-- Actions whose handles are found: segments are kept, arenas are only remembered. -/
abbrev Script := List (Action ArenaId Segment)

/-- The segments that a script keeps. -/
def Script.segments (script : Script) : List Segment := script.filterMap ActionOver.segment?

/-- Work to be done when a scope ends, on the address it was registered for. -/
structure Cleanup where
  tag : String
  address : Word
  script : Script

structure Scope where
  discipline : Discipline
  phase : Phase := .alive
  /-- Accesses in progress; counted for shared scopes only. -/
  active : Nat := 0
  /-- Registered and not yet run. -/
  cleanups : List Cleanup := []
  /-- Attached and not yet freed. -/
  blocks : List Block := []

namespace Scope

def isAlive (s : Scope) : Bool := decide (s.phase = .alive)

/-- The bytes of all attached blocks; a closed scope holds none, though they are still being
freed. -/
def heldBytes (s : Scope) : Nat :=
  if s.phase = .closed then 0 else s.blocks.foldl (fun held block => held + block.size.toNat) 0

end Scope

end ScopedMemory
