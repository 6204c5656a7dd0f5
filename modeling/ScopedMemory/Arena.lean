import ScopedMemory.Config
import ScopedMemory.Segment

/-! Arenas and allocators, as values.

An arena hands out blocks that live as long as its scope. The other two carve segments out of one:
the slicing allocator one after the other, the front allocator always from the start. -/
namespace ScopedMemory

structure Arena where
  /-- Tells handles apart. -/
  id : Nat
  scope : ScopeId
  config : ArenaConfig
  /-- The one arena of the process, which every handle shares. -/
  processWide : Bool
deriving DecidableEq

/-- Carves segments out of one. -/
inductive Carver where
  | slicing (segment : Segment) (used : Word)
  | front (segment : Segment)
deriving DecidableEq

namespace Carver

/-- The segment that is carved. -/
def segment : Carver → Segment
  | .slicing segment _ | .front segment => segment

/-- Starts over; only a slicing allocator can. -/
def reset? : Carver → Option Carver
  | .slicing segment _ => some (.slicing segment 0)
  | .front _ => none

end Carver

/-- What can be allocated from. -/
inductive Allocator where
  | arena (arena : Arena)
  | carver (carver : Carver)
deriving DecidableEq

/-- The right to use native memory, granted to a caller. -/
structure Token where
  caller : String
deriving DecidableEq

def Token.describe (t : Token) : String :=
  s!"NativeAccess \x7b caller: {Text.quoted t.caller} \x7d"

end ScopedMemory
