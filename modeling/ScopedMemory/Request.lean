import ScopedMemory.Word

/-! Requests to a file mapping. -/
namespace ScopedMemory

/-- What can be asked of the pages behind a mapped segment. -/
inductive Request where
  /-- Bring them into memory. -/
  | load
  /-- They are no longer needed in memory. -/
  | unload
  /-- Are they all in memory? -/
  | isLoaded
  /-- Write changes back to the file. -/
  | force
deriving DecidableEq, Repr

namespace Request

def name : Request → String
  | .load => "load"
  | .unload => "unload"
  | .isLoaded => "is_loaded"
  | .force => "force"

def label : Request → String
  | .load => "Load"
  | .unload => "Unload"
  | .isLoaded => "IsLoaded"
  | .force => "Force"

end Request

/-- One thing for each request. -/
structure PerRequest (α : Type) where
  load : α
  unload : α
  isLoaded : α
  force : α

namespace PerRequest
variable {α : Type}

def get (p : PerRequest α) : Request → α
  | .load => p.load
  | .unload => p.unload
  | .isLoaded => p.isLoaded
  | .force => p.force

def toList (p : PerRequest α) : List α := [p.load, p.unload, p.isLoaded, p.force]

end PerRequest

end ScopedMemory
