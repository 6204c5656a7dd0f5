import ScopedMemory.Word

/-! Kinds of scope, as names. -/
namespace ScopedMemory

/-- The number of a thread. -/
abbrev Thread := Nat

/-- Who may use a scope and how it ends. -/
inductive ScopeKind where
  /-- One owning thread, closed explicitly. -/
  | confined
  /-- Any thread, closed explicitly. -/
  | shared
  /-- Any thread, ends with its last handle. -/
  | auto
  /-- Any thread, never closed. -/
  | global
deriving DecidableEq, Repr

namespace ScopeKind

def all : List ScopeKind := [.confined, .shared, .auto, .global]

def name : ScopeKind → String
  | .confined => "confined"
  | .shared => "shared"
  | .auto => "auto"
  | .global => "global"

def label : ScopeKind → String
  | .confined => "Confined"
  | .shared => "Shared"
  | .auto => "Auto"
  | .global => "Global"

def ofName? (text : String) : Option ScopeKind :=
  all.find? (·.name == text)

def closeable : ScopeKind → Bool
  | .confined | .shared => true
  | .auto | .global => false

end ScopeKind

end ScopedMemory
