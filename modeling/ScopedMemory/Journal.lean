import ScopedMemory.Scope

/-! The journal: what has happened to every scope, in order. -/
namespace ScopedMemory

/-- Something that happens to a scope. -/
inductive Deed where
  | opened
  | attached (block : Block)
  | registered (cleanup : Cleanup)
  /-- The scope ends: by a close of that thread, or else with its last handle. Notes whether
  anything keeps the scope at that moment. -/
  | ended (closer : Option Thread) (kept : Bool)
  /-- A cleanup begins to run, with this argument. -/
  | began (cleanup : Cleanup) (argument : Segment)
  /-- A cleanup is through, however it ended. -/
  | done (cleanup : Cleanup)
  | freed (block : Block)

/-- What happened to which scope. -/
structure Entry where
  scope : ScopeId
  deed : Deed

/-- The block that the entry says was attached. -/
def Entry.attached? : Entry → Option Block
  | ⟨_, .attached block⟩ => some block
  | _ => none

/-- Decides where blocks are put, by what has happened so far: the start of so many aligned bytes,
or nothing if there is no room for them. -/
structure System where
  place : List Entry → Word → Alignment → Option Word

/-! ### A small native memory -/

/-- The first address of native memory. -/
def regionStart : Word := 0x1000000000

/-- The size of native memory. -/
def regionSize : Nat := 0x100000

/-- The address after native memory. -/
def regionStop : Nat := regionStart.toNat + regionSize

namespace System

/-- The address after a block, too, if it has any bytes. -/
def past (stop : Nat) (block : Block) : Nat :=
  if block.size = 0 then stop else max stop (block.address.toNat + block.size.toNat)

/-- The address after all blocks that were ever attached. -/
def frontier (journal : List Entry) : Nat :=
  (journal.filterMap Entry.attached?).foldl past regionStart.toNat

/-- Puts every block after all others; memory is never used again. -/
def bump : System where
  place journal size alignment :=
    if regionStop < frontier journal then none
    else match alignment.roundUp? (UInt64.ofNat (frontier journal)) with
      | none => none
      | some start => if regionStop < start.toNat + size.toNat then none else some start

end System

end ScopedMemory
