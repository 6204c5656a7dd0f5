/-! Tables of named things. -/
namespace ScopedMemory

/-- Named things; a name stands for at most one. -/
structure Table (α : Type) where
  entries : List (String × α) := []
  unique : (entries.map Prod.fst).Nodup := by simp

namespace Table
variable {α : Type}

def find? (t : Table α) (name : String) : Option α :=
  (t.entries.find? (·.1 = name)).map Prod.snd

def erase (t : Table α) (name : String) : Table α where
  entries := t.entries.filter (·.1 ≠ name)
  unique := t.unique.sublist (t.entries.filter_sublist.map Prod.fst)

/-- Binds the name, in place of what it stood for. -/
def put (t : Table α) (name : String) (value : α) : Table α where
  entries := (name, value) :: (t.erase name).entries
  unique := by
    rw [List.map_cons, List.nodup_cons]
    refine ⟨?_, (t.erase name).unique⟩
    simp [erase]

/-- The things in the table. -/
def values (t : Table α) : List α := t.entries.map Prod.snd

end Table

end ScopedMemory
