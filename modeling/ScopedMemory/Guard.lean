import ScopedMemory.State

/-! Entering and leaving scopes.

A scope is entered if it is alive and, when confined, on its owner's thread. While a thread is
inside of a closeable scope it cannot close it, and a shared scope counts who is inside. Scopes
that cannot be closed need no such record. -/
namespace ScopedMemory

/-! ### Holds -/

namespace Hold

/-- One access deeper. -/
def enter (t : Thread) (id : ScopeId) : List Hold → List Hold
  | [] => [⟨t, id, 1⟩]
  | h :: rest =>
    if h.thread = t ∧ h.scope = id then { h with depth := h.depth + 1 } :: rest
    else h :: enter t id rest

/-- One access less deep; a hold of no depth is no hold. The others keep their order. If the last
one took the place of the one that goes they would not, but holds are only looked up, by thread and
scope, of which there is one. -/
def leave (t : Thread) (id : ScopeId) : List Hold → List Hold
  | [] => []
  | h :: rest =>
    if h.thread = t ∧ h.scope = id then
      if h.depth ≤ 1 then rest else { h with depth := h.depth - 1 } :: rest
    else h :: leave t id rest

/-- How deep the thread is inside of the scope. -/
def depthOf (t : Thread) (id : ScopeId) : List Hold → Nat
  | [] => 0
  | h :: rest => if h.thread = t ∧ h.scope = id then h.depth else depthOf t id rest

end Hold

namespace State

/-- The thread is inside of the scope. -/
def holdsScope (s : State) (t : Thread) (id : ScopeId) : Bool :=
  s.holds.any fun h => h.thread == t && h.scope == id

/-- The scope is alive. -/
def checkAlive (s : State) (id : ScopeId) : Except AccessError Unit :=
  if s.isAlive id then .ok () else .error .scopeNotAlive

/-- The scope does not belong to another thread. -/
def checkOwner (s : State) (t : Thread) (id : ScopeId) : Except AccessError Unit :=
  if (s.scope id).discipline.accessibleBy t then .ok () else .error .wrongThread

/-- The scope lets the thread in: alive first, then the owner. Scopes that cannot be closed let
everyone in. -/
def checkEntry (s : State) (t : Thread) (id : ScopeId) : Except AccessError Unit :=
  match (s.scope id).discipline with
  | .confined _ => do
    s.checkAlive id
    s.checkOwner t id
  | .shared => s.checkAlive id
  | .auto | .global => .ok ()

/-- The thread is inside of the scope once more. -/
def hold (s : State) (t : Thread) (id : ScopeId) : State :=
  let s := { s with guards := ⟨t, id⟩ :: s.guards }
  match (s.scope id).discipline with
  | .confined _ => { s with holds := Hold.enter t id s.holds }
  | .shared =>
    { s with holds := Hold.enter t id s.holds }.modifyScope id fun scope =>
      { scope with active := scope.active + 1 }
  | .auto | .global => s

/-- The thread is inside of the scope once less. -/
def letOut (s : State) (t : Thread) (id : ScopeId) : State :=
  let s := { s with guards := s.guards.erase ⟨t, id⟩ }
  match (s.scope id).discipline with
  | .confined _ => { s with holds := Hold.leave t id s.holds }
  | .shared =>
    { s with holds := Hold.leave t id s.holds }.modifyScope id fun scope =>
      { scope with active := scope.active - 1 }
  | .auto | .global => s

/-- Enters the scope. -/
def enter (s : State) (t : Thread) (id : ScopeId) : Except AccessError State := do
  s.checkEntry t id
  return s.hold t id

end State

end ScopedMemory
