import ScopedMemory.SharedClose

/-! A close that waits for threads inside of the scope.

Loaders enter a shared scope and stay there. Another thread closes the scope meanwhile, and waits;
a visitor tries what it still can. Then the loaders leave, one by one, and the close ends. -/
namespace ScopedMemory.Drain
open SharedClose

/-- Whether the thread is let in. -/
def enter (p : Protocol) (t : Thread) : Except AccessError Unit × Protocol :=
  let q := p.run [.begin t .enter, .proceed t]
  if q.place t = .refused then (.error .scopeNotAlive, q.run [.proceed t]) else (.ok (), q)

def leave (p : Protocol) (t : Thread) : Protocol := p.run [.begin t .leave, .proceed t]

/-- An access by the thread that answers `a`. -/
def visit {α : Type} (p : Protocol) (t : Thread) (a : α) : Except AccessError α × Protocol :=
  match enter p t with
  | (.ok (), p) => (.ok a, leave p t)
  | (.error e, p) => (.error e, p)

/-- Whether a close by the thread goes through; if so it waits from here on. -/
def beginClose (p : Protocol) (t : Thread) : Except AccessError Unit × Protocol :=
  let p := p.run [.begin t .close]
  if p.place t = .shutting then
    let p := p.run [.proceed t]
    (if p.place t = .draining then .ok () else .error .scopeNotAlive, p)
  else (.error .scopeInUse, p)

/-- The thread has looked again and still waits. -/
def stillWaits (p : Protocol) (t : Thread) : Bool × Protocol :=
  let p := p.run [.proceed t]
  (p.place t = .draining, p)

/-- What the visitor sees while the close waits. -/
structure Meanwhile where
  alive : Bool
  isLoaded : Except AccessError Bool
  check : Except AccessError Unit
  allocation : Except AccessError Unit
  close : Except AccessError Unit

/-- A loader on its way out. -/
structure Departure where
  closeWaits : Bool
  result : Except AccessError Unit

structure Report where
  before : Except AccessError Bool
  unload : Except AccessError Unit
  force : Except AccessError Unit
  meanwhile : Meanwhile
  departures : List Departure
  close : Except AccessError Unit
  alive : Bool
  again : Except AccessError Unit

/-- The loaders enter, in order. -/
def enterAll (p : Protocol) : List Thread → Protocol
  | [] => p
  | t :: rest => enterAll (enter p t).2 rest

/-- The loaders leave, in order; before each the closing thread looks once more. -/
def leaveAll (closer : Thread) (result : Except AccessError Unit) (p : Protocol) :
    List Thread → List Departure × Protocol
  | [] => ([], p)
  | t :: rest =>
    let (closeWaits, p) := stillWaits p closer
    let (more, p) := leaveAll closer result (leave p t) rest
    (⟨closeWaits, result⟩ :: more, p)

/-- The turns that end a close once nobody is inside and nothing is attached. -/
def ending (closer : Thread) : List Turn := List.replicate 5 (.proceed closer)

/-- The whole story for that many loaders. A loader whose gate is dropped fails. -/
def report (loaders : Nat) (dropGate : Bool) : Report :=
  let visitor := 0
  let threads := (List.range loaders).map (· + 1)
  let closer := loaders + 1
  let (before, p) := visit {} visitor true
  let (unload, p) := visit p visitor ()
  let (force, p) := visit p visitor ()
  let p := enterAll p threads
  let (begun, p) := beginClose p closer
  let alive := p.phase = .alive
  let (isLoaded, p) := visit p visitor true
  let (check, p) := visit p visitor ()
  let (allocation, p) := visit p visitor ()
  let (close, p) := beginClose p visitor
  let result := if dropGate then .error (.mappingFailed "gate dropped") else .ok ()
  let (departures, p) := leaveAll closer result p threads
  let p := p.run (ending closer)
  let closed := if p.place closer = .idle then begun else .error .scopeInUse
  let (again, p) := beginClose p visitor
  { before, unload, force
    meanwhile := ⟨alive, isLoaded, check, allocation, close⟩
    departures
    close := closed
    alive := p.phase = .alive
    again }

/-- Loaders come in numbers from one to eight. -/
def report? (loaders : Nat) (dropGate : Bool) : Option Report :=
  if 1 ≤ loaders ∧ loaders ≤ 8 then some (report loaders dropGate) else none

end ScopedMemory.Drain
