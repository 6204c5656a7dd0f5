import ScopedMemory.Scope

/-! The protocol by which threads share and close one scope.

Each turn of a thread is one atomic step. To enter, a thread counts itself and then looks whether
the scope is alive, and counts itself out again if it is not. To close, a thread that is not inside
moves the scope from alive to closing, which only one can; it waits until nobody is counted, takes
the lock, marks the scope closed and takes what is attached, runs the cleanups and frees the blocks.
To attach something, a thread takes the lock, looks whether the scope is alive, and stores it or
turns it away; a block that is turned away is freed by the thread that brought it. -/
namespace ScopedMemory.SharedClose

/-- Something to be attached. -/
inductive Item where
  | cleanup (id : Nat)
  | block (id : Nat)
deriving DecidableEq, Repr

/-- Where a thread stands. -/
inductive Place where
  /-- Between operations. -/
  | idle
  /-- Counted, has not looked yet. -/
  | announced
  /-- Counted, saw that the scope is not alive. -/
  | refused
  /-- Has let go of its access, is still counted. -/
  | leaving
  /-- Not inside, about to move the scope from alive to closing. -/
  | shutting
  /-- Has moved the scope to closing and waits until nobody is counted. -/
  | draining
  /-- Saw that nobody is counted. -/
  | drained
  /-- Has the lock, about to mark the scope closed. -/
  | committing
  /-- Has marked the scope closed, about to take what is attached. -/
  | taking
  /-- Runs these cleanups, then frees these blocks. -/
  | releasing (cleanups blocks : List Nat)
  /-- Has the lock, about to look whether the scope is alive. -/
  | testing (item : Item)
  /-- Has the lock, saw the scope alive. -/
  | storing (item : Item)
  /-- Has the lock, is done with it. -/
  | unlocking
  /-- Has the lock, saw that the scope is not alive. -/
  | rejecting (item : Item)
  /-- About to free a block that was turned away. -/
  | discarding (block : Nat)
deriving DecidableEq, Repr

structure Protocol where
  phase : Phase := .alive
  /-- How many accesses are counted. -/
  active : Nat := 0
  lock : Option Thread := none
  cleanups : List Nat := []
  blocks : List Nat := []
  place : Thread → Place := fun _ => .idle
  /-- How many accesses a thread is inside of. -/
  depth : Thread → Nat := fun _ => 0
  /-- Threads whose close went through, the first one first. -/
  closers : List Thread := []
  /-- Cleanups that the close has run, the first one first. -/
  ran : List Nat := []
  /-- Blocks that the close has freed, the first one first. -/
  freed : List Nat := []
  /-- What threads have brought to be attached, the first one first. -/
  offered : List Item := []
  accepted : List Item := []
  /-- What was turned away, and whose it was. -/
  rejected : List (Thread × Item) := []
  /-- Blocks that were turned away and freed, and who brought and freed them. -/
  discarded : List (Thread × Nat) := []

/-- An operation that an idle thread can begin. -/
inductive Call where
  | enter
  | leave
  | close
  | attach (item : Item)
deriving DecidableEq, Repr

/-- What happens next: a thread begins an operation, or goes on with the one it is in. -/
inductive Turn where
  | begin (t : Thread) (call : Call)
  | proceed (t : Thread)
deriving DecidableEq, Repr

namespace Protocol

/-- The thread stands elsewhere. -/
def goto (p : Protocol) (t : Thread) (place : Place) : Protocol :=
  { p with place := fun u => if u = t then place else p.place u }

def setDepth (p : Protocol) (t : Thread) (depth : Nat) : Protocol :=
  { p with depth := fun u => if u = t then depth else p.depth u }

/-- The first step of an operation. A thread that is inside does not begin to close, one that is
outside does not leave, and the lock is taken by one thread at a time. -/
def start (p : Protocol) (t : Thread) : Call → Protocol
  | .enter => { p with active := p.active + 1 }.goto t .announced
  | .leave => if p.depth t = 0 then p else (p.setDepth t (p.depth t - 1)).goto t .leaving
  | .close => if p.depth t = 0 then p.goto t .shutting else p
  | .attach item =>
    if p.lock = none then
      { p with lock := some t, offered := p.offered ++ [item] }.goto t (.testing item)
    else p

/-- The next step of the operation that the thread is in. -/
def next (p : Protocol) (t : Thread) : Protocol :=
  match p.place t with
  | .idle => p
  | .announced =>
    if p.phase = .alive then (p.setDepth t (p.depth t + 1)).goto t .idle else p.goto t .refused
  | .refused => { p with active := p.active - 1 }.goto t .idle
  | .leaving => { p with active := p.active - 1 }.goto t .idle
  | .shutting =>
    if p.phase = .alive then
      { p with phase := .closing, closers := p.closers ++ [t] }.goto t .draining
    else p.goto t .idle
  | .draining => if p.active = 0 then p.goto t .drained else p
  | .drained => if p.lock = none then { p with lock := some t }.goto t .committing else p
  | .committing => { p with phase := .closed }.goto t .taking
  | .taking =>
    { p with lock := none, cleanups := [], blocks := [] }.goto t (.releasing p.cleanups p.blocks)
  | .releasing (cleanup :: cleanups) blocks =>
    { p with ran := p.ran ++ [cleanup] }.goto t (.releasing cleanups blocks)
  | .releasing [] (block :: blocks) =>
    { p with freed := p.freed ++ [block] }.goto t (.releasing [] blocks)
  | .releasing [] [] => p.goto t .idle
  | .testing item =>
    if p.phase = .alive then p.goto t (.storing item) else p.goto t (.rejecting item)
  | .storing (.cleanup id) =>
    { p with cleanups := p.cleanups ++ [id], accepted := p.accepted ++ [Item.cleanup id] }.goto t
      .unlocking
  | .storing (.block id) =>
    { p with blocks := p.blocks ++ [id], accepted := p.accepted ++ [Item.block id] }.goto t
      .unlocking
  | .unlocking => { p with lock := none }.goto t .idle
  | .rejecting (.cleanup id) =>
    { p with lock := none, rejected := p.rejected ++ [(t, Item.cleanup id)] }.goto t .idle
  | .rejecting (.block id) =>
    { p with lock := none, rejected := p.rejected ++ [(t, Item.block id)] }.goto t (.discarding id)
  | .discarding id => { p with discarded := p.discarded ++ [(t, id)] }.goto t .idle

/-- One turn; only an idle thread begins an operation. -/
def turn (p : Protocol) : Turn → Protocol
  | .begin t call => if p.place t = .idle then p.start t call else p
  | .proceed t => p.next t

/-- The turns of a schedule, one after the other. -/
def run (p : Protocol) : List Turn → Protocol
  | [] => p
  | first :: rest => (p.turn first).run rest

end Protocol

end ScopedMemory.SharedClose
