import ScopedMemory.Drain

/-! What one turn of the protocol of a shared scope can do.

`Move` lists the ways in which a turn changes the protocol, each with what the thread must have
seen; every turn is one of them (`turn_move`). What every move keeps holds along every schedule
(`run_keeps`), so an invariant is one case distinction over the moves. -/
namespace ScopedMemory.SharedClose

/-- Whose turn it is. -/
def Turn.thread : Turn → Thread
  | .begin t _ | .proceed t => t

namespace Protocol

/-- The protocol after a turn of thread `t`, by what the turn did. -/
inductive Move (p : Protocol) (t : Thread) : Protocol → Prop where
  | stay : Move p t p
  | announce (here : p.place t = .idle) :
      Move p t ({ p with active := p.active + 1 }.goto t .announced)
  | letGo (here : p.place t = .idle) (inside : p.depth t ≠ 0) :
      Move p t ((p.setDepth t (p.depth t - 1)).goto t .leaving)
  | approach (here : p.place t = .idle) (outside : p.depth t = 0) : Move p t (p.goto t .shutting)
  | offer (here : p.place t = .idle) (unlocked : p.lock = none) (item : Item) :
      Move p t
        ({ p with lock := some t, offered := p.offered ++ [item] }.goto t (.testing item))
  | enter (here : p.place t = .announced) (alive : p.phase = .alive) :
      Move p t ((p.setDepth t (p.depth t + 1)).goto t .idle)
  | refuse (here : p.place t = .announced) (ended : p.phase ≠ .alive) : Move p t (p.goto t .refused)
  | backOut (here : p.place t = .refused) :
      Move p t ({ p with active := p.active - 1 }.goto t .idle)
  | leave (here : p.place t = .leaving) :
      Move p t ({ p with active := p.active - 1 }.goto t .idle)
  | shut (here : p.place t = .shutting) (alive : p.phase = .alive) :
      Move p t ({ p with phase := .closing, closers := p.closers ++ [t] }.goto t .draining)
  | late (here : p.place t = .shutting) (ended : p.phase ≠ .alive) : Move p t (p.goto t .idle)
  | drain (here : p.place t = .draining) (empty : p.active = 0) : Move p t (p.goto t .drained)
  | seize (here : p.place t = .drained) (unlocked : p.lock = none) :
      Move p t ({ p with lock := some t }.goto t .committing)
  | commit (here : p.place t = .committing) : Move p t ({ p with phase := .closed }.goto t .taking)
  | take (here : p.place t = .taking) :
      Move p t ({ p with lock := none, cleanups := [], blocks := [] }.goto t
        (.releasing p.cleanups p.blocks))
  | runCleanup (cleanup : Nat) (cleanups blocks : List Nat)
      (here : p.place t = .releasing (cleanup :: cleanups) blocks) :
      Move p t ({ p with ran := p.ran ++ [cleanup] }.goto t (.releasing cleanups blocks))
  | freeBlock (block : Nat) (blocks : List Nat)
      (here : p.place t = .releasing [] (block :: blocks)) :
      Move p t ({ p with freed := p.freed ++ [block] }.goto t (.releasing [] blocks))
  | finish (here : p.place t = .releasing [] []) : Move p t (p.goto t .idle)
  | letIn (item : Item) (here : p.place t = .testing item) (alive : p.phase = .alive) :
      Move p t (p.goto t (.storing item))
  | turnAway (item : Item) (here : p.place t = .testing item) (ended : p.phase ≠ .alive) :
      Move p t (p.goto t (.rejecting item))
  | storeCleanup (id : Nat) (here : p.place t = .storing (.cleanup id)) :
      Move p t ({ p with cleanups := p.cleanups ++ [id],
                         accepted := p.accepted ++ [Item.cleanup id] }.goto t .unlocking)
  | storeBlock (id : Nat) (here : p.place t = .storing (.block id)) :
      Move p t ({ p with blocks := p.blocks ++ [id],
                         accepted := p.accepted ++ [Item.block id] }.goto t .unlocking)
  | unlock (here : p.place t = .unlocking) : Move p t ({ p with lock := none }.goto t .idle)
  | rejectCleanup (id : Nat) (here : p.place t = .rejecting (.cleanup id)) :
      Move p t ({ p with lock := none,
                         rejected := p.rejected ++ [(t, Item.cleanup id)] }.goto t .idle)
  | rejectBlock (id : Nat) (here : p.place t = .rejecting (.block id)) :
      Move p t ({ p with lock := none, rejected := p.rejected ++ [(t, Item.block id)] }.goto t
        (.discarding id))
  | discard (id : Nat) (here : p.place t = .discarding id) :
      Move p t ({ p with discarded := p.discarded ++ [(t, id)] }.goto t .idle)

theorem start_move (p : Protocol) (t : Thread) (call : Call) (here : p.place t = .idle) :
    Move p t (p.start t call) := by
  cases call with
  | enter => exact .announce here
  | leave =>
    simp only [start]
    split
    · exact .stay
    · exact .letGo here ‹_›
  | close =>
    simp only [start]
    split
    · exact .approach here ‹_›
    · exact .stay
  | attach item =>
    simp only [start]
    split
    · exact .offer here ‹_› item
    · exact .stay

theorem next_move (p : Protocol) (t : Thread) : Move p t (p.next t) := by
  unfold next
  cases here : p.place t with
  | idle => exact .stay
  | announced =>
    by_cases alive : p.phase = .alive
    · simp only [alive, if_true]
      exact .enter here alive
    · simp only [alive, if_false]
      exact .refuse here alive
  | refused => exact .backOut here
  | leaving => exact .leave here
  | shutting =>
    by_cases alive : p.phase = .alive
    · simp only [alive, if_true]
      exact .shut here alive
    · simp only [alive, if_false]
      exact .late here alive
  | draining =>
    by_cases empty : p.active = 0
    · simp only [empty, if_true]
      exact .drain here empty
    · simp only [empty, if_false]
      exact .stay
  | drained =>
    by_cases unlocked : p.lock = none
    · simp only [unlocked, if_true]
      exact .seize here unlocked
    · simp only [unlocked, if_false]
      exact .stay
  | committing => exact .commit here
  | taking => exact .take here
  | releasing cleanups blocks =>
    cases cleanups with
    | cons cleanup cleanups => exact .runCleanup cleanup cleanups blocks here
    | nil =>
      cases blocks with
      | cons block blocks => exact .freeBlock block blocks here
      | nil => exact .finish here
  | testing item =>
    by_cases alive : p.phase = .alive
    · simp only [alive, if_true]
      exact .letIn item here alive
    · simp only [alive, if_false]
      exact .turnAway item here alive
  | storing item =>
    cases item with
    | cleanup id => exact .storeCleanup id here
    | block id => exact .storeBlock id here
  | unlocking => exact .unlock here
  | rejecting item =>
    cases item with
    | cleanup id => exact .rejectCleanup id here
    | block id => exact .rejectBlock id here
  | discarding id => exact .discard id here

/-- Every turn is a move of its thread. -/
theorem turn_move (p : Protocol) (turn : Turn) : Move p turn.thread (p.turn turn) := by
  cases turn with
  | begin t call =>
    simp only [Protocol.turn]
    split
    · exact p.start_move t call ‹_›
    · exact .stay
  | proceed t => exact p.next_move t

/-! ### Frames -/

@[simp] theorem goto_place_self (p : Protocol) (t : Thread) (x : Place) :
    (p.goto t x).place t = x := if_pos rfl

theorem goto_place_other (p : Protocol) (x : Place) {t u : Thread} (hu : u ≠ t) :
    (p.goto t x).place u = p.place u := if_neg hu

theorem setDepth_other (p : Protocol) (n : Nat) {t u : Thread} (hu : u ≠ t) :
    (p.setDepth t n).depth u = p.depth u := if_neg hu

/-- A move of one thread leaves the others where they are. -/
theorem Move.place_other {p q : Protocol} {t u : Thread} (h : Move p t q) (hu : u ≠ t) :
    q.place u = p.place u := by
  cases h
  case stay => rfl
  all_goals exact goto_place_other _ _ hu

theorem Move.depth_other {p q : Protocol} {t u : Thread} (h : Move p t q) (hu : u ≠ t) :
    q.depth u = p.depth u := by
  cases h
  case letGo | enter => exact setDepth_other p _ hu
  all_goals rfl

/-- A scope that is not alive stays so. -/
theorem Move.phase {p q : Protocol} {t : Thread} (h : Move p t q) (ended : p.phase ≠ .alive) :
    q.phase ≠ .alive := by
  cases h
  case shut | commit => simp [goto]
  all_goals exact ended

/-! ### Schedules -/

/-- The protocol after a schedule. -/
def after (turns : List Turn) : Protocol := ({} : Protocol).run turns

/-- A thread without a turn stays where it is. -/
theorem run_place_other (p : Protocol) {u : Thread} (turns : List Turn)
    (h : ∀ turn ∈ turns, turn.thread ≠ u) : (p.run turns).place u = p.place u := by
  induction turns generalizing p with
  | nil => rfl
  | cons turn rest ih =>
    rw [run, ih _ fun later hlater => h later (List.mem_cons_of_mem _ hlater)]
    exact (p.turn_move turn).place_other (h turn List.mem_cons_self).symm

/-- What every move keeps, every schedule keeps. -/
theorem run_keeps {P : Protocol → Prop} (step : ∀ {p q t}, Move p t q → P p → P q) {p : Protocol}
    (h : P p) (turns : List Turn) : P (p.run turns) := by
  induction turns generalizing p with
  | nil => exact h
  | cons turn rest ih => exact ih (step (p.turn_move turn) h)

end Protocol

end ScopedMemory.SharedClose

namespace ScopedMemory.Drain
open SharedClose
variable {p : Protocol} {t : Thread}

/-! ### How a close begins -/

theorem beginClose_inside (here : p.place t = .idle) (inside : p.depth t ≠ 0) :
    beginClose p t = (.error .scopeInUse, p) := by
  simp [beginClose, Protocol.run, Protocol.turn, Protocol.start, here, inside]

theorem beginClose_outside (here : p.place t = .idle) (outside : p.depth t = 0) :
    (beginClose p t).1 = if p.phase = .alive then .ok () else .error .scopeNotAlive := by
  by_cases alive : p.phase = .alive
  · simp [beginClose, Protocol.run, Protocol.turn, Protocol.start, Protocol.next, Protocol.goto,
      here, outside, alive]
  · simp [beginClose, Protocol.run, Protocol.turn, Protocol.start, Protocol.next, Protocol.goto,
      here, outside, alive]

end ScopedMemory.Drain
