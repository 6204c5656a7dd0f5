import ScopedMemory.Program.Perform

/-! Running programs.

A callback does its actions one after the other, up to the first panic. Callbacks nest up to a
limit; a program that goes beyond it is aborted. -/
namespace ScopedMemory

namespace State

/-! ### Callbacks -/

/-- How an action ended that may have panicked. -/
def actionResult {α : Type} (result : α → ActionResult) :
    Except Fault α → Except String ActionResult
  | .ok a => .ok (result a)
  | .error (.panic text) => .error (text.getD "")
  | .error fault => .ok (.failed fault)

/-- Does one action; a panic comes back as its text. -/
def act (nested : Nested) (t : Thread) (action : Action ArenaId Segment) (s : State) :
    Except String ActionResult × State :=
  match action with
  | .close id => match s.arena? id with
    | none => (.ok .gone, s)
    | some arena =>
      let (result, s) := s.closeArena nested t arena
      (actionResult (fun _ => .done) result, s)
  | .alloc id size alignment => match s.arena? id with
    | none => (.ok .gone, s)
    | some arena => match arena.allocate t s size alignment with
      | .ok (segment, s) => (.ok (.allocated segment), s)
      | .error e => (.ok (.failed (.arena e)), s)
  | .load segment =>
    let (result, s) := s.ask nested t segment .load
    (actionResult (fun _ => .done) result, s)
  | .get segment offset => match s.get t segment byteLayout offset with
    | .ok value => (.ok (.byte value), s)
    | .error e => (.ok (.failed (.access e)), s)
  | .panic text => (.error text, s)
  | .perform operation =>
    let (result, s) := operation.perform nested t s
    (actionResult (fun _ => .done) result, s)

/-- Does actions in order, up to the first panic. -/
def runScript (nested : Nested) (t : Thread) : Script → State → Option String × State
  | [], s => (none, s)
  | action :: rest, s => match s.act nested t action with
    | (.error text, s) => (some text, s)
    | (.ok result, s) => runScript nested t rest (s.emit (.acted action.name result))

/-- Does work, with callbacks nested up to a limit. -/
def work (t : Thread) : (limit : Nat) → Nested
  | 0, _, s => (none, { s with aborted := true })
  | limit + 1, .script script, s => s.runScript (work t limit) t script
  | limit + 1, .release segments, s => (none, s.releaseSegments (work t limit) t segments)

/-! ### Steps -/

/-- One step of a program; a step that cannot be read is a bad request. -/
def step (limit : Nat) (s : State) (step : Option Step) : Reply × State :=
  match step with
  | none => (⟨.error .badRequest, []⟩, s)
  | some ⟨thread, operation⟩ =>
    let (outcome, s) := operation.perform (work thread limit) thread { s with events := [] }
    (⟨outcome, s.events⟩, s)

/-- The replies to the steps, in order, and the state after them. Once aborted, a program answers
nothing any more. -/
def run (limit : Nat) (s : State) : List (Option Step) → List Reply × State
  | [] => ([], s)
  | first :: rest =>
    let (reply, s) := s.step limit first
    if s.aborted then ([], s)
    else
      let (replies, s) := s.run limit rest
      (reply :: replies, s)

end State

/-- A reply without what was logged. -/
def Reply.unlogged (r : Reply) : Reply := { r with events := r.events.filter (!·.isLogged) }

/-- Deep enough for every program of that many steps whose callbacks only do actions of their
own: each level of callbacks uses up a cleanup or goes on to an older mapping. -/
def nestingLimit (steps : Nat) : Nat := (steps + 2) * (steps + 3)

/-- Runs a program from the start; the log is shown on demand. -/
def runProgram (logged : Bool) (steps : List (Option Step)) : List Reply :=
  let (replies, _) := (State.initial .bump).run (nestingLimit steps.length) steps
  if logged then replies else replies.map Reply.unlogged

end ScopedMemory
