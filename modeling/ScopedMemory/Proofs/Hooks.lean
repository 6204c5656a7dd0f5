import ScopedMemory.Program.Run

/-! Programs run with hooks.

A hook looks at states in passing and stands in for the performing of operations and the reading of
bytes. Everything else is done as ever, by callbacks nested to every depth as by the steps of a
program. A hook that changes nothing runs programs as they are run (`Hook.run_plain`). -/
namespace ScopedMemory

/-- Looks at states in passing. One that does not pass sends everything astray. -/
structure Watch where
  passes : State → Bool
  astray : State → Option String × State

namespace Watch

/-- Every state passes. -/
def blind : Watch := ⟨fun _ => true, fun s => (none, s)⟩

/-- Goes on if the state passes. -/
def see {α : Type} (watch : Watch) (s : State) (next : Except Fault α × State) :
    Except Fault α × State :=
  if watch.passes s then next else (.error (.panic (watch.astray s).1), (watch.astray s).2)

/-- As `see`, for callbacks. -/
def sight (watch : Watch) (s : State) (next : Option String × State) : Option String × State :=
  if watch.passes s then next else watch.astray s

theorem see_of_passes {α : Type} {watch : Watch} {s : State} (h : watch.passes s = true)
    (next : Except Fault α × State) : watch.see s next = next := if_pos h

theorem sight_of_passes {watch : Watch} {s : State} (h : watch.passes s = true)
    (next : Option String × State) : watch.sight s next = next := if_pos h

end Watch

/-- How operations are performed and bytes are read meanwhile. -/
structure Hook extends Watch where
  perform : Nested → Thread → State → Operation → Except Fault Answer × State
  get : Thread → Segment → Word → State → Except Fault Carrier.ubyte.Value × State

namespace Hook

/-- Does one action. -/
def act (hook : Hook) (nested : Nested) (t : Thread) (action : Action ArenaId Segment)
    (s : State) : Except String ActionResult × State :=
  match action with
  | .get segment offset =>
    let (result, s) := hook.get t segment offset s
    (State.actionResult (fun value => .byte value) result, s)
  | .perform operation =>
    let (result, s) := hook.perform nested t s operation
    (State.actionResult (fun _ => .done) result, s)
  | action => s.act nested t action

/-- Does actions in order, up to the first panic. -/
def runScript (hook : Hook) (nested : Nested) (t : Thread) :
    Script → State → Option String × State
  | [], s => hook.sight s (none, s)
  | action :: rest, s => hook.sight s <| match hook.act nested t action s with
    | (.error text, s) => hook.sight s (some text, s)
    | (.ok result, s) => hook.runScript nested t rest (s.emit (.acted action.name result))

/-- Does work, with callbacks nested up to a limit. -/
def work (hook : Hook) (t : Thread) : (limit : Nat) → Nested
  | 0, _, s => (none, { s with aborted := true })
  | limit + 1, .script script, s => hook.runScript (hook.work t limit) t script s
  | limit + 1, .release segments, s =>
    hook.sight s (none, s.releaseSegments (hook.work t limit) t segments)

def step (hook : Hook) (limit : Nat) (s : State) (step : Option Step) : Reply × State :=
  match step with
  | none => (⟨.error .badRequest, []⟩, s)
  | some ⟨thread, operation⟩ =>
    let s := { s with events := [] }
    let (outcome, s) := hook.see s (hook.perform (hook.work thread limit) thread s operation)
    let (outcome, s) := hook.see s (outcome, s)
    (⟨outcome, s.events⟩, s)

def run (hook : Hook) (limit : Nat) (s : State) : List (Option Step) → List Reply × State
  | [] => ([], s)
  | first :: rest =>
    let (reply, s) := hook.step limit s first
    if s.aborted then ([], s)
    else
      let (replies, s) := hook.run limit s rest
      (reply :: replies, s)

/-! ### Nothing is changed -/

/-- Reads a byte as a callback does. -/
def plainGet (t : Thread) (x : Segment) (offset : Word) (s : State) :
    Except Fault Carrier.ubyte.Value × State :=
  (access (s.get t x State.byteLayout offset), s)

/-- The hook that changes nothing. -/
def plain : Hook where
  toWatch := .blind
  perform nested t s operation := operation.perform nested t s
  get := plainGet

theorem act_plain (nested : Nested) (t : Thread) (action : Action ArenaId Segment) (s : State) :
    plain.act nested t action s = s.act nested t action := by
  cases action with
  | get x offset =>
    simp only [act, State.act, plain, plainGet]
    cases s.get t x State.byteLayout offset with
    | error e => rfl
    | ok value => rfl
  | _ => rfl

theorem runScript_plain (nested : Nested) (t : Thread) (script : Script) (s : State) :
    plain.runScript nested t script s = s.runScript nested t script := by
  induction script generalizing s with
  | nil => rfl
  | cons action rest ih =>
    have hpasses : plain.passes s = true := rfl
    rw [runScript, Watch.sight_of_passes hpasses, act_plain, State.runScript]
    rcases s.act nested t action with ⟨text | result, s₁⟩
    · rfl
    · exact ih _

theorem work_plain (t : Thread) (limit : Nat) : plain.work t limit = State.work t limit := by
  induction limit with
  | zero => rfl
  | succ limit ih =>
    funext work s
    cases work with
    | script script => rw [Hook.work, ih, runScript_plain, State.work]
    | release segments => rw [Hook.work, ih, State.work]; rfl

/-- **With nothing changed** a program is run as it is. -/
theorem run_plain (limit : Nat) (s : State) (steps : List (Option Step)) :
    plain.run limit s steps = s.run limit steps := by
  induction steps generalizing s with
  | nil => rfl
  | cons first rest ih =>
    have hstep : plain.step limit s first = s.step limit first := by
      cases first with
      | none => rfl
      | some step =>
        rw [Hook.step, work_plain]
        rfl
    simp only [run, State.run, hstep, ih]

end Hook

end ScopedMemory
