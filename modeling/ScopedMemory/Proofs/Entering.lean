import ScopedMemory.Proofs.Atomicity
import ScopedMemory.Proofs.Hooks
import ScopedMemory.Proofs.Orderly

/-! Accesses enter and leave.

An access enters the scopes of the segments it works on, one after the other, works while it is
inside of all of them, and leaves them in the opposite order, however the work ends (`Watch.visit`).
That comes to the same as to look at each scope and then do the work (`visit_eq`), so that an access
leaves no trace of having been inside. The states in between can be watched. -/
namespace ScopedMemory

open InPlace

/-! ### Visits -/

/-- A scope to be entered, and what is checked inside. -/
structure Gate where
  scope : ScopeId
  fits : Except AccessError Unit

/-- The scopes that an access enters, and what it does to memory inside of them all. -/
structure Visit (α : Type) where
  gates : List Gate
  work : InPlace Memory Fault α

/-- The gate of a segment, for part of it. -/
def Segment.gate (x : Segment) (offset length alignment : Word) (mode : AccessMode) : Gate where
  scope := x.scope
  fits := do
    x.checkBounds offset length
    x.checkAlignment offset alignment
    x.checkMode mode

namespace Gate

/-- The thread may go in. -/
def check (t : Thread) (s : State) (gate : Gate) : Except AccessError Unit := do
  s.checkEntry t gate.scope
  gate.fits

/-- The thread may go in everywhere. -/
def checkAll (t : Thread) (s : State) : List Gate → Except AccessError Unit
  | [] => .ok ()
  | gate :: rest => do
    gate.check t s
    checkAll t s rest

end Gate

/-- Steps over memory alone. -/
def State.onMemory {α : Type} (work : InPlace Memory Fault α) : InPlace State Fault α :=
  fun s => ((work s.memory).1, { s with memory := (work s.memory).2 })

namespace Watch
variable {α : Type}

/-- Works inside of scopes. Every state is seen in which the thread has entered one more of them or
is about to leave one. -/
def inside (watch : Watch) (t : Thread) (work : InPlace Memory Fault α) :
    List Gate → InPlace State Fault α
  | [] => State.onMemory work
  | gate :: rest => fun s => match s.enter t gate.scope with
    | .error e => (.error (.access e), s)
    | .ok s => watch.see s <| match access gate.fits with
      | .error e => (.error e, s.letOut t gate.scope)
      | .ok () =>
        let (result, s) := watch.inside t work rest s
        watch.see s (result, s.letOut t gate.scope)

def visit (watch : Watch) (t : Thread) (v : Visit α) : InPlace State Fault α :=
  watch.inside t v.work v.gates

/-- Visits one after the other, up to the first that fails. -/
def visitAll (watch : Watch) (t : Thread) : List (Visit Unit) → InPlace State Fault Unit
  | [] => pure ()
  | v :: rest => do
    watch.visit t v
    watch.visitAll t rest

end Watch

/-- A visit by one who looks at the scopes and enters none. -/
def Visit.unentered {α : Type} (t : Thread) (v : Visit α) : InPlace State Fault α :=
  fun s => match access (Gate.checkAll t s v.gates) with
    | .error e => (.error e, s)
    | .ok _ => State.onMemory v.work s

def Visit.unenteredAll (t : Thread) : List (Visit Unit) → InPlace State Fault Unit
  | [] => pure ()
  | v :: rest => do
    v.unentered t
    Visit.unenteredAll t rest

namespace State

/-- A watch that lets every state pass that is reached from one whose accounts are in order. -/
structure Watched (origin : State) (watch : Watch) : Prop where
  kept : KeptLast origin
  accounts : Accounts origin
  passes : ∀ {s}, Reached origin s → watch.passes s = true

section
variable {origin s s' : State} {t u : Thread} {id other : ScopeId} {watch : Watch} {α β : Type}

/-! ### Entering and leaving -/

theorem checkEntry_congr (discipline : (s'.scope id).discipline = (s.scope id).discipline)
    (phase : (s'.scope id).phase = (s.scope id).phase) : s'.checkEntry t id = s.checkEntry t id := by
  unfold checkEntry checkAlive checkOwner isAlive Scope.isAlive
  rw [discipline, phase]

theorem checkEntry_hold : (s.hold u other).checkEntry t id = s.checkEntry t id := by
  rw [hold_eq]
  exact checkEntry_congr (s.discipline_recount other id _ _ _) (s.phase_recount other id _ _ _)

theorem checkAll_hold (gates : List Gate) :
    Gate.checkAll t (s.hold u other) gates = Gate.checkAll t s gates := by
  induction gates with
  | nil => rfl
  | cons gate rest ih => rw [Gate.checkAll, Gate.checkAll, Gate.check, Gate.check, checkEntry_hold, ih]

theorem enter_of_error {e : AccessError} (h : s.checkEntry t id = .error e) :
    s.enter t id = .error e := by
  unfold enter
  rw [h]
  rfl

theorem enter_of_ok {u : Unit} (h : s.checkEntry t id = .ok u) : s.enter t id = .ok (s.hold t id) := by
  unfold enter
  rw [h]
  rfl

/-- Memory does not depend on who is inside. -/
theorem onMemory_hold (work : InPlace Memory Fault α) :
    onMemory work (s.hold t id) = ((onMemory work s).1, (onMemory work s).2.hold t id) := by
  rw [hold_eq, hold_eq]
  rfl

/-- **A thread that leaves at once** leaves everything as it was. -/
theorem letOut_hold (h : Accounts s) (t : Thread) (id : ScopeId) : (s.hold t id).letOut t id = s := by
  have hdiscipline : ((s.hold t id).scope id).discipline = (s.scope id).discipline := by
    rw [hold_eq, discipline_recount]
  obtain ⟨hguards, hholds⟩ := h.restore rfl rfl hdiscipline
  have hscopes : ((s.hold t id).letOut t id).scopes = s.scopes := by
    rw [hold_eq] at hdiscipline ⊢
    rw [letOut_eq]
    show (if (State.scope _ id).discipline = .shared then Array.modify (if _ then _ else _) id _
      else (if _ then _ else _)) = s.scopes
    rw [hdiscipline]
    split
    · refine Array.ext (by rw [Array.size_modify, Array.size_modify]) fun i _ _ => ?_
      rw [Array.getElem_modify, Array.getElem_modify]
      split <;> rfl
    · rfl
  calc (s.hold t id).letOut t id
      = { s with
          guards := ((s.hold t id).letOut t id).guards
          holds := ((s.hold t id).letOut t id).holds
          scopes := ((s.hold t id).letOut t id).scopes } := by
        rw [letOut_eq, hold_eq]
        rfl
    _ = s := by rw [hguards, hholds, hscopes]

/-! ### Nobody is left inside -/

/-- **Working inside of scopes** comes to looking at them and working. -/
theorem inside_eq (hw : Watched origin watch) (work : InPlace Memory Fault α) {gates : List Gate}
    (known : ∀ gate ∈ gates, gate.scope < s.scopes.size) (hr : Reached origin s) :
    watch.inside t work gates s =
      match access (Gate.checkAll t s gates) with
      | .error e => (.error e, s)
      | .ok _ => onMemory work s := by
  induction gates generalizing s with
  | nil => rfl
  | cons gate rest ih =>
    have hid := known gate (List.mem_cons_self ..)
    have haccounts := hr.path.accounts hw.accounts
    rw [Watch.inside, Gate.checkAll, Gate.check]
    beta_reduce
    cases hentry : s.checkEntry t gate.scope with
    | error e =>
      rw [enter_of_error hentry]
      rfl
    | ok _ =>
      rw [enter_of_ok hentry]
      have hentered := hr.enter hentry hid
      refine (Watch.see_of_passes (hw.passes hentered) _).trans ?_
      cases gate.fits with
      | error e => exact Prod.ext rfl (letOut_hold haccounts t gate.scope)
      | ok _ =>
        have hknown : ∀ other ∈ rest, other.scope < (s.hold t gate.scope).scopes.size := by
          intro other hother
          rw [hold_eq, size_recount]
          exact known other (List.mem_cons_of_mem _ hother)
        have hrest := ih hknown hentered
        rw [checkAll_hold, onMemory_hold] at hrest
        show (match watch.inside t work rest (s.hold t gate.scope) with
          | (result, s) => watch.see s (result, s.letOut t gate.scope)) =
          match access (Gate.checkAll t s rest) with
          | .error e => (.error e, s)
          | .ok _ => onMemory work s
        rw [hrest]
        cases Gate.checkAll t s rest with
        | error e =>
          refine (Watch.see_of_passes (hw.passes hentered) _).trans ?_
          exact Prod.ext rfl (letOut_hold haccounts t gate.scope)
        | ok _ =>
          have hworked : Reached origin ((onMemory work s).2.hold t gate.scope) := by
            have h : Reached origin (onMemory work (s.hold t gate.scope)).2 := hentered.store _
            rwa [onMemory_hold] at h
          have hstored : Reached origin (onMemory work s).2 := hr.store _
          refine (Watch.see_of_passes (hw.passes hworked) _).trans ?_
          exact Prod.ext rfl (letOut_hold (hstored.path.accounts hw.accounts) t _)

theorem visit_eq (hw : Watched origin watch) {v : Visit α}
    (known : ∀ gate ∈ v.gates, gate.scope < s.scopes.size) (hr : Reached origin s) :
    watch.visit t v s = v.unentered t s :=
  inside_eq hw v.work known hr

/-- A visit leaves all but memory as it is. -/
theorem unentered_memory (v : Visit α) (t : Thread) (s : State) :
    ∃ memory, (v.unentered t s).2 = { s with memory } := by
  rw [Visit.unentered]
  cases access (Gate.checkAll t s v.gates) with
  | error e => exact ⟨s.memory, rfl⟩
  | ok _ => exact ⟨_, rfl⟩

theorem visitAll_eq (hw : Watched origin watch) {visits : List (Visit Unit)}
    (known : ∀ v ∈ visits, ∀ gate ∈ v.gates, gate.scope < s.scopes.size) (hr : Reached origin s) :
    watch.visitAll t visits s = Visit.unenteredAll t visits s := by
  induction visits generalizing s with
  | nil => rfl
  | cons v rest ih =>
    have hvisit : watch.visit t v s = v.unentered t s :=
      visit_eq hw (known v (List.mem_cons_self ..)) hr
    rw [Watch.visitAll, Visit.unenteredAll]
    obtain ⟨memory, hmemory⟩ := unentered_memory v t s
    rcases hrun : v.unentered t s with ⟨e | a, s'⟩
    · rw [bind_of_error hrun, bind_of_error (hvisit.trans hrun)]
    · rw [hrun] at hmemory
      obtain rfl : s' = { s with memory } := hmemory
      rw [bind_of_ok hrun, bind_of_ok (hvisit.trans hrun)]
      exact ih (fun v hv => known v (List.mem_cons_of_mem _ hv)) (hr.store memory)

end

end State

end ScopedMemory
