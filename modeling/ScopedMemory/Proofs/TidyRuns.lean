import ScopedMemory.Proofs.Performing

/-! Runs are tidy.

Callbacks perform operations, which run callbacks; the induction is on how deep they may nest
(`work_tame`). Between the operations of a run every scope is open or has been released (`Rests`).
-/
namespace ScopedMemory

namespace State

section
variable {nested : Nested} {t : Thread}

/-! ### Callbacks -/

theorem act_tidy (hn : nested.Tame) (action : Action ArenaId Segment) (s : State) :
    Tidy s (s.act nested t action).2 := by
  cases action with
  | close id =>
    simp only [act]
    split
    · exact .refl s
    · exact closeArena_tidy hn _
  | alloc id size alignment =>
    simp only [act]
    split
    · exact .refl s
    · rename_i arena harena
      split
      · rename_i x s' hallocate
        obtain ⟨block, -, hallots⟩ := allocate_allots hallocate
        exact (hallots.grows (keepsScope_of_arena (List.mem_of_find?_eq_some harena))).tidy
      · exact .refl s
  | load x => exact ask_tidy hn x .load s
  | get x offset =>
    simp only [act]
    split
    · exact .refl s
    · exact .refl s
  | panic text => exact .refl s
  | perform operation => exact operation.perform_tidy hn t s

theorem runScript_tidy (hn : nested.Tame) (script : Script) (s : State) :
    Tidy s (s.runScript nested t script).2 := by
  induction script generalizing s with
  | nil => exact .refl s
  | cons action rest ih =>
    have hfirst := act_tidy (t := t) hn action s
    rw [runScript]
    split
    · rename_i heq
      rw [heq] at hfirst
      exact hfirst
    · rename_i result s' heq
      rw [heq] at hfirst
      have hemit : Beside s' (s'.emit (.acted action.name result)) := ⟨_, _, _, _, rfl⟩
      exact hfirst.trans ((Grows.of_beside hemit).tidy.trans (ih _))

/-- What goes beyond the limit aborts the session. -/
theorem abort_neat (segments : List Segment) (s : State) :
    Neat segments s { s with aborted := true } := fun hs =>
  ⟨Alike.leads (.of_eq rfl rfl rfl) hs, rfl,
    fun _ => rfl, fun _ => .inl rfl⟩

/-- **Callbacks are tidy** to every depth. -/
theorem work_tame (t : Thread) (limit : Nat) : (work t limit).Tame := by
  induction limit with
  | zero => exact fun work s => abort_neat work.segments s
  | succ limit ih =>
    intro work s
    cases work with
    | script script => exact runScript_tidy ih script s
    | release segments => exact releaseSegments_neat ih segments s

end

/-! ### Runs -/

theorem step_tidy (limit : Nat) (s : State) (step : Option Step) : Tidy s (s.step limit step).2 := by
  cases step with
  | none => exact .refl s
  | some step =>
    have hclear : Beside s { s with events := [] } := ⟨_, _, _, _, rfl⟩
    exact (Grows.of_beside hclear).tidy.trans
      (step.operation.perform_tidy (work_tame step.thread limit) step.thread _)

/-- Whatever steps keep, runs keep. -/
theorem run_tidy (limit : Nat) (s : State) (steps : List (Option Step)) :
    Tidy s (s.run limit steps).2 := by
  induction steps generalizing s with
  | nil => exact .refl s
  | cons first rest ih =>
    have hfirst := step_tidy limit s first
    simp only [run]
    split
    · exact hfirst
    · exact hfirst.trans (ih _)

/-- The state after a program. -/
def after (system : System) (limit : Nat) (steps : List (Option Step)) : State :=
  ((initial system).run limit steps).2

theorem initial_sound (system : System) : Sound (initial system) where
  unopened id hid := by
    have hne : processScope ≠ id := Nat.ne_of_lt hid
    simp [history, initial, hne]
  phases id := by
    by_cases hid : id = processScope
    · subst hid
      exact .inr ⟨rfl, [], rfl, fun _ h => absurd h List.not_mem_nil, rfl, rfl⟩
    · left
      rw [scope_of_size_le]
      exact Nat.pos_of_ne_zero hid
  lawful := by
    intro before id deed later heq
    rcases before with _ | ⟨first, before⟩
    · cases heq
      trivial
    · simp [initial] at heq

/-- Between operations, every scope is open or has been released. -/
def Rests (s : State) : Prop := ∀ id < s.scopes.size, s.Open id ∨ s.Released id

theorem Rests.course {s s' : State} (hr : Rests s) (h : Course (fun _ => False) s s') : Rests s' := by
  intro id hid
  by_cases hclosed : id < s.scopes.size ∧ (s.scope id).phase = .closed
  · have hreleased := (hr id hclosed.1).resolve_left fun ho => ho.not_closed hclosed.2
    exact .inr (hreleased.untouched (h.ended id hclosed.1 not_false hclosed.2))
  · exact h.settled id hid not_false hclosed

theorem after_settling (system : System) (limit : Nat) (steps : List (Option Step)) :
    Settling [] (initial system) (after system limit steps) :=
  run_tidy limit (initial system) steps (initial_sound system)

end State

end ScopedMemory
