import ScopedMemory.Proofs.Accesses
import ScopedMemory.Proofs.Operating

/-! Runs that are watched.

A watched run is seen wherever a step, a callback or an action of a callback begins or ends, and
wherever a thread is inside of scopes to read or write memory. A state that does not pass sends it
astray. Every state that is seen is one that moves have reached, so a watch that passes those sees
the run as it is (`run_watched`). -/
namespace ScopedMemory

namespace Watch

/-- Performs an operation; reading and writing is done from inside of the scopes. -/
def perform (watch : Watch) (nested : Nested) (t : Thread) (s : State) :
    Operation → Except Fault Answer × State
  | .query q => watch.query t q s
  | .change c =>
    let (result, s) := watch.change t c s
    (result.map fun _ => .nothing, s)
  | .make (.fromAddress segment layout position) name =>
    match watch.atAddress t segment layout position s with
    | (.error e, s) => (.error e, s)
    | (.ok x, s) => (.ok (.segment x), s.bindSegment nested t name x)
  | operation => operation.perform nested t s

/-- All that reads or writes memory does it from inside of the scopes. -/
def hook (watch : Watch) : Hook where
  toWatch := watch
  perform := watch.perform
  get t x offset := watch.visit t (.value x State.byteLayout offset)

/-- Callbacks that are watched. -/
abbrev work (watch : Watch) : Thread → Nat → Nested := watch.hook.work

/-- A run that is watched. -/
abbrev run (watch : Watch) : Nat → State → List (Option Step) → List Reply × State := watch.hook.run

end Watch

namespace State

section
variable {origin s s' : State} {nested other : Nested} {watch : Watch} {t : Thread} {x : Segment}

theorem Watched.hook_passes (hw : Watched origin watch) (hr : Reached origin s) :
    watch.hook.passes s = true := hw.passes hr

/-! ### Operations and actions -/

/-- **An operation** comes to the same when it is watched. -/
theorem perform_watched (hw : Watched origin watch) (hr : Reached origin s) (nested : Nested)
    (operation : Operation) :
    watch.hook.perform nested t s operation = operation.perform nested t s := by
  show watch.perform nested t s operation = operation.perform nested t s
  cases operation with
  | query q => exact query_eq hw hr q
  | change c =>
    rw [c.perform_eq_inPlace nested t s, Watch.perform, change_eq hw hr c]
  | make m name =>
    cases m with
    | fromAddress segment layout position =>
      rw [Watch.perform, atAddress_eq hw hr, Operation.perform]
      cases (Making.fromAddress segment layout position).make t s with
      | error e => rfl
      | ok made => rfl
    | _ => rfl
  | _ => rfl

theorem get_watched (hw : Watched origin watch) (hr : Reached origin s) (hx : x ∈ s.keptSegments)
    (offset : Word) (nested : Nested) :
    watch.hook.act nested t (.get x offset) s = s.act nested t (.get x offset) := by
  have hvisit : watch.visit t (.value x byteLayout offset) s =
      (Visit.value x byteLayout offset).unentered t s :=
    visit_eq hw (fun gate hgate => List.mem_singleton.mp hgate ▸ hw.lt_size hr hx) hr
  have hget : watch.hook.get t x offset s = (Visit.value x byteLayout offset).unentered t s := hvisit
  rw [Hook.act, hget, Visit.value_unentered, act]
  cases s.get t x byteLayout offset with
  | error e => rfl
  | ok value => rfl

/-- **An action** is done by moves, if what it uses stays. -/
theorem act_goes (hc : Company t origin nested other) (hw : Watched origin watch)
    (hr : Reached origin s) (action : Action ArenaId Segment)
    (used : ∀ x ∈ action.segment?, s.Pinned x) :
    Goes s (s.act nested t action).2 ∧ watch.hook.act other t action s = s.act nested t action := by
  cases action with
  | close id =>
    show Goes s (s.act nested t (.close id)).2 ∧ s.act other t (.close id) = s.act nested t (.close id)
    simp only [act]
    cases s.arena? id with
    | none => exact ⟨.refl hr.sound, rfl⟩
    | some arena =>
      obtain ⟨hclosed, hagree⟩ := closeArena_goes hc hr arena
      simp only [hagree]
      exact ⟨hclosed, trivial⟩
  | alloc id size alignment =>
    refine ⟨?_, rfl⟩
    simp only [act]
    split
    · exact .refl hr.sound
    · rename_i arena harena
      split
      · rename_i x s₁ hallocate
        obtain ⟨block, -, hallots⟩ := allocate_allots hallocate
        exact (hallots.grows (keepsScope_of_arena (List.mem_of_find?_eq_some harena))).goes hr.sound
      · exact .refl hr.sound
  | load x =>
    obtain ⟨hasked, hagree⟩ := ask_goes hc hr (used x rfl).kept .load
    refine ⟨hasked, ?_⟩
    show s.act other t (.load x) = s.act nested t (.load x)
    simp only [act, hagree]
  | get x offset =>
    refine ⟨?_, get_watched hw hr (used x rfl).kept offset other⟩
    simp only [act]
    split
    · exact .refl hr.sound
    · exact .refl hr.sound
  | panic text => exact ⟨.refl hr.sound, rfl⟩
  | perform operation =>
    obtain ⟨hperformed, hagree⟩ := operation.perform_goes hc hr
    refine ⟨hperformed, ?_⟩
    simp only [Hook.act, perform_watched hw hr, act, hagree]

/-! ### Callbacks -/

/-- **A script** is run by moves, if what it uses stays. -/
theorem runScript_goes (hc : Company t origin nested other) (hw : Watched origin watch)
    {script : Script} (hr : Reached origin s) (used : ∀ x ∈ script.segments, s.Pinned x) :
    Goes s (s.runScript nested t script).2 ∧
      watch.hook.runScript other t script s = s.runScript nested t script := by
  induction script generalizing s with
  | nil => exact ⟨.refl hr.sound, Watch.sight_of_passes (hw.hook_passes hr) _⟩
  | cons action rest ih =>
    obtain ⟨hfirst, hrest⟩ := Script.forall_segments_cons.mp used
    obtain ⟨hacted, hagree⟩ := act_goes hc hw hr action hfirst
    rw [Hook.runScript, Watch.sight_of_passes (hw.hook_passes hr), hagree, runScript]
    generalize s.act nested t action = r at hacted
    obtain ⟨text | result, s₁⟩ := r
    · exact ⟨hacted, Watch.sight_of_passes (hw.hook_passes (hr.goes hacted)) _⟩
    · have hemit : Goes s₁ (s₁.emit (.acted action.name result)) :=
        Beside.goes ⟨_, _, _, _, rfl⟩ hacted.sound
      have hgoes := hacted.trans hemit
      obtain ⟨hran, hagree'⟩ := ih (hr.goes hgoes) fun x hx => (hrest x hx).goes hgoes
      exact ⟨hgoes.trans hran, hagree'⟩

theorem abort_goes (hs : Sound s) : Goes s { s with aborted := true } :=
  have hleads : Course (fun _ => False) s { s with aborted := true } :=
    Alike.leads (.of_eq rfl rfl rfl) hs
  have hcalm : Calm s { s with aborted := true } :=
    .of_scopes rfl rfl rfl (fun _ hx => .inl hx) fun _ ha => .inl ha
  ⟨⟨⟨⟨.single (.calm hcalm), List.prefix_rfl, fun _ => rfl⟩, hleads.sound, rfl, rfl,
    .of_mappings rfl⟩, .inl rfl⟩, rfl⟩

/-- **Callbacks nested to every depth** make moves, and come to the same when they are watched. -/
theorem work_company (hw : Watched origin watch) (t : Thread) (limit : Nat) :
    Company t origin (work t limit) (watch.work t limit) := by
  induction limit with
  | zero =>
    exact ⟨hw.kept, hw.accounts, ⟨0, rfl⟩, fun hready => abort_goes hready.sound,
      fun _ => rfl⟩
  | succ limit ih =>
    have hboth : ∀ {work s}, Ready origin work s → Goes s (State.work t (limit + 1) work s).2 ∧
        watch.work t (limit + 1) work s = State.work t (limit + 1) work s := by
      intro work s hready
      cases work with
      | script script => exact runScript_goes ih hw hready.toReached hready.used
      | release segments =>
        obtain ⟨hreleased, hagree⟩ := releaseSegments_goes ih hready
        refine ⟨hreleased, ?_⟩
        rw [Watch.work, Hook.work, Watch.sight_of_passes (hw.hook_passes hready.toReached), hagree]
        rfl
    exact ⟨hw.kept, hw.accounts, ⟨limit + 1, rfl⟩, fun hready => (hboth hready).1,
      fun hready => (hboth hready).2⟩

/-! ### Runs -/

/-- **One step** makes moves, and comes to the same when it is watched. -/
theorem step_watched (hw : Watched origin watch) (hr : Reached origin s) (limit : Nat)
    (step : Option Step) :
    Goes s (s.step limit step).2 ∧ watch.hook.step limit s step = s.step limit step := by
  cases step with
  | none => exact ⟨.refl hr.sound, rfl⟩
  | some step =>
    obtain ⟨t, operation⟩ := step
    have hclear : Goes s { s with events := [] } := Beside.goes ⟨_, _, _, _, rfl⟩ hr.sound
    have hr' := hr.goes hclear
    obtain ⟨hperformed, hagree⟩ := operation.perform_goes (work_company hw t limit) hr'
    refine ⟨hclear.trans hperformed, ?_⟩
    rw [Hook.step, State.step]
    dsimp only
    rw [Watch.see_of_passes (hw.hook_passes hr'), perform_watched hw hr', hagree,
      Watch.see_of_passes (hw.hook_passes (hr'.goes hperformed))]

/-- **A whole run** makes moves, and comes to the same when it is watched. -/
theorem run_watched (hw : Watched origin watch) (hr : Reached origin s) (limit : Nat)
    (steps : List (Option Step)) :
    Goes s (s.run limit steps).2 ∧ watch.run limit s steps = s.run limit steps := by
  induction steps generalizing s with
  | nil => exact ⟨.refl hr.sound, rfl⟩
  | cons first rest ih =>
    obtain ⟨hfirst, hagree⟩ := step_watched hw hr limit first
    obtain ⟨hrest, hagree'⟩ := ih (hr.goes hfirst)
    simp only [Hook.run, run, hagree, hagree']
    split
    · exact ⟨hfirst, trivial⟩
    · exact ⟨hfirst.trans hrest, trivial⟩

/-! ### The start of a session -/

theorem initial_keptLast (system : System) : KeptLast (initial system) := by
  intro id hid _
  rcases keepsScope_iff.mp hid with rfl | ⟨a, ha, -⟩ | ⟨x, hx, -⟩
  · rfl
  · cases ha
  · cases hx

theorem initial_accounts (system : System) : Accounts (initial system) where
  proper := ⟨List.nodup_nil, fun _ h => by cases h⟩
  depth t id := by
    split <;> rfl
  active id := by
    by_cases hid : id = processScope
    · subst hid
      rfl
    · rw [scope_of_size_le (Nat.pos_of_ne_zero hid)]
      rfl
  known guard hguard := by cases hguard

theorem initial_reached (system : System) : Reached (initial system) (initial system) :=
  ⟨initial_sound system, .refl⟩

/-- Every run is made of moves, from the start on. -/
theorem after_goes (system : System) (limit : Nat) (steps : List (Option Step)) :
    Goes (initial system) (after system limit steps) :=
  have hw : Watched (initial system) .blind :=
    ⟨initial_keptLast system, initial_accounts system, fun _ => rfl⟩
  (run_watched hw (initial_reached system) limit steps).1

/-- Moves lead from the start to where every run ends. -/
theorem after_reached (system : System) (limit : Nat) (steps : List (Option Step)) :
    Reached (initial system) (after system limit steps) :=
  (initial_reached system).goes (after_goes system limit steps)

end

end State

end ScopedMemory
