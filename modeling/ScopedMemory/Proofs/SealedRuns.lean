import ScopedMemory.Proofs.Confinement
import ScopedMemory.Proofs.Hooks
import ScopedMemory.Proofs.Sealing

/-! Runs that leave an array as it is.

Every operation but one kind leaves a sealed array sealed (`Operation.perform_sealed`). To say that
a run does without that kind, it is compared with the run in which it is refused (`Exhibit.run`):
they are the same run if it never comes to a refusal, in a step or in a callback. -/
namespace ScopedMemory

open State

section
variable {exhibit : Exhibit} {nested : Nested} {s s' : State} {t : Thread} {x : Segment}

/-! ### Operations -/

theorem Exhibit.named_other {segment : String} {name : Option String}
    (other : exhibit.rewraps s (.make (.wrapAgain segment) name) = false)
    (hx : s.segmentNamed segment = .ok x) : x.space ≠ .array exhibit.array := by
  simp only [Exhibit.rewraps, segmentNamed_ok hx] at other
  exact of_decide_eq_false other

/-- **What is gained** cannot write the array, unless it wraps the array again. -/
theorem State.Gains.sealed {operation : Operation} {gained : List Segment}
    (hg : Gains t s operation gained s') (other : exhibit.rewraps s operation = false)
    (h : State.Sealed exhibit s) : State.Sealed exhibit s' ∧ ∀ x ∈ gained, exhibit.Spared x := by
  cases hg with
  | beside hb => exact ⟨h.beside hb, List.forall_mem_nil _⟩
  | fresh d => exact ⟨h.newScope d, List.forall_mem_nil _⟩
  | @filled x z s' _ hx derived fills =>
    have hz : exhibit.Spared z := Exhibit.spared_of_partOf derived.partOf (h.kept x hx)
    rw [List.forall_mem_singleton]
    rcases fills with rfl | hwrote
    · exact ⟨h, hz⟩
    · exact ⟨h.wrote hz hwrote, hz⟩
  | @derived x y hx hderived =>
    rw [List.forall_mem_singleton]
    exact ⟨h, Exhibit.spared_of_partOf hderived.partOf (h.kept x hx)⟩
  | placed address size _ =>
    rw [List.forall_mem_singleton]
    exact ⟨h.newScope .global, Exhibit.spared_of_space rfl⟩
  | array c values =>
    rw [List.forall_mem_singleton]
    exact h.newArray c values
  | @again segment name y array hsame hy hb =>
    rw [List.forall_mem_singleton]
    rw [hsame] at other
    refine ⟨h.newScope .global, fun hspace => absurd ?_ (exhibit.named_other other hy)⟩
    rw [Segment.space, hb]
    exact hspace
  | allotted _ _ hallots =>
    rw [List.forall_mem_singleton]
    exact ⟨h.allots hallots, Exhibit.spared_of_space rfl⟩
  | bound _ hnative _ hb =>
    rw [List.forall_mem_singleton]
    exact ⟨h.beside hb, Exhibit.spared_of_space hnative⟩
  | @registered y cleanup s' _ hnative _ _ _ found hb =>
    rw [List.forall_mem_singleton]
    refine ⟨Sealed.beside ?_ hb, Exhibit.spared_of_space hnative⟩
    unfold gainCleanup
    refine h.note fun scope new hnew => ?_
    rcases List.mem_append.mp hnew with hold | hnew
    · exact .inl hold
    · obtain rfl := List.mem_singleton.mp hnew
      exact .inr fun z hz => h.kept z (found z hz)

theorem Does.sealed {operation : Operation} {f : Nested → Except Fault Answer × State}
    (hd : Does t s operation f) (hn : nested.Seals exhibit) (h : State.Sealed exhibit s)
    (other : exhibit.rewraps s operation = false) : State.Sealed exhibit (f nested).2 := by
  cases hd with
  | query => exact h
  | name hgains hrenames _ =>
    obtain ⟨hgained, hspared⟩ := hgains.sealed other h
    exact hrenames.sealed hn hgained hspared
  | @openArena name kind config arena s₁ hopen =>
    exact bindArena_sealed hn (openArena_sealed h hopen) name arena
  | @closeArena arena _ => exact closeArena_sealed hn h t arena
  | @dropArena name arena _ =>
    have herased : State.Sealed exhibit { s with handles.arenas := s.handles.arenas.erase name } :=
      h.handles h.segments h.carvers
    exact releaseArena_sealed hn herased t arena
  | @openMapping name mapping hkept => exact bindMapping_sealed hn h name hkept
  | @dropMapping name m _ =>
    have herased : State.Sealed exhibit
        { s with handles.mappings := s.handles.mappings.erase name } :=
      h.handles h.segments h.carvers
    exact releaseMapping_sealed hn herased m
  | @ask x request hx => exact ask_sealed hn h (h.kept x hx) request

/-- **Every operation** but a second wrapping leaves the array sealed. -/
theorem Operation.perform_sealed (hn : nested.Seals exhibit) (h : State.Sealed exhibit s)
    {operation : Operation} (other : exhibit.rewraps s operation = false) :
    State.Sealed exhibit (operation.perform nested t s).2 :=
  (operation.perform_does t s).sealed hn h other

/-! ### Runs without a second wrapping -/

namespace Exhibit

/-- Performs an operation, but refuses to wrap the array again. -/
def perform (exhibit : Exhibit) (nested : Nested) (t : Thread) (s : State) (operation : Operation) :
    Except Fault Answer × State :=
  if exhibit.rewraps s operation then (.error .badRequest, s) else operation.perform nested t s

/-- A second wrapping is refused, all else is done as ever. -/
def hook (exhibit : Exhibit) : Hook := { Hook.plain with perform := exhibit.perform }

/-- A run in which the array is not wrapped again. -/
abbrev run (exhibit : Exhibit) : Nat → State → List (Option Step) → List Reply × State :=
  exhibit.hook.run

theorem perform_sealed (hn : nested.Seals exhibit) (h : State.Sealed exhibit s)
    (operation : Operation) : State.Sealed exhibit (exhibit.perform nested t s operation).2 := by
  unfold perform
  split
  · exact h
  · rename_i hother
    exact operation.perform_sealed hn h (Bool.eq_false_iff.mpr hother)

/-- **An action** leaves the array sealed, if what it uses cannot write it. -/
theorem act_sealed (hn : nested.Seals exhibit) (h : State.Sealed exhibit s)
    (action : Action ArenaId Segment) (used : ∀ x ∈ action.segment?, exhibit.Spared x) :
    State.Sealed exhibit (exhibit.hook.act nested t action s).2 := by
  cases action with
  | close id =>
    simp only [Hook.act, State.act]
    split
    · exact h
    · exact closeArena_sealed hn h t _
  | alloc id size alignment =>
    simp only [Hook.act, State.act]
    split
    · exact h
    · split
      · rename_i hallocate
        obtain ⟨block, -, hallots⟩ := allocate_allots hallocate
        exact h.allots hallots
      · exact h
  | load x => exact ask_sealed hn h (used x rfl) .load
  | get x offset => exact h
  | panic text => exact h
  | perform operation => exact perform_sealed hn h operation

/-- **A script** leaves the array sealed, if what it uses cannot write it. -/
theorem runScript_sealed (hn : nested.Seals exhibit) {script : Script} (h : State.Sealed exhibit s)
    (used : ∀ x ∈ script.segments, exhibit.Spared x) :
    State.Sealed exhibit (exhibit.hook.runScript nested t script s).2 := by
  induction script generalizing s with
  | nil => exact h
  | cons action rest ih =>
    obtain ⟨hfirst, hrest⟩ := Script.forall_segments_cons.mp used
    have hacted := act_sealed (t := t) hn h action hfirst
    have hpasses : exhibit.hook.passes s = true := rfl
    rw [Hook.runScript, Watch.sight_of_passes hpasses]
    generalize exhibit.hook.act nested t action s = r at hacted
    obtain ⟨text | result, s₁⟩ := r
    · exact hacted
    · exact ih (hacted.emit _) hrest

/-- **Callbacks nested to every depth** leave the array sealed. -/
theorem work_seals (exhibit : Exhibit) (t : Thread) (limit : Nat) :
    (exhibit.hook.work t limit).Seals exhibit := by
  induction limit with
  | zero =>
    intro work s h _ _
    exact ⟨h.made, h.content, h.kept⟩
  | succ limit ih =>
    intro work s h segments used
    cases work with
    | script script => exact runScript_sealed ih h used
    | release released => exact releaseSegments_sealed ih h segments

theorem step_sealed (h : State.Sealed exhibit s) (limit : Nat) (step : Option Step) :
    State.Sealed exhibit (exhibit.hook.step limit s step).2 := by
  cases step with
  | none => exact h
  | some step =>
    have hclear : State.Sealed exhibit { s with events := [] } := ⟨h.made, h.content, h.kept⟩
    exact perform_sealed (exhibit.work_seals step.thread limit) hclear step.operation

/-- **A whole run** leaves the array sealed. -/
theorem run_sealed (h : State.Sealed exhibit s) (limit : Nat) (steps : List (Option Step)) :
    State.Sealed exhibit (exhibit.run limit s steps).2 := by
  induction steps generalizing s with
  | nil => exact h
  | cons first rest ih =>
    have hfirst := step_sealed h limit first
    simp only [Hook.run]
    split
    · exact hfirst
    · exact ih hfirst

end Exhibit

end

namespace State

/-- The array, as it stands now. -/
def exhibit (s : State) (array : Nat) : Exhibit := ⟨array, s.memory.read (.array array)⟩

/-- Nothing that is kept can write the array. -/
def OnlyRead (s : State) (array : Nat) : Prop :=
  ∀ x ∈ s.keptSegments, x.space = .array array → x.readOnly = true

instance (s : State) (array : Nat) : Decidable (s.OnlyRead array) :=
  inferInstanceAs (Decidable (∀ x ∈ s.keptSegments, x.space = .array array → x.readOnly = true))

/-- **Read-only stays read-only.** Let all that is kept over an array be read-only. No run changes
any of its bytes or comes to keep a segment that could, whatever its steps and callbacks do, as long
as the array is not wrapped once more. -/
theorem array_unchanged_while_read (s : State) (array : Nat) (made : array < s.arrays.size)
    (onlyRead : s.OnlyRead array) (limit : Nat) (steps : List (Option Step))
    (same : (s.exhibit array).run limit s steps = s.run limit steps) :
    (∀ address, (s.run limit steps).2.memory.read (.array array) address =
        s.memory.read (.array array) address) ∧
      (s.run limit steps).2.OnlyRead array := by
  have hsealed : Sealed (s.exhibit array) s := ⟨made, fun _ => rfl, onlyRead⟩
  have hrun := Exhibit.run_sealed hsealed limit steps
  rw [same] at hrun
  exact ⟨hrun.content, hrun.kept⟩

/-- A read-only segment is all that is left over an array. -/
def viewed : State := after .bump 4
  [some ⟨0, .make (.array .ubyte ([1, 2, 3, 4] : List UInt8)) (some "x")⟩,
    some ⟨0, .make (.readOnly "x") (some "r")⟩,
    some ⟨0, .drop (.segment "x")⟩]

/-- Writes to parts of the array, by a copy and from a cleanup too; and another array, which is
wrapped again and written. -/
def writesAround : List (Option Step) :=
  [some ⟨0, .make (.slice "r" (.sized 1 2)) (some "p")⟩,
    some ⟨0, .change (.fill "p" 9)⟩,
    some ⟨1, .openAllocator "k" .slicing "r"⟩,
    some ⟨1, .allocate (.allocator "k") (.text "ab") (some "t")⟩,
    some ⟨0, .make (.array .ubyte ([5, 6, 7, 8] : List UInt8)) (some "y")⟩,
    some ⟨0, .make (.wrapAgain "y") (some "w")⟩,
    some ⟨0, .change (.copyAll "r" "w")⟩,
    some ⟨0, .change (.copyAll "w" "r")⟩,
    some ⟨0, .openArena "a" .confined none⟩,
    some ⟨0, .allocate (.arena "a") (.bytes 8 8) (some "n")⟩,
    some ⟨0, .make (.rebind "n" none (.arena "a") (some ("late",
      [.perform (.make (.wrapAgain "y") (some "v")), .perform (.change (.fill "r" 9))])) none) none⟩,
    some ⟨0, .closeArena "a"⟩]

/-- The four writes to the array are refused, the others are done. -/
theorem array_unchanged_while_read_around :
    viewed.OnlyRead 0 ∧
      (viewed.exhibit 0).run 4 viewed writesAround = viewed.run 4 writesAround ∧
      (viewed.run 4 writesAround).1.map (·.outcome.isOk) =
        [true, false, true, false, true, true, true, false, true, true, true, true] ∧
      ∀ address, (viewed.run 4 writesAround).2.memory.read (.array 0) address =
        viewed.memory.read (.array 0) address := by
  have honly : viewed.OnlyRead 0 := by decide +kernel
  have hsame : (viewed.exhibit 0).run 4 viewed writesAround = viewed.run 4 writesAround := rfl
  refine ⟨honly, hsame, by decide +kernel, ?_⟩
  exact (array_unchanged_while_read viewed 0 (by decide +kernel) honly 4 writesAround hsame).1

/-- The array itself is wrapped again. -/
def rewrapping : List (Option Step) :=
  [some ⟨0, .make (.wrapAgain "r") (some "w")⟩, some ⟨0, .change (.fill "w" 255)⟩]

/-- A read-only segment gives out the array under it, and a segment over that can be written
through: it takes no token to change what could only be read. -/
theorem read_only_array_changes :
    (viewed.keptSegments.filter fun x => x.space = .array 0).map (·.readOnly) = [true] ∧
      (∀ step ∈ rewrapping, Step.tokenFree step = true) ∧
      viewed.memory.read (.array 0) 0 = 1 ∧
      (viewed.run 4 rewrapping).2.memory.read (.array 0) 0 = 255 := by
  decide +kernel

end State

end ScopedMemory
