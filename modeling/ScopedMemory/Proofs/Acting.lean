import ScopedMemory.Proofs.Acts

/-! Operations are acts of their thread.

Each function is a sequence of acts of the thread that it is called on, as long as the callbacks
that it runs are (`Nested.ActsFor`); those are, to every depth, because they call the same functions
on the same thread. -/
namespace ScopedMemory

/-- What nested callbacks do, they do on this thread. -/
def Nested.ActsFor (nested : Nested) (t : Thread) : Prop :=
  ∀ work s, State.Acts t s (nested work s).2

namespace State

/-! ### The end of a scope -/

section
variable {nested : Nested} {s s' : State} {t : Thread} {id : ScopeId}

/-- Before it acts, a thread does something that touches no scope. -/
theorem Acts.after {s'' : State} (h : Acts t s' s'') (aside : Aside s s') : Acts t s s'' :=
  aside.acts.trans h

theorem outgoing_acts (s : State) (outgoing : List Segment) : Acts t s { s with outgoing } :=
  Aside.acts (.of_eq rfl rfl rfl)

/-- Something is written down about a closed scope that stays as it is. -/
theorem Act.record (closed : (s.scope id).phase = .closed) (deed : Deed) :
    Act t s (s.record id deed) := by
  have h : Act t s ((s.modifyScope id fun scope => scope).record id deed) :=
    .release closed (fun _ => rfl) fun _ => rfl
  rwa [modifyScope_self] at h

theorem freeBlock_acts (closed : (s.scope id).phase = .closed) (block : Block) :
    Acts t s (freeBlock id s block) := by
  have hfreed : Acts t s ((s.modifyScope id fun scope =>
      { scope with blocks := scope.blocks.tail }).record id (.freed block)) :=
    .single (.release closed (fun _ => rfl) fun _ => rfl)
  unfold freeBlock
  split
  · exact hfreed
  · exact hfreed.trans (Aside.acts (.of_eq rfl rfl rfl))

theorem freeBlocks_acts (hid : id < s.scopes.size) (closed : (s.scope id).phase = .closed)
    (blocks : List Block) : Acts t s (blocks.foldl (freeBlock id) s) := by
  induction blocks generalizing s with
  | nil => exact .refl
  | cons block rest ih =>
    have hfirst : Acts t s (freeBlock id s block) := freeBlock_acts closed block
    obtain ⟨hid', hclosed⟩ := hfirst.closed hid closed
    exact hfirst.trans (ih hid' hclosed)

theorem beginCleanup_acts (hid : id < s.scopes.size) (closed : (s.scope id).phase = .closed)
    (cleanup : Cleanup) : Acts t s (s.beginCleanup t id cleanup) := by
  obtain ⟨event, heq⟩ := beginCleanup_eq s t id cleanup
  have hopened : Acts t s (s.newScope .global).2 := (aside_newScope s .global).acts
  rw [heq]
  have htaken : Acts t s (((s.newScope .global).2.modifyScope id fun scope =>
      { scope with cleanups := scope.cleanups.tail }).record id
      (.began cleanup ⟨cleanup.address, 0, .native, false, s.scopes.size⟩)) :=
    hopened.tail (.release (hopened.closed hid closed).2 (fun _ => rfl) fun _ => rfl)
  exact htaken.tail (.aside (.of_eq rfl rfl rfl))

theorem runCleanup_acts (hn : nested.ActsFor t) (hid : id < s.scopes.size)
    (closed : (s.scope id).phase = .closed) (cleanup : Cleanup) :
    Acts t s (s.runCleanup nested t id cleanup).2 := by
  have hbegun := beginCleanup_acts (t := t) hid closed cleanup
  rw [runCleanup_eq]
  generalize s.beginCleanup t id cleanup = b at hbegun ⊢
  have hcalled : Acts t s (nested (.script cleanup.script) (b.pin cleanup.script.segments)).2 :=
    (hbegun.trans (outgoing_acts b _)).trans (hn _ _)
  generalize (nested (.script cleanup.script) (b.pin cleanup.script.segments)).2 = s₁ at hcalled ⊢
  have hreleased : Acts t s (nested (.release cleanup.script.segments)
      { s₁ with outgoing := b.outgoing }).2 :=
    (hcalled.trans (outgoing_acts s₁ _)).trans (hn _ _)
  exact hreleased.tail (.record (hreleased.closed hid closed).2 _)

theorem runCleanups_acts (hn : nested.ActsFor t) (hid : id < s.scopes.size)
    (closed : (s.scope id).phase = .closed) (cleanups : List Cleanup) :
    Acts t s (s.runCleanups nested t id cleanups).2 := by
  induction cleanups generalizing s with
  | nil => exact .refl
  | cons cleanup rest ih =>
    have hfirst : Acts t s (s.pastCleanup nested t id cleanup) :=
      (runCleanup_acts hn hid closed cleanup).trans
        (pastCleanup_beside nested s t id cleanup).aside.acts
    obtain ⟨hid', hclosed⟩ := hfirst.closed hid closed
    exact hfirst.trans (ih hid' hclosed)

/-- Once a scope has ended, the rest releases what it has held. -/
theorem finish_acts (hn : nested.ActsFor t) (hid : id < s.scopes.size) (closer : Option Thread) :
    Acts t (s.endScope id closer) (s.finish nested t id closer).2 := by
  have hid' : id < (s.endScope id closer).scopes.size :=
    Nat.lt_of_lt_of_le hid (Nat.le_of_eq (size_modifyScope s id _).symm)
  have hclosed := phase_endScope s id closer
  have hran := runCleanups_acts hn hid' hclosed (s.scope id).cleanups
  obtain ⟨hid'', hclosed'⟩ := hran.closed hid' hclosed
  exact (hran.trans (freeBlocks_acts hid'' hclosed' _)).trans (log_beside _ _).aside.acts

/-! ### Closing and letting go -/

/-- A close, by an arena of which there is a handle, or was just before. -/
theorem closeScope_acts (hn : nested.ActsFor t) (aside : Aside s s') (held : 0 < s.arenasOf id) :
    Acts t s (s'.closeScope nested t id).2 := by
  rcases closeScope_cases nested s' t id with ⟨e, h⟩ | ⟨halive, hmay, h⟩
  · rw [h]
    exact aside.acts
  · have hid : id < s'.scopes.size := lt_size_of_phase (by rw [halive]; decide)
    rw [h]
    exact .head (.close aside held halive hmay) (finish_acts hn hid (some t))

theorem arenasOf_pos {arena : Arena} (h : arena ∈ s.handles.arenas.values) :
    0 < s.arenasOf arena.scope :=
  List.countP_pos_iff.mpr ⟨arena, h, beq_iff_eq.mpr rfl⟩

theorem closeArena_acts (hn : nested.ActsFor t) {arena : Arena}
    (held : arena ∈ s.handles.arenas.values) : Acts t s (s.closeArena nested t arena).2 := by
  have h := closeScope_acts hn (.refl s) (arenasOf_pos held)
  unfold closeArena
  generalize s.closeScope nested t arena.scope = closed at h
  obtain ⟨result, s'⟩ := closed
  dsimp only
  split
  · rcases result with e | (_ | text)
    · exact h
    · exact h
    · exact h
  · exact .refl

theorem releaseScope_acts (hn : nested.ActsFor t) (id : ScopeId) (s : State) :
    Acts t s (s.releaseScope nested t id) := by
  unfold releaseScope
  split
  · exact .refl
  · rename_i hunkept
    unfold expire
    dsimp only
    split
    · exact .refl
    · rename_i hopen
      have hended : Act t s (s.endScope id none) := .expire (Bool.eq_false_iff.mpr hunkept) hopen
      split
      · exact .single hended
      · exact .head hended (finish_acts hn (lt_size_of_phase hopen) none)

theorem releaseArena_acts (hn : nested.ActsFor t) (aside : Aside s s') {arena : Arena}
    (held : 0 < s.arenasOf arena.scope) : Acts t s (s'.releaseArena nested t arena) := by
  have hclose := closeScope_acts hn aside held
  unfold releaseArena
  refine .trans ?_ (releaseScope_acts hn arena.scope _)
  split
  · generalize s'.closeScope nested t arena.scope = closed at hclose
    obtain ⟨e | panic, s''⟩ := closed
    · exact hclose.trans (log_beside _ _).aside.acts
    · exact hclose
  · exact aside.acts

theorem releaseMapping_acts (hn : nested.ActsFor t) (m : MappingId) (s : State) :
    Acts t s (s.releaseMapping nested m) := by
  unfold releaseMapping
  split
  · exact .refl
  · split
    · exact .refl
    · exact Acts.after (hn _ _) (.of_eq rfl rfl rfl)

theorem releaseSegments_acts (hn : nested.ActsFor t) (segments : List Segment) (s : State) :
    Acts t s (s.releaseSegments nested t segments) := by
  induction segments generalizing s with
  | nil => exact .refl
  | cons x rest ih =>
    rw [releaseSegments]
    refine .trans ?_ (ih _)
    refine .trans ?_ (outgoing_acts _ _)
    refine .trans ?_ (releaseScope_acts hn x.scope _)
    refine .trans ?_ (outgoing_acts _ _)
    split
    · exact (outgoing_acts s _).trans (releaseMapping_acts hn _ _)
    · exact .refl

theorem askMapping_acts (hn : nested.ActsFor t) (m : MappingId) (request : Request)
    (address length : Word) (s : State) :
    Acts t s (s.askMapping nested m request address length).2 := by
  unfold askMapping
  split
  · exact .refl
  · exact Aside.acts (.of_eq rfl rfl rfl)
  · rename_i mapping _
    have hasked : Acts t s (nested (.script (mapping.scripts.get request))
        (s.emit (.requested mapping.name request address length))).2 :=
      Acts.after (hn _ _) (.of_eq rfl rfl rfl)
    dsimp only
    split
    · rename_i heq
      rwa [heq] at hasked
    · rename_i heq
      rwa [heq] at hasked

theorem hold_acts (s : State) (id : ScopeId) : Acts t s (s.hold t id) := by
  rw [hold_eq]
  exact (aside_recount s id _ _ _).acts

theorem letOut_acts (s : State) (id : ScopeId) : Acts t s (s.letOut t id) := by
  rw [letOut_eq]
  exact (aside_recount s id _ _ _).acts

theorem ask_acts (hn : nested.ActsFor t) (x : Segment) (request : Request) (s : State) :
    Acts t s (s.ask nested t x request).2 := by
  unfold ask
  split
  · rename_i m _
    cases hentry : s.checkEntry t x.scope with
    | error e =>
      rw [enter, hentry]
      exact .refl
    | ok u =>
      rw [enter, hentry]
      show Acts t s (releaseSegments nested t [x] _)
      refine .trans ?_ (releaseSegments_acts hn [x] _)
      refine .trans ?_ (outgoing_acts _ _)
      refine .trans ?_ (letOut_acts _ x.scope)
      refine .trans ?_ (askMapping_acts hn m request x.address x.size _)
      exact (hold_acts s x.scope).trans (outgoing_acts _ _)
  · exact .refl

/-! ### Names -/

theorem Renames.acts {gained : List Segment} {f : Nested → State} (h : Renames t s gained f)
    (hn : nested.ActsFor t) : Acts t s (f nested) := by
  obtain ⟨handles, lost, h⟩ := h
  exact Acts.after (releaseSegments_acts hn lost _) (.of_eq rfl rfl h.arenas)

theorem bindMapping_acts (hn : nested.ActsFor t) (name : String) (mapping : Mapping) (s : State) :
    Acts t s (s.bindMapping nested name mapping) := by
  have hput : Acts t s (s.withMapping name mapping) := Aside.acts (.of_eq rfl rfl rfl)
  unfold bindMapping
  dsimp only
  split
  · exact hput
  · exact hput.trans (releaseMapping_acts hn _ _)

/-- A new arena takes a name, and the one that had it goes. -/
theorem bindArena_acts (hn : nested.ActsFor t) (aside : Aside s s') {arena : Arena}
    (fresh : arena.scope = processScope ∨
      s.scopes.size ≤ arena.scope ∧ arena.scope < s'.scopes.size)
    (same : s'.handles = s.handles) (name : String) :
    Acts t s (s'.bindArena nested t name arena) := by
  have hput := aside.put fresh same name
  unfold bindArena
  dsimp only
  split
  · exact hput.acts
  · rename_i old hold
    rw [same] at hold
    exact releaseArena_acts hn hput (arenasOf_pos (Table.mem_values_of_find? hold))

theorem openArena_acts (hn : nested.ActsFor t) {kind : ScopeKind} {config : Option ArenaConfig}
    {arena : Arena} (h : openArena t s kind config = .ok (arena, s')) (name : String) :
    Acts t s (s'.bindArena nested t name arena) := by
  rcases openArena_ok h with ⟨hprocess, hbeside⟩ | ⟨d, s₁, hbefore, hscope, hafter⟩
  · have hsame : s'.handles = s.handles := by
      obtain ⟨_, _, _, _, rfl⟩ := hbeside
      rfl
    exact bindArena_acts hn hbeside.aside (.inl hprocess) hsame name
  · have haside := (hbefore.aside.trans (aside_newScope s₁ d)).trans hafter.aside
    obtain ⟨_, _, _, _, rfl⟩ := hbefore
    obtain ⟨_, _, _, _, rfl⟩ := hafter
    refine bindArena_acts hn haside (.inr ⟨Nat.le_of_eq hscope.symm, ?_⟩) rfl name
    rw [hscope]
    exact Nat.lt_of_lt_of_le (Nat.lt_succ_self _) (Nat.le_of_eq (Array.size_push _).symm)

/-! ### What scopes take on -/

theorem Allots.acts {block : Block} (h : Allots s id block s')
    (accessible : (s.scope id).discipline.accessibleBy t = true) : Acts t s s' := by
  obtain ⟨memory, events, rfl, -⟩ := h.made
  exact .head (.gainBlock h.alive accessible block) (Aside.acts (.of_eq rfl rfl rfl))

theorem Writes.acts {x : Segment} (h : Writes x s s') : Acts t s s' := by
  obtain ⟨memory, rfl, -⟩ := h
  exact Aside.acts (.of_eq rfl rfl rfl)

/-- **What is gained** is gained by acts of the thread. -/
theorem Gains.acts {operation : Operation} {gained : List Segment}
    (h : Gains t s operation gained s') : Acts t s s' := by
  cases h with
  | beside hb => exact hb.aside.acts
  | fresh d => exact (aside_newScope s d).acts
  | filled _ _ _ fills => exact fills.writes.acts
  | derived _ _ => exact .refl
  | placed address size _ => exact (aside_newScope s .global).acts
  | array c values => exact Acts.after (aside_newScope _ .global).acts (.of_eq rfl rfl rfl)
  | again _ _ _ => exact (aside_newScope s .global).acts
  | allotted _ accessible hallots => exact hallots.acts accessible
  | bound _ _ _ hb => exact hb.aside.acts
  | registered _ _ _ alive accessible _ hb =>
    exact .head (.gainCleanup alive accessible _) hb.aside.acts

end

end State

open State

/-- **Whatever an operation does** is a sequence of acts of its thread. -/
theorem Does.acts {nested : Nested} {s : State} {t : Thread} {operation : Operation}
    {f : Nested → Except Fault Answer × State} (h : Does t s operation f) (hn : nested.ActsFor t) :
    Acts t s (f nested).2 := by
  cases h with
  | query => exact .refl
  | name gains renames _ => exact gains.acts.trans (renames.acts hn)
  | openArena hopen => exact openArena_acts hn hopen _
  | closeArena harena => exact closeArena_acts hn harena
  | dropArena harena =>
    exact releaseArena_acts hn (aside_erase s _) (arenasOf_pos (arenaNamed_mem harena))
  | openMapping _ => exact bindMapping_acts hn _ _ s
  | dropMapping _ => exact Acts.after (releaseMapping_acts hn _ _) (.of_eq rfl rfl rfl)
  | ask _ => exact ask_acts hn _ _ s

theorem Operation.perform_acts {nested : Nested} {t : Thread} (hn : nested.ActsFor t) (s : State)
    (operation : Operation) : Acts t s (operation.perform nested t s).2 :=
  (operation.perform_does t s).acts hn

/-! ### Callbacks -/

namespace State
variable {nested : Nested} {t : Thread}

theorem act_acts (hn : nested.ActsFor t) (action : Action ArenaId Segment) (s : State) :
    Acts t s (s.act nested t action).2 := by
  cases action with
  | close id =>
    simp only [act]
    split
    · exact .refl
    · exact closeArena_acts hn (List.mem_of_find?_eq_some ‹_›)
  | alloc id size alignment =>
    simp only [act]
    split
    · exact .refl
    · split
      · rename_i x s' hallocate
        obtain ⟨block, -, hallots⟩ := allocate_allots hallocate
        exact hallots.acts (allocate_accessible hallocate)
      · exact .refl
  | load x => exact ask_acts hn x .load s
  | get x offset =>
    simp only [act]
    split
    · exact .refl
    · exact .refl
  | panic text => exact .refl
  | perform operation => exact operation.perform_acts hn s

theorem runScript_acts (hn : nested.ActsFor t) (script : Script) (s : State) :
    Acts t s (s.runScript nested t script).2 := by
  induction script generalizing s with
  | nil => exact .refl
  | cons action rest ih =>
    have hfirst := act_acts hn action s
    rw [runScript]
    split
    · rename_i heq
      rw [heq] at hfirst
      exact hfirst
    · rename_i result s' heq
      rw [heq] at hfirst
      exact hfirst.trans (Acts.after (ih _) (.of_eq rfl rfl rfl))

/-- **Callbacks act for the thread that they run on**, to every depth. -/
theorem work_actsFor (t : Thread) (limit : Nat) : (work t limit).ActsFor t := by
  induction limit with
  | zero => exact fun _ _ => Aside.acts (.of_eq rfl rfl rfl)
  | succ limit ih =>
    intro work s
    cases work with
    | script script => exact runScript_acts ih script s
    | release segments => exact releaseSegments_acts ih segments s

end State

end ScopedMemory
