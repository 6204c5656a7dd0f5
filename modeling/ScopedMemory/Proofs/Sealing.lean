import ScopedMemory.Proofs.Guarding
import ScopedMemory.Proofs.Orderly

/-! Sealed arrays.

An array is sealed when nothing that is kept can be written through reaches it. Being read-only goes
over to whatever is derived from a segment, new arrays are other arrays, and all other memory is
native. So nothing that is done makes a segment by which a sealed array could be changed, but for
wrapping the array itself once more (`Exhibit.rewraps`). -/
namespace ScopedMemory

/-- An array that is not to be changed, and what it holds. -/
structure Exhibit where
  array : Nat
  content : Word → UInt8

/-- The segment does not let the sealed array be written. -/
def Exhibit.Spared (exhibit : Exhibit) (x : Segment) : Prop :=
  x.space = .array exhibit.array → x.readOnly = true

/-- The operation wraps the sealed array again, and gets a segment that can be written through. -/
def Exhibit.rewraps (exhibit : Exhibit) (s : State) : Operation → Bool
  | .make (.wrapAgain segment) _ => match s.handles.segments.find? segment with
    | some x => decide (x.space = .array exhibit.array)
    | none => false
  | _ => false

/-- The array is there, it holds what it is to hold, and it can be written through
nothing that is kept. -/
structure State.Sealed (exhibit : Exhibit) (s : State) : Prop where
  made : exhibit.array < s.arrays.size
  content : ∀ address, s.memory.read (.array exhibit.array) address = exhibit.content address
  kept : ∀ x ∈ s.keptSegments, exhibit.Spared x

/-- What nested callbacks do leaves the array sealed, if they are given nothing to write it by. -/
def Nested.Seals (exhibit : Exhibit) (nested : Nested) : Prop :=
  ∀ work s, State.Sealed exhibit s → (∀ x ∈ work.segments, exhibit.Spared x) →
    (∀ x ∈ work.used, exhibit.Spared x) → State.Sealed exhibit (nested work s).2

namespace Exhibit
variable {exhibit : Exhibit} {x y : Segment}

theorem spared_of_space (h : x.space = .native) : exhibit.Spared x := by
  intro harray
  rw [h] at harray
  cases harray

theorem spared_of_partOf (h : x.PartOf y) (hy : exhibit.Spared y) : exhibit.Spared x := by
  intro harray
  refine h.readOnly (hy ?_)
  rw [← harray, Segment.space, Segment.space, h.backing]

end Exhibit

namespace State

/-! ### Single changes -/

section
variable {exhibit : Exhibit} {s s' : State} {x : Segment} {t : Thread} {id : ScopeId}

theorem Sealed.of_kept (h : Sealed exhibit s) (arrays : s'.arrays = s.arrays)
    (memory : s'.memory = s.memory)
    (kept : ∀ x ∈ s'.keptSegments, x ∈ s.keptSegments ∨ exhibit.Spared x) : Sealed exhibit s' where
  made := arrays ▸ h.made
  content := memory ▸ h.content
  kept x hx := (kept x hx).elim (h.kept x) fun hx => hx

theorem Sealed.beside (h : Sealed exhibit s) (hb : Beside s s') : Sealed exhibit s' := by
  obtain ⟨_, _, _, _, rfl⟩ := hb
  exact ⟨h.made, h.content, h.kept⟩

theorem Sealed.emit (h : Sealed exhibit s) (event : Event) : Sealed exhibit (s.emit event) :=
  ⟨h.made, h.content, h.kept⟩

theorem Sealed.record (h : Sealed exhibit s) (id : ScopeId) (deed : Deed) :
    Sealed exhibit (s.record id deed) :=
  ⟨h.made, h.content, h.kept⟩

theorem Sealed.stay (h : Sealed exhibit s) {outgoing : List Segment}
    (spared : ∀ x ∈ outgoing, exhibit.Spared x) : Sealed exhibit { s with outgoing } := by
  refine h.of_kept rfl rfl fun x hx => ?_
  rcases mem_keptSegments.mp hx with hx | hx
  · exact .inr (spared x hx)
  · exact .inl (mem_keptSegments.mpr (.inr hx))

theorem Sealed.outgoing (h : Sealed exhibit s) : ∀ x ∈ s.outgoing, exhibit.Spared x :=
  fun x hx => h.kept x (kept_of_outgoing hx)

theorem Sealed.pin (h : Sealed exhibit s) {segments : List Segment}
    (spared : ∀ x ∈ segments, exhibit.Spared x) : Sealed exhibit (s.pin segments) := by
  refine h.stay fun x hx => ?_
  rcases List.mem_append.mp hx with hx | hx
  · exact spared x hx
  · exact h.outgoing x hx

theorem Sealed.newScope (h : Sealed exhibit s) (d : Discipline) : Sealed exhibit (s.newScope d).2 :=
  h.of_kept rfl rfl fun _ hx => .inl (keptSegments_newScope s d hx)

/-- A scope gets no cleanup that could write the array. -/
theorem Sealed.modifyScope (h : Sealed exhibit s) {f : Scope → Scope}
    (cleanups : ∀ scope, ∀ cleanup ∈ (f scope).cleanups, cleanup ∈ scope.cleanups ∨
      ∀ x ∈ cleanup.script.segments, exhibit.Spared x) : Sealed exhibit (s.modifyScope id f) := by
  refine h.of_kept rfl rfl fun x hx => ?_
  rcases mem_keptSegments.mp hx with hx | hx | hx | hx | ⟨other, cleanup, hc, hx⟩
  · exact .inl (mem_keptSegments.mpr (.inl hx))
  · exact .inl (mem_keptSegments.mpr (.inr (.inl hx)))
  · exact .inl (mem_keptSegments.mpr (.inr (.inr (.inl hx))))
  · exact .inl (mem_keptSegments.mpr (.inr (.inr (.inr (.inl hx)))))
  · have hold : cleanup ∈ (s.scope other).cleanups ∨
        ∀ x ∈ cleanup.script.segments, exhibit.Spared x := by
      by_cases heq : other = id
      · by_cases hid : id < s.scopes.size
        · rw [heq, scope_modifyScope_self f hid] at hc
          exact heq ▸ cleanups _ cleanup hc
        · rw [modifyScope_of_size_le f (Nat.le_of_not_lt hid)] at hc
          exact .inl hc
      · rw [scope_modifyScope_other f heq] at hc
        exact .inl hc
    exact hold.imp (fun hc => kept_of_cleanup hc hx) fun hspared => hspared x hx

theorem Sealed.note (h : Sealed exhibit s) {f : Scope → Scope} {deed : Deed}
    (cleanups : ∀ scope, ∀ cleanup ∈ (f scope).cleanups, cleanup ∈ scope.cleanups ∨
      ∀ x ∈ cleanup.script.segments, exhibit.Spared x) :
    Sealed exhibit ((s.modifyScope id f).record id deed) :=
  (h.modifyScope cleanups).record id deed

theorem Sealed.store (h : Sealed exhibit s) {memory : Memory}
    (same : ∀ address, memory.read (.array exhibit.array) address =
      s.memory.read (.array exhibit.array) address) : Sealed exhibit { s with memory } :=
  ⟨h.made, fun address => (same address).trans (h.content address), h.kept⟩

/-- **A write goes elsewhere**: through a segment over the array it would have been refused. -/
theorem Sealed.wrote (h : Sealed exhibit s) (hx : exhibit.Spared x) (hw : Wrote t x s s') :
    Sealed exhibit s' := by
  obtain ⟨memory, rfl, hsame⟩ := hw.writes
  refine h.store fun address => hsame _ _ fun hcovers => ?_
  have hreadOnly := hx hcovers.1.symm
  rw [hw.writable] at hreadOnly
  cases hreadOnly

theorem Sealed.handles (h : Sealed exhibit s) {handles : Handles}
    (segments : ∀ x ∈ handles.segments.values, exhibit.Spared x)
    (carvers : ∀ c ∈ handles.allocators.values, exhibit.Spared c.segment) :
    Sealed exhibit { s with handles } := by
  refine h.of_kept rfl rfl fun x hx => ?_
  rcases mem_keptSegments.mp hx with hx | hx | ⟨c, hc, rfl⟩ | ⟨_, _, hm, hx⟩ | ⟨_, _, hc, hx⟩
  · exact .inl (kept_of_outgoing hx)
  · exact .inr (segments x hx)
  · exact .inr (carvers c hc)
  · exact .inl (kept_of_mapping hm hx)
  · exact .inl (kept_of_cleanup hc hx)

theorem Sealed.segments (h : Sealed exhibit s) : ∀ x ∈ s.handles.segments.values, exhibit.Spared x :=
  fun x hx => h.kept x (kept_of_segment hx)

theorem Sealed.carvers (h : Sealed exhibit s) :
    ∀ c ∈ s.handles.allocators.values, exhibit.Spared c.segment :=
  fun _ hc => h.kept _ (kept_of_carver hc)

theorem Sealed.recount (h : Sealed exhibit s) (guards : List Guard) (holds : List Hold)
    (f : Nat → Nat) : Sealed exhibit (s.recount id guards holds f) := by
  refine h.of_kept rfl rfl fun x hx => .inl ?_
  rcases mem_keptSegments.mp hx with hx | hx | ⟨c, hc, rfl⟩ | ⟨_, _, hm, hx⟩ | ⟨other, _, hc, hx⟩
  · exact kept_of_outgoing hx
  · exact kept_of_segment hx
  · exact kept_of_carver hc
  · exact kept_of_mapping hm hx
  · obtain ⟨active, hscope⟩ := s.scope_recount id other guards holds f
    rw [hscope] at hc
    exact kept_of_cleanup hc hx

/-- A mapping is there no more, or keeps nothing. -/
theorem Sealed.setMapping (h : Sealed exhibit s) (m : MappingId) {mapping : Option Mapping}
    (empty : ∀ new, mapping = some new → new.segments = []) :
    Sealed exhibit { s with mappings := s.mappings.set! m mapping } := by
  refine h.of_kept rfl rfl fun x hx => .inl ?_
  refine kept_of_mappings hx rfl rfl rfl rfl fun other new hnew y hy => ?_
  by_cases heq : other = m
  · have hset : mapping = some new := by
      by_cases hm : m < s.mappings.size
      · simpa [mapping?, heq, hm] using hnew
      · simp [mapping?, heq, hm] at hnew
    rw [empty new hset] at hy
    cases hy
  · rw [mapping?_set_other heq] at hnew
    exact kept_of_mapping hnew hy

/-- A new block is native memory. -/
theorem Sealed.allots (h : Sealed exhibit s) {block : Block} (ha : Allots s id block s') :
    Sealed exhibit s' := by
  obtain ⟨memory, events, rfl, hsame⟩ := ha.made
  have hgained : Sealed exhibit (s.gainBlock id block) := by
    unfold gainBlock
    exact h.note fun _ _ hc => .inl hc
  refine ⟨hgained.made, fun address => ?_, hgained.kept⟩
  refine (hsame _ _ ?_).trans (h.content address)
  rintro ⟨hspace, -⟩
  cases hspace

/-- A new array is another array. -/
theorem Sealed.newArray (h : Sealed exhibit s) (c : Carrier) (values : List c.Value) :
    Sealed exhibit (s.newArray c values).2 ∧ exhibit.Spared (s.newArray c values).1 := by
  have hother : Space.array exhibit.array ≠ .array s.arrays.size := by
    intro heq
    exact Nat.ne_of_lt h.made (Space.array.inj heq)
  have hstored : Sealed exhibit { s with
      memory := s.memory.write (.array s.arrays.size) 0 (c.encodeAll .native values)
      arrays := s.arrays.push ⟨s.arrays.size, c, values.length⟩ } := by
    refine ⟨?_, fun address => ?_, h.kept⟩
    · show exhibit.array < (s.arrays.push _).size
      rw [Array.size_push]
      exact Nat.lt_succ_of_lt h.made
    · show (s.memory.write (.array s.arrays.size) 0 _).read _ _ = _
      rw [Memory.write, Memory.read_splice, if_neg hother]
      exact h.content address
  exact ⟨hstored.newScope .global, fun hspace => absurd hspace.symm hother⟩

end

/-! ### The end of a scope -/

section
variable {exhibit : Exhibit} {nested : Nested} {s s' : State} {x : Segment} {t : Thread} {id : ScopeId}

theorem endScope_sealed (h : Sealed exhibit s) (id : ScopeId) (closer : Option Thread) :
    Sealed exhibit (s.endScope id closer) := by
  unfold endScope
  exact h.note fun _ _ hc => .inl hc

theorem freeBlock_sealed (h : Sealed exhibit s) (id : ScopeId) (block : Block) :
    Sealed exhibit (freeBlock id s block) := by
  have hfreed : Sealed exhibit ((s.modifyScope id fun scope =>
      { scope with blocks := scope.blocks.tail }).record id (.freed block)) :=
    h.note fun _ _ hc => .inl hc
  unfold freeBlock
  split
  · exact hfreed
  · refine Sealed.emit (hfreed.store fun address => ?_) _
    rw [Memory.fill, Memory.read_overlay, if_neg]
    rintro ⟨hspace, -⟩
    cases hspace

theorem freeBlocks_sealed (h : Sealed exhibit s) (id : ScopeId) (blocks : List Block) :
    Sealed exhibit (blocks.foldl (freeBlock id) s) := by
  induction blocks generalizing s with
  | nil => exact h
  | cons block rest ih => exact ih (freeBlock_sealed h id block)

theorem beginCleanup_sealed (h : Sealed exhibit s) (t : Thread) (id : ScopeId) (cleanup : Cleanup) :
    Sealed exhibit (s.beginCleanup t id cleanup) := by
  obtain ⟨event, heq⟩ := beginCleanup_eq s t id cleanup
  rw [heq]
  refine Sealed.emit ?_ event
  exact (h.newScope .global).note fun _ _ hc => .inl (List.mem_of_mem_tail hc)

theorem runCleanup_sealed (hn : nested.Seals exhibit) (h : Sealed exhibit s) (t : Thread)
    (id : ScopeId) {cleanup : Cleanup} (spared : ∀ x ∈ cleanup.script.segments, exhibit.Spared x) :
    Sealed exhibit (s.runCleanup nested t id cleanup).2 := by
  have hbegun := beginCleanup_sealed h t id cleanup
  rw [runCleanup_eq]
  generalize s.beginCleanup t id cleanup = b at hbegun ⊢
  have hcalled : Sealed exhibit
      (nested (.script cleanup.script) (b.pin cleanup.script.segments)).2 :=
    hn _ _ (hbegun.pin spared) (fun x hx => by cases hx) spared
  have hreleased := hn (.release cleanup.script.segments) _ (hcalled.stay hbegun.outgoing) spared
    fun x hx => by cases hx
  exact hreleased.record id _

theorem runCleanups_sealed (hn : nested.Seals exhibit) (h : Sealed exhibit s) (t : Thread)
    (id : ScopeId) {cleanups : List Cleanup}
    (spared : ∀ cleanup ∈ cleanups, ∀ x ∈ cleanup.script.segments, exhibit.Spared x) :
    Sealed exhibit (s.runCleanups nested t id cleanups).2 := by
  induction cleanups generalizing s with
  | nil => exact h
  | cons cleanup rest ih =>
    have hfirst := runCleanup_sealed hn h t id (spared cleanup List.mem_cons_self)
    refine ih ?_ fun c hc => spared c (List.mem_cons_of_mem _ hc)
    split
    · exact hfirst.emit _
    · exact hfirst

theorem finish_sealed (hn : nested.Seals exhibit) (h : Sealed exhibit s) (t : Thread) (id : ScopeId)
    (closer : Option Thread) : Sealed exhibit (s.finish nested t id closer).2 := by
  have hspared : ∀ cleanup ∈ (s.scope id).cleanups, ∀ x ∈ cleanup.script.segments,
      exhibit.Spared x :=
    fun cleanup hc x hx => h.kept x (kept_of_cleanup hc hx)
  have hran := runCleanups_sealed hn (endScope_sealed h id closer) t id hspared
  exact (freeBlocks_sealed hran id _).emit _

/-! ### Closing and letting go -/

theorem closeScope_sealed (hn : nested.Seals exhibit) (h : Sealed exhibit s) (t : Thread)
    (id : ScopeId) : Sealed exhibit (s.closeScope nested t id).2 := by
  have hclosing : Sealed exhibit
      (s.modifyScope id fun scope => { scope with phase := .closing }) :=
    h.modifyScope fun _ _ hc => .inl hc
  unfold closeScope
  split
  · exact h
  · exact finish_sealed hn hclosing t id (some t)

theorem closeArena_sealed (hn : nested.Seals exhibit) (h : Sealed exhibit s) (t : Thread)
    (arena : Arena) : Sealed exhibit (s.closeArena nested t arena).2 := by
  have hclosed := closeScope_sealed hn h t arena.scope
  unfold closeArena
  generalize s.closeScope nested t arena.scope = closed at hclosed
  obtain ⟨result, s'⟩ := closed
  dsimp only
  split
  · rcases result with e | (_ | text)
    · exact hclosed
    · exact hclosed
    · exact hclosed
  · exact h

theorem releaseScope_sealed (hn : nested.Seals exhibit) (h : Sealed exhibit s) (t : Thread)
    (id : ScopeId) : Sealed exhibit (s.releaseScope nested t id) := by
  unfold releaseScope expire
  dsimp only
  split
  · exact h
  · split
    · exact h
    · split
      · exact endScope_sealed h id none
      · exact finish_sealed hn h t id none

theorem releaseArena_sealed (hn : nested.Seals exhibit) (h : Sealed exhibit s) (t : Thread)
    (arena : Arena) : Sealed exhibit (s.releaseArena nested t arena) := by
  have hclosed := closeScope_sealed hn h t arena.scope
  unfold releaseArena
  refine releaseScope_sealed hn ?_ t arena.scope
  split
  · generalize s.closeScope nested t arena.scope = closed at hclosed
    obtain ⟨e | panic, s'⟩ := closed
    · exact hclosed.emit _
    · exact hclosed
  · exact h

theorem releaseMapping_sealed (hn : nested.Seals exhibit) (h : Sealed exhibit s) (m : MappingId) :
    Sealed exhibit (s.releaseMapping nested m) := by
  unfold releaseMapping
  split
  · exact h
  · split
    · exact h
    · rename_i mapping hm
      refine hn _ _ (h.setMapping m fun _ hnew => by cases hnew) (fun x hx => ?_) fun x hx => by
        cases hx
      exact h.kept x (kept_of_mapping hm hx)

theorem releaseSegments_sealed (hn : nested.Seals exhibit) {segments : List Segment}
    (h : Sealed exhibit s) (spared : ∀ x ∈ segments, exhibit.Spared x) :
    Sealed exhibit (s.releaseSegments nested t segments) := by
  induction segments generalizing s with
  | nil => exact h
  | cons x rest ih =>
    have hrest : ∀ y ∈ rest, exhibit.Spared y := fun y hy => spared y (List.mem_cons_of_mem _ hy)
    have hstay : ∀ y ∈ rest ++ s.outgoing, exhibit.Spared y := by
      intro y hy
      exact (List.mem_append.mp hy).elim (hrest y) (h.outgoing y)
    rw [releaseSegments]
    refine ih (Sealed.stay (releaseScope_sealed hn (Sealed.stay ?_ hstay) t x.scope) h.outgoing) hrest
    split
    · refine releaseMapping_sealed hn (h.stay fun y hy => ?_) _
      rcases List.mem_cons.mp hy with rfl | hy
      · exact Exhibit.spared_of_space rfl
      · exact hstay y hy
    · exact h

theorem askMapping_sealed (hn : nested.Seals exhibit) (h : Sealed exhibit s) (m : MappingId)
    (request : Request) (address length : Word) :
    Sealed exhibit (s.askMapping nested m request address length).2 := by
  unfold askMapping
  split
  · exact h
  · exact h.setMapping m fun new hnew => by cases hnew; rfl
  · rename_i mapping hm
    have hasked : Sealed exhibit (nested (.script (mapping.scripts.get request))
        (s.emit (.requested mapping.name request address length))).2 := by
      refine hn _ _ (h.emit _) (fun x hx => by cases hx) fun x hx => ?_
      exact h.kept x (kept_of_mapping hm (Mapping.mem_segments_scripted.mpr ⟨request, hx⟩))
    dsimp only
    generalize nested (.script (mapping.scripts.get request)) _ = answered at hasked
    obtain ⟨_ | text, s'⟩ := answered
    · exact hasked
    · exact hasked

theorem ask_sealed (hn : nested.Seals exhibit) (h : Sealed exhibit s) (hx : exhibit.Spared x)
    (request : Request) : Sealed exhibit (s.ask nested t x request).2 := by
  have hone : ∀ y ∈ [x], exhibit.Spared y := fun y hy => List.mem_singleton.mp hy ▸ hx
  cases hb : x.backing with
  | heap array =>
    simp only [ask, hb]
    exact h
  | native =>
    simp only [ask, hb]
    exact h
  | mapped m =>
    cases hcheck : s.checkEntry t x.scope with
    | error e =>
      have hrefused : s.enter t x.scope = .error e := by
        rw [enter, hcheck]
        rfl
      simp only [ask, hb, hrefused]
      exact h
    | ok u =>
      have hheld : Sealed exhibit (s.hold t x.scope) := by
        rw [hold_eq]
        exact h.recount _ _ _
      have hasked := askMapping_sealed hn (hheld.pin hone) m request x.address x.size
      rw [ask_entered nested hb hcheck]
      refine releaseSegments_sealed hn (Sealed.stay ?_ hheld.outgoing) hone
      rw [letOut_eq]
      exact hasked.recount _ _ _

/-! ### Names -/

/-- **Names change**, and the array stays sealed. -/
theorem Renames.sealed {gained : List Segment} {f : Nested → State} (hr : Renames t s gained f)
    (hn : nested.Seals exhibit) (h : Sealed exhibit s) (spared : ∀ x ∈ gained, exhibit.Spared x) :
    Sealed exhibit (f nested) := by
  obtain ⟨handles, lost, hr⟩ := hr
  have hspared : ∀ {x}, x ∈ gained ∨ x ∈ s.keptSegments → exhibit.Spared x := fun hx =>
    hx.elim (spared _) (h.kept _)
  have hput : Sealed exhibit { s with handles } :=
    h.handles (fun x hx => hspared (hr.segments x hx)) fun c hc => hspared (hr.carvers c hc)
  exact releaseSegments_sealed hn hput fun x hx => hspared (hr.known x hx)

theorem bindArena_sealed (hn : nested.Seals exhibit) (h : Sealed exhibit s) (name : String)
    (arena : Arena) : Sealed exhibit (s.bindArena nested t name arena) := by
  have hput : Sealed exhibit { s with handles.arenas := s.handles.arenas.put name arena } :=
    h.handles h.segments h.carvers
  unfold bindArena
  dsimp only
  split
  · exact hput
  · exact releaseArena_sealed hn hput t _

theorem bindMapping_sealed (hn : nested.Seals exhibit) (h : Sealed exhibit s) (name : String)
    {mapping : Mapping} (kept : ∀ x ∈ mapping.segments, x ∈ s.keptSegments) :
    Sealed exhibit (s.bindMapping nested name mapping) := by
  have hput : Sealed exhibit (s.withMapping name mapping) :=
    h.of_kept rfl rfl fun _ hx => .inl (kept_of_withMapping kept hx)
  unfold bindMapping
  dsimp only
  split
  · exact hput
  · exact releaseMapping_sealed hn hput _

theorem openArena_sealed (h : Sealed exhibit s) {kind : ScopeKind} {config : Option ArenaConfig}
    {arena : Arena} (hopen : openArena t s kind config = .ok (arena, s')) : Sealed exhibit s' := by
  rcases openArena_ok hopen with ⟨-, hbeside⟩ | ⟨d, s₁, hbefore, -, hafter⟩
  · exact h.beside hbeside
  · exact ((h.beside hbefore).newScope d).beside hafter

end

end State

end ScopedMemory
