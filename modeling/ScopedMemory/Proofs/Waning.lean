import ScopedMemory.Proofs.Allocations
import ScopedMemory.Proofs.LettingGo

/-! Letting go where no callback runs.

Without cleanups and mapped segments nothing runs on the way. Handles stay as they are, scopes end
only with cause, and memory changes only in the blocks of the scopes that end (`Wanes`). -/
namespace ScopedMemory

namespace State

/-- The scope has ended on the way from one state to the other, by a close or because nothing keeps
it. -/
structure EndsIn (s s' : State) (id : ScopeId) : Prop where
  unended : (s.scope id).phase ≠ .closed
  closed : (s'.scope id).phase = .closed
  discipline : (s'.scope id).discipline = (s.scope id).discipline
  cleanups : (s'.scope id).cleanups = (s.scope id).cleanups
  cause : (s.scope id).discipline.kind.closeable = true ∨ s'.keepsScope id = false

/-- Scopes end and nothing else happens. -/
structure Wanes (s s' : State) : Prop where
  handles : s'.handles = s.handles
  outgoing : s'.outgoing = s.outgoing
  arrays : s'.arrays = s.arrays
  mappings : ∀ m mapping, s'.mapping? m = some mapping → s.mapping? m = some mapping
  scopes : ∀ id, s'.scope id = s.scope id ∨ EndsIn s s' id
  memory : ∀ space address, (∀ id, EndsIn s s' id → ∀ block ∈ (s.scope id).blocks,
    space = .native → ¬ block.Covers address) →
    s'.memory.read space address = s.memory.read space address

/-- No scope has a cleanup. -/
def Still (s : State) : Prop := ∀ id, (s.scope id).cleanups = []

section
variable {s s' s'' : State} {id : ScopeId}

theorem Wanes.cleanups (h : Wanes s s') (id : ScopeId) :
    (s'.scope id).cleanups = (s.scope id).cleanups := by
  rcases h.scopes id with heq | hends
  · rw [heq]
  · exact hends.cleanups

theorem Wanes.still (h : Wanes s s') (still : Still s) : Still s' := fun id =>
  (h.cleanups id).trans (still id)

/-- What is kept in the end was kept before. -/
theorem Wanes.retains (h : Wanes s s') : Retains s' s where
  arenas _ ha := h.handles ▸ ha
  mappings _ hm := h.handles ▸ hm
  segments x hx := by
    rw [mem_keptSegments] at hx ⊢
    rw [h.handles, h.outgoing] at hx
    rcases hx with hx | hx | hx | ⟨m, mapping, hm, hx⟩ | ⟨id, cleanup, hc, hx⟩
    · exact .inl hx
    · exact .inr (.inl hx)
    · exact .inr (.inr (.inl hx))
    · exact .inr (.inr (.inr (.inl ⟨m, mapping, h.mappings m mapping hm, hx⟩)))
    · exact .inr (.inr (.inr (.inr ⟨id, cleanup, h.cleanups id ▸ hc, hx⟩)))

theorem Retains.unkept (h : Retains s' s) (hk : s.keepsScope id = false) :
    s'.keepsScope id = false := by
  by_contra hk'
  rw [h.keepsScope (Bool.not_eq_false _ ▸ hk')] at hk
  cases hk

theorem Wanes.refl (s : State) : Wanes s s :=
  ⟨rfl, rfl, rfl, fun _ _ h => h, fun _ => .inl rfl, fun _ _ _ => rfl⟩

theorem EndsIn.earlier (h : Wanes s s') (hends : EndsIn s' s'' id) :
    s'.scope id = s.scope id ∧ EndsIn s s'' id := by
  rcases h.scopes id with heq | hends'
  · refine ⟨heq, ?_, hends.closed, ?_, ?_, ?_⟩
    · rw [← heq]
      exact hends.unended
    · rw [← heq]
      exact hends.discipline
    · rw [← heq]
      exact hends.cleanups
    · rw [← heq]
      exact hends.cause
  · exact absurd hends'.closed hends.unended

theorem EndsIn.later (hends : EndsIn s s' id) (h : Wanes s' s'') : EndsIn s s'' id := by
  have heq : s''.scope id = s'.scope id :=
    (h.scopes id).resolve_right fun hends' => hends'.unended hends.closed
  refine ⟨hends.unended, ?_, ?_, ?_, hends.cause.imp_right h.retains.unkept⟩
  · rw [heq]
    exact hends.closed
  · rw [heq]
    exact hends.discipline
  · rw [heq]
    exact hends.cleanups

theorem Wanes.trans (h : Wanes s s') (h' : Wanes s' s'') : Wanes s s'' where
  handles := h'.handles.trans h.handles
  outgoing := h'.outgoing.trans h.outgoing
  arrays := h'.arrays.trans h.arrays
  mappings m mapping hm := h.mappings m mapping (h'.mappings m mapping hm)
  scopes id := by
    rcases h'.scopes id with heq' | hends'
    · rcases h.scopes id with heq | hends
      · exact .inl (heq'.trans heq)
      · exact .inr (hends.later h')
    · exact .inr (hends'.earlier h).2
  memory space address hfar := by
    have hfirst : s'.memory.read space address = s.memory.read space address :=
      h.memory space address fun id hends => hfar id (hends.later h')
    refine (h'.memory space address fun id hends block hb => ?_).trans hfirst
    obtain ⟨heq, hends'⟩ := hends.earlier h
    exact hfar id hends' block (heq ▸ hb)

theorem retains_of_outgoing {outgoing : List Segment} (sub : ∀ x ∈ outgoing, x ∈ s.outgoing) :
    Retains { s with outgoing } s where
  arenas _ h := h
  mappings _ h := h
  segments x hx := by
    rw [mem_keptSegments] at hx ⊢
    exact hx.imp_left (sub x)

theorem EndsIn.unpin {more : List Segment} (h : Wanes (s.pin more) s')
    (hends : EndsIn (s.pin more) s' id) : EndsIn s { s' with outgoing := s.outgoing } id := by
  have hretains : Retains { s' with outgoing := s.outgoing } s' := by
    apply retains_of_outgoing
    rw [h.outgoing]
    exact fun x hx => List.mem_append_right _ hx
  exact ⟨hends.unended, hends.closed, hends.discipline, hends.cleanups,
    hends.cause.imp_right hretains.unkept⟩

/-- Segments stay while others are let go of. -/
theorem Wanes.unpin {more : List Segment} (h : Wanes (s.pin more) s') :
    Wanes s { s' with outgoing := s.outgoing } where
  handles := h.handles
  outgoing := rfl
  arrays := h.arrays
  mappings := h.mappings
  scopes id := (h.scopes id).imp_right (EndsIn.unpin h)
  memory space address hfar := h.memory space address fun id hends => hfar id (hends.unpin h)

end

/-! ### The end of a scope -/

section
variable {s s' s'' : State} {id : ScopeId} {blocks : List Block}

/-- Blocks of a scope are freed, and nothing else happens. -/
structure Frees (id : ScopeId) (blocks : List Block) (s s' : State) : Prop where
  handles : s'.handles = s.handles
  outgoing : s'.outgoing = s.outgoing
  arrays : s'.arrays = s.arrays
  mappings : s'.mappings = s.mappings
  others : ∀ other, other ≠ id → s'.scope other = s.scope other
  scope : ∃ left, s'.scope id = { s.scope id with blocks := left }
  memory : ∀ space address, (∀ block ∈ blocks, space = .native → ¬ block.Covers address) →
    s'.memory.read space address = s.memory.read space address

theorem freeBlock_frees (hid : id < s.scopes.size) (block : Block) :
    Frees id [block] s (freeBlock id s block) := by
  have hothers : ∀ other, other ≠ id → (s.modifyScope id fun scope =>
      { scope with blocks := scope.blocks.tail }).scope other = s.scope other :=
    fun other h => scope_modifyScope_other _ h
  have hscope := scope_modifyScope_self (fun scope => { scope with blocks := scope.blocks.tail }) hid
  unfold freeBlock
  split
  · exact ⟨rfl, rfl, rfl, rfl, hothers, ⟨_, hscope⟩, fun _ _ _ => rfl⟩
  · refine ⟨rfl, rfl, rfl, rfl, hothers, ⟨_, hscope⟩, fun space address hfar => ?_⟩
    show (s.memory.fill .native block.address block.size.toNat freedByte).read space address = _
    rw [Memory.fill, Memory.read_overlay, if_neg]
    rintro ⟨rfl, hcovers⟩
    exact hfar block (List.mem_singleton_self _) rfl hcovers

theorem Frees.trans {blocks' : List Block} (h : Frees id blocks s s')
    (h' : Frees id blocks' s' s'') : Frees id (blocks ++ blocks') s s'' where
  handles := h'.handles.trans h.handles
  outgoing := h'.outgoing.trans h.outgoing
  arrays := h'.arrays.trans h.arrays
  mappings := h'.mappings.trans h.mappings
  others other hne := (h'.others other hne).trans (h.others other hne)
  scope := by
    obtain ⟨left, hleft⟩ := h.scope
    obtain ⟨left', hleft'⟩ := h'.scope
    exact ⟨left', by rw [hleft', hleft]⟩
  memory space address hfar :=
    (h'.memory space address fun block hb => hfar block (List.mem_append_right _ hb)).trans
      (h.memory space address fun block hb => hfar block (List.mem_append_left _ hb))

theorem foldl_frees (hid : id < s.scopes.size) (blocks : List Block) :
    Frees id blocks s (blocks.foldl (freeBlock id) s) := by
  induction blocks generalizing s with
  | nil => exact ⟨rfl, rfl, rfl, rfl, fun _ _ => rfl, ⟨_, rfl⟩, fun _ _ _ => rfl⟩
  | cons block rest ih =>
    have hsize : (freeBlock id s block).scopes.size = s.scopes.size := by
      unfold freeBlock
      split
      · exact size_modifyScope _ _ _
      · exact size_modifyScope _ _ _
    exact (freeBlock_frees hid block).trans (ih (by rw [hsize]; exact hid))

/-- A scope that ends without cleanups, and loses its blocks or not. -/
theorem wanes_of_frees (closer : Option Thread) (unended : (s.scope id).phase ≠ .closed)
    (cause : (s.scope id).discipline.kind.closeable = true ∨ s.keepsScope id = false)
    (h : Frees id (s.scope id).blocks (s.endScope id closer) s') : Wanes s s' := by
  have hid := lt_size_of_phase unended
  have hself : (s.endScope id closer).scope id = { s.scope id with phase := .closed } :=
    scope_modifyScope_self _ hid
  have hother : ∀ other, other ≠ id → s'.scope other = s.scope other := fun other hne =>
    (h.others other hne).trans (scope_modifyScope_other _ hne)
  obtain ⟨left, hleft⟩ := h.scope
  rw [hself] at hleft
  have hcleanups : ∀ other, (s'.scope other).cleanups = (s.scope other).cleanups := by
    intro other
    by_cases heq : other = id
    · rw [heq, hleft]
    · rw [hother other heq]
  have hretains : Retains s' s :=
    retains_of_cleanups h.handles.symm h.outgoing.symm h.mappings.symm fun other cleanup hc =>
      hcleanups other ▸ hc
  have hends : EndsIn s s' id :=
    ⟨unended, by rw [hleft], by rw [hleft], hcleanups id, cause.imp_right hretains.unkept⟩
  exact
    { handles := h.handles
      outgoing := h.outgoing
      arrays := h.arrays
      mappings := fun m mapping hm => by
        rw [mapping?, h.mappings] at hm
        exact hm
      scopes := fun other => by
        by_cases heq : other = id
        · exact .inr (heq ▸ hends)
        · exact .inl (hother other heq)
      memory := fun space address hfar => h.memory space address (hfar id hends) }

theorem Frees.log (h : Frees id blocks s s') (entry : LogEntry) : Frees id blocks s (s'.log entry) :=
  ⟨h.handles, h.outgoing, h.arrays, h.mappings, h.others, h.scope, h.memory⟩

theorem finish_wanes {nested : Nested} {t : Thread} {closer : Option Thread}
    (quiet : (s.scope id).cleanups = []) (unended : (s.scope id).phase ≠ .closed)
    (cause : (s.scope id).discipline.kind.closeable = true ∨ s.keepsScope id = false) :
    Wanes s (s.finish nested t id closer).2 := by
  have hid := lt_size_of_phase unended
  have hself : (s.endScope id closer).scope id = { s.scope id with phase := .closed } :=
    scope_modifyScope_self _ hid
  have hfrees := foldl_frees (s := s.endScope id closer)
    (Nat.lt_of_lt_of_eq hid (size_modifyScope _ _ _).symm) (s.scope id).blocks
  refine wanes_of_frees closer unended cause ?_
  simp only [finish, quiet, runCleanups, freeBlocks, hself]
  exact hfrees.log _

theorem endScope_wanes {closer : Option Thread} (unended : (s.scope id).phase ≠ .closed)
    (cause : (s.scope id).discipline.kind.closeable = true ∨ s.keepsScope id = false) :
    Wanes s (s.endScope id closer) :=
  wanes_of_frees closer unended cause
    ⟨rfl, rfl, rfl, rfl, fun _ _ => rfl, ⟨_, rfl⟩, fun _ _ _ => rfl⟩

end

/-! ### Closing and letting go -/

section
variable {nested : Nested} {t : Thread} {s : State} {id : ScopeId}

theorem closeScope_wanes (nested : Nested) (t : Thread) (id : ScopeId) (still : Still s) :
    Wanes s (s.closeScope nested t id).2 := by
  rcases closeScope_cases nested s t id with ⟨e, h⟩ | ⟨halive, hmay, h⟩
  · rw [h]
    exact .refl s
  · rw [h]
    refine finish_wanes (still id) (by rw [halive]; decide) (.inl ?_)
    rcases hmay with hd | hd
    · rw [hd]
      rfl
    · rw [hd]
      rfl

theorem closeArena_wanes (still : Still s) (arena : Arena) :
    Wanes s (s.closeArena nested t arena).2 := by
  have h := closeScope_wanes nested t arena.scope still
  unfold closeArena
  generalize s.closeScope nested t arena.scope = closed at h
  obtain ⟨result, s'⟩ := closed
  dsimp only
  split
  · rcases result with e | (_ | text)
    · exact h
    · exact h
    · exact h
  · exact .refl s

theorem releaseScope_wanes (still : Still s) : Wanes s (s.releaseScope nested t id) := by
  unfold releaseScope
  split
  · exact .refl s
  · have hunkept : s.keepsScope id = false := Bool.eq_false_iff.mpr ‹_›
    unfold expire
    dsimp only
    split
    · exact .refl s
    · split
      · exact endScope_wanes ‹_› (.inr hunkept)
      · exact finish_wanes (still id) ‹_› (.inr hunkept)

theorem log_wanes (s : State) (entry : LogEntry) : Wanes s (s.log entry) :=
  ⟨rfl, rfl, rfl, fun _ _ h => h, fun _ => .inl rfl, fun _ _ _ => rfl⟩

theorem releaseArena_wanes (still : Still s) (arena : Arena) :
    Wanes s (s.releaseArena nested t arena) := by
  unfold releaseArena
  dsimp only
  split
  · have hclose := closeScope_wanes nested t arena.scope still
    split
    · rename_i e s' heq
      rw [heq] at hclose
      have hlogged := hclose.trans (log_wanes s' (.arenaLeftOpen arena.scope e))
      exact hlogged.trans (releaseScope_wanes (hlogged.still still))
    · rename_i panic s' heq
      rw [heq] at hclose
      exact hclose.trans (releaseScope_wanes (hclose.still still))
  · exact releaseScope_wanes still

/-- Segments that are not mapped run no callback when they are let go of. -/
theorem releaseSegments_wanes {segments : List Segment}
    (unmapped : ∀ x ∈ segments, x.backing.isMapped = false) (still : Still s) :
    Wanes s (s.releaseSegments nested t segments) := by
  induction segments generalizing s with
  | nil => exact .refl s
  | cons x rest ih =>
    have hx := unmapped x (List.mem_cons_self ..)
    have hscope : Wanes s { (s.pin rest).releaseScope nested t x.scope with
        outgoing := s.outgoing } :=
      (releaseScope_wanes (s := s.pin rest) still).unpin
    have hrest := hscope.trans
      (ih (fun y hy => unmapped y (List.mem_cons_of_mem _ hy)) (hscope.still still))
    rw [releaseSegments]
    cases hb : x.backing with
    | mapped m =>
      rw [hb] at hx
      cases hx
    | native => exact hrest
    | heap array => exact hrest

end

end State

/-- What nested callbacks do on behalf of segments that are not mapped is to let go of them. -/
def Nested.Quiet (nested : Nested) : Prop :=
  ∀ segments s, (∀ x ∈ segments, x.backing.isMapped = false) → State.Still s →
    State.Wanes s (nested (.release segments) s).2

namespace State

theorem work_quiet (t : Thread) (limit : Nat) : (work t limit).Quiet := by
  intro segments s unmapped still
  cases limit with
  | zero => exact ⟨rfl, rfl, rfl, fun _ _ h => h, fun _ => .inl rfl, fun _ _ _ => rfl⟩
  | succ limit => exact releaseSegments_wanes unmapped still

theorem releaseMapping_wanes {nested : Nested} {s : State} (hn : nested.Quiet) (m : MappingId)
    (unmapped : ∀ x ∈ s.keptSegments, x.backing.isMapped = false) (still : Still s) :
    Wanes s (s.releaseMapping nested m) := by
  unfold releaseMapping
  split
  · exact .refl s
  · split
    · exact .refl s
    · rename_i mapping hmapping
      have hgone : Wanes s { s with mappings := s.mappings.set! m none } := by
        refine ⟨rfl, rfl, rfl, fun other mapping' h => ?_, fun _ => .inl rfl, fun _ _ _ => rfl⟩
        by_cases heq : other = m
        · rw [heq, mapping?_set_none] at h
          cases h
        · rwa [mapping?_set_other heq] at h
      refine hgone.trans (hn _ _ (fun x hx => unmapped x ?_) still)
      exact kept_of_mapping hmapping hx

/-- Only a mapped segment has a mapping to ask. -/
theorem ask_unmapped {nested : Nested} {t : Thread} {s : State} {x : Segment} {request : Request}
    (unmapped : x.backing.isMapped = false) : (s.ask nested t x request).2 = s := by
  unfold ask
  cases hb : x.backing with
  | mapped m =>
    rw [hb] at unmapped
    cases unmapped
  | native => rfl
  | heap array => rfl

end State

end ScopedMemory
