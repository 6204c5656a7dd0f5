import ScopedMemory.Proofs.Obtaining

/-! What operations do before anything is let go of.

They write memory, open scopes, and attach blocks and cleanups to scopes that are alive and kept
(`Grows`). All of that is tidy. -/
namespace ScopedMemory

namespace State

/-- Only a counter, the policy and what is reported differ. -/
def Beside (s s' : State) : Prop :=
  ∃ arenas policy warned events, s' = { s with arenas, policy, warned, events }

inductive Grows (s : State) : State → Prop where
  | refl : Grows s s
  | beside {s' s'' : State} : Grows s s' → Beside s' s'' → Grows s s''
  | store {s' : State} (memory : Memory) (arrays : Array HeapArray) :
      Grows s s' → Grows s { s' with memory, arrays }
  | newScope {s' : State} (d : Discipline) : Grows s s' → Grows s (s'.newScope d).2
  | attach {s' : State} {id : ScopeId} {block : Block} : Grows s s' → s'.isAlive id = true →
      s'.keepsScope id = true → s'.system.Places s'.journal block →
      Grows s (s'.gainBlock id block)
  | register {s' : State} {id : ScopeId} {cleanup : Cleanup} : Grows s s' → s'.isAlive id = true →
      s'.keepsScope id = true → (∀ x ∈ cleanup.script.segments, x ∈ s'.keptSegments) →
      Grows s (s'.gainCleanup id cleanup)

/-! ### Growing is tidy -/

section
variable {s s' s'' : State}

theorem Retains.refl (s : State) : Retains s s := ⟨fun _ => id, fun _ => id, fun _ => id⟩

theorem Retains.trans (h : Retains s s') (h' : Retains s' s'') : Retains s s'' where
  arenas arena ha := h'.arenas arena (h.arenas arena ha)
  mappings id hm := h'.mappings id (h.mappings id hm)
  segments x hx := h'.segments x (h.segments x hx)

/-- What growing comes to: it is tidy, and nothing that is kept is let go of. -/
structure Grown (s s' : State) : Prop where
  tidy : Tidy s s'
  retains : Retains s s'
  handles : s'.handles = s.handles
  mappings : s'.mappings = s.mappings

theorem Grown.trans (h : Grown s s') (h' : Grown s' s'') : Grown s s'' where
  tidy := h.tidy.trans h'.tidy
  retains := h.retains.trans h'.retains
  handles := h'.handles.trans h.handles
  mappings := h'.mappings.trans h.mappings

theorem Beside.alike (h : Beside s s') : Alike s s' := by
  obtain ⟨_, _, _, _, rfl⟩ := h
  exact .of_eq rfl rfl rfl

theorem Beside.grown (h : Beside s s') : Grown s s' := by
  have halike := h.alike
  obtain ⟨_, _, _, _, rfl⟩ := h
  exact ⟨fun hs => ⟨halike.leads hs, rfl, id, fun hk => .inr ⟨hk.scopes, hk.mappings⟩⟩,
    ⟨fun _ => id, fun _ => id, fun _ => id⟩, rfl, rfl⟩

theorem store_grown (s : State) (memory : Memory) (arrays : Array HeapArray) :
    Grown s { s with memory, arrays } :=
  ⟨fun hs => ⟨Alike.leads (.of_eq rfl rfl rfl) hs, rfl, id,
    fun hk => .inr ⟨hk.scopes, hk.mappings⟩⟩, ⟨fun _ => id, fun _ => id, fun _ => id⟩, rfl, rfl⟩

/-- Every scope keeps its cleanups, and handles and mappings are the same. -/
theorem retains_of_cleanups (handles : s'.handles = s.handles) (outgoing : s'.outgoing = s.outgoing)
    (mappings : s'.mappings = s.mappings)
    (cleanups : ∀ id, ∀ cleanup ∈ (s.scope id).cleanups, cleanup ∈ (s'.scope id).cleanups) :
    Retains s s' where
  arenas _ h := handles ▸ h
  mappings _ h := handles ▸ h
  segments x hx := by
    rw [mem_keptSegments] at hx ⊢
    rw [handles, outgoing]
    rcases hx with h | h | h | ⟨id, mapping, hm, h⟩ | ⟨id, cleanup, hc, h⟩
    · exact .inl h
    · exact .inr (.inl h)
    · exact .inr (.inr (.inl h))
    · refine .inr (.inr (.inr (.inl ⟨id, mapping, ?_, h⟩)))
      rw [mapping?, mappings]
      exact hm
    · exact .inr (.inr (.inr (.inr ⟨id, cleanup, cleanups id cleanup hc, h⟩)))

theorem Laden.untouched {id : ScopeId} (hl : Laden (s'.scope id)) (h : Untouched s s' id) :
    Laden (s.scope id) :=
  ⟨h.phase ▸ hl.unended, h.cleanups ▸ h.blocks ▸ hl.full⟩

theorem newScope_grown (s : State) (d : Discipline) : Grown s (s.newScope d).2 := by
  have hretains : Retains s (s.newScope d).2 := by
    refine retains_of_cleanups rfl rfl rfl fun id cleanup hc => ?_
    by_cases hid : id = s.scopes.size
    · rw [hid, scope_of_size_le (Nat.le_refl _)] at hc
      cases hc
    · rwa [(untouched_newScope s d hid).cleanups]
  refine ⟨fun hs => ⟨newScope_leads s d hs, rfl, id, fun hk => .inr (hk.retain hretains ?_ ?_)⟩,
    hretains, rfl, rfl⟩
  · intro id hown hl
    refine ⟨hown, ?_⟩
    by_cases hid : id = s.scopes.size
    · have hscope : (s.newScope d).2.scope s.scopes.size = { discipline := d } :=
        scope_push_self s _
      rw [hid, hscope] at hl
      exact absurd hl.full (by simp)
    · exact hl.untouched (untouched_newScope s d hid)
  · exact fun id hown hm => ⟨hown, hm⟩

end

/-- A scope that is alive and kept takes something on. -/
theorem gain_grown {s : State} {id : ScopeId} {f : Scope → Scope} {deed : Deed}
    (alive : s.isAlive id = true) (kept : s.keepsScope id = true) (accepts : deed.accepts = true)
    (follows : deed.Follows s.system s.journal)
    (phase : (f (s.scope id)).phase = (s.scope id).phase)
    (discipline : (f (s.scope id)).discipline = (s.scope id).discipline)
    (blocks : (f (s.scope id)).blocks = (s.scope id).blocks ++ deed.block?.toList)
    (cleanups : (f (s.scope id)).cleanups = (s.scope id).cleanups ++ deed.cleanup?.toList) :
    Grown s ((s.modifyScope id f).record id deed) := by
  have halive : (s.scope id).phase = .alive := by
    simpa [isAlive, Scope.isAlive] using alive
  have hid : id < s.scopes.size := lt_size_of_phase (by rw [halive]; decide)
  have hretains : Retains s ((s.modifyScope id f).record id deed) := by
    refine retains_of_cleanups rfl rfl rfl fun other cleanup hc => ?_
    by_cases h : other = id
    · subst h
      show cleanup ∈ ((s.modifyScope other f).scope other).cleanups
      rw [scope_modifyScope_self f hid, cleanups]
      exact List.mem_append_left _ hc
    · rwa [(untouched_note s f deed h).cleanups]
  have hleads : Leads s ((s.modifyScope id f).record id deed) :=
    gain_leads halive accepts follows phase discipline blocks cleanups
  refine ⟨fun hs => ⟨hleads hs, rfl, fun ha => ha,
    fun hk => .inr ⟨fun other hown hl => ?_, fun other hown hm => ?_⟩⟩, hretains, rfl, rfl⟩
  · by_cases h : other = id
    · exact hretains.keepsScope (h ▸ kept)
    · exact hretains.keepsScope (hk.scopes other hown (hl.untouched (untouched_note s f deed h)))
  · exact hretains.keepsMapping (hk.mappings other hown hm)

theorem Grows.grown {s s' : State} (h : Grows s s') : Grown s s' := by
  induction h with
  | refl => exact ⟨.refl s, .refl s, rfl, rfl⟩
  | beside _ hb ih => exact ih.trans hb.grown
  | store memory arrays _ ih => exact ih.trans (store_grown _ memory arrays)
  | newScope d _ ih => exact ih.trans (newScope_grown _ d)
  | attach _ alive kept placed ih =>
    exact ih.trans (gain_grown alive kept rfl placed rfl rfl rfl (List.append_nil _).symm)
  | register _ alive kept _ ih =>
    exact ih.trans (gain_grown alive kept rfl trivial rfl rfl (List.append_nil _).symm rfl)

/-! ### What grows a session -/

section
variable {s s' : State} {t : Thread}

theorem Grows.of_beside (h : Beside s s') : Grows s s' := .beside .refl h

theorem Writes.grows {x : Segment} (h : Writes x s s') : Grows s s' := by
  obtain ⟨memory, rfl, -⟩ := h
  exact .store memory s.arrays .refl

theorem log_beside (s : State) (entry : LogEntry) : Beside s (s.log entry) := ⟨_, _, _, _, rfl⟩

theorem keepsScope_of_arena {arena : Arena} (h : arena ∈ s.handles.arenas.values) :
    s.keepsScope arena.scope = true :=
  keepsScope_iff.mpr (.inr (.inl ⟨arena, h, rfl⟩))

theorem keepsScope_of_segment {x : Segment} (h : x ∈ s.keptSegments) :
    s.keepsScope x.scope = true :=
  keepsScope_iff.mpr (.inr (.inr ⟨x, h, rfl⟩))

theorem scopeNamed_kept {scope : ScopeRef} {id : ScopeId} (h : s.scopeNamed scope = .ok id) :
    s.keepsScope id = true := by
  cases scope with
  | arena name =>
    obtain ⟨arena, harena, h⟩ := bind_eq_ok.mp h
    cases h
    exact keepsScope_of_arena (arenaNamed_mem harena)
  | segment name =>
    obtain ⟨x, hx, h⟩ := bind_eq_ok.mp h
    cases h
    exact keepsScope_of_segment (segmentNamed_mem hx)

theorem Allots.grows {id : ScopeId} {block : Block} (h : Allots s id block s')
    (kept : s.keepsScope id = true) : Grows s s' := by
  obtain ⟨memory, events, rfl, -⟩ := h.made
  exact ((Grows.refl.attach h.alive kept h.placed).store memory s.arrays).beside ⟨_, _, _, _, rfl⟩

end

end State

end ScopedMemory
