import ScopedMemory.Proofs.Effects
import ScopedMemory.Proofs.LettingGo

/-! Every operation is tidy.

What an operation gains grows the session, and what has lost its name is let go of. -/
namespace ScopedMemory

namespace State

/-! ### Tables of handles -/

section
variable {nested : Nested} {s s' : State} {t : Thread} {own : ScopeId → Prop}
  {mine : MappingId → Prop} {handles : Handles}

theorem handles_leads (s : State) (handles : Handles) : Leads s { s with handles } :=
  Alike.leads (.of_eq rfl rfl rfl)

/-- What a table loses is let go of. -/
theorem handles_tidy {segments : List Segment}
    (retains : Retains s (({ s with handles } : State).pin segments))
    (h : Neat segments { s with handles } s') : Tidy s s' := by
  intro hs
  have hcourse := handles_leads s handles hs
  have hsettling := h hcourse.sound
  exact ⟨hcourse.trans hsettling.course, hsettling.outgoing, hsettling.aborted, fun hk =>
    hsettling.kept (hk.retain retains (fun _ hown hl => ⟨hown, hl⟩) fun _ hown hm => ⟨hown, hm⟩)⟩

theorem mem_keptSegments_handles {segments : List Segment} {x : Segment}
    (hx : x ∈ s.keptSegments)
    (named : ∀ x ∈ s.handles.segments.values, x ∈ segments ∨ x ∈ handles.segments.values)
    (carved : ∀ c ∈ s.handles.allocators.values, c.segment ∈ segments ∨
      ∃ c' ∈ handles.allocators.values, c'.segment = c.segment) :
    x ∈ (({ s with handles } : State).pin segments).keptSegments := by
  rw [mem_keptSegments] at hx ⊢
  rcases hx with h | h | ⟨c, hc, rfl⟩ | h | h
  · exact .inl (List.mem_append_right _ h)
  · exact (named x h).elim (fun h => .inl (List.mem_append_left _ h)) (fun h => .inr (.inl h))
  · rcases carved c hc with h | ⟨c', hc', h⟩
    · exact .inl (List.mem_append_left _ h)
    · exact .inr (.inr (.inl ⟨c', hc', h⟩))
  · exact .inr (.inr (.inr (.inl h)))
  · exact .inr (.inr (.inr (.inr h)))

/-- **Names change** tidily. -/
theorem Renames.tidy {gained : List Segment} {f : Nested → State} (h : Renames t s gained f)
    (hn : nested.Tame) : Tidy s (f nested) := by
  obtain ⟨handles, lost, h⟩ := h
  have hretains : Retains s (({ s with handles } : State).pin lost) :=
    ⟨fun a ha => h.arenas ▸ ha, fun m hm => h.mappings ▸ hm,
      fun x hx => mem_keptSegments_handles hx h.named h.carved⟩
  exact handles_tidy hretains (releaseSegments_neat hn lost _)

/-- A table of arenas or mappings changes. -/
theorem clears_tidy (h : Sound { s with handles } → Clears own mine { s with handles } s')
    (kept : Kept s → KeptBut own mine { s with handles }) : Tidy s s' := by
  intro hs
  have hcourse := handles_leads s handles hs
  have hclears := h hcourse.sound
  exact ⟨hcourse.trans hclears.course, hclears.outgoing, hclears.aborted,
    fun hk => hclears.kept (kept hk)⟩

/-- Without an arena's handle, its scope alone may be left behind. -/
theorem KeptBut.loseArena {old : Arena} {arenas : Table Arena} (hk : Kept s)
    (h : ∀ a ∈ s.handles.arenas.values, a = old ∨ a ∈ arenas.values) :
    KeptBut (· = old.scope) (fun _ => False) { s with handles.arenas := arenas } where
  scopes id hid hl := by
    have hkeeps := keepsScope_iff.mp (hk.scopes id not_false hl)
    refine keepsScope_iff.mpr (hkeeps.imp_right (Or.imp_left ?_))
    rintro ⟨a, ha, rfl⟩
    rcases h a ha with rfl | ha
    · exact absurd rfl hid
    · exact ⟨a, ha, rfl⟩
  mappings := hk.mappings

/-- Without a mapping's handle, it alone may be left behind. -/
theorem KeptBut.loseMapping {old : MappingId} {mappings : Table MappingId} (hk : Kept s)
    (h : ∀ m ∈ s.handles.mappings.values, m = old ∨ m ∈ mappings.values) :
    KeptBut (fun _ => False) (· = old) { s with handles.mappings := mappings } where
  scopes := hk.scopes
  mappings id hid hm := by
    have hkeeps := keepsMapping_iff.mp (hk.mappings id not_false hm)
    refine keepsMapping_iff.mpr (hkeeps.imp_left fun hmem => ?_)
    exact (h id hmem).resolve_left hid

theorem bindArena_tidy (hn : nested.Tame) (s : State) (name : String) (arena : Arena) :
    Tidy s (s.bindArena nested t name arena) := by
  cases hold : s.handles.arenas.find? name with
  | none =>
    have hretains : Retains s (({ s with
        handles.arenas := s.handles.arenas.put name arena } : State).pin []) :=
      ⟨fun a ha => (mem_put_or ha).resolve_left (by simp [hold]), fun _ h => h, fun _ h => h⟩
    simp only [bindArena, hold]
    exact handles_tidy hretains (.refl _)
  | some old =>
    simp only [bindArena, hold]
    refine clears_tidy (fun hs => releaseArena_clears hn hs old) fun hk =>
      KeptBut.loseArena hk fun a ha => ?_
    exact (mem_put_or ha).imp_left fun h => by simpa [hold] using h.symm

/-- The session with a new mapping under a name. -/
def withMapping (s : State) (name : String) (mapping : Mapping) : State :=
  { s with
    mappings := s.mappings.push (some mapping)
    handles.mappings := s.handles.mappings.put name s.mappings.size }

theorem mapping?_withMapping {name : String} {mapping : Mapping} {m : MappingId}
    (h : m ≠ s.mappings.size) : (s.withMapping name mapping).mapping? m = s.mapping? m := by
  simp [mapping?, withMapping, Array.getElem?_push, h]

theorem mem_keptSegments_withMapping {name : String} {mapping : Mapping} {x : Segment}
    (hx : x ∈ s.keptSegments) : x ∈ (s.withMapping name mapping).keptSegments := by
  rw [mem_keptSegments] at hx ⊢
  rcases hx with h | h | h | ⟨m, mapping', hm, h⟩ | h
  · exact .inl h
  · exact .inr (.inl h)
  · exact .inr (.inr (.inl h))
  · refine .inr (.inr (.inr (.inl ⟨m, mapping', ?_, h⟩)))
    rw [mapping?_withMapping, hm]
    rintro rfl
    simp [mapping?] at hm
  · exact .inr (.inr (.inr (.inr h)))

/-- A new mapping that keeps what is kept anyway keeps nothing more. -/
theorem kept_of_withMapping {name : String} {mapping : Mapping} {x : Segment}
    (hm : ∀ y ∈ mapping.segments, y ∈ s.keptSegments)
    (hx : x ∈ (s.withMapping name mapping).keptSegments) : x ∈ s.keptSegments := by
  refine kept_of_mappings hx rfl rfl rfl rfl fun m mapping' hmapping y hy => ?_
  by_cases hnew : m = s.mappings.size
  · have hsame : mapping = mapping' := by simpa [mapping?, withMapping, hnew] using hmapping
    exact hm y (hsame ▸ hy)
  · exact kept_of_mapping ((mapping?_withMapping hnew).symm.trans hmapping) hy

/-- A new mapping is kept by its name; what had the name may be left behind. -/
theorem kept_withMapping {name : String} {mapping : Mapping}
    (mine : MappingId → Prop) (old : ∀ m, s.handles.mappings.find? name = some m → mine m)
    (hk : Kept s) : KeptBut (fun _ => False) mine (s.withMapping name mapping) where
  scopes id hid hl := by
    have hkeeps := keepsScope_iff.mp (hk.scopes id hid hl)
    refine keepsScope_iff.mpr (hkeeps.imp_right (Or.imp_right ?_))
    rintro ⟨x, hx, rfl⟩
    exact ⟨x, mem_keptSegments_withMapping hx, rfl⟩
  mappings m hmine hm := by
    by_cases hnew : m = s.mappings.size
    · exact keepsMapping_iff.mpr (.inl (Table.mem_values_put.mpr (.inl hnew)))
    · rw [mapping?_withMapping hnew] at hm
      rcases keepsMapping_iff.mp (hk.mappings m not_false hm) with h | ⟨x, hx, hb⟩
      · exact keepsMapping_iff.mpr (.inl ((mem_put_or h).resolve_left fun h => hmine (old m h)))
      · exact keepsMapping_iff.mpr (.inr ⟨x, mem_keptSegments_withMapping hx, hb⟩)

theorem withMapping_leads (s : State) (name : String) (mapping : Mapping) :
    Leads s (s.withMapping name mapping) :=
  Alike.leads (.of_eq rfl rfl rfl)

theorem bindMapping_tidy (hn : nested.Tame) (s : State) (name : String) (mapping : Mapping) :
    Tidy s (s.bindMapping nested name mapping) := by
  intro hs
  have hcourse := withMapping_leads s name mapping hs
  cases hold : s.handles.mappings.find? name with
  | none =>
    simp only [bindMapping, hold]
    exact ⟨hcourse, rfl, id, fun hk =>
      .inr (kept_withMapping (fun _ => False) (by simp [hold]) hk)⟩
  | some old =>
    have hclears := releaseMapping_clears (m := old) hn hcourse.sound
    simp only [bindMapping, hold]
    exact ⟨hcourse.trans hclears.course, hclears.outgoing, hclears.aborted, fun hk =>
      hclears.kept (kept_withMapping (· = old) (by simp [hold]) hk)⟩

/-! ### Operations -/

/-- What opening an arena does: it gets the scope of the process or a new one. -/
theorem openArena_ok {kind : ScopeKind} {config : Option ArenaConfig} {arena : Arena}
    (h : openArena t s kind config = .ok (arena, s')) :
    arena.scope = processScope ∧ Beside s s' ∨
      ∃ d s₁, Beside s s₁ ∧ arena.scope = s₁.scopes.size ∧ Beside (s₁.newScope d).2 s' := by
  have hcount : Beside s { s with arenas := s.arenas + 1 } := ⟨_, _, _, _, rfl⟩
  unfold openArena at h
  split at h
  · cases h
    exact .inl ⟨rfl, hcount⟩
  · obtain ⟨⟨⟩, -, h⟩ := bind_eq_ok.mp h
    cases h
    exact .inr ⟨_, _, hcount, rfl, log_beside _ _⟩

theorem openArena_grows {kind : ScopeKind} {config : Option ArenaConfig} {arena : Arena}
    (h : openArena t s kind config = .ok (arena, s')) : Grows s s' := by
  rcases openArena_ok h with ⟨-, hbeside⟩ | ⟨d, s₁, hbefore, -, hafter⟩
  · exact .of_beside hbeside
  · exact ((Grows.of_beside hbefore).newScope d).beside hafter

end

end State

open State

/-- **Whatever an operation does is tidy.** -/
theorem Does.tidy {nested : Nested} {t : Thread} {s : State} {operation : Operation}
    {f : Nested → Except Fault Answer × State} (h : Does t s operation f) (hn : nested.Tame) :
    Tidy s (f nested).2 := by
  cases h with
  | query => exact .refl s
  | name gains renames _ => exact gains.grows.tidy.trans (renames.tidy hn)
  | openArena hopen => exact (openArena_grows hopen).tidy.trans (bindArena_tidy hn _ _ _)
  | closeArena _ => exact closeArena_tidy hn _
  | @dropArena name arena harena =>
    refine clears_tidy (fun hs => releaseArena_clears hn hs arena) fun hk =>
      KeptBut.loseArena hk fun a ha => ?_
    exact (Table.find?_or_mem_erase ha).imp_left fun h => by
      simpa [named_eq_ok.mp harena] using h.symm
  | openMapping _ => exact bindMapping_tidy hn s _ _
  | @dropMapping name m hm =>
    refine clears_tidy (fun hs => releaseMapping_clears (m := m) hn hs) fun hk =>
      KeptBut.loseMapping hk fun m' hm' => ?_
    exact (Table.find?_or_mem_erase hm').imp_left fun h => by
      simpa [named_eq_ok.mp hm] using h.symm
  | ask _ => exact ask_tidy hn _ _ s

theorem Operation.perform_tidy {nested : Nested} (hn : nested.Tame) (t : Thread) (s : State)
    (operation : Operation) : Tidy s (operation.perform nested t s).2 :=
  (operation.perform_does t s).tidy hn

end ScopedMemory
