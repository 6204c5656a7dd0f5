import Mathlib.Data.List.Nodup
import ScopedMemory.Proofs.Histories

/-! What keeps scopes and mappings.

Between operations every scope that still has something to release is kept, and so is every mapping
(`Kept`): nothing is left behind by the handles that go. While handles are let go of, the scope or
the mapping that is being looked at is exempt (`KeptBut`). -/
namespace ScopedMemory

/-! ### Tables -/

namespace Table
variable {α : Type} {t : Table α} {name : String} {v x : α}

theorem mem_values_of_find? (h : t.find? name = some v) : v ∈ t.values := by
  obtain ⟨entry, hentry, rfl⟩ := Option.map_eq_some_iff.mp h
  exact List.mem_map_of_mem (List.mem_of_find?_eq_some hentry)

theorem mem_values_put : x ∈ (t.put name v).values ↔ x = v ∨ x ∈ (t.erase name).values := by
  simp [values, put]

theorem mem_values_of_erase (h : x ∈ (t.erase name).values) : x ∈ t.values := by
  obtain ⟨entry, hentry, rfl⟩ := List.mem_map.mp h
  exact List.mem_map_of_mem (List.mem_filter.mp hentry).1

/-- What is no longer in the table had the name. -/
theorem find?_or_mem_erase (h : x ∈ t.values) :
    t.find? name = some x ∨ x ∈ (t.erase name).values := by
  obtain ⟨⟨key, value⟩, hentry, rfl⟩ := List.mem_map.mp h
  by_cases hkey : key = name
  · left
    subst hkey
    have hfound : t.entries.find? (fun entry => entry.1 = key) = some (key, value) := by
      obtain ⟨found, hfound⟩ : ∃ found, t.entries.find? (fun entry => entry.1 = key) = some found := by
        apply Option.isSome_iff_exists.mp
        rw [List.find?_isSome]
        exact ⟨_, hentry, by simp⟩
      have hsame : found.1 = key := by simpa using List.find?_some hfound
      -- Two entries of one name are the same entry.
      have : found = (key, value) :=
        List.inj_on_of_nodup_map t.unique (List.mem_of_find?_eq_some hfound) hentry hsame
      rw [hfound, this]
    rw [find?, hfound, Option.map_some]
  · right
    refine List.mem_map_of_mem (a := (key, value)) (List.mem_filter.mpr ⟨hentry, ?_⟩)
    simpa using hkey

theorem find?_put (other : String) :
    (t.put name v).find? other = if other = name then some v else t.find? other := by
  unfold find? put
  by_cases heq : other = name
  · simp [heq]
  · have hne : name ≠ other := fun h => heq h.symm
    have hsame : (t.erase name).entries.find? (·.1 = other) = t.entries.find? (·.1 = other) := by
      unfold erase
      rw [List.find?_filter]
      congr 1
      funext entry
      by_cases hentry : entry.1 = other
      · simp [hentry, heq]
      · simp [hentry]
    simp [heq, hne, hsame]

end Table

/-- What a scripted mapping keeps is kept by what it does at one of the requests. -/
theorem Mapping.mem_segments_scripted {m : ScriptedMapping} {x : Segment} :
    x ∈ (Mapping.scripted m).segments ↔ ∃ request, x ∈ (m.scripts.get request).segments := by
  simp only [Mapping.segments, PerRequest.toList, List.mem_flatMap, List.mem_cons, List.not_mem_nil,
    or_false]
  constructor
  · rintro ⟨script, rfl | rfl | rfl | rfl, hx⟩
    · exact ⟨.load, hx⟩
    · exact ⟨.unload, hx⟩
    · exact ⟨.isLoaded, hx⟩
    · exact ⟨.force, hx⟩
  · rintro ⟨request, hx⟩
    refine ⟨m.scripts.get request, ?_, hx⟩
    cases request <;> simp [PerRequest.get]

theorem Script.forall_segments_cons {P : Segment → Prop} {action : Action ArenaId Segment}
    {rest : Script} : (∀ x ∈ Script.segments (action :: rest), P x) ↔
      (∀ x ∈ action.segment?, P x) ∧ ∀ x ∈ rest.segments, P x := by
  unfold Script.segments
  cases hx : action.segment? <;> simp [hx]

namespace State

/-! ### Keepers -/

theorem mem_keptSegments {s : State} {x : Segment} :
    x ∈ s.keptSegments ↔ x ∈ s.outgoing ∨ x ∈ s.handles.segments.values ∨
      (∃ carver ∈ s.handles.allocators.values, carver.segment = x) ∨
      (∃ id mapping, s.mapping? id = some mapping ∧ x ∈ mapping.segments) ∨
      ∃ id, ∃ cleanup ∈ (s.scope id).cleanups, x ∈ cleanup.script.segments := by
  have hmappings : x ∈ s.mappings.toList.flatMap (fun m => (m.map Mapping.segments).getD []) ↔
      ∃ id mapping, s.mapping? id = some mapping ∧ x ∈ mapping.segments := by
    rw [List.mem_flatMap]
    constructor
    · rintro ⟨m, hm, hx⟩
      obtain ⟨id, hid, rfl⟩ := List.getElem_of_mem hm
      cases hmap : s.mappings.toList[id] with
      | none => simp [hmap] at hx
      | some mapping =>
        refine ⟨id, mapping, ?_, by simpa [hmap] using hx⟩
        simp only [mapping?]
        rw [← Array.getElem?_toList, List.getElem?_eq_getElem hid, hmap]
        rfl
    · rintro ⟨id, mapping, hm, hx⟩
      have hid : s.mappings[id]? = some (some mapping) := Option.join_eq_some_iff.mp hm
      exact ⟨some mapping, Array.mem_toList_iff.mpr (Array.mem_of_getElem? hid), hx⟩
  have hscopes : (x ∈ s.scopes.toList.flatMap fun scope => scope.cleanups.flatMap (·.script.segments)) ↔
      ∃ id, ∃ cleanup ∈ (s.scope id).cleanups, x ∈ cleanup.script.segments := by
    rw [List.mem_flatMap]
    constructor
    · rintro ⟨scope, hscope, hx⟩
      obtain ⟨id, hid, rfl⟩ := List.getElem_of_mem hscope
      refine ⟨id, ?_⟩
      have : s.scope id = s.scopes.toList[id] := by
        simp [State.scope, Array.getD_eq_getD_getElem?, Array.getElem?_eq_getElem (by simpa using hid)]
      rw [this]
      exact List.mem_flatMap.mp hx
    · rintro ⟨id, cleanup, hc, hx⟩
      have hid : id < s.scopes.size := by
        by_contra hid
        rw [scope_of_size_le (Nat.le_of_not_lt hid)] at hc
        cases hc
      refine ⟨s.scope id, ?_, List.mem_flatMap.mpr ⟨cleanup, hc, hx⟩⟩
      simp [State.scope, Array.getD_eq_getD_getElem?, hid]
  simp only [keptSegments, List.mem_append, hmappings, hscopes, List.mem_map, or_assoc]

section
variable {s s' : State} {x : Segment}

theorem kept_of_outgoing (h : x ∈ s.outgoing) : x ∈ s.keptSegments :=
  mem_keptSegments.mpr (.inl h)

theorem kept_of_segment (h : x ∈ s.handles.segments.values) : x ∈ s.keptSegments :=
  mem_keptSegments.mpr (.inr (.inl h))

theorem kept_of_carver {carver : Carver} (h : carver ∈ s.handles.allocators.values) :
    carver.segment ∈ s.keptSegments :=
  mem_keptSegments.mpr (.inr (.inr (.inl ⟨carver, h, rfl⟩)))

theorem kept_of_mapping {id : MappingId} {mapping : Mapping} (hm : s.mapping? id = some mapping)
    (hx : x ∈ mapping.segments) : x ∈ s.keptSegments :=
  mem_keptSegments.mpr (.inr (.inr (.inr (.inl ⟨id, mapping, hm, hx⟩))))

theorem kept_of_cleanup {id : ScopeId} {cleanup : Cleanup}
    (hc : cleanup ∈ (s.scope id).cleanups) (hx : x ∈ cleanup.script.segments) :
    x ∈ s.keptSegments :=
  mem_keptSegments.mpr (.inr (.inr (.inr (.inr ⟨id, cleanup, hc, hx⟩))))

/-- Mappings change, but keep nothing that is not kept anyway. -/
theorem kept_of_mappings (hx : x ∈ s'.keptSegments) (outgoing : s'.outgoing = s.outgoing)
    (segments : s'.handles.segments = s.handles.segments)
    (allocators : s'.handles.allocators = s.handles.allocators) (scopes : s'.scopes = s.scopes)
    (mappings : ∀ id mapping, s'.mapping? id = some mapping →
      ∀ x ∈ mapping.segments, x ∈ s.keptSegments) : x ∈ s.keptSegments := by
  rcases mem_keptSegments.mp hx with h | h | ⟨carver, h, rfl⟩ | ⟨id, mapping, hm, h⟩ |
    ⟨id, cleanup, hc, h⟩
  · exact kept_of_outgoing (outgoing ▸ h)
  · exact kept_of_segment (segments ▸ h)
  · exact kept_of_carver (allocators ▸ h)
  · exact mappings id mapping hm x h
  · rw [scope, scopes] at hc
    exact kept_of_cleanup hc h

end

theorem keepsScope_iff {s : State} {id : ScopeId} :
    s.keepsScope id = true ↔ id = processScope ∨
      (∃ arena ∈ s.handles.arenas.values, arena.scope = id) ∨ ∃ x ∈ s.keptSegments, x.scope = id := by
  simp [keepsScope, or_assoc]

theorem keepsMapping_iff {s : State} {id : MappingId} :
    s.keepsMapping id = true ↔ id ∈ s.handles.mappings.values ∨
      ∃ x ∈ s.keptSegments, x.backing = .mapped id := by
  simp [keepsMapping]

/-- Whatever the one state keeps, the other keeps too. -/
structure Retains (s s' : State) : Prop where
  arenas : ∀ arena ∈ s.handles.arenas.values, arena ∈ s'.handles.arenas.values
  mappings : ∀ id ∈ s.handles.mappings.values, id ∈ s'.handles.mappings.values
  segments : ∀ x ∈ s.keptSegments, x ∈ s'.keptSegments

theorem Retains.keepsScope {s s' : State} (h : Retains s s') {id : ScopeId}
    (hk : s.keepsScope id = true) : s'.keepsScope id = true := by
  rw [keepsScope_iff] at hk ⊢
  rcases hk with hp | ⟨arena, ha, rfl⟩ | ⟨x, hx, rfl⟩
  · exact .inl hp
  · exact .inr (.inl ⟨arena, h.arenas arena ha, rfl⟩)
  · exact .inr (.inr ⟨x, h.segments x hx, rfl⟩)

theorem Retains.keepsMapping {s s' : State} (h : Retains s s') {id : MappingId}
    (hk : s.keepsMapping id = true) : s'.keepsMapping id = true := by
  rw [keepsMapping_iff] at hk ⊢
  rcases hk with hm | ⟨x, hx, hb⟩
  · exact .inl (h.mappings id hm)
  · exact .inr ⟨x, h.segments x hx, hb⟩

/-! ### Nothing is left behind -/

/-- The scope has something to release. -/
structure Laden (scope : Scope) : Prop where
  unended : scope.phase ≠ .closed
  full : scope.cleanups ≠ [] ∨ scope.blocks ≠ []

/-- All but these scopes and mappings are kept as long as they are needed. -/
structure KeptBut (own : ScopeId → Prop) (mine : MappingId → Prop) (s : State) : Prop where
  scopes : ∀ id, ¬ own id → Laden (s.scope id) → s.keepsScope id = true
  mappings : ∀ id, ¬ mine id → (s.mapping? id).isSome = true → s.keepsMapping id = true

abbrev Kept : State → Prop := KeptBut (fun _ => False) (fun _ => False)

theorem KeptBut.retain {own own' : ScopeId → Prop} {mine mine' : MappingId → Prop} {s s' : State}
    (h : KeptBut own mine s) (hr : Retains s s')
    (scopes : ∀ id, ¬ own' id → Laden (s'.scope id) → ¬ own id ∧ Laden (s.scope id))
    (mappings : ∀ id, ¬ mine' id → (s'.mapping? id).isSome = true →
      ¬ mine id ∧ (s.mapping? id).isSome = true) : KeptBut own' mine' s' where
  scopes id hown hl := hr.keepsScope (h.scopes id (scopes id hown hl).1 (scopes id hown hl).2)
  mappings id hown hm :=
    hr.keepsMapping (h.mappings id (mappings id hown hm).1 (mappings id hown hm).2)

/-- The state in which these segments are still there. -/
def pin (s : State) (segments : List Segment) : State :=
  { s with outgoing := segments ++ s.outgoing }

/-- How a session goes on after these segments have lost their keeper: unless it is aborted, nothing
is left behind. -/
structure Settling (segments : List Segment) (s s' : State) : Prop where
  course : Course (fun _ => False) s s'
  outgoing : s'.outgoing = s.outgoing
  aborted : s.aborted = true → s'.aborted = true
  kept : Kept (s.pin segments) → s'.aborted = true ∨ Kept s'

def Neat (segments : List Segment) (s s' : State) : Prop := Sound s → Settling segments s s'

abbrev Tidy : State → State → Prop := Neat []

section
variable {segments : List Segment} {s s' s'' : State}

theorem Neat.refl (s : State) : Tidy s s := fun hs => ⟨.refl hs, rfl, id, .inr⟩

theorem Neat.trans (h : Neat segments s s') (h' : Tidy s' s'') : Neat segments s s'' := by
  intro hs
  have h₁ := h hs
  have h₂ := h' h₁.course.sound
  exact
    { course := h₁.course.trans h₂.course
      outgoing := h₂.outgoing.trans h₁.outgoing
      aborted := fun ha => h₂.aborted (h₁.aborted ha)
      kept := fun hk => (h₁.kept hk).elim (fun ha => .inl (h₂.aborted ha)) h₂.kept }

theorem outgoing_leads (s : State) (outgoing : List Segment) {own : ScopeId → Prop} :
    LeadsBut own s { s with outgoing } :=
  Alike.leads (.of_eq rfl rfl rfl)

theorem pin_outgoing {others : List Segment} (h : s.outgoing = segments ++ others) :
    ({ s with outgoing := others } : State).pin segments = s := by
  show ({ s with outgoing := segments ++ others } : State) = s
  rw [← h]

/-- Segments stay while something is done, and are let go of afterwards. -/
theorem Neat.release (h : Tidy (s.pin segments) s')
    (h' : Neat segments { s' with outgoing := s.outgoing } s'') : Neat segments s s'' := by
  intro hs
  have hpinned : Course (fun _ => False) s (s.pin segments) := outgoing_leads s _ hs
  have h₁ := h hpinned.sound
  have hunpinned : Course (fun _ => False) s' { s' with outgoing := s.outgoing } :=
    outgoing_leads s' _ h₁.course.sound
  have h₂ := h' hunpinned.sound
  refine ⟨hpinned.trans (h₁.course.trans (hunpinned.trans h₂.course)), h₂.outgoing,
    fun ha => h₂.aborted (h₁.aborted ha), fun hk => ?_⟩
  have hkept := h₂.kept
  rw [pin_outgoing h₁.outgoing] at hkept
  exact (h₁.kept hk).elim (fun ha => .inl (h₂.aborted ha)) hkept

end

end State

end ScopedMemory
