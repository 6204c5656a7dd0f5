import ScopedMemory.Proofs.Orderly

/-! Operations are done by moves, and so are callbacks that perform operations.

What an operation gains lasts (`Gains.lasting`). Names change calmly, as long as what gets one lasts
(`handles_goes`); what loses its name is let go of as everything is. -/
namespace ScopedMemory

namespace State

section
variable {origin s s' : State} {nested other : Nested} {x : Segment} {t : Thread}

/-! ### Tables of handles -/

/-- What has a name lasts. -/
theorem Company.named_lasting (hc : Company t origin nested other) (hr : Reached origin s) :
    (∀ y ∈ s.handles.segments.values, s.Lasting y.scope) ∧
    (∀ c ∈ s.handles.allocators.values, s.Lasting c.segment.scope) ∧
    ∀ a ∈ s.handles.arenas.values, s.Lasting a.scope :=
  ⟨fun _ hy => hc.lasting hr (kept_of_segment hy),
    fun _ hmem => hc.lasting hr (kept_of_carver hmem),
    fun _ ha => hr.path.keptLast hc.kept _ (keepsScope_of_arena ha)⟩

/-- Names change, and what has one lasts. -/
theorem handles_goes {handles : Handles} (hs : Sound s)
    (segments : ∀ y ∈ handles.segments.values, s.Lasting y.scope)
    (carvers : ∀ c ∈ handles.allocators.values, s.Lasting c.segment.scope)
    (arenas : ∀ a ∈ handles.arenas.values, s.Lasting a.scope) : Goes s { s with handles } := by
  refine ⟨.calm (.of_scopes rfl rfl rfl (fun y hy => ?_) fun a ha => .inr (arenas a ha))
    (.of_eq rfl rfl) (handles_leads s handles hs).sound (.of_mappings rfl), rfl⟩
  rcases mem_keptSegments.mp hy with h | h | ⟨c, hmem, rfl⟩ | ⟨_, _, hm, h⟩ | ⟨_, _, hc, h⟩
  · exact .inl (kept_of_outgoing h)
  · exact .inr (segments y h)
  · exact .inr (carvers c hmem)
  · exact .inl (kept_of_mapping hm h)
  · exact .inl (kept_of_cleanup hc h)

/-- **Names change** by moves. -/
theorem Renames.goes {gained : List Segment} {f : Nested → State} (h : Renames t s gained f)
    (hc : Company t origin nested other) (hr : Reached origin s)
    (lasting : ∀ x ∈ gained, s.Lasting x.scope) : Goes s (f nested) ∧ f other = f nested := by
  obtain ⟨handles, lost, h⟩ := h
  have hlasting : ∀ {x}, x ∈ gained ∨ x ∈ s.keptSegments → s.Lasting x.scope := fun hx =>
    hx.elim (lasting _) (hc.lasting hr)
  have harenas := (hc.named_lasting hr).2.2
  have hput : Goes s { s with handles } :=
    handles_goes hr.sound (fun x hx => hlasting (h.segments x hx))
      (fun c hmem => hlasting (h.carvers c hmem)) (h.arenas ▸ harenas)
  have hlost : ∀ x ∈ lost, s.Lasting x.scope := fun x hx => hlasting (h.known x hx)
  have hready : Ready origin (.release lost) { s with handles } :=
    ⟨hr.goes hput, hlost, fun _ hx => by cases hx⟩
  obtain ⟨hreleased, hagree⟩ := releaseSegments_goes hc hready
  exact ⟨hput.trans hreleased, hagree⟩

theorem bindArena_goes (hc : Company t origin nested other) (hr : Reached origin s) (name : String)
    {arena : Arena} (ha : s.Lasting arena.scope) :
    Goes s (s.bindArena nested t name arena) ∧
      s.bindArena other t name arena = s.bindArena nested t name arena := by
  obtain ⟨hsegments, hcarvers, harenas⟩ := hc.named_lasting hr
  have hput : Goes s { s with handles.arenas := s.handles.arenas.put name arena } :=
    handles_goes hr.sound hsegments hcarvers (put_forall ha harenas)
  cases hold : s.handles.arenas.find? name with
  | none =>
    simp only [bindArena, hold]
    exact ⟨hput, trivial⟩
  | some old =>
    obtain ⟨hreleased, hagree⟩ := releaseArena_goes hc (hr.goes hput) old
    simp only [bindArena, hold, hagree]
    exact ⟨hput.trans hreleased, trivial⟩

/-- A new mapping keeps what lasts. -/
theorem withMapping_goes (hs : Sound s) (name : String) {mapping : Mapping}
    (hm : ∀ y ∈ mapping.segments, y ∈ s.keptSegments) : Goes s (s.withMapping name mapping) := by
  have hcalm : Calm s (s.withMapping name mapping) :=
    .of_scopes rfl rfl rfl (fun _ hy => .inl (kept_of_withMapping hm hy)) fun _ ha => .inl ha
  refine ⟨.calm hcalm (.of_eq rfl rfl) (withMapping_leads s name mapping hs).sound
    fun y _ m mapping' _ hmapping => ?_, rfl⟩
  have hold : m ≠ s.mappings.size := by
    rintro rfl
    simp [mapping?] at hmapping
  exact ⟨mapping', (mapping?_withMapping hold).trans hmapping, rfl⟩

theorem bindMapping_goes (hc : Company t origin nested other) (hr : Reached origin s)
    (name : String) {mapping : Mapping} (hm : ∀ y ∈ mapping.segments, y ∈ s.keptSegments) :
    Goes s (s.bindMapping nested name mapping) ∧
      s.bindMapping other name mapping = s.bindMapping nested name mapping := by
  have hput := withMapping_goes hr.sound name hm
  cases hold : s.handles.mappings.find? name with
  | none =>
    simp only [bindMapping, hold]
    exact ⟨hput, trivial⟩
  | some old =>
    obtain ⟨hreleased, hagree⟩ := releaseMapping_goes hc (hr.goes hput) old
    simp only [bindMapping, hold]
    exact ⟨hput.trans hreleased, hagree⟩

/-! ### What is gained lasts -/

theorem Lasting.calm {id : ScopeId} (h : s.Lasting id) (hc : Calm s s') : s'.Lasting id :=
  h.congr (hc.discipline id h.lt_size) (hc.phase id h.lt_size)

theorem lasting_newScope (s : State) (d : Discipline) : (s.newScope d).2.Lasting s.scopes.size :=
  fun _ => isAlive_newScope s d

theorem Allots.lasting {id : ScopeId} {block : Block} (h : Allots s id block s')
    (kept : s.keepsScope id = true) : s'.Lasting id :=
  fun _ => (h.grows kept).alive h.alive

/-- **What is gained** is bound to scopes that last. -/
theorem Gains.lasting {operation : Operation} {gained : List Segment}
    (h : Gains t s operation gained s') (hk : KeptLast s) : ∀ x ∈ gained, s'.Lasting x.scope := by
  have hcalm := h.grows.calm
  cases h with
  | beside _ => exact List.forall_mem_nil _
  | fresh d => exact List.forall_mem_nil _
  | filled _ hx derived _ =>
    rw [List.forall_mem_singleton, derived.partOf.scope]
    exact (hk _ (keepsScope_of_segment hx)).calm hcalm
  | derived hx hderived =>
    rw [List.forall_mem_singleton, hderived.partOf.scope]
    exact hk _ (keepsScope_of_segment hx)
  | placed address size _ => exact List.forall_mem_singleton.mpr (lasting_newScope s .global)
  | array c values => exact List.forall_mem_singleton.mpr (lasting_newScope _ .global)
  | again _ _ _ => exact List.forall_mem_singleton.mpr (lasting_newScope s .global)
  | allotted harena _ hallots =>
    exact List.forall_mem_singleton.mpr (hallots.lasting (keepsScope_of_arena harena))
  | bound _ _ kept _ => exact List.forall_mem_singleton.mpr ((hk _ kept).calm hcalm)
  | registered _ _ kept _ _ _ _ => exact List.forall_mem_singleton.mpr ((hk _ kept).calm hcalm)

theorem openArena_lasting {kind : ScopeKind} {config : Option ArenaConfig} {arena : Arena}
    (hk : KeptLast s) (h : openArena t s kind config = .ok (arena, s')) : s'.Lasting arena.scope := by
  rcases openArena_ok h with ⟨hprocess, hbeside⟩ | ⟨d, s₁, -, hscope, hafter⟩
  · rw [hprocess]
    exact (hk _ (keepsScope_iff.mpr (.inl rfl))).calm (calm_beside hbeside)
  · rw [hscope]
    exact (lasting_newScope s₁ d).calm (calm_beside hafter)

end

end State

open State

/-! ### Operations -/

section
variable {origin s : State} {nested other : Nested} {t : Thread}

/-- What an operation does is done by moves, and whoever runs its callbacks where they may begin
does the same. -/
theorem Does.goes {operation : Operation} {f : Nested → Except Fault Answer × State}
    (h : Does t s operation f) (hc : Company t origin nested other) (hr : Reached origin s) :
    Goes s (f nested).2 ∧ f other = f nested := by
  have hk : KeptLast s := hr.path.keptLast hc.kept
  obtain ⟨hsegments, hcarvers, harenas⟩ := hc.named_lasting hr
  cases h with
  | query => exact ⟨.refl hr.sound, rfl⟩
  | name hgains hrenames _ =>
    have hgained := hgains.grows.goes hr.sound
    obtain ⟨hrenamed, hagree⟩ := hrenames.goes hc (hr.goes hgained) (hgains.lasting hk)
    exact ⟨hgained.trans hrenamed, congrArg (Prod.mk _) hagree⟩
  | @openArena name kind config arena s₁ hopen =>
    have hopened := (openArena_grows hopen).goes hr.sound
    obtain ⟨hbound, hagree⟩ := bindArena_goes hc (hr.goes hopened) name (openArena_lasting hk hopen)
    exact ⟨hopened.trans hbound, congrArg (Prod.mk _) hagree⟩
  | @closeArena arena _ =>
    obtain ⟨hclosed, hagree⟩ := closeArena_goes hc hr arena
    exact ⟨hclosed, by simp only [hagree]⟩
  | @dropArena name arena _ =>
    have herase : Goes s { s with handles.arenas := s.handles.arenas.erase name } :=
      handles_goes hr.sound hsegments hcarvers (erase_forall harenas)
    obtain ⟨hreleased, hagree⟩ := releaseArena_goes hc (hr.goes herase) arena
    exact ⟨herase.trans hreleased, congrArg (Prod.mk _) hagree⟩
  | @openMapping name mapping hkept =>
    obtain ⟨hbound, hagree⟩ := bindMapping_goes hc hr name hkept
    exact ⟨hbound, congrArg (Prod.mk _) hagree⟩
  | @dropMapping name m _ =>
    have herase : Goes s { s with handles.mappings := s.handles.mappings.erase name } :=
      handles_goes hr.sound hsegments hcarvers harenas
    obtain ⟨hreleased, hagree⟩ := releaseMapping_goes hc (hr.goes herase) m
    exact ⟨herase.trans hreleased, congrArg (Prod.mk _) hagree⟩
  | @ask x request hx =>
    obtain ⟨hasked, hagree⟩ := ask_goes hc hr hx request
    exact ⟨hasked, by simp only [hagree]⟩

/-- **Every operation** is done by moves. -/
theorem Operation.perform_goes (hc : Company t origin nested other) (hr : Reached origin s)
    (operation : Operation) :
    Goes s (operation.perform nested t s).2 ∧
      operation.perform other t s = operation.perform nested t s :=
  (operation.perform_does t s).goes hc hr

end

end ScopedMemory
