import ScopedMemory.Proofs.Performing
import ScopedMemory.Proofs.Waning

/-! Sessions without tokens.

As long as no token is used, every segment that something keeps comes from an allocation, and a
scope that cannot be closed is alive while anything keeps it (`Guarded`). The bytes of an allocation
then change only through segments that are derived from it (`Secure`). -/
namespace ScopedMemory

namespace State

/-- The scope is alive, or it can be closed. -/
def Lasting (s : State) (id : ScopeId) : Prop :=
  (s.scope id).discipline.kind.closeable = false → s.isAlive id = true

structure Guarded (s : State) : Prop where
  sound : Sound s
  system : s.system.Sound
  numbered : Numbered s
  still : Still s
  segments : ∀ x ∈ s.keptSegments, s.Rooted x
  scopes : ∀ id, s.keepsScope id = true → s.Lasting id

/-- How a guarded session goes on. The bytes of an allocation whose scope stays alive change only
where something is written through a segment that is derived from it. -/
structure Secure (through : Option Segment) (s s' : State) : Prop where
  course : Course (fun _ => False) s s'
  extended : Extends s s'
  guarded : Guarded s'
  steady : ∀ origin y, s.Derives origin y → s.isAlive y.scope = true → s'.isAlive y.scope = true →
    ∀ space address, y.Covers space address →
      s'.memory.read space address = s.memory.read space address ∨
      ∃ x, through = some x ∧ s.Derives origin x ∧ x.Covers space address

section
variable {s s' s'' : State} {id : ScopeId} {through : Option Segment}

theorem isAlive_iff : s.isAlive id = true ↔ (s.scope id).phase = .alive := by
  simp [isAlive, Scope.isAlive]

theorem lt_size_of_alive (h : s.isAlive id = true) : id < s.scopes.size :=
  lt_size_of_phase (by rw [isAlive_iff.mp h]; decide)

/-- A thread that was let in finds the scope alive. -/
theorem checkEntry_alive {t : Thread} {u : Unit}
    (h : s.checkEntry t id = .ok u) (lasting : s.Lasting id) : s.isAlive id = true := by
  unfold checkEntry at h
  split at h
  · obtain ⟨⟨⟩, halive, -⟩ := bind_eq_ok.mp h
    exact checkAlive_eq_ok.mp halive
  · exact checkAlive_eq_ok.mp h
  · rename_i hd
    exact lasting (by rw [hd]; rfl)
  · rename_i hd
    exact lasting (by rw [hd]; rfl)

/-- What has ended stays so. -/
theorem Course.alive_before (h : Course (fun _ => False) s s') (hs : Sound s)
    (hid : id < s.scopes.size) (alive : s'.isAlive id = true) : s.isAlive id = true := by
  rcases hs.phases id with hclosed | hopen
  · have hphase := (h.ended id hid not_false hclosed).phase
    rw [isAlive_iff.mp alive, hclosed] at hphase
    cases hphase
  · exact isAlive_iff.mpr hopen.1

theorem Secure.refl (h : Guarded s) : Secure through s s :=
  ⟨.refl h.sound, .refl s, h, fun _ _ _ _ _ _ _ _ => .inl rfl⟩

theorem Secure.trans (h : Secure through s s') (h' : Secure none s' s'') :
    Secure through s s'' where
  course := h.course.trans h'.course
  extended := h.extended.trans h'.extended
  guarded := h'.guarded
  steady origin y hy alive alive'' space address hc := by
    have hid := lt_size_of_alive alive
    have alive' := h'.course.alive_before h.guarded.sound
      (Nat.lt_of_lt_of_le hid h.course.size_le) alive''
    rcases h'.steady origin y (hy.extend h.extended) alive' alive'' space address hc with heq | hx
    · rw [heq]
      exact h.steady origin y hy alive alive' space address hc
    · obtain ⟨x, hx, -⟩ := hx
      cases hx

theorem Secure.widen (h : Secure none s s') : Secure through s s' :=
  { h with
    steady := fun origin y hy alive alive' space address hc =>
      (h.steady origin y hy alive alive' space address hc).imp_right fun hx => by
        obtain ⟨x, hx, -⟩ := hx
        cases hx }

/-! ### Growing -/

theorem Grows.alive (h : Grows s s') (alive : s.isAlive id = true) : s'.isAlive id = true := by
  induction h with
  | refl => exact alive
  | beside _ hb ih =>
    rw [isAlive_iff] at ih ⊢
    rw [hb.alike.phase, ih]
  | store memory arrays _ ih => exact ih
  | newScope d _ ih =>
    have hne := Nat.ne_of_lt (lt_size_of_alive ih)
    rw [isAlive_iff] at ih ⊢
    rw [(untouched_newScope _ d hne).phase, ih]
  | @attach s' other block _ halive _ _ ih =>
    have hid := lt_size_of_alive halive
    rw [isAlive_iff] at ih ⊢
    by_cases heq : id = other
    · subst heq
      exact (congrArg Scope.phase (scope_modifyScope_self _ hid)).trans ih
    · exact (congrArg Scope.phase (scope_modifyScope_other _ heq)).trans ih
  | @register s' other cleanup _ halive _ _ ih =>
    have hid := lt_size_of_alive halive
    rw [isAlive_iff] at ih ⊢
    by_cases heq : id = other
    · subst heq
      exact (congrArg Scope.phase (scope_modifyScope_self _ hid)).trans ih
    · exact (congrArg Scope.phase (scope_modifyScope_other _ heq)).trans ih

/-- Without cleanups, what is kept shows in handles, mappings and what is on its way out. -/
theorem retains_of_still (still : Still s) (handles : s'.handles = s.handles)
    (outgoing : s'.outgoing = s.outgoing) (mappings : s'.mappings = s.mappings) : Retains s s' :=
  retains_of_cleanups handles outgoing mappings fun id cleanup hc => by
    rw [still id] at hc
    cases hc

theorem Lasting.course (h : s.Lasting id) (hcourse : Course (fun _ => False) s s')
    (alive : s.isAlive id = true → s'.isAlive id = true) : s'.Lasting id := by
  intro hlast
  by_cases hid : id < s.scopes.size
  · rw [hcourse.discipline id hid] at hlast
    exact alive (h hlast)
  · have hnone := scope_of_size_le (Nat.le_of_not_lt hid)
    have hmissing : s.isAlive id = true := h (by rw [hnone]; rfl)
    exact absurd (lt_size_of_alive hmissing) hid

theorem Guarded.grow (h : Guarded s) (hgrows : Grows s s') (still : Still s')
    (extended : Extends s s') (numbered : Numbered s') : Guarded s' := by
  have htidy := hgrows.tidy h.sound
  have hretains : Retains s' s := retains_of_still still hgrows.grown.handles.symm
    htidy.outgoing.symm hgrows.grown.mappings.symm
  exact
    { sound := htidy.course.sound
      system := htidy.course.system ▸ h.system
      numbered := numbered
      still := still
      segments := fun x hx => (h.segments x (hretains.segments x hx)).extend extended
      scopes := fun id hk =>
        (h.scopes id (hretains.keepsScope hk)).course htidy.course hgrows.alive }

/-- A session that grows is secure if memory stays as it is but for what is written through a kept
segment and what belongs to no allocation yet. -/
theorem Guarded.secure_grow (h : Guarded s) (hgrows : Grows s s') (still : Still s')
    (extended : Extends s s') (numbered : Numbered s')
    (memory : ∀ origin y, s.Derives origin y → s.isAlive y.scope = true →
      s'.isAlive y.scope = true → ∀ space address, y.Covers space address →
      s'.memory.read space address = s.memory.read space address) : Secure through s s' :=
  ⟨(hgrows.tidy h.sound).course, extended, h.grow hgrows still extended numbered,
    fun origin y hy alive alive' space address hc =>
      .inl (memory origin y hy alive alive' space address hc)⟩

theorem Beside.secure (hb : Beside s s') (h : Guarded s) : Secure through s s' := by
  have hgrows := Grows.of_beside hb
  obtain ⟨_, _, _, _, rfl⟩ := hb
  exact h.secure_grow hgrows h.still ⟨List.prefix_rfl, fun _ _ h => h⟩ h.numbered
    fun _ _ _ _ _ _ _ _ => rfl

theorem newScope_still (still : Still s) (d : Discipline) : Still (s.newScope d).2 := by
  intro id
  by_cases heq : id = s.scopes.size
  · rw [heq]
    exact congrArg Scope.cleanups (scope_push_self s _)
  · exact (untouched_newScope s d heq).cleanups.trans (still id)

theorem isAlive_newScope (s : State) (d : Discipline) :
    (s.newScope d).2.isAlive s.scopes.size = true :=
  isAlive_iff.mpr (congrArg Scope.phase (scope_push_self s _))

theorem newScope_secure (h : Guarded s) (d : Discipline) : Secure through s (s.newScope d).2 :=
  h.secure_grow (.newScope d .refl) (newScope_still h.still d)
    ⟨List.prefix_append _ _, fun _ _ h => h⟩ h.numbered fun _ _ _ _ _ _ _ _ => rfl

theorem gainBlock_still (still : Still s) (hid : id < s.scopes.size) (block : Block) :
    Still (s.gainBlock id block) := by
  intro other
  by_cases heq : other = id
  · subst heq
    exact (congrArg Scope.cleanups (scope_modifyScope_self _ hid)).trans (still other)
  · exact (congrArg Scope.cleanups (scope_modifyScope_other _ heq)).trans (still other)

/-- What is written through a kept segment stays inside of its allocation. -/
theorem Writes.secure {x z : Segment} (hw : Writes z s s') (hz : z.PartOf x) (h : Guarded s)
    (hx : s.Rooted x) (alive : s.isAlive x.scope = true) : Secure (some x) s s' := by
  have hgrows := hw.grows
  obtain ⟨memory, rfl, hsame⟩ := hw
  refine ⟨(hgrows.tidy h.sound).course, ⟨List.prefix_rfl, fun _ _ h => h⟩,
    h.grow hgrows h.still ⟨List.prefix_rfl, fun _ _ h => h⟩ h.numbered, ?_⟩
  intro origin y hy alive' _ space address hc
  by_cases hcovers : x.Covers space address
  · -- Both segments cover the byte, so that they come from one allocation.
    refine .inr ⟨x, rfl, ?_, hcovers⟩
    rcases hx with ⟨-, hempty⟩ | ⟨origin', hx⟩
    · have hnone := hcovers.2
      simp [Memory.within, hempty] at hnone
    · by_cases heq : origin' = origin
      · exact heq ▸ hx
      · exact absurd hc (hx.disjoint h.sound h.system h.numbered hy heq alive alive' hcovers)
  · exact .inl (hsame space address fun hcz => hcovers (hz.covers hcz))

end

/-! ### Letting go -/

section
variable {s s' : State}

theorem Wanes.secure (hw : Wanes s s') (h : Guarded s) (hcourse : Course (fun _ => False) s s') :
    Secure none s s' := by
  have hextends : Extends s s' := ⟨hcourse.journal, fun number array ha => by rwa [hw.arrays]⟩
  have hguarded : Guarded s' :=
    { sound := hcourse.sound
      system := hcourse.system ▸ h.system
      numbered := fun number array ha => h.numbered number array (by rwa [← hw.arrays])
      still := hw.still h.still
      segments := fun x hx => (h.segments x (hw.retains.segments x hx)).extend hextends
      scopes := fun id hk hlast => by
        have hlasting := h.scopes id (hw.retains.keepsScope hk)
        rcases hw.scopes id with heq | hends
        · rw [isAlive, heq]
          exact hlasting (heq ▸ hlast)
        · rw [hends.discipline] at hlast
          rcases hends.cause with hcloseable | hunkept
          · rw [hlast] at hcloseable
            cases hcloseable
          · rw [hk] at hunkept
            cases hunkept }
  refine ⟨hcourse, hextends, hguarded, fun origin y hy alive alive' space address hc => .inl ?_⟩
  apply hw.memory
  rintro id hends block hblock rfl hcovers
  -- The blocks of the scope that ends were attached next to those of the scope that stays alive.
  have hopen := (h.sound.phases id).resolve_left hends.unended
  obtain ⟨entry, hlt, hentry⟩ := List.getElem_of_mem (hopen.attached hblock)
  have hends' : s.journal[entry]? = some ⟨id, .attached block⟩ :=
    List.getElem?_eq_some_iff.mpr ⟨hlt, hentry⟩
  rcases hy.cases with ⟨entry', block', -, hentry', hpart⟩ | ⟨number, array, -, -, hpart⟩
  · have hne : entry ≠ entry' := by
      rintro rfl
      rw [hends'] at hentry'
      have hscope : id = y.scope := congrArg Entry.scope (Option.some.inj hentry')
      rw [← hscope, isAlive_iff, hends.closed] at alive'
      cases alive'
    exact h.sound.disjoint h.system hne hends' hentry' (isAlive_iff.mpr hopen.1) alive hcovers
      (hpart.covers hc).2
  · have hspace : Space.native = .array array.id := (hpart.covers hc).1
    cases hspace

end

/-! ### Handles -/

/-- Something may keep the segment. -/
def Keepable (s : State) (x : Segment) : Prop := s.Rooted x ∧ s.Lasting x.scope

section
variable {s s' : State}

theorem Guarded.keepable (h : Guarded s) {x : Segment} (hx : x ∈ s.keptSegments) : s.Keepable x :=
  ⟨h.segments x hx, h.scopes _ (keepsScope_of_segment hx)⟩

theorem Secure.keepable {through : Option Segment} {x : Segment} (hx : s.Keepable x)
    (h : Secure through s s') (alive : s.isAlive x.scope = true → s'.isAlive x.scope = true) :
    s'.Keepable x :=
  ⟨hx.1.extend h.extended, hx.2.course h.course alive⟩

/-- Handles and mappings may change, as long as what they keep may be kept. -/
theorem rekeep_secure {handles : Handles} {mappings : Array (Option Mapping)} (h : Guarded s)
    (segments : ∀ x ∈ ({ s with handles, mappings } : State).keptSegments, s.Keepable x)
    (arenas : ∀ a ∈ handles.arenas.values, s.Lasting a.scope) :
    Secure none s { s with handles, mappings } := by
  have hcourse : Course (fun _ => False) s { s with handles, mappings } :=
    Alike.leads (.of_eq rfl rfl rfl) h.sound
  have hextends : Extends s { s with handles, mappings } := ⟨List.prefix_rfl, fun _ _ h => h⟩
  refine ⟨hcourse, hextends, ⟨hcourse.sound, h.system, h.numbered, h.still,
    fun x hx => (segments x hx).1.extend hextends, fun id hk => ?_⟩,
    fun _ _ _ _ _ _ _ _ => .inl rfl⟩
  rcases keepsScope_iff.mp hk with rfl | ⟨arena, ha, rfl⟩ | ⟨x, hx, rfl⟩
  · exact h.scopes _ (keepsScope_iff.mpr (.inl rfl))
  · exact arenas arena ha
  · exact (segments x hx).2

theorem handles_secure {handles : Handles} (h : Guarded s)
    (segments : ∀ x ∈ handles.segments.values, s.Keepable x)
    (carvers : ∀ c ∈ handles.allocators.values, s.Keepable c.segment)
    (arenas : ∀ a ∈ handles.arenas.values, s.Lasting a.scope) :
    Secure none s { s with handles } := by
  refine rekeep_secure h (fun x hx => ?_) arenas
  rcases mem_keptSegments.mp hx with hx | hx | ⟨c, hc, rfl⟩ | ⟨_, _, hm, hx⟩ | ⟨_, _, hc, hx⟩
  · exact h.keepable (kept_of_outgoing hx)
  · exact segments x hx
  · exact carvers c hc
  · exact h.keepable (kept_of_mapping hm hx)
  · exact h.keepable (kept_of_cleanup hc hx)

theorem Guarded.segment_keepable (h : Guarded s) :
    ∀ x ∈ s.handles.segments.values, s.Keepable x := fun _ hx =>
  h.keepable (kept_of_segment hx)

theorem Guarded.carver_keepable (h : Guarded s) :
    ∀ c ∈ s.handles.allocators.values, s.Keepable c.segment := fun _ hc =>
  h.keepable (kept_of_carver hc)

theorem Guarded.arena_lasting (h : Guarded s) :
    ∀ a ∈ s.handles.arenas.values, s.Lasting a.scope := fun _ ha =>
  h.scopes _ (keepsScope_of_arena ha)

end

section
variable {nested : Nested} {t : Thread} {s : State}

/-- **Names change** securely, if what has been gained may be kept. -/
theorem Renames.secure {gained : List Segment} {f : Nested → State} (hr : Renames t s gained f)
    (hn : nested.Tame) (h : Guarded s) (keepable : ∀ x ∈ gained, s.Keepable x) :
    Secure none s (f nested) := by
  obtain ⟨handles, lost, hr⟩ := hr
  have hkeepable : ∀ x, x ∈ gained ∨ x ∈ s.keptSegments → s.Keepable x := fun x hx =>
    hx.elim (keepable x) h.keepable
  have hput : Secure none s { s with handles } :=
    handles_secure h (fun x hx => hkeepable x (hr.segments x hx))
      (fun c hc => hkeepable _ (hr.carvers c hc)) (hr.arenas ▸ h.arena_lasting)
  have hwanes : Wanes { s with handles } (({ s with handles } : State).releaseSegments nested t lost) :=
    releaseSegments_wanes (fun x hx => (hkeepable x (hr.known x hx)).1.unmapped) hput.guarded.still
  exact hput.trans
    (hwanes.secure hput.guarded (releaseSegments_neat hn lost _ hput.guarded.sound).course)

theorem releaseArena_secure (hn : nested.Tame) (h : Guarded s) (arena : Arena) :
    Secure none s (s.releaseArena nested t arena) :=
  (releaseArena_wanes h.still arena).secure h (releaseArena_clears hn h.sound arena).course

theorem bindArena_secure (hn : nested.Tame) (h : Guarded s) (name : String) {arena : Arena}
    (ha : s.Lasting arena.scope) : Secure none s (s.bindArena nested t name arena) := by
  have hput : Secure none s { s with handles.arenas := s.handles.arenas.put name arena } :=
    handles_secure h h.segment_keepable h.carver_keepable (put_forall ha h.arena_lasting)
  cases hold : s.handles.arenas.find? name with
  | none =>
    simp only [bindArena, hold]
    exact hput
  | some old =>
    simp only [bindArena, hold]
    exact hput.trans (releaseArena_secure hn hput.guarded old)

theorem releaseMapping_secure (hn : nested.Tame) (hq : nested.Quiet) (h : Guarded s)
    (m : MappingId) : Secure none s (s.releaseMapping nested m) :=
  (releaseMapping_wanes hq m (fun x hx => (h.segments x hx).unmapped) h.still).secure h
    (releaseMapping_clears hn h.sound).course

theorem bindMapping_secure (hn : nested.Tame) (hq : nested.Quiet) (h : Guarded s) (name : String)
    {mapping : Mapping} (hm : ∀ x ∈ mapping.segments, x ∈ s.keptSegments) :
    Secure none s (s.bindMapping nested name mapping) := by
  have hput : Secure none s (s.withMapping name mapping) := by
    exact rekeep_secure h (fun x hx => h.keepable (kept_of_withMapping hm hx)) h.arena_lasting
  cases hold : s.handles.mappings.find? name with
  | none =>
    simp only [bindMapping, hold]
    exact hput
  | some old =>
    simp only [bindMapping, hold]
    exact hput.trans (releaseMapping_secure hn hq hput.guarded old)

end

end State

end ScopedMemory
