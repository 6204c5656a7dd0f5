import ScopedMemory.Proofs.Releasing

/-! Closing scopes and letting go of handles.

Whichever way a handle goes, the scopes and mappings that only it kept end, and nothing is left
behind. -/
namespace ScopedMemory.State

section
variable {own own' : ScopeId → Prop} {mine mine' : MappingId → Prop} {s s' s'' : State}

theorem KeptBut.mono (h : KeptBut own mine s) (hown : ∀ id, own id → own' id)
    (hmine : ∀ id, mine id → mine' id) : KeptBut own' mine' s where
  scopes id hid := h.scopes id fun ho => hid (hown id ho)
  mappings id hid := h.mappings id fun hm => hid (hmine id hm)

theorem Clears.tidy (h : Sound s → Clears own mine s s') : Tidy s s' := fun hs =>
  { course := (h hs).course
    outgoing := (h hs).outgoing
    aborted := (h hs).aborted
    kept := fun hk => (h hs).kept (KeptBut.mono hk (fun _ => False.elim) fun _ => False.elim) }

theorem Clears.trans (h : Clears own mine s s') (h' : Clears own' mine' s' s'') :
    Clears own mine s s'' where
  course := h.course.trans h'.course
  outgoing := h'.outgoing.trans h.outgoing
  aborted ha := h'.aborted (h.aborted ha)
  kept hk := (h.kept hk).elim (fun ha => .inl (h'.aborted ha)) fun hk =>
    h'.kept (KeptBut.mono hk (fun _ => False.elim) fun _ => False.elim)

/-- States in which the same things are kept. -/
theorem keepsScope_eq_of_retains (h : Retains s s') (h' : Retains s' s) (id : ScopeId) :
    s'.keepsScope id = s.keepsScope id := by
  rw [Bool.eq_iff_iff]
  exact ⟨h'.keepsScope, h.keepsScope⟩

end

/-! ### Closing -/

section
variable {nested : Nested} {s : State} {t : Thread} {id : ScopeId}

/-- That a scope is closing shows nowhere once it is closed. -/
theorem endScope_closing (closer : Option Thread) :
    (s.modifyScope id fun scope => { scope with phase := .closing }).endScope id closer =
      s.endScope id closer := by
  have hscopes : (s.scopes.modify id fun scope => { scope with phase := .closing }).modify id
      (fun scope => { scope with phase := .closed }) =
      s.scopes.modify id fun scope => { scope with phase := .closed } := by
    apply Array.ext
    · simp
    · intro i hi hi'
      simp only [Array.getElem_modify]
      split <;> rfl
  have hcleanups : ∀ other, ((s.modifyScope id fun scope =>
      { scope with phase := .closing }).scope other).cleanups = (s.scope other).cleanups := by
    intro other
    by_cases h : other = id
    · by_cases hid : id < s.scopes.size
      · rw [h, scope_modifyScope_self _ hid]
      · rw [modifyScope_of_size_le _ (Nat.le_of_not_lt hid)]
    · rw [scope_modifyScope_other _ h]
  have hretains : Retains s (s.modifyScope id fun scope => { scope with phase := .closing }) :=
    retains_of_cleanups rfl rfl rfl fun other _ h => by rwa [hcleanups]
  have hkeeps := keepsScope_eq_of_retains hretains
    (retains_of_cleanups rfl rfl rfl fun other _ h => by rwa [hcleanups] at h) id
  rw [endScope, endScope, hkeeps]
  simp only [modifyScope, hscopes]

theorem finish_closing (closer : Option Thread) (alive : (s.scope id).phase = .alive) :
    (s.modifyScope id fun scope => { scope with phase := .closing }).finish nested t id closer =
      s.finish nested t id closer := by
  have hid : id < s.scopes.size := lt_size_of_phase (by rw [alive]; decide)
  simp only [finish, endScope_closing, scope_modifyScope_self _ hid, Scope.heldBytes, alive,
    reduceCtorEq, if_false]

theorem phase_of_alive (h : s.isAlive id = true) : (s.scope id).phase = .alive := by
  simpa [isAlive, Scope.isAlive] using h

/-- Who may close a scope: its owner, or anyone if it is shared, as long as it is alive. -/
theorem checkClose_ok {u : Unit} (h : s.checkClose t id = .ok u) :
    (s.scope id).phase = .alive ∧
      ((s.scope id).discipline = .confined t ∨ (s.scope id).discipline = .shared) := by
  unfold checkClose at h
  cases hd : (s.scope id).discipline with
  | confined owner =>
    simp only [hd] at h
    obtain ⟨⟨⟩, halive, h⟩ := bind_eq_ok.mp h
    obtain ⟨⟨⟩, howner, -⟩ := bind_eq_ok.mp h
    have hown : owner = t := by simpa [checkOwner, hd, Discipline.accessibleBy] using howner
    exact ⟨phase_of_alive (checkAlive_eq_ok.mp halive), .inl (by rw [hown])⟩
  | shared =>
    simp only [hd] at h
    split at h
    · simp [bind, Except.bind] at h
    · exact ⟨phase_of_alive (checkAlive_eq_ok.mp h), .inr rfl⟩
  | auto => simp [hd] at h
  | global => simp [hd] at h

theorem checkClose_closeable (hcheck : s.checkClose t id = .ok ()) :
    (s.scope id).discipline.kind.closeable = true := by
  obtain ⟨-, hmay⟩ := checkClose_ok hcheck
  rcases hmay with hd | hd <;> rw [hd] <;> rfl

/-- A close that is not refused ends the scope. -/
theorem closeScope_finish (hcheck : s.checkClose t id = .ok ()) :
    s.closeScope nested t id =
      (.ok (s.finish nested t id (some t)).1, (s.finish nested t id (some t)).2) := by
  obtain ⟨halive, -⟩ := checkClose_ok hcheck
  simp only [closeScope, hcheck, finish_closing _ halive]

/-- A close is refused, or its thread may close the scope and ends it. -/
theorem closeScope_cases (nested : Nested) (s : State) (t : Thread) (id : ScopeId) :
    (∃ e, s.closeScope nested t id = (.error e, s)) ∨
    (s.scope id).phase = .alive ∧
      ((s.scope id).discipline = .confined t ∨ (s.scope id).discipline = .shared) ∧
      s.closeScope nested t id =
        (.ok (s.finish nested t id (some t)).1, (s.finish nested t id (some t)).2) := by
  cases hcheck : s.checkClose t id with
  | error e => exact .inl ⟨e, by simp only [closeScope, hcheck]⟩
  | ok u =>
    obtain ⟨halive, hmay⟩ := checkClose_ok hcheck
    exact .inr ⟨halive, hmay, closeScope_finish hcheck⟩

theorem closeScope_clears (hn : nested.Tame) (hs : Sound s) (t : Thread) (id : ScopeId) :
    (∃ e, s.closeScope nested t id = (.error e, s)) ∨
      ∃ panic s', s.closeScope nested t id = (.ok panic, s') ∧
        Clears (· = id) (fun _ => False) s s' := by
  rcases closeScope_cases nested s t id with h | ⟨halive, hmay, h⟩
  · exact .inl h
  · exact .inr ⟨_, _, h, (finish_clears hn (some t) hs halive hmay).2⟩

theorem closeScope_tidy (hn : nested.Tame) (s : State) (t : Thread) (id : ScopeId) :
    Tidy s (s.closeScope nested t id).2 := by
  intro hs
  rcases closeScope_clears hn hs t id with ⟨e, h⟩ | ⟨panic, s', h, hclears⟩
  · rw [h]
    exact Neat.refl s hs
  · rw [h]
    exact Clears.tidy (fun _ => hclears) hs

theorem closeArena_tidy (hn : nested.Tame) (arena : Arena) :
    Tidy s (s.closeArena nested t arena).2 := by
  have h := closeScope_tidy hn s t arena.scope
  unfold closeArena
  generalize s.closeScope nested t arena.scope = closed at h
  obtain ⟨result, s'⟩ := closed
  dsimp only
  split
  · rcases result with e | (_ | text)
    · exact h
    · exact h
    · exact h
  · exact .refl s

/-! ### The last handle -/

theorem Clears.refl (hs : Sound s) (kept : KeptBut (· = id) (fun _ => False) s → Kept s) :
    Clears (· = id) (fun _ => False) s s where
  course := .refl hs
  outgoing := rfl
  aborted ha := ha
  kept hk := .inr (kept hk)

theorem expire_clears (hn : nested.Tame) (hs : Sound s) (unkept : s.keepsScope id = false) :
    Clears (· = id) (fun _ => False) s (s.expire nested t id) := by
  unfold expire
  dsimp only
  split
  · refine .refl hs fun hk => hk.retain (.refl s) (fun other _ hl => ⟨?_, hl⟩)
      (fun _ hown hm => ⟨hown, hm⟩)
    intro heq
    subst heq
    exact hl.unended ‹_›
  · rename_i hopen
    have halive := ((hs.phases id).resolve_left hopen).1
    split
    · rename_i hempty
      rw [Bool.and_eq_true, List.isEmpty_iff, List.isEmpty_iff] at hempty
      exact endScope_clears hs halive unkept hempty.1 hempty.2
    · exact (finish_clears hn none hs halive unkept).2

theorem releaseScope_clears (hn : nested.Tame) (hs : Sound s) :
    Clears (· = id) (fun _ => False) s (s.releaseScope nested t id) := by
  unfold releaseScope
  split
  · refine .refl hs fun hk => ⟨fun other hown hl => ?_, hk.mappings⟩
    by_cases h : other = id
    · rwa [h]
    · exact hk.scopes other h hl
  · exact expire_clears hn hs (Bool.eq_false_iff.mpr ‹_›)

theorem Clears.beside {own : ScopeId → Prop} {mine : MappingId → Prop} {s' s'' : State}
    (h : Beside s s') (h' : Clears own mine s' s'') (hs : Sound s) : Clears own mine s s'' := by
  have hcourse : Course (fun _ => False) s s' := h.alike.leads hs
  obtain ⟨_, _, _, _, rfl⟩ := h
  exact ⟨hcourse.trans h'.course, h'.outgoing, h'.aborted,
    fun hk => h'.kept ⟨hk.scopes, hk.mappings⟩⟩

theorem releaseArena_clears (hn : nested.Tame) (hs : Sound s) (arena : Arena) :
    Clears (· = arena.scope) (fun _ => False) s (s.releaseArena nested t arena) := by
  unfold releaseArena
  dsimp only
  split
  · rcases closeScope_clears hn hs t arena.scope with ⟨e, h⟩ | ⟨panic, s', h, hclears⟩
    · have hlog := log_beside s (.arenaLeftOpen arena.scope e)
      have hsound : Sound (s.log (.arenaLeftOpen arena.scope e)) :=
        ((hlog.alike.leads hs : Course (fun _ => False) _ _)).sound
      rw [h]
      exact Clears.beside hlog (releaseScope_clears hn hsound) hs
    · rw [h]
      exact hclears.trans (releaseScope_clears hn hclears.course.sound)
  · exact releaseScope_clears hn hs

/-! ### Mappings -/

theorem mapping?_set_other {m other : MappingId} (h : other ≠ m) (mapping : Option Mapping) :
    ({ s with mappings := s.mappings.set! m mapping } : State).mapping? other = s.mapping? other := by
  simp [mapping?, h.symm]

theorem mapping?_set_none (m : MappingId) :
    ({ s with mappings := s.mappings.set! m none } : State).mapping? m = none := by
  by_cases hm : m < s.mappings.size
  · simp [mapping?, hm]
  · simp [mapping?, hm]

theorem mappings_leads (mappings : Array (Option Mapping)) : Leads s { s with mappings } :=
  Alike.leads (.of_eq rfl rfl rfl)

/-- A mapping that ends leaves what it kept to be let go of. -/
theorem kept_of_unmapped {m : MappingId} {mapping : Mapping} (hm : s.mapping? m = some mapping)
    (hk : KeptBut (fun _ => False) (· = m) s) :
    Kept (({ s with mappings := s.mappings.set! m none } : State).pin mapping.segments) := by
  refine hk.retain ⟨fun _ h => h, fun _ h => h, fun x hx => ?_⟩ (fun _ hown hl => ⟨hown, hl⟩)
    (fun other _ hsome => ?_)
  · rw [mem_keptSegments] at hx ⊢
    rcases hx with h | h | h | ⟨other, mapping', hother, h⟩ | h
    · exact .inl (List.mem_append_right _ h)
    · exact .inr (.inl h)
    · exact .inr (.inr (.inl h))
    · by_cases heq : other = m
      · rw [heq, hm] at hother
        cases hother
        exact .inl (List.mem_append_left _ h)
      · exact .inr (.inr (.inr (.inl ⟨other, mapping', (mapping?_set_other heq none).trans hother, h⟩)))
    · exact .inr (.inr (.inr (.inr h)))
  · by_cases heq : other = m
    · have hnone : (({ s with mappings := s.mappings.set! m none } : State).pin
          mapping.segments).mapping? m = none := mapping?_set_none m
      rw [heq, hnone] at hsome
      cases hsome
    · exact ⟨heq, by rwa [← mapping?_set_other heq none]⟩

theorem releaseMapping_clears {m : MappingId} (hn : nested.Tame) (hs : Sound s) :
    Clears (fun _ => False) (· = m) s (s.releaseMapping nested m) := by
  unfold releaseMapping
  split
  · refine ⟨.refl hs, rfl, id, fun hk => .inr ⟨hk.scopes, fun other _ hsome => ?_⟩⟩
    by_cases h : other = m
    · rwa [h]
    · exact hk.mappings other h hsome
  · split
    · refine ⟨.refl hs, rfl, id, fun hk => .inr ⟨hk.scopes, fun other _ hsome => ?_⟩⟩
      refine hk.mappings other (fun h => ?_) hsome
      simp_all
    · rename_i mapping hm
      have hcourse := mappings_leads (s.mappings.set! m none) hs
      have hsettling := hn (.release mapping.segments) _ hcourse.sound
      exact ⟨hcourse.trans hsettling.course, hsettling.outgoing, hsettling.aborted,
        fun hk => hsettling.kept (kept_of_unmapped hm hk)⟩

/-! ### Segments -/

/-- Without a segment that keeps no mapping, its scope alone may be left behind. -/
theorem KeptBut.unpin {x : Segment} {others : List Segment} (hk : Kept s)
    (houtgoing : s.outgoing = x :: others) (hx : ∀ m, x.backing ≠ .mapped m) :
    KeptBut (· = x.scope) (fun _ => False) { s with outgoing := others } := by
  have hmem : ∀ y ∈ s.keptSegments, y = x ∨
      y ∈ ({ s with outgoing := others } : State).keptSegments := by
    intro y hy
    rw [mem_keptSegments, houtgoing] at hy
    rw [mem_keptSegments]
    rcases hy with h | h
    · exact (List.mem_cons.mp h).imp_right .inl
    · exact .inr (.inr h)
  constructor
  · intro id hid hl
    have hkeeps := keepsScope_iff.mp (hk.scopes id not_false hl)
    refine keepsScope_iff.mpr (hkeeps.imp_right (Or.imp_right ?_))
    rintro ⟨y, hy, rfl⟩
    rcases hmem y hy with rfl | hy
    · exact absurd rfl hid
    · exact ⟨y, hy, rfl⟩
  · intro m _ hm
    have hkeeps := keepsMapping_iff.mp (hk.mappings m not_false hm)
    refine keepsMapping_iff.mpr (hkeeps.imp_right ?_)
    rintro ⟨y, hy, hb⟩
    rcases hmem y hy with rfl | hy
    · exact absurd hb (hx m)
    · exact ⟨y, hy, hb⟩

/-- A segment lets go of its mapping first, while it still keeps its scope. -/
theorem KeptBut.unmap {x : Segment} {m : MappingId} {others : List Segment} (hk : Kept s)
    (houtgoing : s.outgoing = x :: others) (hx : x.backing = .mapped m) :
    KeptBut (fun _ => False) (· = m)
      { s with outgoing := { x with backing := .native } :: others } := by
  have hmem : ∀ y ∈ s.keptSegments, y = x ∨ y ∈ ({ s with
      outgoing := { x with backing := .native } :: others } : State).keptSegments := by
    intro y hy
    rw [mem_keptSegments, houtgoing] at hy
    rw [mem_keptSegments]
    rcases hy with h | h
    · exact (List.mem_cons.mp h).imp_right fun h => .inl (List.mem_cons_of_mem _ h)
    · exact .inr (.inr h)
  constructor
  · intro id hid hl
    have hkeeps := keepsScope_iff.mp (hk.scopes id hid hl)
    refine keepsScope_iff.mpr (hkeeps.imp_right (Or.imp_right ?_))
    rintro ⟨y, hy, rfl⟩
    rcases hmem y hy with rfl | hy
    · exact ⟨_, kept_of_outgoing List.mem_cons_self, rfl⟩
    · exact ⟨y, hy, rfl⟩
  · intro other hother hm
    have hkeeps := keepsMapping_iff.mp (hk.mappings other not_false hm)
    refine keepsMapping_iff.mpr (hkeeps.imp_right ?_)
    rintro ⟨y, hy, hb⟩
    rcases hmem y hy with rfl | hy
    · rw [hx] at hb
      cases hb
      exact absurd rfl hother
    · exact ⟨y, hy, hb⟩

/-- The scope of the first segment is let go of, and then the other segments. -/
theorem releaseRest_neat (hn : nested.Tame) {x : Segment} {rest others : List Segment}
    (ih : ∀ s, Neat rest s (releaseSegments nested t rest s)) (hs : Sound s)
    (houtgoing : s.outgoing = x :: (rest ++ others)) (hx : ∀ m, x.backing ≠ .mapped m) (s' : State)
    (hs' : s' = releaseSegments nested t rest
      { releaseScope nested t x.scope { s with outgoing := rest ++ others } with
        outgoing := others }) :
    Course (fun _ => False) s s' ∧ s'.outgoing = others ∧
      (s.aborted = true → s'.aborted = true) ∧ (Kept s → s'.aborted = true ∨ Kept s') := by
  have hunpinned : Course (fun _ => False) s { s with outgoing := rest ++ others } :=
    outgoing_leads s _ hs
  have hscope : Clears (· = x.scope) (fun _ => False) { s with outgoing := rest ++ others }
      (releaseScope nested t x.scope { s with outgoing := rest ++ others }) :=
    releaseScope_clears hn hunpinned.sound
  generalize releaseScope nested t x.scope { s with outgoing := rest ++ others } = r at *
  have hreset : Course (fun _ => False) r { r with outgoing := others } :=
    outgoing_leads r _ hscope.course.sound
  have hrest := ih { r with outgoing := others } hreset.sound
  have hkept := hrest.kept
  rw [pin_outgoing hscope.outgoing] at hkept
  subst hs'
  refine ⟨hunpinned.trans (hscope.course.trans (hreset.trans hrest.course)), hrest.outgoing,
    fun ha => hrest.aborted (hscope.aborted ha), fun hk => ?_⟩
  exact (hscope.kept (KeptBut.unpin hk houtgoing hx)).elim (fun ha => .inl (hrest.aborted ha)) hkept

/-- **Segments go** in order, each with all that only it kept. -/
theorem releaseSegments_neat (hn : nested.Tame) (segments : List Segment) (s : State) :
    Neat segments s (s.releaseSegments nested t segments) := by
  induction segments generalizing s with
  | nil => exact .refl s
  | cons x rest ih =>
    intro hs
    have hplain : (∀ m, x.backing ≠ .mapped m) → releaseSegments nested t (x :: rest) s =
        releaseSegments nested t rest { releaseScope nested t x.scope
          { s with outgoing := rest ++ s.outgoing } with outgoing := s.outgoing } →
        Settling (x :: rest) s (releaseSegments nested t (x :: rest) s) := by
      intro hx heq
      have hpinned : Course (fun _ => False) s (s.pin (x :: rest)) := outgoing_leads s _ hs
      obtain ⟨hcourse, houtgoing, haborted, hkept⟩ :=
        releaseRest_neat (s := s.pin (x :: rest)) hn ih hpinned.sound rfl hx _ heq
      exact ⟨hpinned.trans hcourse, houtgoing, haborted, hkept⟩
    cases hb : x.backing with
    | heap array => exact hplain (by simp [hb]) (by rw [releaseSegments]; simp only [hb])
    | native => exact hplain (by simp [hb]) (by rw [releaseSegments]; simp only [hb])
    | mapped m =>
      have hpinned : Course (fun _ => False) s
          { s with outgoing := { x with backing := .native } :: (rest ++ s.outgoing) } :=
        outgoing_leads s _ hs
      have hmapping := releaseMapping_clears (m := m) hn hpinned.sound
      obtain ⟨hcourse, houtgoing, haborted, hkept⟩ :=
        releaseRest_neat (x := { x with backing := .native }) hn ih hmapping.course.sound
          hmapping.outgoing (by simp) (releaseSegments nested t (x :: rest) s)
          (by rw [releaseSegments]; simp only [hb]; rfl)
      exact ⟨hpinned.trans (hmapping.course.trans hcourse), houtgoing,
        fun ha => haborted (hmapping.aborted ha), fun hk =>
        (hmapping.kept (KeptBut.unmap (s := s.pin (x :: rest)) hk rfl hb)).elim
          (fun ha => .inl (haborted ha)) hkept⟩

/-- Segments that something else keeps as well can be let go of at any time. -/
theorem Neat.tidy {segments : List Segment} {s' : State} (h : Neat segments s s') : Tidy s s' := by
  intro hs
  refine ⟨(h hs).course, (h hs).outgoing, (h hs).aborted, fun hk => (h hs).kept ?_⟩
  refine hk.retain ⟨fun _ h => h, fun _ h => h, fun x hx => ?_⟩ (fun _ hown hl => ⟨hown, hl⟩)
    (fun _ hown hm => ⟨hown, hm⟩)
  rw [mem_keptSegments] at hx ⊢
  exact hx.imp_left (List.mem_append_right _)

/-! ### Requests to mappings -/

theorem untouched_active (s : State) (id other : ScopeId) (f : Scope → Nat) :
    ∃ active, (s.modifyScope id fun scope => { scope with active := f scope }).scope other =
      { s.scope other with active } := by
  by_cases h : other = id
  · by_cases hid : id < s.scopes.size
    · exact ⟨_, by rw [h, scope_modifyScope_self _ hid]⟩
    · exact ⟨_, by rw [modifyScope_of_size_le _ (Nat.le_of_not_lt hid)]⟩
  · exact ⟨_, by rw [scope_modifyScope_other _ h]⟩

/-- Counting accesses is of no consequence for what is kept and released. -/
theorem counting_tidy (s : State) (guards : List Guard) (holds : List Hold) (id : ScopeId)
    (f : Scope → Nat) : Tidy s (({ s with guards, holds } : State).modifyScope id fun scope =>
      { scope with active := f scope }) := by
  intro hs
  have hscope := untouched_active ({ s with guards, holds } : State) id (f := f)
  have halike : Alike s (({ s with guards, holds } : State).modifyScope id fun scope =>
      { scope with active := f scope }) := by
    refine ⟨rfl, size_modifyScope _ _ _, rfl, fun other => ?_, fun other => ?_, fun other => ?_,
      fun other => ?_⟩ <;>
    · obtain ⟨active, h⟩ := hscope other
      rw [h]
      rfl
  refine ⟨halike.leads hs, rfl, fun ha => ha, fun hk => .inr (hk.retain ?_ ?_ ?_)⟩
  · exact retains_of_cleanups rfl rfl rfl fun other cleanup hc => by rwa [halike.cleanups]
  · intro other hown hl
    exact ⟨hown, hl.untouched (halike.untouched other)⟩
  · exact fun other hown hm => ⟨hown, hm⟩

theorem holds_tidy (s : State) (guards : List Guard) (holds : List Hold) :
    Tidy s { s with guards, holds } := fun hs =>
  ⟨Alike.leads (.of_eq rfl rfl rfl) hs, rfl, id,
    fun hk => .inr ⟨hk.scopes, hk.mappings⟩⟩

theorem hold_tidy (s : State) (t : Thread) (id : ScopeId) : Tidy s (s.hold t id) := by
  unfold hold
  dsimp only
  split
  · exact holds_tidy s _ _
  · exact counting_tidy s _ _ id _
  · exact holds_tidy s _ s.holds
  · exact holds_tidy s _ s.holds

theorem letOut_tidy (s : State) (t : Thread) (id : ScopeId) : Tidy s (s.letOut t id) := by
  unfold letOut
  dsimp only
  split
  · exact holds_tidy s _ _
  · exact counting_tidy s _ _ id _
  · exact holds_tidy s _ s.holds
  · exact holds_tidy s _ s.holds

/-- A recorder keeps nothing, whatever it records. -/
theorem record_tidy {m : MappingId} {r r' : Recorder} (hm : s.mapping? m = some (.recorder r)) :
    Tidy s { s with mappings := s.mappings.set! m (some (.recorder r')) } := by
  intro hs
  refine ⟨mappings_leads _ hs, rfl, id, fun hk => .inr (hk.retain ⟨fun _ h => h, fun _ h => h,
    fun x hx => ?_⟩ (fun _ hown hl => ⟨hown, hl⟩) fun other hown hsome => ⟨hown, ?_⟩)⟩
  · rw [mem_keptSegments] at hx ⊢
    rcases hx with h | h | h | ⟨other, mapping, hother, h⟩ | h
    · exact .inl h
    · exact .inr (.inl h)
    · exact .inr (.inr (.inl h))
    · by_cases heq : other = m
      · rw [heq] at hother
        cases hm.symm.trans hother
        cases h
      · exact .inr (.inr (.inr (.inl ⟨other, mapping, (mapping?_set_other heq _).trans hother, h⟩)))
    · exact .inr (.inr (.inr (.inr h)))
  · by_cases heq : other = m
    · show (s.mapping? other).isSome = true
      rw [heq, hm]
      rfl
    · rwa [mapping?_set_other heq] at hsome

theorem askMapping_tidy (hn : nested.Tame) (m : MappingId) (request : Request)
    (address length : Word) (s : State) :
    Tidy s (s.askMapping nested m request address length).2 := by
  unfold askMapping
  split
  · exact .refl s
  · exact record_tidy ‹_›
  · rename_i mapping _
    have hemit : Beside s (s.emit (.requested mapping.name request address length)) :=
      ⟨_, _, _, _, rfl⟩
    have hscript := (Grows.of_beside hemit).tidy.trans
      (hn (.script (mapping.scripts.get request)) _)
    dsimp only
    split <;> · rename_i heq; rw [heq] at hscript; exact hscript

theorem ask_tidy (hn : nested.Tame) (x : Segment) (request : Request) (s : State) :
    Tidy s (s.ask nested t x request).2 := by
  unfold ask
  split
  · rename_i m _
    cases hentered : s.enter t x.scope with
    | error e => exact .refl s
    | ok s₁ =>
      obtain ⟨⟨⟩, -, hs₁⟩ := bind_eq_ok.mp hentered
      obtain rfl := pure_eq_ok.mp hs₁
      have hasked := (askMapping_tidy hn m request x.address x.size ((s.hold t x.scope).pin [x])).trans
        (letOut_tidy _ t x.scope)
      exact (hold_tidy s t x.scope).trans (hasked.release (releaseSegments_neat hn [x] _)).tidy
  · exact .refl s

end

end ScopedMemory.State
