import ScopedMemory.Proofs.Acting
import ScopedMemory.Proofs.Inertness

/-! A confined scope is its owner's.

On any other thread, whatever works in the scope is refused, or cuts out a segment without looking
at memory (`Withheld`). Whatever else threads do, wherever a run has got to, the scope keeps all
that it holds; only its owner adds to that, only its owner closes it, and only by its arena; else it
ends when nothing keeps it any more (`Fares`). Once its arena was dropped on another thread there is
no closing it. -/
namespace ScopedMemory

namespace State
variable {s s' : State} {nested : Nested} {t owner : Thread} {id : ScopeId}

/-! ### Other threads are kept out -/

theorem accessible_iff_owner (confined : (s.scope id).discipline = .confined owner) :
    (s.scope id).discipline.accessibleBy t = true ↔ t = owner := by
  rw [confined]
  exact beq_iff_eq.trans eq_comm

theorem checkOwner_foreign (confined : (s.scope id).discipline = .confined owner)
    (foreign : t ≠ owner) : s.checkOwner t id = .error .wrongThread :=
  if_neg fun h => foreign ((accessible_iff_owner confined).mp h)

theorem bars_of_foreign (confined : (s.scope id).discipline = .confined owner)
    (foreign : t ≠ owner) : s.Bars t id := by
  have howner := checkOwner_foreign confined foreign
  refine ⟨?_, .left ⟨_, howner⟩⟩
  unfold checkEntry
  rw [confined]
  exact .right fun _ _ => ⟨_, howner⟩

theorem closeArena_foreign {arena : Arena} (nested : Nested)
    (confined : (s.scope arena.scope).discipline = .confined owner) (foreign : t ≠ owner) :
    ∃ e, s.closeArena nested t arena = (.error (.arena e), s) := by
  have hclose : ∃ e, s.closeScope nested t arena.scope = (.error e, s) := by
    rcases closeScope_cases nested s t arena.scope with h | ⟨-, hmay, -⟩
    · exact h
    · rw [confined] at hmay
      rcases hmay with hmine | hshared
      · exact absurd (Discipline.confined.inj hmine).symm foreign
      · cases hshared
  obtain ⟨e, he⟩ := hclose
  refine ⟨.access e, ?_⟩
  unfold closeArena
  rw [he, confined]
  rfl

/-! ### Allocations -/

end State

open State

section
variable {s s' : State} {nested : Nested} {t owner : Thread} {id : ScopeId}

/-- Nothing was written or attached; what was given, if anything, is a segment of the scope. -/
structure Allocation.Idle (allocation : Allocation) (s : State) (id : ScopeId) : Prop where
  state : allocation.state = s
  scope : ∀ x, allocation.result = .ok x → x.scope = id

theorem Allocator.allocate_idle {a : Allocator} (h : s.Bars t a.scope) (size alignment : Word) :
    (a.allocate t s size alignment).Idle s a.scope := by
  cases a with
  | arena owner =>
    obtain ⟨e, he⟩ : Fails (owner.allocate t s size alignment) := h.allocate size alignment
    simp only [Allocator.allocate, he]
    exact ⟨rfl, fun x hx => by cases hx⟩
  | carver c => exact ⟨rfl, fun x hx => (Segment.partOf_of_carve hx).2.scope⟩

theorem Allocator.allocateArray_idle {a : Allocator} (h : s.Bars t a.scope) (element : Shape)
    (count : Word) : (a.allocateArray t s element count).Idle s a.scope := by
  unfold Allocator.allocateArray
  split
  · exact a.allocate_idle h _ _
  · exact ⟨rfl, fun x hx => by cases hx⟩

theorem Allocation.Idle.fill {allocation : Allocation} (h : allocation.Idle s id)
    {fill : State → Segment → Except AccessError State}
    (fails : ∀ x : Segment, x.scope = id → Fails (fill s x)) :
    (allocation.fillWith fill).Idle s id := by
  unfold Allocation.fillWith
  split
  · exact h
  · rename_i x hx
    obtain ⟨e, he⟩ := fails x (h.scope x hx)
    rw [h.state, he]
    exact ⟨rfl, fun x hx => by cases hx⟩

theorem Contents.allocate_idle {a : Allocator} {contents : Contents} {allocation : Allocation}
    (hbars : s.Bars t a.scope) (h : contents.allocate t s a = .ok allocation) :
    allocation.Idle s a.scope := by
  cases contents with
  | bytes size alignment =>
    cases h
    exact a.allocate_idle hbars _ _
  | shape layout =>
    obtain ⟨layout, -, h⟩ := bind_eq_ok.mp h
    cases h
    exact a.allocate_idle hbars _ _
  | array layout count =>
    obtain ⟨layout, -, h⟩ := bind_eq_ok.mp h
    cases h
    exact a.allocateArray_idle hbars _ _
  | value layout v =>
    obtain ⟨layout, -, h⟩ := bind_eq_ok.mp h
    cases h
    exact (a.allocate_idle hbars _ _).fill fun x hx => Bars.set _ _ (hx ▸ hbars) v
  | values layout vs =>
    obtain ⟨layout, -, h⟩ := bind_eq_ok.mp h
    cases h
    exact (a.allocateArray_idle hbars _ _).fill fun x hx => Bars.writeRun _ _ (hx ▸ hbars) vs
  | text content =>
    cases h
    unfold Allocator.allocateText
    exact (a.allocate_idle hbars _ _).fill fun x hx => Bars.writeTerminated (hx ▸ hbars) _

/-! ### What is withheld -/

/-- Nothing differs but how much of their segments allocators have used up. -/
def State.Recarved (s s' : State) : Prop :=
  ∃ allocators : Table Carver, s' = { s with handles.allocators := allocators }

theorem State.Recarved.refl (s : State) : Recarved s s := ⟨_, rfl⟩

theorem State.updateSource_recarved (s : State) (source : AllocatorRef) (allocator : Allocator) :
    Recarved s (s.updateSource source allocator) := by
  unfold updateSource
  split
  · exact ⟨_, rfl⟩
  · exact .refl s

/-- How an operation ends that works in a scope of another thread: it is refused, or it gives a
segment of the scope to be bound to a name. -/
inductive Withheld (nested : Nested) (t : Thread) (s : State) (id : ScopeId) :
    Except Fault Answer × State → Prop where
  | refused {fault : Fault} {s' : State} : Recarved s s' →
      Withheld nested t s id (.error fault, s')
  | cut {x : Segment} {name : Option String} {s' : State} : Recarved s s' → x.scope = id →
      Withheld nested t s id (.ok (.segment x), s'.bindSegment nested t name x)

theorem Withheld.of_fails {outcome : Except Fault (Answer × State)} (h : Fails outcome) :
    Withheld nested t s id (orElseSame s outcome) := by
  obtain ⟨e, he⟩ := orElseSame_of_fails (s := s) h
  rw [he]
  exact .refused (.refl s)

theorem Operation.withheld (confined : (s.scope id).discipline = .confined owner)
    (foreign : t ≠ owner) (nested : Nested) {operation : Operation}
    (works : operation.WorksIn s id) : Withheld nested t s id (operation.perform nested t s) := by
  have hbars := bars_of_foreign confined foreign
  cases operation with
  | query q =>
    obtain ⟨name, hname, hid⟩ := works
    obtain ⟨e, he⟩ := q.refused hname hid hbars
    rw [perform, he]
    exact .refused (.refl s)
  | change c =>
    obtain ⟨name, hname, hid⟩ := works
    exact .of_fails (.left (c.refused hname hid hbars))
  | make m name =>
    obtain ⟨ref, href, hid⟩ := works
    rcases Making.barred href hid hbars with hfails | ⟨segment, range, rfl⟩
    · exact .of_fails (.left hfails)
    · obtain rfl := List.mem_singleton.mp href
      obtain ⟨x, hx, rfl⟩ := segment_of_scopeNamed hid
      cases hslice : range.slice s x with
      | error e => exact .of_fails (.left (.found hx (.left ⟨e, hslice⟩)))
      | ok y =>
        have hmake : Making.make t s (.slice segment range) = .ok (y, s) := by
          simp only [Making.make, hx, hslice, bind, Except.bind, pure, Except.pure]
        simp only [perform, hmake]
        exact .cut (.refl s) (Segment.partOf_of_range hslice).scope
  | allocate source contents name =>
    obtain ⟨a, ha, rfl⟩ := works
    have hsource : (s.sourceNamed source >>= contents.allocate t s) = contents.allocate t s a := by
      rw [ha]
      rfl
    rw [perform, hsource]
    cases hallocate : contents.allocate t s a with
    | error fault => exact .refused (.refl s)
    | ok allocation =>
      obtain ⟨hstate, hscope⟩ := Contents.allocate_idle hbars hallocate
      obtain ⟨result, allocator, s'⟩ := allocation
      obtain rfl : s' = s := hstate
      have hcarved := s'.updateSource_recarved source allocator
      cases result with
      | error e => exact .refused hcarved
      | ok x => exact .cut hcarved (hscope x rfl)
  | closeArena name =>
    obtain ⟨arena, harena, rfl⟩ := arena_of_scopeNamed works
    obtain ⟨e, he⟩ := closeArena_foreign nested confined foreign
    simp only [perform, harena, he]
    exact .refused (.refl s)
  | ask segment request =>
    obtain ⟨x, hx, rfl⟩ := segment_of_scopeNamed works
    obtain ⟨e, he⟩ := hbars.ask nested request
    simp only [perform, hx, he]
    exact .refused (.refl s)
  | _ => cases works

/-- Callbacks on other threads are refused. -/
theorem ActionOver.withheld (confined : (s.scope id).discipline = .confined owner)
    (foreign : t ≠ owner) (nested : Nested) {action : Action ArenaId Segment}
    (works : ActionOver.WorksIn s id action) :
    ∃ fault, s.act nested t action = (.ok (.failed fault), s) := by
  have hbars := bars_of_foreign confined foreign
  cases action with
  | close arena =>
    obtain ⟨a, ha, rfl⟩ := works
    obtain ⟨e, he⟩ := closeArena_foreign nested confined foreign
    refine ⟨.arena e, ?_⟩
    simp only [act, ha, he]
    rfl
  | alloc arena size alignment =>
    obtain ⟨a, ha, rfl⟩ := works
    obtain ⟨e, he⟩ := hbars.allocate size alignment
    refine ⟨.arena e, ?_⟩
    simp only [act, ha, he]
  | load x =>
    obtain ⟨-, rfl⟩ := works
    obtain ⟨e, he⟩ := hbars.ask nested .load
    refine ⟨.access e, ?_⟩
    simp only [act, he]
    rfl
  | get x offset =>
    obtain ⟨-, rfl⟩ := works
    obtain ⟨e, he⟩ := hbars.get byteLayout offset
    refine ⟨.access e, ?_⟩
    simp only [act, he]
  | panic text => cases works
  | perform operation => cases works

end

/-! ### What becomes of a scope -/

namespace State

/-- The scope is alive, and holds what it held and what it has taken on since. -/
structure Keeps (s s' : State) (id : ScopeId) (gains : List Deed) : Prop where
  alive : s'.isAlive id = true
  history : s'.history id = s.history id ++ gains
  accepted : ∀ deed ∈ gains, deed.accepts = true
  blocks : (s'.scope id).blocks = (s.scope id).blocks ++ gains.filterMap Deed.block?
  cleanups : (s'.scope id).cleanups = (s.scope id).cleanups ++ gains.filterMap Deed.cleanup?

/-- The scope has ended, and how. -/
structure Ended (s s' : State) (id : ScopeId) (gains : List Deed) (closer : Option Thread)
    (kept : Bool) : Prop where
  closed : (s'.scope id).phase = .closed
  history : ∃ later, s'.history id = s.history id ++ gains ++ .ended closer kept :: later
  accepted : ∀ deed ∈ gains, deed.accepts = true

/-- What becomes of a live scope of one thread. It takes things on only if the owner `gives`, and is
closed only by its owner, if that `closes` anything; else it ends when nothing keeps it. -/
inductive Fares (s s' : State) (id : ScopeId) (owner : Thread) (gives closes : Prop) : Prop where
  | keeps {gains : List Deed} : Keeps s s' id gains → (gains ≠ [] → gives) →
      Fares s s' id owner gives closes
  | closed {gains : List Deed} {kept : Bool} : Ended s s' id gains (some owner) kept →
      (gains ≠ [] → gives) → closes → Fares s s' id owner gives closes
  | expired {gains : List Deed} : Ended s s' id gains none false → (gains ≠ [] → gives) →
      Fares s s' id owner gives closes

/-- Acts of some threads, one after the other. -/
abbrev ActsOf (who : Thread → Prop) : State → State → Prop :=
  Relation.ReflTransGen fun s s' => ∃ t, who t ∧ Act t s s'

section
variable {s s' s'' : State} {t owner : Thread} {id : ScopeId} {who : Thread → Prop}
  {gives closes : Prop} {gains : List Deed}

theorem Acts.of (h : Acts t s s') (ht : who t) : ActsOf who s s' := by
  induction h with
  | refl => exact .refl
  | tail _ hact ih => exact ih.tail ⟨t, ht, hact⟩

theorem ActsOf.mono {who' : Thread → Prop} (h : ActsOf who s s') (hsub : ∀ t, who t → who' t) :
    ActsOf who' s s' := by
  induction h with
  | refl => exact .refl
  | tail _ hact ih =>
    obtain ⟨t, ht, hact⟩ := hact
    exact ih.tail ⟨t, hsub t ht, hact⟩

theorem Keeps.refl (alive : s.isAlive id = true) : Keeps s s id [] where
  alive := alive
  history := (List.append_nil _).symm
  accepted := nofun
  blocks := (List.append_nil _).symm
  cleanups := (List.append_nil _).symm

theorem Keeps.of_untouched (alive : s.isAlive id = true) (h : Untouched s s' id) :
    Keeps s s' id [] where
  alive := by rwa [isAlive, Scope.isAlive, h.phase]
  history := h.history.trans (List.append_nil _).symm
  accepted := nofun
  blocks := h.blocks.trans (List.append_nil _).symm
  cleanups := h.cleanups.trans (List.append_nil _).symm

theorem Keeps.trans {gains' : List Deed} (h : Keeps s s' id gains) (h' : Keeps s' s'' id gains') :
    Keeps s s'' id (gains ++ gains') where
  alive := h'.alive
  history := by rw [h'.history, h.history, List.append_assoc]
  accepted deed hdeed := (List.mem_append.mp hdeed).elim (h.accepted deed) (h'.accepted deed)
  blocks := by rw [h'.blocks, h.blocks, List.filterMap_append, List.append_assoc]
  cleanups := by rw [h'.cleanups, h.cleanups, List.filterMap_append, List.append_assoc]

/-- A scope takes something on. -/
theorem Keeps.gain {f : Scope → Scope} {deed : Deed} (alive : s.isAlive id = true)
    (adds : deed.Adds f) : Keeps s ((s.modifyScope id f).record id deed) id [deed] := by
  have hscope : ((s.modifyScope id f).record id deed).scope id = f (s.scope id) :=
    scope_modifyScope_self f (lt_size_of_alive alive)
  exact
    { alive := by rwa [isAlive, Scope.isAlive, hscope, adds.phase]
      history := history_record_self _ _ _
      accepted := fun _ h => List.mem_singleton.mp h ▸ adds.accepts
      blocks := by
        rw [hscope, adds.blocks]
        cases h : deed.block? <;> simp [h]
      cleanups := by
        rw [hscope, adds.cleanups]
        cases h : deed.cleanup? <;> simp [h] }

/-- A scope ends. -/
theorem Ended.now (closer : Option Thread) : Ended s (s.endScope id closer) id [] closer
    (s.keepsScope id) where
  closed := phase_endScope s id closer
  history := ⟨[], by rw [List.append_nil]; exact history_record_self _ _ _⟩
  accepted := nofun

/-- What has ended has ended for good. -/
theorem Ended.later {closer : Option Thread} {kept : Bool} (h : Ended s s' id gains closer kept)
    (hid : id < s'.scopes.size) (act : Act t s' s'') : Ended s s'' id gains closer kept where
  closed := act.closed hid h.closed
  history := by
    obtain ⟨later, hlater⟩ := h.history
    obtain ⟨more, hmore⟩ := act.continues.history id hid
    exact ⟨later ++ more, by rw [hmore, hlater, List.append_assoc, List.cons_append]⟩
  accepted := h.accepted

theorem Keeps.ended {gains' : List Deed} {closer : Option Thread} {kept : Bool}
    (h : Keeps s s' id gains) (h' : Ended s' s'' id gains' closer kept) :
    Ended s s'' id (gains ++ gains') closer kept where
  closed := h'.closed
  history := by
    obtain ⟨later, hlater⟩ := h'.history
    exact ⟨later, by rw [hlater, h.history, List.append_assoc (s.history id)]⟩
  accepted deed hdeed := (List.mem_append.mp hdeed).elim (h.accepted deed) (h'.accepted deed)

/-- **One act**, and what becomes of a confined scope. -/
theorem Act.fares (h : Act t s s') (confined : (s.scope id).discipline = .confined owner)
    (alive : s.isAlive id = true) :
    Fares s s' id owner (t = owner) (t = owner ∧ 0 < s.arenasOf id) := by
  have hid := lt_size_of_alive alive
  have hkept : ∀ {s' : State}, Untouched s s' id →
      Fares s s' id owner (t = owner) (t = owner ∧ 0 < s.arenasOf id) := fun hu =>
    .keeps (.of_untouched alive hu) fun h => absurd rfl h
  cases h with
  | aside h => exact hkept (h.scopes id hid)
  | @gain other f deed _ accessible adds =>
    by_cases heq : id = other
    · subst heq
      exact .keeps (.gain alive adds) fun _ => (accessible_iff_owner confined).mp accessible
    · exact hkept (untouched_note s f deed heq)
  | @close s₁ other h held _ hmay =>
    by_cases heq : id = other
    · subst heq
      have hu := h.scopes id hid
      rw [hu.discipline, confined] at hmay
      rcases hmay with hmine | hshared
      · obtain rfl := Discipline.confined.inj hmine
        exact .closed ((Keeps.of_untouched alive hu).ended (.now (some owner)))
          (fun h => absurd rfl h) ⟨rfl, held⟩
      · cases hshared
    · exact hkept ((h.scopes id hid).trans (untouched_note s₁ _ _ heq))
  | @expire other unkept _ =>
    by_cases heq : id = other
    · subst heq
      exact .expired (unkept ▸ .now none) fun h => absurd rfl h
    · exact hkept (untouched_note s _ _ heq)
  | @release other f deed closed _ _ =>
    by_cases heq : id = other
    · subst heq
      rw [isAlive_iff.mp alive] at closed
      cases closed
    · exact hkept (untouched_note s f deed heq)

/-- What a scope has kept, it goes on with. -/
theorem Keeps.fares {gives' closes' : Prop} (h : Keeps s s' id gains) (given : gains ≠ [] → gives)
    (h' : Fares s' s'' id owner gives' closes') (hgives : gives' → gives)
    (hcloses : closes' → closes) : Fares s s'' id owner gives closes := by
  have hgiven : ∀ {gains' : List Deed}, (gains' ≠ [] → gives') → gains ++ gains' ≠ [] → gives := by
    intro gains' given' hne
    by_cases hnil : gains = []
    · exact hgives (given' fun h => hne (by rw [hnil, h]; rfl))
    · exact given hnil
  cases h' with
  | keeps h' given' => exact .keeps (h.trans h') (hgiven given')
  | closed ended given' closes' => exact .closed (h.ended ended) (hgiven given') (hcloses closes')
  | expired ended given' => exact .expired (h.ended ended) (hgiven given')

/-- What acts keep, any number of them keep. -/
theorem ActsOf.continues (h : ActsOf who s s') :
    s.scopes.size ≤ s'.scopes.size ∧
    (∀ id < s.scopes.size, (s'.scope id).discipline = (s.scope id).discipline) ∧
    ∀ id < s.scopes.size, id ≠ processScope → s'.arenasOf id ≤ s.arenasOf id := by
  induction h with
  | refl => exact ⟨Nat.le_refl _, fun _ _ => rfl, fun _ _ _ => Nat.le_refl _⟩
  | tail _ hact ih =>
    obtain ⟨t, -, hact⟩ := hact
    have hc := hact.continues
    obtain ⟨hsize, hdiscipline, harenas⟩ := ih
    refine ⟨Nat.le_trans hsize hc.size_le, fun id hid => ?_, fun id hid hne => ?_⟩
    · exact (hc.discipline id (Nat.lt_of_lt_of_le hid hsize)).trans (hdiscipline id hid)
    · exact Nat.le_trans (hc.arenas id hne (.inl (Nat.lt_of_lt_of_le hid hsize)))
        (harenas id hid hne)

/-- **Any number of acts**, and what becomes of a confined scope. -/
theorem ActsOf.fares (h : ActsOf who s s') (confined : (s.scope id).discipline = .confined owner)
    (alive : s.isAlive id = true) (hne : id ≠ processScope) :
    Fares s s' id owner (who owner) (who owner ∧ 0 < s.arenasOf id) := by
  have hid := lt_size_of_alive alive
  induction h with
  | refl => exact .keeps (.refl alive) fun h => absurd rfl h
  | @tail s₁ s₂ hacts hact ih =>
    obtain ⟨t, ht, hact⟩ := hact
    obtain ⟨hsize, hdiscipline, harenas⟩ := ActsOf.continues hacts
    have hid₁ := Nat.lt_of_lt_of_le hid hsize
    cases ih with
    | keeps h given =>
      refine h.fares given (hact.fares ((hdiscipline id hid).trans confined) h.alive)
        (fun h => h ▸ ht) fun ⟨h, held⟩ => ⟨h ▸ ht, ?_⟩
      exact Nat.lt_of_lt_of_le held (harenas id hid hne)
    | closed ended given closes => exact .closed (ended.later hid₁ hact) given closes
    | expired ended given => exact .expired (ended.later hid₁ hact) given

end

/-! ### Runs -/

section
variable {s s' : State} {t owner : Thread} {id : ScopeId} {who : Thread → Prop}

/-- The thread performs one of the steps. -/
def Takes (steps : List (Option Step)) (t : Thread) : Prop :=
  ∃ operation, some ⟨t, operation⟩ ∈ steps

theorem step_acts (limit : Nat) (s : State) (step : Option Step) (rest : List (Option Step)) :
    ActsOf (Takes (step :: rest)) s (s.step limit step).2 := by
  cases step with
  | none => exact .refl
  | some step =>
    have hacts : Acts step.thread s
        (step.operation.perform (work step.thread limit) step.thread { s with events := [] }).2 :=
      Acts.after (step.operation.perform_acts (work_actsFor step.thread limit) _)
        (.of_eq rfl rfl rfl)
    exact Acts.of hacts ⟨step.operation, List.mem_cons_self⟩

/-- **A run** is a sequence of acts of the threads that take its steps. -/
theorem run_acts (limit : Nat) (s : State) (steps : List (Option Step)) :
    ActsOf (Takes steps) s (s.run limit steps).2 := by
  induction steps generalizing s with
  | nil => exact .refl
  | cons first rest ih =>
    have hfirst := step_acts limit s first rest
    simp only [run]
    split
    · exact hfirst
    · refine hfirst.trans (ActsOf.mono (ih _) ?_)
      rintro t ⟨operation, h⟩
      exact ⟨operation, List.mem_cons_of_mem _ h⟩

/-- A state that threads have got to from the start, between steps or in the middle of one. -/
abbrev Session (system : System) : State → Prop := ActsOf (fun _ => True) (initial system)

/-- Every scope has one arena at most, but for that of the process, and only scopes there are have
one. -/
structure SoleArenas (s : State) : Prop where
  process : processScope < s.scopes.size ∧ (s.scope processScope).discipline = .global
  sole : ∀ id, id ≠ processScope → s.arenasOf id ≤ 1
  known : ∀ id, id ≠ processScope → s.scopes.size ≤ id → s.arenasOf id = 0

theorem SoleArenas.act (h : SoleArenas s) (act : Act t s s') : SoleArenas s' := by
  have hc := act.continues
  refine ⟨⟨Nat.lt_of_lt_of_le h.process.1 hc.size_le,
    (hc.discipline _ h.process.1).trans h.process.2⟩, fun id hne => ?_, fun id hne hid => ?_⟩
  · by_cases hid : id < s.scopes.size
    · exact Nat.le_trans (hc.arenas id hne (.inl hid)) (h.sole id hne)
    · have hopened := hc.opened id hne
      rwa [h.known id hne (Nat.le_of_not_lt hid)] at hopened
  · have hless := hc.arenas id hne (.inr hid)
    rw [h.known id hne (Nat.le_trans hc.size_le hid)] at hless
    exact Nat.le_zero.mp hless

theorem Session.soleArenas {system : System} (h : Session system s) : SoleArenas s := by
  induction h with
  | refl => exact ⟨⟨Nat.one_pos, rfl⟩, fun _ _ => Nat.zero_le 1, fun _ _ _ => rfl⟩
  | tail _ hact ih =>
    obtain ⟨t, -, hact⟩ := hact
    exact ih.act hact

theorem SoleArenas.ne_process (h : SoleArenas s)
    (confined : (s.scope id).discipline = .confined owner) : id ≠ processScope := by
  rintro rfl
  rw [h.process.2] at confined
  cases confined

/-- After the only arena of a scope is gone there is none. -/
theorem SoleArenas.erase (h : SoleArenas s) (hne : id ≠ processScope) {name : String} {arena : Arena}
    (found : s.arenaNamed name = .ok arena) (hscope : arena.scope = id) :
    ({ s with handles.arenas := s.handles.arenas.erase name } : State).arenasOf id = 0 := by
  have hless := Table.countP_erase_lt (p := (·.scope == id)) (named_eq_ok.mp found)
    (beq_iff_eq.mpr hscope)
  exact Nat.lt_one_iff.mp (Nat.lt_of_lt_of_le hless (h.sole id hne))

/-- The arena of a confined scope goes on another thread, and does not close it. -/
theorem drop_foreign (limit : Nat) {name : String} {arena : Arena}
    (found : s.arenaNamed name = .ok arena)
    (confined : (s.scope arena.scope).discipline = .confined owner) (foreign : t ≠ owner) :
    ∃ s', (Operation.drop (.arena name)).perform (work t limit) t s = (.ok .nothing, s') ∧
      Acts t { s with handles.arenas := s.handles.arenas.erase name } s' := by
  have hdrop : (Operation.drop (.arena name)).perform (work t limit) t s = (.ok .nothing,
      ({ s with handles.arenas := s.handles.arenas.erase name } : State).releaseArena (work t limit)
        t arena) := by
    simp only [Operation.perform, drop, found]
    rfl
  generalize hs₁ : ({ s with handles.arenas := s.handles.arenas.erase name } : State) = s₁ at hdrop ⊢
  have hconfined : (s₁.scope arena.scope).discipline = .confined owner := by rw [← hs₁]; exact confined
  refine ⟨_, hdrop, ?_⟩
  unfold releaseArena
  refine .trans ?_ (releaseScope_acts (work_actsFor t limit) arena.scope _)
  rcases closeScope_cases (work t limit) s₁ t arena.scope with ⟨e, h⟩ | ⟨-, hmay, -⟩
  · rw [h]
    split
    · exact (log_beside _ _).aside.acts
    · exact .refl
  · rw [hconfined] at hmay
    rcases hmay with hmine | hshared
    · exact absurd (Discipline.confined.inj hmine).symm foreign
    · cases hshared

/-- **A confined scope without its arena** keeps what it holds until nothing keeps it. -/
theorem drop_foreign_fares {limit : Nat} {name : String} {arena : Arena} (hs : SoleArenas s)
    (found : s.arenaNamed name = .ok arena) (hscope : arena.scope = id)
    (confined : (s.scope id).discipline = .confined owner) (alive : s.isAlive id = true)
    (foreign : t ≠ owner) :
    ∃ s', (Operation.drop (.arena name)).perform (work t limit) t s = (.ok .nothing, s') ∧
      ∀ limit' steps, Fares s (s'.run limit' steps).2 id owner (Takes steps owner) False := by
  subst hscope
  have hne := hs.ne_process confined
  have herased := hs.erase hne found rfl
  obtain ⟨s', hdrop, hacts⟩ := drop_foreign limit found confined foreign
  refine ⟨s', hdrop, fun limit' steps => ?_⟩
  have hu : Untouched s { s with handles.arenas := s.handles.arenas.erase name } arena.scope :=
    ⟨rfl, rfl, rfl, rfl, rfl⟩
  have hall : ActsOf (fun u => u = t ∨ Takes steps u)
      { s with handles.arenas := s.handles.arenas.erase name } (s'.run limit' steps).2 :=
    (Acts.of hacts (.inl rfl)).trans (ActsOf.mono (run_acts limit' s' steps) fun _ => .inr)
  have hfares := ActsOf.fares hall confined alive hne
  rw [herased] at hfares
  exact (Keeps.of_untouched alive hu).fares (fun h => absurd rfl h) hfares
    (fun h => h.resolve_left fun h => foreign h.symm) fun h => Nat.lt_irrefl 0 h.2

end

/-! ### Confinement to the owner -/

/-- **A confined scope is its owner's.** On any other thread, what works in it is withheld. Nothing
is added to it but by its owner, and it ends by a close or drop of its owner, or when nothing keeps
it; a drop on another thread leaves it as it is until then. -/
theorem confined_to_owner (system : System) :
    (∀ limit steps, Session system (after system limit steps)) ∧
    (∀ s, Session system s → ∀ (t : Thread) (limit : Nat),
      (∀ operation : Operation, Session system (operation.perform (work t limit) t s).2) ∧
      ∀ action, Session system (s.act (work t limit) t action).2) ∧
    ∀ s, Session system s → ∀ id owner, (s.scope id).discipline = .confined owner →
      (∀ t, t ≠ owner → ∀ nested : Nested,
        (∀ operation : Operation, operation.WorksIn s id →
          Withheld nested t s id (operation.perform nested t s)) ∧
        ∀ action, ActionOver.WorksIn s id action →
          ∃ fault, s.act nested t action = (.ok (.failed fault), s)) ∧
      (s.isAlive id = true →
        (∀ limit steps, Fares s (s.run limit steps).2 id owner (Takes steps owner)
          (Takes steps owner)) ∧
        ∀ t, t ≠ owner → ∀ name arena, s.arenaNamed name = .ok arena → arena.scope = id →
          ∀ limit, ∃ s',
            (Operation.drop (.arena name)).perform (work t limit) t s = (.ok .nothing, s') ∧
            ∀ limit' steps,
              Fares s (s'.run limit' steps).2 id owner (Takes steps owner) False) := by
  refine ⟨fun limit steps => ActsOf.mono (run_acts limit _ steps) fun _ _ => trivial,
    fun s hs t limit => ⟨fun operation => ?_, fun action => ?_⟩,
    fun s hs id owner confined => ⟨fun t foreign nested => ⟨fun operation works => ?_,
      fun action works => ?_⟩, fun alive => ⟨fun limit steps => ?_,
      fun t foreign name arena found hscope limit => ?_⟩⟩⟩
  · exact hs.trans (Acts.of (operation.perform_acts (work_actsFor t limit) s) trivial)
  · exact hs.trans (Acts.of (act_acts (work_actsFor t limit) action s) trivial)
  · exact Operation.withheld confined foreign nested works
  · exact ActionOver.withheld confined foreign nested works
  · have hne := (Session.soleArenas hs).ne_process confined
    have hfares := ActsOf.fares (run_acts limit s steps) confined alive hne
    exact (Keeps.refl alive).fares (fun h => absurd rfl h) hfares (fun h => h) And.left
  · exact drop_foreign_fares (Session.soleArenas hs) found hscope confined alive foreign

/-- One thread has an arena and has allocated from it. -/
def lent : State :=
  after .bump 1 [some ⟨0, .openArena "a" .confined none⟩,
    some ⟨0, .allocate (.arena "a") (.bytes 8 8) (some "x")⟩]

/-- Another thread does not get at the bytes, and when it drops the arena, the block stays. -/
theorem confined_to_owner_lent :
    (lent.scope 1).discipline = .confined 0 ∧ (lent.scope 1).blocks.length = 1 ∧
    Withheld (work 1 1) 1 lent 1 ((Operation.query (.bytes "x")).perform (work 1 1) 1 lent) ∧
    ∃ s', (Operation.drop (.arena "a")).perform (work 1 1) 1 lent = (.ok .nothing, s') ∧
      ∀ limit steps, Fares lent (s'.run limit steps).2 1 0 (Takes steps 0) False := by
  obtain ⟨hruns, -, hstates⟩ := confined_to_owner .bump
  obtain ⟨hwithheld, hfares⟩ := hstates lent (hruns 1 _) 1 0 rfl
  refine ⟨rfl, rfl, (hwithheld 1 (by decide) _).1 _ ⟨"x", List.mem_singleton_self _, rfl⟩, ?_⟩
  exact (hfares rfl).2 1 (by decide) "a" ⟨0, 1, {}, false⟩ rfl rfl 1

end State

end ScopedMemory
