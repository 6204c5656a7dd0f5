import ScopedMemory.Proofs.CleanupRuns

/-! Whatever is done is done by moves.

Each function goes from state to state by the moves of threads. At its end all accesses that it
began are over, and the cleanups and scopes whose end it wrote down have come to it (`Goes`).
Callbacks begin only where such moves have led, and the segments that they use stay meanwhile
(`Ready`): so it does not matter what a callback would do anywhere else (`Company.agrees`). -/
namespace ScopedMemory

/-- The segments that a callback uses. -/
def Work.used : Work → List Segment
  | .script actions => actions.segments
  | .release _ => []

namespace State

/-! ### Going on -/

/-- The mappings behind these segments are still there, and keep what they kept. -/
def Persists (segments : List Segment) (s s' : State) : Prop :=
  ∀ x ∈ segments, ∀ m mapping, x.backing = .mapped m → s.mapping? m = some mapping →
    ∃ mapping', s'.mapping? m = some mapping' ∧ mapping'.segments = mapping.segments

/-- Moves are made, and the accesses under way at the end are those at the start. -/
structure Strides (segments : List Segment) (s s' : State) : Prop extends Advances s s' where
  sound : Sound s'
  guards : s'.guards = s.guards
  holds : s'.holds = s.holds
  persists : Persists segments s s'

/-- What begins on the way is completed, too. -/
structure Steps (segments : List Segment) (s s' : State) : Prop extends
  Strides segments s s', Completes s s'

/-- How a function goes on: the segments that stay for a while do so. -/
structure Goes (s s' : State) : Prop extends Steps s.outgoing s s' where
  outgoing : s'.outgoing = s.outgoing

section
variable {s s' s'' : State} {segments segments' : List Segment}

theorem Persists.of_mappings (h : s'.mappings = s.mappings) : Persists segments s s' :=
  fun _ _ m mapping _ hm => ⟨mapping, by rwa [mapping?, h], rfl⟩

theorem Persists.trans (h : Persists segments s s') (h' : Persists segments s' s'') :
    Persists segments s s'' := by
  intro x hx m mapping hb hm
  obtain ⟨mapping', hm', hsame⟩ := h x hx m mapping hb hm
  obtain ⟨mapping'', hm'', hsame'⟩ := h' x hx m mapping' hb hm'
  exact ⟨mapping'', hm'', hsame'.trans hsame⟩

theorem Strides.trans (h : Strides segments s s') (h' : Strides segments s' s'') :
    Strides segments s s'' where
  toAdvances := h.toAdvances.trans h'.toAdvances
  sound := h'.sound
  guards := h'.guards.trans h.guards
  holds := h'.holds.trans h.holds
  persists := h.persists.trans h'.persists

theorem Steps.trans (h : Steps segments s s') (h' : Steps segments s' s'') :
    Steps segments s s'' :=
  ⟨h.toStrides.trans h'.toStrides, (h.toCompletes.trans h'.toCompletes).explains⟩

theorem Steps.mono (h : Steps segments' s s') (sub : ∀ x ∈ segments, x ∈ segments') :
    Steps segments s s' :=
  { h with persists := fun x hx => h.persists x (sub x hx) }

theorem Steps.calm (h : Calm s s') (quiet : Uneventful s s') (sound : Sound s')
    (persists : Persists segments s s') : Steps segments s s' :=
  have hcompletes := quiet.completes (.single (.calm h))
  ⟨⟨hcompletes.toAdvances, sound, h.guards, h.holds, persists⟩, hcompletes.explains⟩

/-- What begins first is explained by what comes after it. -/
theorem Strides.completed (h : Strides segments s s') (h' : Steps segments s' s'')
    (explains : s''.aborted = true ∨ Explains s.journal s'.journal s s'') : Steps segments s s'' :=
  ⟨h.trans h'.toStrides, (h.toAdvances.completed h'.toCompletes explains).explains⟩

theorem Goes.refl (hs : Sound s) : Goes s s :=
  ⟨⟨⟨.refl, hs, rfl, rfl, .of_mappings rfl⟩, ((Uneventful.of_eq rfl rfl).completes .refl).explains⟩,
    rfl⟩

theorem Goes.trans (h : Goes s s') (h' : Goes s' s'') : Goes s s'' :=
  ⟨h.toSteps.trans (h.outgoing ▸ h'.toSteps), h'.outgoing.trans h.outgoing⟩

theorem Grows.goes (h : Grows s s') (hs : Sound s) : Goes s s' :=
  ⟨.calm h.calm h.uneventful (h.tidy hs).course.sound (.of_mappings h.grown.mappings),
    (h.tidy hs).outgoing⟩

theorem Beside.goes (h : Beside s s') (hs : Sound s) : Goes s s' := (Grows.of_beside h).goes hs

/-- Other segments stay for a while. -/
theorem outgoing_steps {outgoing : List Segment} (hs : Sound s)
    (kept : ∀ x ∈ outgoing, x ∈ s.keptSegments ∨ s.Lasting x.scope) :
    Steps segments s { s with outgoing } :=
  have hcourse : Course (fun _ => False) s { s with outgoing } := outgoing_leads s outgoing hs
  .calm (calm_outgoing kept) (.of_eq rfl rfl) hcourse.sound (.of_mappings rfl)

theorem unpin_steps {outgoing : List Segment} (hs : Sound s)
    (kept : ∀ x ∈ outgoing, x ∈ s.outgoing) : Steps segments s { s with outgoing } :=
  outgoing_steps hs fun x hx => .inl (kept_of_outgoing (kept x hx))

end

/-! ### Callbacks -/

/-- The segment stays for a while, or a mapping keeps it that a segment which does keeps. -/
def Pinned (s : State) (x : Segment) : Prop :=
  x ∈ s.outgoing ∨ ∃ y ∈ s.outgoing, ∃ m mapping, y.backing = .mapped m ∧
    s.mapping? m = some mapping ∧ x ∈ mapping.segments

/-- Moves lead to the state. -/
structure Reached (origin s : State) : Prop where
  sound : Sound s
  path : Path origin s

/-- A callback may begin. What it lets go of lasts, and what it uses stays. -/
structure Ready (origin : State) (work : Work) (s : State) : Prop extends Reached origin s where
  released : ∀ x ∈ work.segments, s.Lasting x.scope
  used : ∀ x ∈ work.used, s.Pinned x

/-- What a thread's nested callbacks do is done by moves, if they begin where they may; and there
others do the same. -/
structure Company (t : Thread) (origin : State) (nested other : Nested) : Prop where
  kept : KeptLast origin
  accounts : Accounts origin
  deep : ∃ limit, nested = work t limit
  goes : ∀ {work s}, Ready origin work s → Goes s (nested work s).2
  agrees : ∀ {work s}, Ready origin work s → other work s = nested work s

section
variable {origin s s' : State} {nested other : Nested} {x : Segment} {t : Thread} {id : ScopeId}

theorem Pinned.kept (h : s.Pinned x) : x ∈ s.keptSegments := by
  rcases h with h | ⟨y, -, m, mapping, -, hm, hx⟩
  · exact kept_of_outgoing h
  · exact kept_of_mapping hm hx

theorem Pinned.goes (h : s.Pinned x) (hg : Goes s s') : s'.Pinned x := by
  rcases h with h | ⟨y, hy, m, mapping, hb, hm, hx⟩
  · exact .inl (hg.outgoing ▸ h)
  · obtain ⟨mapping', hm', hsame⟩ := hg.persists y hy m mapping hb hm
    exact .inr ⟨y, hg.outgoing ▸ hy, m, mapping', hb, hm', hsame ▸ hx⟩

theorem Reached.strides {segments : List Segment} (h : Reached origin s)
    (hg : Strides segments s s') : Reached origin s' :=
  ⟨hg.sound, h.path.trans hg.path⟩

theorem Reached.steps {segments : List Segment} (h : Reached origin s)
    (hg : Steps segments s s') : Reached origin s' :=
  h.strides hg.toStrides

theorem Reached.goes (h : Reached origin s) (hg : Goes s s') : Reached origin s' :=
  h.steps hg.toSteps

theorem Reached.enter (h : Reached origin s) (entry : s.checkEntry t id = .ok ())
    (hid : id < s.scopes.size) : Reached origin (s.hold t id) :=
  ⟨(hold_tidy s t id h.sound).course.sound, h.path.tail (.enter entry hid)⟩

theorem Reached.store (h : Reached origin s) (memory : Memory) :
    Reached origin { s with memory } :=
  h.goes ((Grows.refl.store memory s.arrays).goes h.sound)

theorem Company.tame (hc : Company t origin nested other) : nested.Tame := by
  obtain ⟨limit, rfl⟩ := hc.deep
  exact work_tame t limit

/-- What is kept lasts. -/
theorem Company.lasting (hc : Company t origin nested other) (hr : Reached origin s)
    (hx : x ∈ s.keptSegments) : s.Lasting x.scope :=
  hr.path.keptLast hc.kept _ (keepsScope_of_segment hx)

/-- Segments that stayed while something was done may be let go of. -/
theorem Company.unpin (hc : Company t origin nested other) (hr : Reached origin s)
    {segments others : List Segment} (h : s.outgoing = segments ++ others) :
    Ready origin (.release segments) { s with outgoing := others } := by
  have hunpin : Steps others s { s with outgoing := others } :=
    unpin_steps hr.sound fun x hx => h ▸ List.mem_append_right _ hx
  have hlasting : ∀ x ∈ segments, s.Lasting x.scope := fun x hx =>
    hc.lasting hr (kept_of_outgoing (h ▸ List.mem_append_left _ hx))
  exact ⟨hr.steps hunpin, hlasting, fun x hx => by cases hx⟩

/-! ### The end of a scope -/

theorem calm_beginCleanup (s : State) (t : Thread) (id : ScopeId) (cleanup : Cleanup) :
    Calm s (s.beginCleanup t id cleanup) := by
  obtain ⟨event, heq⟩ := beginCleanup_eq s t id cleanup
  have hpop : Calm (s.newScope .global).2
      (((s.newScope .global).2.modifyScope id fun scope =>
        { scope with cleanups := scope.cleanups.tail }).record id
        (.began cleanup ⟨cleanup.address, 0, .native, false, s.scopes.size⟩)) :=
    calm_note (fun _ => rfl) (fun _ => rfl) (fun _ => rfl)
      fun _ _ hmem => .inl (List.mem_of_mem_tail hmem)
  rw [heq]
  exact (calm_newScope s .global).trans (hpop.trans (calm_beside ⟨_, _, _, _, rfl⟩))

/-- What is written down when a cleanup begins. -/
theorem journal_beginCleanup (s : State) (t : Thread) (id : ScopeId) (cleanup : Cleanup) :
    (s.beginCleanup t id cleanup).journal = (s.journal ++ [⟨s.scopes.size, .opened⟩]) ++
      [⟨id, .began cleanup ⟨cleanup.address, 0, .native, false, s.scopes.size⟩⟩] := by
  obtain ⟨event, heq⟩ := beginCleanup_eq s t id cleanup
  rw [heq]
  rfl

/-- The first cleanup of a scope begins; what it keeps stays. -/
theorem beginCleanup_strides {segments : List Segment} {cleanup : Cleanup} {rest : List Cleanup}
    (hs : Sound s) (hid : id < s.scopes.size) (closed : (s.scope id).phase = .closed)
    (hcs : (s.scope id).cleanups = cleanup :: rest) :
    Strides segments s ((s.beginCleanup t id cleanup).pin cleanup.script.segments) := by
  obtain ⟨hcourse, -⟩ := beginCleanup_spec (t := t) hs hid closed hcs
  have hpinned : Course (fun _ => False) (s.beginCleanup t id cleanup)
      ((s.beginCleanup t id cleanup).pin cleanup.script.segments) := outgoing_leads _ _ hcourse.sound
  have hpin : Calm s (s.pin cleanup.script.segments) := by
    refine calm_outgoing fun x hx => .inl ?_
    rcases List.mem_append.mp hx with hx | hx
    · exact kept_of_cleanup (hcs ▸ List.mem_cons_self) hx
    · exact kept_of_outgoing hx
  -- It does not matter which comes first.
  have hcalm := hpin.trans (calm_beginCleanup _ t id cleanup)
  exact
    { path := .single (.calm hcalm)
      journal := hcourse.journal
      aborted := fun ha => ha
      sound := hpinned.sound
      guards := hcalm.guards
      holds := hcalm.holds
      persists := .of_mappings rfl }

/-- What has begun is one run of the cleanup's script, unless there is no room for callbacks. -/
theorem beginCleanup_explained {limit : Nat} {cleanup : Cleanup} {r : State}
    (later : Advances (s.runCleanup (work t limit) t id cleanup).2 r) :
    r.aborted = true ∨ Explains s.journal (s.beginCleanup t id cleanup).journal s r := by
  cases limit with
  | zero => exact .inl (later.aborted rfl)
  | succ limit =>
    right
    rw [journal_beginCleanup]
    refine Explains.append (explains_quiet fun entry hentry => ?_) (explains_entry ?_)
      (List.prefix_append _ _)
    · rw [List.mem_singleton.mp hentry]
      rfl
    · exact ⟨⟨t, limit, id, cleanup, s⟩, rfl, rfl, journal_beginCleanup s t id cleanup, .refl, later⟩

/-- **One cleanup** is run by moves. -/
theorem runCleanup_goes (hc : Company t origin nested other) (hr : Reached origin s)
    {cleanup : Cleanup} {rest : List Cleanup} (hid : id < s.scopes.size)
    (closed : (s.scope id).phase = .closed) (hcs : (s.scope id).cleanups = cleanup :: rest) :
    Goes s (s.runCleanup nested t id cleanup).2 ∧
      s.runCleanup other t id cleanup = s.runCleanup nested t id cleanup := by
  have hbegin : Strides s.outgoing s ((s.beginCleanup t id cleanup).pin cleanup.script.segments) :=
    beginCleanup_strides hr.sound hid closed hcs
  have hready : Ready origin (.script cleanup.script)
      ((s.beginCleanup t id cleanup).pin cleanup.script.segments) :=
    { toReached := hr.strides hbegin
      released := fun x hx => by cases hx
      used := fun x hx => .inl (List.mem_append_left _ hx) }
  obtain ⟨argument, hprogress⟩ := runCleanup_progress (t := t) hc.tame hr.sound hid closed hcs
  have hran := hc.goes hready
  have hready' := hc.unpin (hready.toReached.goes hran) hran.outgoing
  have heq : ∀ nested : Nested, s.runCleanup nested t id cleanup =
      ((nested (.script cleanup.script) ((s.beginCleanup t id cleanup).pin
        cleanup.script.segments)).1,
      (nested (.release cleanup.script.segments) { (nested (.script cleanup.script)
        ((s.beginCleanup t id cleanup).pin cleanup.script.segments)).2 with
          outgoing := (s.beginCleanup t id cleanup).outgoing }).2.record id (.done cleanup)) :=
    fun _ => rfl
  have hagree : s.runCleanup other t id cleanup = s.runCleanup nested t id cleanup := by
    rw [heq, heq, hc.agrees hready, hc.agrees hready']
  have hreleased := hc.goes hready'
  have hunpin : Steps s.outgoing _ _ := unpin_steps hran.sound fun x hx =>
    hran.outgoing ▸ List.mem_append_right _ hx
  have hrecord : Steps s.outgoing _ (s.runCleanup nested t id cleanup).2 :=
    .calm (calm_record _ id (.done cleanup)) (.of_record id (.done cleanup) rfl rfl rfl)
      hprogress.course.sound (.of_mappings rfl)
  have hafter := (hran.toSteps.mono fun x => List.mem_append_right _).trans
    (hunpin.trans (hreleased.toSteps.trans hrecord))
  obtain ⟨limit, rfl⟩ := hc.deep
  exact ⟨⟨hbegin.completed hafter (beginCleanup_explained .refl), hreleased.outgoing⟩, hagree⟩

/-- **All cleanups** are run by moves. -/
theorem runCleanups_goes (hc : Company t origin nested other) {cleanups : List Cleanup}
    (hr : Reached origin s) (hid : id < s.scopes.size) (closed : (s.scope id).phase = .closed)
    (hcs : (s.scope id).cleanups = cleanups) :
    Goes s (s.runCleanups nested t id cleanups).2 ∧
      s.runCleanups other t id cleanups = s.runCleanups nested t id cleanups := by
  induction cleanups generalizing s with
  | nil => exact ⟨.refl hr.sound, rfl⟩
  | cons cleanup rest ih =>
    obtain ⟨hran, hagree⟩ := runCleanup_goes hc hr hid closed hcs
    obtain ⟨argument, hprogress⟩ := pastCleanup_progress (t := t) hc.tame hr.sound hid closed hcs
    have hfirst : Goes s (s.pastCleanup nested t id cleanup) :=
      hran.trans ((pastCleanup_beside nested s t id cleanup).goes hran.sound)
    have hpast : s.pastCleanup other t id cleanup = s.pastCleanup nested t id cleanup := by
      simp only [pastCleanup, hagree]
    obtain ⟨hrest, hagree'⟩ := ih (hr.goes hfirst)
      (Nat.lt_of_lt_of_le hid hprogress.course.size_le) hprogress.closed hprogress.cleanups
    rw [runCleanups_cons, runCleanups_cons, hagree, hpast, hagree']
    exact ⟨hfirst.trans hrest, rfl⟩

theorem freeBlock_goes {block : Block} {rest : List Block} (hs : Sound s)
    (hid : id < s.scopes.size) (closed : (s.scope id).phase = .closed)
    (hb : (s.scope id).blocks = block :: rest) : Goes s (freeBlock id s block) := by
  have hprogress := freeBlock_progress hs hid closed hb
  have hnote : Calm s ((s.modifyScope id fun scope => { scope with blocks := scope.blocks.tail }).record
      id (.freed block)) :=
    calm_note (fun _ => rfl) (fun _ => rfl) (fun _ => rfl) fun _ _ hmem => .inl hmem
  have hfill : Grows ((s.modifyScope id fun scope => { scope with blocks := scope.blocks.tail }).record
      id (.freed block)) (freeBlock id s block) := by
    unfold freeBlock
    split
    · exact .refl
    · exact (Grows.refl.store _ s.arrays).beside ⟨_, _, _, _, rfl⟩
  have hquiet : Uneventful s (freeBlock id s block) :=
    have hrecord : Uneventful s ((s.modifyScope id fun scope =>
        { scope with blocks := scope.blocks.tail }).record id (.freed block)) :=
      .of_record id (.freed block) rfl rfl rfl
    hrecord.trans hfill.uneventful
  exact ⟨.calm (hnote.trans hfill.calm) hquiet hprogress.course.sound
    (.of_mappings hfill.grown.mappings), hprogress.outgoing⟩

theorem freeBlocks_goes {blocks : List Block} (hs : Sound s) (hid : id < s.scopes.size)
    (closed : (s.scope id).phase = .closed) (hb : (s.scope id).blocks = blocks) :
    Goes s (blocks.foldl (freeBlock id) s) := by
  induction blocks generalizing s with
  | nil => exact .refl hs
  | cons block rest ih =>
    have hprogress := freeBlock_progress hs hid closed hb
    exact (freeBlock_goes hs hid closed hb).trans (ih hprogress.course.sound
      (Nat.lt_of_lt_of_le hid hprogress.course.size_le) hprogress.closed hprogress.blocks)

/-- A scope ends that may. -/
theorem endScope_strides {segments : List Segment} {closer : Option Thread} (hs : Sound s)
    (hid : id < s.scopes.size) (hend : Path s (s.endScope id closer)) :
    Strides segments s (s.endScope id closer) :=
  have hcourse : Course (· = id) s (s.endScope id closer) := own_leads hid rfl rfl trivial hs
  ⟨⟨hend, hcourse.journal, fun ha => ha⟩, hcourse.sound, rfl, rfl, .of_mappings rfl⟩

/-- The end of a scope is explained by the runs of its cleanups and the freeing of its blocks. -/
theorem endScope_explained {closer : Option Thread} {ran stop r : State}
    (runs : RunInTurn id (s.scope id).cleanups (s.endScope id closer) ran)
    (frees : FreedInTurn id (s.scope id).blocks ran stop) (later : Advances stop r) :
    Explains s.journal (s.endScope id closer).journal s r :=
  explains_entry ⟨⟨id, closer, s, ran, stop, runs, frees⟩, rfl, rfl, rfl, .refl, later⟩

/-- **The end of a scope** comes by moves, once it may be marked closed. -/
theorem finish_goes (hc : Company t origin nested other) (hr : Reached origin s)
    {closer : Option Thread} (hid : id < s.scopes.size) (hend : Path s (s.endScope id closer)) :
    Goes s (s.finish nested t id closer).2 ∧
      s.finish other t id closer = s.finish nested t id closer := by
  have hself : (s.endScope id closer).scope id = { s.scope id with phase := .closed } :=
    scope_modifyScope_self _ hid
  have hcourse : Course (· = id) s (s.endScope id closer) := own_leads hid rfl rfl trivial hr.sound
  have hended : Strides s.outgoing s (s.endScope id closer) := endScope_strides hr.sound hid hend
  have hid₁ := Nat.lt_of_lt_of_le hid hcourse.size_le
  have hcleanups : ((s.endScope id closer).scope id).cleanups = (s.scope id).cleanups := by
    rw [hself]
  obtain ⟨hran, hagree⟩ := runCleanups_goes hc (hr.strides hended) hid₁ (by rw [hself]) hcleanups
  obtain ⟨runs, -, hprogress⟩ := runCleanups_progress (t := t) hc.tame hcourse.sound hid₁
    (by rw [hself]) hcleanups
  have hfreed := freeBlocks_goes hprogress.course.sound
    (Nat.lt_of_lt_of_le hid₁ hprogress.course.size_le) hprogress.closed rfl
  have hlogged := (log_beside _ (.scopeClosed id (s.scope id).discipline.kind
    (s.scope id).cleanups.length (s.scope id).heldBytes)).goes hfreed.sound
  have hafter := hran.trans (hfreed.trans hlogged)
  have hagree' : s.finish other t id closer = s.finish nested t id closer := by
    simp only [finish, hagree]
  refine ⟨⟨hended.completed hafter.toSteps ?_, hafter.outgoing⟩, hagree'⟩
  obtain ⟨limit, rfl⟩ := hc.deep
  refine (runCleanups_inTurn (s.endScope id closer) t limit id (s.scope id).cleanups).imp
    (fun ha => (hfreed.trans hlogged).aborted ha) fun hturn => ?_
  have hblocks : (((s.endScope id closer).runCleanups (work t limit) t id
      (s.scope id).cleanups).2.scope id).blocks = (s.scope id).blocks := by
    rw [hprogress.blocks, hself]
  exact endScope_explained hturn (hblocks ▸ freeBlocks_inTurn _ id _) hlogged.toAdvances

/-! ### Closing -/

/-- A close that goes through makes two moves before it releases anything. -/
theorem close_path (closer : Option Thread) (halive : (s.scope id).phase = .alive)
    (hcloseable : (s.scope id).discipline.kind.closeable = true) : Path s (s.endScope id closer) := by
  have hid : id < s.scopes.size := lt_size_of_phase (by rw [halive]; decide)
  have hself := scope_modifyScope_self (s := s) (fun scope => { scope with phase := .closing }) hid
  have hshut : Move s _ := .shut (isAlive_iff.mpr halive) hcloseable
  have hfinish : Move (s.modifyScope id fun scope => { scope with phase := .closing })
      ((s.modifyScope id fun scope => { scope with phase := .closing }).endScope id closer) :=
    .finish (.inl ⟨by rw [hself], by rw [hself]; exact hcloseable⟩)
  rw [endScope_closing] at hfinish
  exact .tail (.single hshut) hfinish

theorem closeScope_goes (hc : Company t origin nested other) (hr : Reached origin s)
    (id : ScopeId) :
    Goes s (s.closeScope nested t id).2 ∧ s.closeScope other t id = s.closeScope nested t id := by
  cases hcheck : s.checkClose t id with
  | error e =>
    simp only [closeScope, hcheck]
    exact ⟨.refl hr.sound, trivial⟩
  | ok u =>
    obtain ⟨halive, -⟩ := checkClose_ok hcheck
    obtain ⟨hgoes, hagree⟩ := finish_goes hc hr
      (lt_size_of_phase (by rw [halive]; decide))
      (close_path (some t) halive (checkClose_closeable hcheck))
    rw [closeScope_finish hcheck, closeScope_finish hcheck, hagree]
    exact ⟨hgoes, rfl⟩

theorem closeArena_goes (hc : Company t origin nested other) (hr : Reached origin s)
    (arena : Arena) :
    Goes s (s.closeArena nested t arena).2 ∧
      s.closeArena other t arena = s.closeArena nested t arena := by
  obtain ⟨hgoes, hagree⟩ := closeScope_goes hc hr arena.scope
  unfold closeArena
  rw [hagree]
  refine ⟨?_, rfl⟩
  generalize s.closeScope nested t arena.scope = closed at hgoes
  obtain ⟨result, s'⟩ := closed
  dsimp only
  split
  · rcases result with e | (_ | text)
    · exact hgoes
    · exact hgoes
    · exact hgoes
  · exact .refl hr.sound

/-! ### Lost handles -/

theorem expire_goes (hc : Company t origin nested other) (hr : Reached origin s)
    (unkept : s.keepsScope id = false) :
    Goes s (s.expire nested t id) ∧ s.expire other t id = s.expire nested t id := by
  unfold expire
  dsimp only
  split
  · exact ⟨.refl hr.sound, rfl⟩
  · rename_i hopen
    have halive := ((hr.sound.phases id).resolve_left hopen).1
    have hid := lt_size_of_phase hopen
    have hend : Path s (s.endScope id none) := .single (.finish (.inr ⟨halive, unkept⟩))
    split
    · rename_i hempty
      rw [Bool.and_eq_true, List.isEmpty_iff, List.isEmpty_iff] at hempty
      have hended : Strides s.outgoing s (s.endScope id none) := endScope_strides hr.sound hid hend
      have hstay := (Goes.refl hended.sound).toSteps
      have hruns : RunInTurn id (s.scope id).cleanups (s.endScope id none) (s.endScope id none) :=
        hempty.1 ▸ .nil
      have hfrees : FreedInTurn id (s.scope id).blocks (s.endScope id none) (s.endScope id none) :=
        hempty.2 ▸ freeBlocks_inTurn _ id []
      exact ⟨⟨hended.completed hstay (.inr (endScope_explained hruns hfrees .refl)), rfl⟩, rfl⟩
    · obtain ⟨hgoes, hagree⟩ := finish_goes hc hr hid hend
      rw [hagree]
      exact ⟨hgoes, rfl⟩

theorem releaseScope_goes (hc : Company t origin nested other) (hr : Reached origin s)
    (id : ScopeId) :
    Goes s (s.releaseScope nested t id) ∧
      s.releaseScope other t id = s.releaseScope nested t id := by
  unfold releaseScope
  split
  · exact ⟨.refl hr.sound, rfl⟩
  · exact expire_goes hc hr (Bool.eq_false_iff.mpr ‹_›)

theorem releaseArena_goes (hc : Company t origin nested other) (hr : Reached origin s)
    (arena : Arena) :
    Goes s (s.releaseArena nested t arena) ∧
      s.releaseArena other t arena = s.releaseArena nested t arena := by
  obtain ⟨hclosed, hagree⟩ := closeScope_goes hc hr arena.scope
  unfold releaseArena
  dsimp only
  rw [hagree]
  generalize s.closeScope nested t arena.scope = closed at *
  generalize hfirst : (if (s.scope arena.scope).discipline.kind.closeable &&
    (s.scope arena.scope).isAlive then _ else s) = first
  have hgoes : Goes s first := by
    subst hfirst
    split
    · split
      · exact hclosed.trans ((log_beside _ _).goes hclosed.sound)
      · exact hclosed
    · exact .refl hr.sound
  obtain ⟨hreleased, hagree'⟩ := releaseScope_goes hc (hr.goes hgoes) arena.scope
  exact ⟨hgoes.trans hreleased, hagree'⟩

/-! ### Mappings -/

/-- A mapping that nothing keeps ends. -/
theorem unmap_goes {m : MappingId} (hs : Sound s) (unkept : s.keepsMapping m = false) :
    Goes s { s with mappings := s.mappings.set! m none } := by
  refine ⟨.calm (.of_scopes rfl rfl rfl (fun x hx => .inl ?_) fun _ ha => .inl ha) (.of_eq rfl rfl)
    (mappings_leads _ hs).sound fun x hx m' mapping hb hm => ⟨mapping, ?_, rfl⟩, rfl⟩
  · refine kept_of_mappings hx rfl rfl rfl rfl fun other mapping hother y hy => ?_
    have hne : other ≠ m := by
      rintro rfl
      rw [mapping?_set_none] at hother
      cases hother
    rw [mapping?_set_other hne] at hother
    exact kept_of_mapping hother hy
  · have hne : m' ≠ m := by
      rintro rfl
      have hkept := keepsMapping_iff.mpr (.inr ⟨x, kept_of_outgoing hx, hb⟩)
      rw [unkept] at hkept
      cases hkept
    rw [mapping?_set_other hne]
    exact hm

theorem releaseMapping_goes (hc : Company t origin nested other) (hr : Reached origin s)
    (m : MappingId) :
    Goes s (s.releaseMapping nested m) ∧ s.releaseMapping other m = s.releaseMapping nested m := by
  unfold releaseMapping
  split
  · exact ⟨.refl hr.sound, rfl⟩
  · rename_i hunkept
    split
    · exact ⟨.refl hr.sound, rfl⟩
    · rename_i mapping hm
      have hunmap := unmap_goes hr.sound (Bool.eq_false_iff.mpr hunkept)
      have hlasting : ∀ x ∈ mapping.segments, s.Lasting x.scope := fun x hx =>
        hc.lasting hr (kept_of_mapping hm hx)
      have hready : Ready origin (.release mapping.segments)
          { s with mappings := s.mappings.set! m none } :=
        ⟨hr.goes hunmap, hlasting, fun x hx => by cases hx⟩
      rw [hc.agrees hready]
      exact ⟨hunmap.trans (hc.goes hready), rfl⟩

/-! ### Segments -/

/-- The scope of the first segment is let go of, and then the other segments. -/
theorem releaseRest_goes (hc : Company t origin nested other) (scope : ScopeId)
    {rest others : List Segment}
    (ih : ∀ {s}, Ready origin (.release rest) s → Goes s (s.releaseSegments nested t rest) ∧
      s.releaseSegments other t rest = s.releaseSegments nested t rest)
    (hr : Reached origin s) (houtgoing : s.outgoing = rest ++ others) :
    Steps others s ({ s.releaseScope nested t scope with outgoing := others }.releaseSegments nested t
      rest) ∧
    ({ s.releaseScope nested t scope with outgoing := others }.releaseSegments nested t
      rest).outgoing = others ∧
    { s.releaseScope other t scope with outgoing := others }.releaseSegments other t rest =
      { s.releaseScope nested t scope with outgoing := others }.releaseSegments nested t rest := by
  obtain ⟨hscope, hagree⟩ := releaseScope_goes hc hr scope
  rw [hagree]
  have hready := hc.unpin (hr.goes hscope) (hscope.outgoing.trans houtgoing)
  obtain ⟨hrest, hagree'⟩ := ih hready
  have hbefore : ∀ x ∈ others, x ∈ s.outgoing := fun x hx =>
    houtgoing ▸ List.mem_append_right _ hx
  have hunpin : Steps others (s.releaseScope nested t scope)
      { s.releaseScope nested t scope with outgoing := others } :=
    unpin_steps hscope.sound fun x hx => hscope.outgoing ▸ hbefore x hx
  exact ⟨(hscope.toSteps.mono hbefore).trans (hunpin.trans hrest.toSteps), hrest.outgoing, hagree'⟩

/-- **Segments go** by moves. -/
theorem releaseSegments_goes (hc : Company t origin nested other) {segments : List Segment}
    (hready : Ready origin (.release segments) s) :
    Goes s (s.releaseSegments nested t segments) ∧
      s.releaseSegments other t segments = s.releaseSegments nested t segments := by
  induction segments generalizing s with
  | nil => exact ⟨.refl hready.sound, rfl⟩
  | cons x rest ih =>
    have hstay : ∀ y ∈ rest ++ s.outgoing, y ∈ s.keptSegments ∨ s.Lasting y.scope := by
      intro y hy
      rcases List.mem_append.mp hy with hy | hy
      · exact .inr (hready.released y (List.mem_cons_of_mem _ hy))
      · exact .inl (kept_of_outgoing hy)
    have hplain : Steps s.outgoing s { s with outgoing := rest ++ s.outgoing } :=
      outgoing_steps hready.sound hstay
    have hrest := releaseRest_goes hc x.scope ih (hready.toReached.steps hplain) rfl
    simp only [releaseSegments]
    cases hb : x.backing with
    | heap array => exact ⟨⟨hplain.trans hrest.1, hrest.2.1⟩, hrest.2.2⟩
    | native => exact ⟨⟨hplain.trans hrest.1, hrest.2.1⟩, hrest.2.2⟩
    | mapped m =>
      have hunmapped : Steps s.outgoing s
          { s with outgoing := { x with backing := .native } :: rest ++ s.outgoing } := by
        refine outgoing_steps hready.sound fun y hy => ?_
        rcases List.mem_cons.mp hy with rfl | hy
        · exact .inr (hready.released x List.mem_cons_self)
        · exact hstay y hy
      have hr := hready.toReached.steps hunmapped
      obtain ⟨hmapping, hagree⟩ := releaseMapping_goes hc hr m
      simp only [hagree]
      generalize releaseMapping nested m
        { s with outgoing := { x with backing := .native } :: rest ++ s.outgoing } = r at *
      have hunpin : Steps s.outgoing r { r with outgoing := rest ++ s.outgoing } :=
        unpin_steps hmapping.sound fun y hy => hmapping.outgoing ▸ List.mem_cons_of_mem _ hy
      have hrest := releaseRest_goes hc x.scope ih ((hr.goes hmapping).steps hunpin) rfl
      have hbefore := hunmapped.trans ((hmapping.toSteps.mono fun y hy =>
        List.mem_cons_of_mem _ (List.mem_append_right _ hy)).trans hunpin)
      exact ⟨⟨hbefore.trans hrest.1, hrest.2.1⟩, hrest.2.2⟩

/-! ### Requests to mappings -/

/-- A recorder keeps nothing, whatever it records. -/
theorem recorder_goes {m : MappingId} {r r' : Recorder} (hs : Sound s)
    (hm : s.mapping? m = some (.recorder r)) :
    Goes s { s with mappings := s.mappings.set! m (some (.recorder r')) } := by
  have hsize : m < s.mappings.size := by
    by_contra hsize
    simp [mapping?, hsize] at hm
  have hself : ({ s with mappings := s.mappings.set! m (some (.recorder r')) } : State).mapping? m =
      some (.recorder r') := by
    simp [mapping?, hsize]
  refine ⟨.calm (.of_scopes rfl rfl rfl (fun x hx => .inl ?_) fun _ ha => .inl ha) (.of_eq rfl rfl)
    (mappings_leads _ hs).sound fun x _ m' mapping _ hm' => ?_, rfl⟩
  · refine kept_of_mappings hx rfl rfl rfl rfl fun other mapping hother y hy => ?_
    by_cases heq : other = m
    · rw [heq, hself] at hother
      cases hother
      cases hy
    · rw [mapping?_set_other heq] at hother
      exact kept_of_mapping hother hy
  · by_cases heq : m' = m
    · rw [heq, hm] at hm'
      cases hm'
      exact ⟨.recorder r', by rw [heq]; exact hself, rfl⟩
    · exact ⟨mapping, (mapping?_set_other heq _).trans hm', rfl⟩

theorem askMapping_goes (hc : Company t origin nested other) (hr : Reached origin s)
    (hx : x ∈ s.outgoing) {m : MappingId} (hb : x.backing = .mapped m) (request : Request)
    (address length : Word) :
    Goes s (s.askMapping nested m request address length).2 ∧
      s.askMapping other m request address length = s.askMapping nested m request address length := by
  unfold askMapping
  split
  · exact ⟨.refl hr.sound, rfl⟩
  · exact ⟨recorder_goes hr.sound ‹_›, rfl⟩
  · rename_i mapping hm
    have hemit : Goes s (s.emit (.requested mapping.name request address length)) :=
      Beside.goes ⟨_, _, _, _, rfl⟩ hr.sound
    have hready : Ready origin (.script (mapping.scripts.get request))
        (s.emit (.requested mapping.name request address length)) :=
      { toReached := hr.goes hemit
        released := fun y hy => by cases hy
        used := fun y hy =>
          .inr ⟨x, hx, m, _, hb, hm, Mapping.mem_segments_scripted.mpr ⟨request, hy⟩⟩ }
    have hran := hemit.trans (hc.goes hready)
    dsimp only
    rw [hc.agrees hready]
    generalize nested (.script (mapping.scripts.get request)) _ = r at *
    obtain ⟨_ | text, s'⟩ := r
    · exact ⟨hran, rfl⟩
    · exact ⟨hran, rfl⟩

theorem hold_completes (entry : s.checkEntry t id = .ok ()) (hid : id < s.scopes.size) :
    Completes s (s.hold t id) := by
  have hquiet : Uneventful s (s.hold t id) := by
    rw [hold_eq]
    exact .of_eq rfl rfl
  exact hquiet.completes (.single (.enter entry hid))

theorem letOut_completes (inside : ⟨t, id⟩ ∈ s.guards) : Completes s (s.letOut t id) := by
  have hquiet : Uneventful s (s.letOut t id) := by
    rw [letOut_eq]
    exact .of_eq rfl rfl
  exact hquiet.completes (.single (.leave inside))

theorem hold_outgoing (s : State) (t : Thread) (id : ScopeId) :
    (s.hold t id).outgoing = s.outgoing := by
  rw [hold_eq]
  rfl

theorem hold_mappings (s : State) (t : Thread) (id : ScopeId) :
    (s.hold t id).mappings = s.mappings := by
  rw [hold_eq]
  rfl

theorem letOut_outgoing (s : State) (t : Thread) (id : ScopeId) :
    (s.letOut t id).outgoing = s.outgoing := by
  rw [letOut_eq]
  rfl

theorem letOut_mappings (s : State) (t : Thread) (id : ScopeId) :
    (s.letOut t id).mappings = s.mappings := by
  rw [letOut_eq]
  rfl

/-- A thread enters, something is done, and the thread leaves: the accesses under way are again what
they were. -/
theorem visit_steps {segments : List Segment} {q : State} (accounts : Accounts s)
    (entry : s.checkEntry t id = .ok ()) (hid : id < s.scopes.size)
    (meanwhile : Steps segments (s.hold t id) q) : Steps segments s (q.letOut t id) := by
  have henter := (hold_completes entry hid).trans meanwhile.toCompletes
  have hinside : ⟨t, id⟩ ∈ q.guards := by
    rw [meanwhile.guards, hold_eq]
    exact List.mem_cons_self
  have hrestored := accounts.restore meanwhile.guards meanwhile.holds
    (henter.path.forward.discipline _ hid)
  have hleave := henter.trans (letOut_completes hinside)
  exact {
    toAdvances := hleave.toAdvances
    explains := hleave.explains
    sound := (letOut_tidy q t id meanwhile.sound).course.sound
    guards := hrestored.1
    holds := hrestored.2
    persists := (Persists.of_mappings (hold_mappings s t id)).trans
      (meanwhile.persists.trans (.of_mappings (letOut_mappings q t id))) }

/-- A request that is met: the thread is inside meanwhile, and the segment stays. -/
theorem ask_entered {m : MappingId} (nested : Nested) (hb : x.backing = .mapped m)
    (hcheck : s.checkEntry t x.scope = .ok ()) (request : Request) :
    let r := ((s.hold t x.scope).pin [x]).askMapping nested m request x.address x.size
    s.ask nested t x request = (r.1, { r.2.letOut t x.scope with
      outgoing := (s.hold t x.scope).outgoing }.releaseSegments nested t [x]) := by
  have hentered : s.enter t x.scope = .ok (s.hold t x.scope) := by
    rw [enter, hcheck]
    rfl
  unfold ask
  simp only [hb, hentered]
  rfl

/-- **A request** is met by moves: the thread enters, the mapping answers, and the thread leaves
however that ends. -/
theorem ask_goes (hc : Company t origin nested other) (hr : Reached origin s)
    (hx : x ∈ s.keptSegments) (request : Request) :
    Goes s (s.ask nested t x request).2 ∧ s.ask other t x request = s.ask nested t x request := by
  cases hb : x.backing with
  | heap array =>
    simp only [ask, hb]
    exact ⟨.refl hr.sound, trivial⟩
  | native =>
    simp only [ask, hb]
    exact ⟨.refl hr.sound, trivial⟩
  | mapped m =>
    cases hcheck : s.checkEntry t x.scope with
    | error e =>
      have hrefused : s.enter t x.scope = .error e := by
        rw [enter, hcheck]
        rfl
      simp only [ask, hb, hrefused]
      exact ⟨.refl hr.sound, trivial⟩
    | ok u =>
      have hlasting := hc.lasting hr hx
      have hheld := hr.enter hcheck hlasting.lt_size
      have hstays : Steps s.outgoing (s.hold t x.scope) ((s.hold t x.scope).pin [x]) := by
        refine outgoing_steps hheld.sound fun y hy => ?_
        rcases List.mem_cons.mp hy with rfl | hy
        · exact .inr (lasting_hold hlasting)
        · exact .inl (kept_of_outgoing hy)
      have hpinned : ((s.hold t x.scope).pin [x]).outgoing = [x] ++ s.outgoing :=
        congrArg (x :: ·) (hold_outgoing s t x.scope)
      obtain ⟨hasked, hagree⟩ := askMapping_goes hc (hheld.steps hstays) List.mem_cons_self hb request
        x.address x.size
      rw [ask_entered nested hb hcheck, ask_entered other hb hcheck, hagree, hold_outgoing]
      generalize ((s.hold t x.scope).pin [x]).askMapping nested m request x.address x.size = r at *
      obtain ⟨answer, q⟩ := r
      have hvisit : Steps s.outgoing s (q.letOut t x.scope) :=
        visit_steps (hr.path.accounts hc.accounts) hcheck hlasting.lt_size
          (hstays.trans (hasked.toSteps.mono fun y hy => hpinned ▸ List.mem_cons_of_mem _ hy))
      have hleft := hr.steps hvisit
      have houtgoing : (q.letOut t x.scope).outgoing = [x] ++ s.outgoing := by
        rw [letOut_outgoing, ← hpinned]
        exact hasked.outgoing
      have hunpin : Steps s.outgoing (q.letOut t x.scope)
          { q.letOut t x.scope with outgoing := s.outgoing } :=
        unpin_steps hleft.sound fun y hy => houtgoing ▸ List.mem_cons_of_mem _ hy
      obtain ⟨hreleased, hagree'⟩ := releaseSegments_goes hc (hc.unpin hleft houtgoing)
      rw [hagree']
      exact ⟨⟨hvisit.trans (hunpin.trans hreleased.toSteps), hreleased.outgoing⟩, rfl⟩

end

end State

end ScopedMemory
