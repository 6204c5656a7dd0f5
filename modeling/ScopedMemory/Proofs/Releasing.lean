import ScopedMemory.Proofs.Growth

/-! Letting go.

A scope that ends is released as a whole, in order, while nested callbacks do as they please
(`finish_clears`). Each function takes what nested callbacks do as an argument; it is tidy as long
as they are (`Tame`). -/
namespace ScopedMemory

/-- The segments that are let go of. -/
def Work.segments : Work → List Segment
  | .script _ => []
  | .release segments => segments

namespace State

theorem Grows.tidy {s s' : State} (h : Grows s s') : Tidy s s' := h.grown.tidy

end State

/-- What nested callbacks do is tidy. -/
def Nested.Tame (nested : Nested) : Prop := ∀ work s, State.Neat work.segments s (nested work s).2

namespace State

theorem emit_alike (s : State) (event : Event) : Alike s (s.emit event) :=
  .of_eq rfl rfl rfl

theorem modifyScope_self (s : State) (id : ScopeId) : s.modifyScope id (fun scope => scope) = s := by
  have : s.scopes.modify id (fun scope => scope) = s.scopes := by
    apply Array.ext
    · simp
    · intro i hi hi'
      simp [Array.getElem_modify]
  rw [modifyScope, this]

/-! ### A scope being released -/

/-- What a function does to a closed scope of its own: what is left to be released, and what has
happened to the scope meanwhile. -/
structure Progress (id : ScopeId) (s s' : State) (cleanups : List Cleanup) (blocks : List Block)
    (deeds : List Deed) : Prop where
  course : Course (· = id) s s'
  closed : (s'.scope id).phase = .closed
  cleanups : (s'.scope id).cleanups = cleanups
  blocks : (s'.scope id).blocks = blocks
  history : s'.history id = s.history id ++ deeds
  outgoing : s'.outgoing = s.outgoing
  aborted : s.aborted = true → s'.aborted = true
  kept : Kept s → s'.aborted = true ∨ Kept s'

section
variable {id : ScopeId} {s s' s'' : State} {cleanups cleanups' : List Cleanup}
  {blocks blocks' : List Block} {deeds deeds' : List Deed}

theorem Progress.trans (h : Progress id s s' cleanups blocks deeds)
    (h' : Progress id s' s'' cleanups' blocks' deeds') :
    Progress id s s'' cleanups' blocks' (deeds ++ deeds') where
  course := h.course.trans h'.course
  closed := h'.closed
  cleanups := h'.cleanups
  blocks := h'.blocks
  history := by rw [h'.history, h.history, List.append_assoc]
  outgoing := h'.outgoing.trans h.outgoing
  aborted ha := h'.aborted (h.aborted ha)
  kept hk := (h.kept hk).elim (fun ha => .inl (h'.aborted ha)) h'.kept

theorem Progress.refl (hs : Sound s) (closed : (s.scope id).phase = .closed) :
    Progress id s s (s.scope id).cleanups (s.scope id).blocks [] where
  course := .refl hs
  closed := closed
  cleanups := rfl
  blocks := rfl
  history := (List.append_nil _).symm
  outgoing := rfl
  aborted ha := ha
  kept hk := .inr hk

/-- What is tidy does not touch a closed scope. -/
theorem Neat.progress (h : Tidy s s') (hs : Sound s) (hid : id < s.scopes.size)
    (closed : (s.scope id).phase = .closed) :
    Progress id s s' (s.scope id).cleanups (s.scope id).blocks [] := by
  have hsettling := h hs
  have hu := hsettling.course.ended id hid not_false closed
  exact
    { course := hsettling.course.mono fun _ => False.elim
      closed := hu.phase.trans closed
      cleanups := hu.cleanups
      blocks := hu.blocks
      history := hu.history.trans (List.append_nil _).symm
      outgoing := hsettling.outgoing
      aborted := hsettling.aborted
      kept := hsettling.kept }

/-- A closed scope loses some of what it has, and that is written down. Nothing is kept by less. -/
theorem note_progress {f : Scope → Scope} {d : Deed} (hs : Sound s) (hid : id < s.scopes.size)
    (closed : (f (s.scope id)).phase = .closed)
    (discipline : (f (s.scope id)).discipline = (s.scope id).discipline)
    (cleanups : (f (s.scope id)).cleanups = (s.scope id).cleanups)
    (follows : d.Follows s.system s.journal) :
    Progress id s ((s.modifyScope id f).record id d) (s.scope id).cleanups
      (f (s.scope id)).blocks [d] := by
  have hself : ((s.modifyScope id f).record id d).scope id = f (s.scope id) :=
    scope_modifyScope_self f hid
  have hretains : Retains s ((s.modifyScope id f).record id d) := by
    refine retains_of_cleanups rfl rfl rfl fun other cleanup hc => ?_
    by_cases h : other = id
    · rw [h] at hc ⊢
      rwa [hself, cleanups]
    · rwa [(untouched_note s f d h).cleanups]
  exact
    { course := own_leads hid closed discipline follows hs
      closed := by rw [hself, closed]
      cleanups := by rw [hself, cleanups]
      blocks := by rw [hself]
      history := history_record_self _ _ _
      outgoing := rfl
      aborted := fun ha => ha
      kept := fun hk => .inr <| hk.retain hretains
        (fun other hown hl => ⟨hown, by
          by_cases h : other = id
          · rw [h, hself] at hl
            exact absurd closed hl.unended
          · exact hl.untouched (untouched_note s f d h)⟩)
        (fun _ hown hm => ⟨hown, hm⟩) }

theorem record_progress {d : Deed} (hs : Sound s) (hid : id < s.scopes.size)
    (closed : (s.scope id).phase = .closed)
    (follows : d.Follows s.system s.journal) :
    Progress id s (s.record id d) (s.scope id).cleanups (s.scope id).blocks [d] := by
  have h := note_progress (f := fun scope => scope) (d := d) hs hid closed rfl rfl follows
  rwa [modifyScope_self] at h

end

/-! ### Cleanups -/

section
variable {id : ScopeId} {s s' : State} {t : Thread} {cleanup : Cleanup} {rest : List Cleanup}

theorem beginCleanup_eq (s : State) (t : Thread) (id : ScopeId) (cleanup : Cleanup) :
    ∃ event, s.beginCleanup t id cleanup =
      (((s.newScope .global).2.modifyScope id fun scope =>
        { scope with cleanups := scope.cleanups.tail }).record id
        (.began cleanup ⟨cleanup.address, 0, .native, false, s.scopes.size⟩)).emit event :=
  ⟨_, rfl⟩

/-- Nothing has happened yet to the scope that is opened next. -/
theorem Sound.scope_ne_size (hs : Sound s) {entry : Entry} (h : entry ∈ s.journal) :
    entry.scope ≠ s.scopes.size := by
  intro heq
  have hmem : entry.deed ∈ s.history s.scopes.size :=
    List.mem_map_of_mem (List.mem_filter.mpr ⟨h, by simpa using heq⟩)
  rw [hs.unopened _ (Nat.le_refl _)] at hmem
  cases hmem

theorem given_newScope (hs : Sound s) (d : Discipline) (cleanup : Cleanup) :
    cleanup.Given (s.newScope d).2.journal ⟨cleanup.address, 0, .native, false, s.scopes.size⟩ :=
  ⟨rfl, s.journal, rfl, fun _ hentry => hs.scope_ne_size hentry⟩

/-- What a cleanup that leaves its scope has kept is among the segments that stay. -/
theorem pop_retains {deed : Deed} {event : Event} (hid : id < s.scopes.size)
    (hc : (s.scope id).cleanups = cleanup :: rest) :
    Retains s ((((s.modifyScope id fun scope => { scope with cleanups := scope.cleanups.tail }).record
      id deed).emit event).pin cleanup.script.segments) where
  arenas _ h := h
  mappings _ h := h
  segments x hx := by
    rw [mem_keptSegments] at hx ⊢
    rcases hx with h | h | h | h | ⟨other, c, hother, h⟩
    · exact .inl (List.mem_append_right _ h)
    · exact .inr (.inl h)
    · exact .inr (.inr (.inl h))
    · exact .inr (.inr (.inr (.inl h)))
    · by_cases heq : other = id
      · subst heq
        rw [hc] at hother
        rcases List.mem_cons.mp hother with rfl | hrest
        · exact .inl (List.mem_append_left _ h)
        · refine .inr (.inr (.inr (.inr ⟨other, c, ?_, h⟩)))
          show c ∈ ((s.modifyScope other _).scope other).cleanups
          rw [scope_modifyScope_self _ hid, hc]
          exact hrest
      · refine .inr (.inr (.inr (.inr ⟨other, c, ?_, h⟩)))
        show c ∈ ((s.modifyScope id _).scope other).cleanups
        rwa [scope_modifyScope_other _ heq]

/-- What it comes to when the first cleanup of a closed scope begins: it is gone from the scope, and
nothing is left behind as long as what it keeps stays. -/
theorem beginCleanup_spec (hs : Sound s) (hid : id < s.scopes.size)
    (closed : (s.scope id).phase = .closed) (hc : (s.scope id).cleanups = cleanup :: rest) :
    Course (· = id) s (s.beginCleanup t id cleanup) ∧
    ((s.beginCleanup t id cleanup).scope id).phase = .closed ∧
    ((s.beginCleanup t id cleanup).scope id).cleanups = rest ∧
    ((s.beginCleanup t id cleanup).scope id).blocks = (s.scope id).blocks ∧
    (∃ argument, (s.beginCleanup t id cleanup).history id =
      s.history id ++ [.began cleanup argument]) ∧
    (Kept s → s.aborted = true ∨
      Kept ((s.beginCleanup t id cleanup).pin cleanup.script.segments)) := by
  obtain ⟨event, heq⟩ := beginCleanup_eq s t id cleanup
  have hu := untouched_newScope s .global (Nat.ne_of_lt hid)
  have hopened : Course (· = id) s (s.newScope .global).2 := newScope_leads s .global hs
  have hid' := Nat.lt_of_lt_of_le hid hopened.size_le
  have hgiven : (Deed.began cleanup ⟨cleanup.address, 0, .native, false, s.scopes.size⟩).Follows
      s.system (s.newScope .global).2.journal := given_newScope hs .global cleanup
  have hpopped := own_leads (f := fun scope => { scope with cleanups := scope.cleanups.tail }) hid'
    (hu.phase.trans closed) rfl hgiven hopened.sound
  have hself := scope_modifyScope_self (fun scope => { scope with cleanups := scope.cleanups.tail })
    hid'
  rw [heq]
  refine ⟨hopened.trans (hpopped.trans ((emit_alike _ event).leads hpopped.sound)), ?_, ?_, ?_,
    ⟨_, (history_record_self _ _ _).trans (congrArg (· ++ _) hu.history)⟩, fun hk => ?_⟩
  · exact (congrArg Scope.phase hself).trans (hu.phase.trans closed)
  · exact (congrArg Scope.cleanups hself).trans (congrArg List.tail (hu.cleanups.trans hc))
  · exact (congrArg Scope.blocks hself).trans hu.blocks
  · refine (((newScope_grown s .global).tidy hs).kept hk).imp_right fun hk => ?_
    refine hk.retain (pop_retains hid' (hu.cleanups.trans hc)) (fun other hown hl => ⟨hown, ?_⟩)
      (fun _ hown hm => ⟨hown, hm⟩)
    by_cases h : other = id
    · refine absurd ?_ hl.unended
      rw [h]
      exact (congrArg Scope.phase hself).trans (hu.phase.trans closed)
    · have hu' := (untouched_note (s.newScope .global).2
        (fun scope => { scope with cleanups := scope.cleanups.tail })
        (.began cleanup ⟨cleanup.address, 0, .native, false, s.scopes.size⟩) h)
      exact ⟨hu'.phase ▸ hl.unended, hu'.cleanups ▸ hu'.blocks ▸ hl.full⟩

theorem runCleanup_eq (nested : Nested) (s : State) (t : Thread) (id : ScopeId) (cleanup : Cleanup) :
    let b := s.beginCleanup t id cleanup
    let s₁ := (nested (.script cleanup.script) (b.pin cleanup.script.segments)).2
    (s.runCleanup nested t id cleanup).2 =
      (nested (.release cleanup.script.segments) { s₁ with outgoing := b.outgoing }).2.record id
        (.done cleanup) := rfl

/-- **One cleanup.** It begins with an argument, its callback does as it pleases, and it is done. -/
theorem runCleanup_progress {nested : Nested} (hn : nested.Tame) (hs : Sound s)
    (hid : id < s.scopes.size) (closed : (s.scope id).phase = .closed)
    (hc : (s.scope id).cleanups = cleanup :: rest) :
    ∃ argument, Progress id s (s.runCleanup nested t id cleanup).2 rest (s.scope id).blocks
      [.began cleanup argument, .done cleanup] := by
  obtain ⟨hcourse, hclosed, hcleanups, hblocks, ⟨argument, hhistory⟩, hkept⟩ :=
    beginCleanup_spec (t := t) hs hid closed hc
  have houtgoing : (s.beginCleanup t id cleanup).outgoing = s.outgoing := rfl
  have haborted : (s.beginCleanup t id cleanup).aborted = s.aborted := rfl
  rw [runCleanup_eq]
  generalize s.beginCleanup t id cleanup = b at *
  -- The callback runs while what the cleanup keeps stays, and then that is let go of.
  have hneat := (hn (.script cleanup.script) (b.pin cleanup.script.segments)).release
    (hn (.release cleanup.script.segments) _) hcourse.sound
  have hcourse' := hneat.course
  have hu := hcourse'.ended id (Nat.lt_of_lt_of_le hid hcourse.size_le) not_false hclosed
  have hdone := record_progress (d := .done cleanup) hcourse'.sound
    (Nat.lt_of_lt_of_le hid (Nat.le_trans hcourse.size_le hcourse'.size_le))
    (hu.phase.trans hclosed) trivial
  exact ⟨argument,
    { course := hcourse.trans ((hcourse'.mono fun _ => False.elim).trans hdone.course)
      closed := hdone.closed
      cleanups := hdone.cleanups.trans (hu.cleanups.trans hcleanups)
      blocks := hdone.blocks.trans (hu.blocks.trans hblocks)
      history := by rw [hdone.history, hu.history, hhistory, List.append_assoc]; rfl
      outgoing := hdone.outgoing.trans (hneat.outgoing.trans houtgoing)
      aborted := fun ha => hdone.aborted (hneat.aborted (haborted.trans ha))
      kept := fun hk => by
        rcases hkept hk with ha | hk
        · exact .inl (hdone.aborted (hneat.aborted (haborted.trans ha)))
        · rcases hneat.kept hk with ha | hk
          · exact .inl (hdone.aborted ha)
          · exact hdone.kept hk }⟩

/-- The session after one cleanup of the scope; a panic is noted. -/
def pastCleanup (nested : Nested) (t : Thread) (id : ScopeId) (cleanup : Cleanup) (s : State) :
    State :=
  let (panic, s) := s.runCleanup nested t id cleanup
  if panic.isSome then s.log (.cleanupPanicked id) else s

theorem runCleanups_cons (nested : Nested) (s : State) (t : Thread) (id : ScopeId)
    (cleanup : Cleanup) (rest : List Cleanup) :
    s.runCleanups nested t id (cleanup :: rest) =
      ((s.runCleanup nested t id cleanup).1.or
        ((s.pastCleanup nested t id cleanup).runCleanups nested t id rest).1,
      ((s.pastCleanup nested t id cleanup).runCleanups nested t id rest).2) := rfl

theorem pastCleanup_beside (nested : Nested) (s : State) (t : Thread) (id : ScopeId)
    (cleanup : Cleanup) :
    Beside (s.runCleanup nested t id cleanup).2 (s.pastCleanup nested t id cleanup) := by
  unfold pastCleanup
  dsimp only
  split
  · exact log_beside _ _
  · exact ⟨_, _, _, _, rfl⟩

theorem pastCleanup_progress {nested : Nested} (hn : nested.Tame) (hs : Sound s)
    (hid : id < s.scopes.size) (closed : (s.scope id).phase = .closed)
    (hc : (s.scope id).cleanups = cleanup :: rest) :
    ∃ argument, Progress id s (s.pastCleanup nested t id cleanup) rest (s.scope id).blocks
      [.began cleanup argument, .done cleanup] := by
  obtain ⟨argument, hran⟩ := runCleanup_progress (t := t) hn hs hid closed hc
  have hnote := (Grows.of_beside (pastCleanup_beside nested s t id cleanup)).tidy.progress
    hran.course.sound (Nat.lt_of_lt_of_le hid hran.course.size_le) hran.closed
  have hboth := hran.trans hnote
  rw [hran.cleanups, hran.blocks] at hboth
  exact ⟨argument, hboth⟩

/-- **All cleanups** of a closed scope run, each once and in order. -/
theorem runCleanups_progress {nested : Nested} (hn : nested.Tame) {cleanups : List Cleanup}
    (hs : Sound s) (hid : id < s.scopes.size) (closed : (s.scope id).phase = .closed)
    (hc : (s.scope id).cleanups = cleanups) :
    ∃ runs : List (Cleanup × Segment), runs.map Prod.fst = cleanups ∧
      Progress id s (s.runCleanups nested t id cleanups).2 [] (s.scope id).blocks
        (Deed.ofRuns runs) := by
  induction cleanups generalizing s with
  | nil =>
    have h := Progress.refl hs closed
    rw [hc] at h
    exact ⟨[], rfl, h⟩
  | cons cleanup rest ih =>
    obtain ⟨argument, hfirst⟩ := pastCleanup_progress (t := t) hn hs hid closed hc
    obtain ⟨runs, hruns, hrest⟩ := ih hfirst.course.sound
      (Nat.lt_of_lt_of_le hid hfirst.course.size_le) hfirst.closed hfirst.cleanups
    refine ⟨(cleanup, argument) :: runs, by rw [List.map_cons, hruns], ?_⟩
    have hall := hfirst.trans hrest
    rw [hfirst.blocks] at hall
    exact hall

/-! ### Blocks -/

theorem freeBlock_progress {block : Block} {rest : List Block} (hs : Sound s)
    (hid : id < s.scopes.size) (closed : (s.scope id).phase = .closed)
    (hb : (s.scope id).blocks = block :: rest) :
    Progress id s (freeBlock id s block) (s.scope id).cleanups rest [.freed block] := by
  have hfreed := note_progress (f := fun scope => { scope with blocks := scope.blocks.tail })
    (d := .freed block) hs hid closed rfl rfl trivial
  have hfill : Grows ((s.modifyScope id fun scope => { scope with blocks := scope.blocks.tail }).record
      id (.freed block)) (freeBlock id s block) := by
    unfold freeBlock
    split
    · exact .refl
    · exact (Grows.refl.store _ s.arrays).beside ⟨_, _, _, _, rfl⟩
  have hfilled := hfill.tidy.progress hfreed.course.sound
    (Nat.lt_of_lt_of_le hid hfreed.course.size_le) hfreed.closed
  have hall := hfreed.trans hfilled
  rw [hfreed.cleanups, hfreed.blocks, hb] at hall
  exact hall

/-- **All blocks** of a closed scope are freed, each once and in order. -/
theorem freeBlocks_progress {blocks : List Block} (hs : Sound s) (hid : id < s.scopes.size)
    (closed : (s.scope id).phase = .closed) (hb : (s.scope id).blocks = blocks) :
    Progress id s (blocks.foldl (freeBlock id) s) (s.scope id).cleanups []
      (Deed.ofBlocks blocks) := by
  induction blocks generalizing s with
  | nil =>
    have h := Progress.refl hs closed
    rw [hb] at h
    exact h
  | cons block rest ih =>
    have hfirst := freeBlock_progress hs hid closed hb
    have hrest := ih hfirst.course.sound (Nat.lt_of_lt_of_le hid hfirst.course.size_le)
      hfirst.closed hfirst.blocks
    rw [hfirst.cleanups] at hrest
    exact hfirst.trans hrest

/-! ### The end of a scope -/

/-- A scope of one's own that was open and has been released is no exception any more. -/
theorem Course.complete (h : Course (· = id) s s') (opened : (s.scope id).phase ≠ .closed)
    (released : s'.Released id) : Course (fun _ => False) s s' where
  sound := h.sound
  system := h.system
  size_le := h.size_le
  journal := h.journal
  discipline := h.discipline
  ended other hother _ hc := h.ended other hother (fun heq => opened (heq ▸ hc)) hc
  settled other hother _ hc := by
    by_cases heq : other = id
    · exact .inr (heq ▸ released)
    · exact h.settled other hother heq hc

theorem history_endScope (s : State) (id : ScopeId) (closer : Option Thread) :
    (s.endScope id closer).history id = s.history id ++ [.ended closer (s.keepsScope id)] :=
  history_record_self _ _ _

/-- How a session goes on from a state in which these scopes and mappings may be left behind. -/
structure Clears (own : ScopeId → Prop) (mine : MappingId → Prop) (s s' : State) : Prop where
  course : Course (fun _ => False) s s'
  outgoing : s'.outgoing = s.outgoing
  aborted : s.aborted = true → s'.aborted = true
  kept : KeptBut own mine s → s'.aborted = true ∨ Kept s'

theorem endScope_kept {closer : Option Thread} (hid : id < s.scopes.size)
    (hk : KeptBut (· = id) (fun _ => False) s) : Kept (s.endScope id closer) := by
  have hself : (s.endScope id closer).scope id = { s.scope id with phase := .closed } :=
    scope_modifyScope_self _ hid
  refine hk.retain (retains_of_cleanups rfl rfl rfl fun other cleanup hc => ?_)
    (fun other _ hl => ?_) (fun _ hown hm => ⟨hown, hm⟩)
  · by_cases h : other = id
    · rw [h] at hc ⊢
      rwa [hself]
    · rwa [endScope, (untouched_note s _ _ h).cleanups]
  · by_cases h : other = id
    · rw [h, hself] at hl
      exact absurd rfl hl.unended
    · exact ⟨h, hl.untouched (untouched_note s _ _ h)⟩

/-- From its end on, all cleanups of a scope run, and then all its blocks are freed. -/
theorem finish_progress {nested : Nested} (hn : nested.Tame) (closer : Option Thread) (hs : Sound s)
    (hid : id < s.scopes.size) :
    ∃ runs : List (Cleanup × Segment), runs.map Prod.fst = (s.scope id).cleanups ∧
      Progress id (s.endScope id closer) (s.finish nested t id closer).2 [] []
        (Deed.ofRuns runs ++ Deed.ofBlocks (s.scope id).blocks) := by
  have hself : (s.endScope id closer).scope id = { s.scope id with phase := .closed } :=
    scope_modifyScope_self _ hid
  have hend : Course (· = id) s (s.endScope id closer) :=
    own_leads hid rfl rfl trivial hs
  have hid₁ := Nat.lt_of_lt_of_le hid hend.size_le
  have hcleanups : ((s.endScope id closer).scope id).cleanups = (s.scope id).cleanups := by
    rw [hself]
  obtain ⟨runs, hruns, hran⟩ := runCleanups_progress (t := t) hn hend.sound hid₁ (by rw [hself])
    hcleanups
  have hid₂ := Nat.lt_of_lt_of_le hid₁ hran.course.size_le
  have hblocks : _ = (s.scope id).blocks := hran.blocks.trans (by rw [hself])
  have hfreed := freeBlocks_progress hran.course.sound hid₂ hran.closed rfl
  have hlogged := (Grows.of_beside (log_beside _ (.scopeClosed id (s.scope id).discipline.kind
    (s.scope id).cleanups.length (s.scope id).heldBytes))).tidy.progress hfreed.course.sound
    (Nat.lt_of_lt_of_le hid₂ hfreed.course.size_le) hfreed.closed
  have hall := hran.trans (hfreed.trans hlogged)
  rw [List.append_nil, hfreed.cleanups, hfreed.blocks, hran.cleanups] at hall
  refine ⟨runs, hruns, ?_⟩
  rw [← hblocks]
  exact hall

/-- **The end of a scope.** All that it has accepted is released. -/
theorem finish_clears {nested : Nested} (hn : nested.Tame) (closer : Option Thread) (hs : Sound s)
    (alive : (s.scope id).phase = .alive)
    (caused : Caused (s.scope id).discipline closer (s.keepsScope id)) :
    (s.finish nested t id closer).2.Released id ∧
      Clears (· = id) (fun _ => False) s (s.finish nested t id closer).2 := by
  have hopen : (s.scope id).phase ≠ .closed := by
    rw [alive]
    decide
  have hid := lt_size_of_phase hopen
  obtain ⟨-, gains, hg⟩ := (hs.phases id).resolve_left hopen
  have hend : Course (· = id) s (s.endScope id closer) :=
    own_leads hid rfl rfl trivial hs
  obtain ⟨runs, hruns, hall⟩ := finish_progress (t := t) hn closer hs hid
  have hhistory : (s.finish nested t id closer).2.history id = .opened :: gains ++
      .ended closer (s.keepsScope id) ::
        (Deed.ofRuns runs ++ Deed.ofBlocks (gains.filterMap Deed.block?)) := by
    rw [hall.history, history_endScope, hg.history, hg.blocks]
    simp
  have hreleased : (s.finish nested t id closer).2.Released id := by
    refine ⟨hall.closed, hall.blocks, hall.cleanups, gains, closer, s.keepsScope id, runs,
      hhistory, hg.accepted, hruns.trans hg.cleanups, ?_⟩
    rw [(hend.trans hall.course).discipline id hid]
    exact caused
  exact ⟨hreleased,
    { course := (hend.trans hall.course).complete hopen hreleased
      outgoing := hall.outgoing
      aborted := hall.aborted
      kept := fun hk => hall.kept (endScope_kept hid hk) }⟩

/-- A scope that has nothing to release just ends. -/
theorem endScope_clears (hs : Sound s) (alive : (s.scope id).phase = .alive)
    (unkept : s.keepsScope id = false) (cleanups : (s.scope id).cleanups = [])
    (blocks : (s.scope id).blocks = []) :
    Clears (· = id) (fun _ => False) s (s.endScope id none) := by
  have hopen : (s.scope id).phase ≠ .closed := by
    rw [alive]
    decide
  have hid := lt_size_of_phase hopen
  obtain ⟨-, gains, hg⟩ := (hs.phases id).resolve_left hopen
  have hself : (s.endScope id none).scope id = { s.scope id with phase := .closed } :=
    scope_modifyScope_self _ hid
  have hend : Course (· = id) s (s.endScope id none) :=
    own_leads hid rfl rfl trivial hs
  have hreleased : (s.endScope id none).Released id := by
    refine ⟨by rw [hself], by rw [hself]; exact blocks, by rw [hself]; exact cleanups, gains, none,
      s.keepsScope id, [], ?_, hg.accepted, ?_, unkept⟩
    · rw [history_endScope, hg.history, ← hg.blocks, blocks]
      rfl
    · rw [← hg.cleanups, cleanups]
      rfl
  exact ⟨hend.complete hopen hreleased, rfl, fun ha => ha, fun hk => .inr (endScope_kept hid hk)⟩

end

end State

end ScopedMemory
