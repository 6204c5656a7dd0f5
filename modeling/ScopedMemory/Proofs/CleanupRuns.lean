import ScopedMemory.Proofs.Moves
import ScopedMemory.Proofs.TidyRuns

/-! What the journal says is what was done.

That a cleanup has begun stands for one run of its script, from the state in which it began
(`CleanupRun`). That a scope has ended stands for the runs of its cleanups, one after the other with
nothing in between, and then for the memory of its blocks being given back (`ScopeEnd`). Whatever is
done between two states explains in this way what it writes down, unless the session is aborted
(`Completes`). -/
namespace ScopedMemory

open State

/-! ### Runs -/

/-- One run of a cleanup by a thread, with callbacks nested up to a limit. -/
structure CleanupRun where
  thread : Thread
  limit : Nat
  scope : ScopeId
  cleanup : Cleanup
  before : State

namespace CleanupRun

/-- The cleanup has begun, and what it uses stays. -/
def start (run : CleanupRun) : State :=
  (run.before.beginCleanup run.thread run.scope run.cleanup).pin run.cleanup.script.segments

/-- Its script has been run, once. -/
def ran (run : CleanupRun) : State :=
  (run.start.runScript (work run.thread run.limit) run.thread run.cleanup.script).2

/-- What it used has been let go of, and it is done. -/
def stop (run : CleanupRun) : State :=
  (({ run.ran with outgoing := run.before.outgoing } : State).releaseSegments
    (work run.thread run.limit) run.thread run.cleanup.script.segments).record run.scope
    (.done run.cleanup)

end CleanupRun

/-- Cleanups of a scope are run one after the other, each once. Only reports come in between. -/
inductive RunInTurn (id : ScopeId) : List Cleanup → State → State → Prop where
  | nil {s : State} : RunInTurn id [] s s
  | cons (run : CleanupRun) {rest : List Cleanup} {s s' : State} : run.scope = id →
      Beside run.stop s → RunInTurn id rest s s' → RunInTurn id (run.cleanup :: rest) run.before s'

/-- Blocks of a scope are freed one after the other: all of their memory is wiped, and those that
have any are given back. -/
structure FreedInTurn (id : ScopeId) (blocks : List Block) (s s' : State) : Prop where
  journal : s'.journal = s.journal ++ blocks.map fun block => ⟨id, .freed block⟩
  events : s'.events = s.events ++ (blocks.filter fun block => block.size ≠ 0).map .freed
  memory : ∀ space address, s'.memory.read space address =
    if space = .native ∧ blocks.any fun block => Memory.within block.address block.size.toNat address
    then freedByte else s.memory.read space address

/-- The end of a scope. -/
structure ScopeEnd where
  scope : ScopeId
  closer : Option Thread
  before : State
  /-- Its cleanups have been run. -/
  ran : State
  /-- Its blocks have been freed. -/
  stop : State
  runs : RunInTurn scope (before.scope scope).cleanups (before.endScope scope closer) ran
  frees : FreedInTurn scope (before.scope scope).blocks ran stop

/-- The scope has just ended. -/
def ScopeEnd.start (ending : ScopeEnd) : State := ending.before.endScope ending.scope ending.closer

/-! ### Explanations -/

namespace State

/-- Moves lead on. What is written down stays, and an aborted session stays aborted. -/
structure Advances (s s' : State) : Prop where
  path : Path s s'
  journal : s.journal <+: s'.journal
  aborted : s.aborted = true → s'.aborted = true

/-- The one pair of states lies between the other. -/
structure Between (s s' before after : State) : Prop where
  earlier : Advances s before
  later : Advances after s'

end State

/-- What stands behind an entry, the last of the journal when it was written. -/
def Entry.Explained (s s' : State) (journal : List Entry) (entry : Entry) : Prop :=
  match entry.deed with
  | .began cleanup _ => ∃ run : CleanupRun, run.scope = entry.scope ∧ run.cleanup = cleanup ∧
      run.start.journal = journal ∧ Between s s' run.before run.stop
  | .ended closer _ => ∃ ending : ScopeEnd, ending.scope = entry.scope ∧ ending.closer = closer ∧
      ending.start.journal = journal ∧ Between s s' ending.before ending.stop
  | _ => True

/-- Something begins that takes more than this entry. -/
def Deed.begins : Deed → Bool
  | .began _ _ | .ended _ _ => true
  | _ => false

namespace State

/-- What is done between two states explains the entries by which the second journal is longer. -/
def Explains (journal journal' : List Entry) (s s' : State) : Prop :=
  ∀ before entry, before ++ [entry] <+: journal' → journal.length ≤ before.length →
    entry.Explained s s' (before ++ [entry])

/-- **What begins on the way is completed**, unless the session is aborted. -/
structure Completes (s s' : State) : Prop extends Advances s s' where
  explains : s'.aborted = true ∨ Explains s.journal s'.journal s s'

/-- Nothing begins, and the session is not aborted. -/
structure Uneventful (s s' : State) : Prop where
  journal : ∃ more, s'.journal = s.journal ++ more ∧ ∀ entry ∈ more, entry.deed.begins = false
  aborted : s'.aborted = s.aborted

section
variable {s s' s'' : State} {entry : Entry} {journal : List Entry}

theorem Advances.refl : Advances s s := ⟨.refl, List.prefix_rfl, id⟩

theorem Advances.trans (h : Advances s s') (h' : Advances s' s'') : Advances s s'' :=
  ⟨h.path.trans h'.path, h.journal.trans h'.journal, fun ha => h'.aborted (h.aborted ha)⟩

theorem explained_of_begins (h : entry.deed.begins = false) : entry.Explained s s' journal := by
  obtain ⟨scope, deed⟩ := entry
  cases deed with
  | began => cases h
  | ended => cases h
  | _ => trivial

/-- What explains an entry does so wherever more is done before and after. -/
theorem explained_widen {r r' : State} (h : entry.Explained s s' journal)
    (earlier : Advances r s) (later : Advances s' r') : entry.Explained r r' journal := by
  obtain ⟨scope, deed⟩ := entry
  cases deed with
  | began cleanup argument =>
    obtain ⟨run, hscope, hcleanup, hjournal, hbetween⟩ := h
    exact ⟨run, hscope, hcleanup, hjournal, earlier.trans hbetween.earlier,
      hbetween.later.trans later⟩
  | ended closer kept =>
    obtain ⟨ending, hscope, hcloser, hjournal, hbetween⟩ := h
    exact ⟨ending, hscope, hcloser, hjournal, earlier.trans hbetween.earlier,
      hbetween.later.trans later⟩
  | _ => trivial

theorem Explains.widen {journal' : List Entry} {r r' : State} (h : Explains journal journal' s s')
    (earlier : Advances r s) (later : Advances s' r') : Explains journal journal' r r' :=
  fun before entry hprefix hlength => explained_widen (h before entry hprefix hlength) earlier later

theorem Explains.append {journal' journal'' : List Entry} (h : Explains journal journal' s s')
    (h' : Explains journal' journal'' s s') (grows : journal' <+: journal'') :
    Explains journal journal'' s s' := by
  intro before entry hprefix hlength
  by_cases hearly : before.length < journal'.length
  · have hbefore : before ++ [entry] <+: journal' :=
      List.prefix_of_prefix_length_le hprefix grows (by rw [List.length_append]; exact hearly)
    exact h before entry hbefore hlength
  · exact h' before entry hprefix (Nat.le_of_not_lt hearly)

/-- One more entry is explained. -/
theorem explains_entry (h : entry.Explained s s' (journal ++ [entry])) :
    Explains journal (journal ++ [entry]) s s' := by
  intro before other hprefix hlength
  have hsame : before ++ [other] = journal ++ [entry] := by
    refine hprefix.eq_of_length_le ?_
    rw [List.length_append, List.length_append]
    exact Nat.succ_le_succ hlength
  obtain ⟨rfl, heq⟩ := List.append_inj' hsame rfl
  obtain rfl : other = entry := List.head_eq_of_cons_eq heq
  exact h

theorem explains_quiet {more : List Entry} (quiet : ∀ entry ∈ more, entry.deed.begins = false) :
    Explains journal (journal ++ more) s s' := by
  induction more generalizing journal with
  | nil =>
    rintro before entry hprefix hlength
    have hle := hprefix.length_le
    rw [List.length_append, List.append_nil] at hle
    exact absurd (Nat.le_trans hle hlength) (Nat.not_succ_le_self _)
  | cons first rest ih =>
    have hfirst : Explains journal (journal ++ [first]) s s' :=
      explains_entry (explained_of_begins (quiet first List.mem_cons_self))
    rw [List.append_cons]
    exact hfirst.append (ih fun entry hentry => quiet entry (List.mem_cons_of_mem _ hentry))
      (List.prefix_append _ _)

/-- What begins first is explained by what comes after it. -/
theorem Advances.completed (h : Advances s s') (h' : Completes s' s'')
    (explains : s''.aborted = true ∨ Explains s.journal s'.journal s s'') : Completes s s'' := by
  refine ⟨h.trans h'.toAdvances, ?_⟩
  rcases explains with ha | hfirst
  · exact .inl ha
  rcases h'.explains with ha | hlater
  · exact .inl ha
  exact .inr (hfirst.append (hlater.widen h .refl) h'.journal)

theorem Completes.trans (h : Completes s s') (h' : Completes s' s'') : Completes s s'' :=
  h.toAdvances.completed h' (h.explains.imp h'.aborted fun hfirst => hfirst.widen .refl h'.toAdvances)

theorem Uneventful.advances (h : Uneventful s s') (path : Path s s') : Advances s s' := by
  obtain ⟨more, hmore, -⟩ := h.journal
  exact ⟨path, ⟨more, hmore.symm⟩, fun ha => h.aborted.trans ha⟩

theorem Uneventful.completes (h : Uneventful s s') (path : Path s s') : Completes s s' := by
  refine ⟨h.advances path, .inr ?_⟩
  obtain ⟨more, hmore, hquiet⟩ := h.journal
  rw [hmore]
  exact explains_quiet hquiet

/-! ### Where nothing begins -/

theorem Uneventful.of_eq (journal : s'.journal = s.journal) (aborted : s'.aborted = s.aborted) :
    Uneventful s s' :=
  ⟨⟨[], by rw [journal, List.append_nil], List.forall_mem_nil _⟩, aborted⟩

theorem Uneventful.of_record (id : ScopeId) (deed : Deed) (quiet : deed.begins = false)
    (journal : s'.journal = s.journal ++ [⟨id, deed⟩]) (aborted : s'.aborted = s.aborted) :
    Uneventful s s' :=
  ⟨⟨_, journal, fun _ h => List.mem_singleton.mp h ▸ quiet⟩, aborted⟩

theorem Uneventful.trans (h : Uneventful s s') (h' : Uneventful s' s'') : Uneventful s s'' := by
  obtain ⟨more, hmore, hquiet⟩ := h.journal
  obtain ⟨more', hmore', hquiet'⟩ := h'.journal
  refine ⟨⟨more ++ more', by rw [hmore', hmore, List.append_assoc], fun entry hentry => ?_⟩,
    h'.aborted.trans h.aborted⟩
  exact (List.mem_append.mp hentry).elim (hquiet entry) (hquiet' entry)

theorem Beside.uneventful (h : Beside s s') : Uneventful s s' := by
  obtain ⟨_, _, _, _, rfl⟩ := h
  exact .of_eq rfl rfl

theorem Grows.uneventful (h : Grows s s') : Uneventful s s' := by
  induction h with
  | refl => exact .of_eq rfl rfl
  | beside _ hb ih => exact ih.trans hb.uneventful
  | store memory arrays _ ih => exact ih.trans (.of_eq rfl rfl)
  | @newScope s' d _ ih => exact ih.trans (.of_record s'.scopes.size .opened rfl rfl rfl)
  | @attach _ id block _ _ _ _ ih => exact ih.trans (.of_record id (.attached block) rfl rfl rfl)
  | @register _ id cleanup _ _ _ _ ih =>
    exact ih.trans (.of_record id (.registered cleanup) rfl rfl rfl)

/-! ### Cleanups and blocks -/

/-- Where callbacks may be nested at all, a cleanup is run as it is to be. -/
theorem runCleanup_stop (s : State) (t : Thread) (limit : Nat) (id : ScopeId) (cleanup : Cleanup) :
    (s.runCleanup (work t (limit + 1)) t id cleanup).2 =
      CleanupRun.stop ⟨t, limit, id, cleanup, s⟩ := rfl

/-- Where they may not, the session is aborted. -/
theorem pastCleanup_aborted (s : State) (t : Thread) (id : ScopeId) (cleanup : Cleanup) :
    (s.pastCleanup (work t 0) t id cleanup).aborted = true :=
  (pastCleanup_beside (work t 0) s t id cleanup).uneventful.aborted

theorem runCleanups_aborted (t : Thread) (id : ScopeId) {cleanups : List Cleanup}
    (h : s.aborted = true) : (s.runCleanups (work t 0) t id cleanups).2.aborted = true := by
  induction cleanups generalizing s with
  | nil => exact h
  | cons cleanup rest ih => exact ih (pastCleanup_aborted s t id cleanup)

/-- **Cleanups are run in turn**, unless the session is aborted. -/
theorem runCleanups_inTurn (s : State) (t : Thread) (limit : Nat) (id : ScopeId)
    (cleanups : List Cleanup) :
    (s.runCleanups (work t limit) t id cleanups).2.aborted = true ∨
      RunInTurn id cleanups s (s.runCleanups (work t limit) t id cleanups).2 := by
  induction cleanups generalizing s with
  | nil => exact .inr .nil
  | cons cleanup rest ih =>
    cases limit with
    | zero =>
      left
      rw [runCleanups_cons]
      exact runCleanups_aborted t id (pastCleanup_aborted s t id cleanup)
    | succ limit =>
      have hpast := pastCleanup_beside (work t (limit + 1)) s t id cleanup
      rw [runCleanup_stop] at hpast
      exact (ih _).imp_right (.cons ⟨t, limit, id, cleanup, s⟩ rfl hpast)

theorem freeBlock_freed (s : State) (id : ScopeId) (block : Block) :
    FreedInTurn id [block] s (freeBlock id s block) := by
  unfold freeBlock
  split
  · rename_i hsize
    refine ⟨rfl, ?_, fun space address => ?_⟩
    · show s.events = s.events ++ _
      simp [hsize]
    · show s.memory.read space address = _
      simp [hsize, Memory.within]
  · rename_i hsize
    refine ⟨rfl, ?_, fun space address => ?_⟩
    · show s.events ++ [.freed block] = s.events ++ _
      simp [hsize]
    · show (s.memory.fill .native block.address block.size.toNat freedByte).read space address = _
      simp [Memory.fill]

theorem freedInTurn_cons {id : ScopeId} {block : Block} {rest : List Block}
    (h : FreedInTurn id [block] s s') (h' : FreedInTurn id rest s' s'') :
    FreedInTurn id (block :: rest) s s'' where
  journal := by rw [h'.journal, h.journal, List.append_assoc]; rfl
  events := by
    rw [h'.events, h.events, List.append_assoc, ← List.map_append, ← List.filter_append]
    rfl
  memory space address := by
    rw [h'.memory, h.memory]
    simp only [List.any_cons, List.any_nil, Bool.or_false]
    by_cases hspace : space = .native
    · by_cases hblock : Memory.within block.address block.size.toNat address = true
      · simp [hspace, hblock]
      · simp [hspace, hblock]
    · simp [hspace]

/-- **Blocks are freed in turn.** -/
theorem freeBlocks_inTurn (s : State) (id : ScopeId) (blocks : List Block) :
    FreedInTurn id blocks s (blocks.foldl (freeBlock id) s) := by
  induction blocks generalizing s with
  | nil =>
    refine ⟨(List.append_nil _).symm, (List.append_nil _).symm, fun space address => ?_⟩
    exact (if_neg fun h => Bool.false_ne_true h.2).symm
  | cons block rest ih => exact freedInTurn_cons (freeBlock_freed s id block) (ih _)

end

end State

end ScopedMemory
