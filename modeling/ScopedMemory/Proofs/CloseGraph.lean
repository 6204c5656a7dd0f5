import ScopedMemory.Proofs.Acts
import ScopedMemory.Proofs.GuardAccounting
import ScopedMemory.Proofs.Inertness

/-! The graph of closes.

A cleanup may close arenas, that of its own scope among them, so that one close runs others, over a
graph that may have cycles. While they are under way nothing changes but that scopes end which are
reached by closes that go through (`Amid`), and when a close is over, nothing is left to be closed
behind any scope that it ended (`Onward`). -/
namespace ScopedMemory

/-- The action closes an arena or allocates from one, and if there is that arena, it is in the
family. -/
def ActionOver.StaysIn (s : State) (family : List Arena) : Action ArenaId Segment → Prop
  | .close i | .alloc i _ _ => ∀ arena, s.arena? i = some arena → arena ∈ family
  | _ => False

namespace State

/-! ### The graph of closes -/

/-- A close by the thread would go through. -/
def mayClose (s : State) (t : Thread) (id : ScopeId) : Bool :=
  s.isAlive id && (s.scope id).discipline.kind.closeable &&
    (s.scope id).discipline.accessibleBy t && !s.holdsScope t id

/-- A cleanup of the first scope closes an arena of the second. -/
def CloseEdge (s : State) (a b : ScopeId) : Prop :=
  ∃ cleanup ∈ (s.scope a).cleanups, ∃ i arena,
    .close i ∈ cleanup.script ∧ s.arena? i = some arena ∧ arena.scope = b

/-- The scopes that are reached from the first by closes that would go through. -/
inductive Cascades (s : State) (t : Thread) (first : ScopeId) : ScopeId → Prop where
  | first : s.mayClose t first = true → Cascades s t first first
  | next {a b : ScopeId} : Cascades s t first a → s.CloseEdge a b → s.mayClose t b = true →
      Cascades s t first b

/-- Arenas whose cleanups do nothing but to close and allocate from each other, with no other thread
inside of them. -/
structure Family (s : State) (t : Thread) (family : List Arena) : Prop where
  there : ∀ arena ∈ family, arena ∈ s.handles.arenas.values
  within : ∀ arena ∈ family, ∀ cleanup ∈ (s.scope arena.scope).cleanups,
    ∀ action ∈ cleanup.script, action.StaysIn s family
  vacant : ∀ arena ∈ family, ∀ u, u ≠ t → ⟨u, arena.scope⟩ ∉ s.guards

/-- A close of the first scope is under way, or over: but for what is reached from there, all
scopes are as alive as they were, and those that are have the same cleanups. -/
structure Amid (s : State) (t : Thread) (first : ScopeId) (now : State) : Prop where
  handles : now.handles = s.handles
  holds : now.holds = s.holds
  aborted : now.aborted = s.aborted
  size_le : s.scopes.size ≤ now.scopes.size
  discipline : ∀ id < s.scopes.size, (now.scope id).discipline = (s.scope id).discipline
  active : ∀ id < s.scopes.size, (now.scope id).active = (s.scope id).active
  cleanups : ∀ id < s.scopes.size, now.isAlive id = true →
    (now.scope id).cleanups = (s.scope id).cleanups
  alive : ∀ id < s.scopes.size, now.isAlive id = true → s.isAlive id = true
  fallen : ∀ id < s.scopes.size, s.isAlive id = true → now.isAlive id = false →
    s.Cascades t first id

section
variable {s s' s'' now now' now'' : State} {t : Thread} {first id : ScopeId}

theorem mayClose_iff : s.mayClose t id = true ↔ s.isAlive id = true ∧
    (s.scope id).discipline.kind.closeable = true ∧
    (s.scope id).discipline.accessibleBy t = true ∧ s.holdsScope t id = false := by
  simp [mayClose, and_assoc]

theorem Cascades.mayClose (h : s.Cascades t first id) : s.mayClose t id = true := by
  cases h with
  | first h => exact h
  | next _ _ h => exact h

/-- What is reached is in the family. -/
theorem Family.reaches {family : List Arena} (hf : s.Family t family) {arena : Arena}
    (harena : arena ∈ family) (h : s.Cascades t arena.scope id) :
    ∃ other ∈ family, other.scope = id := by
  induction h with
  | first _ => exact ⟨arena, harena, rfl⟩
  | next _ hedge _ ih =>
    obtain ⟨other, hother, rfl⟩ := ih
    obtain ⟨cleanup, hcleanup, i, target, hclose, hfound, rfl⟩ := hedge
    exact ⟨target, hf.within other hother cleanup hcleanup _ hclose target hfound, rfl⟩

/-! ### What leaves the cascade where it is -/

/-- Nothing differs that a close depends on. -/
structure Steady (s s' : State) : Prop where
  handles : s'.handles = s.handles
  holds : s'.holds = s.holds
  aborted : s'.aborted = s.aborted
  size_le : s.scopes.size ≤ s'.scopes.size
  discipline : ∀ id < s.scopes.size, (s'.scope id).discipline = (s.scope id).discipline
  active : ∀ id < s.scopes.size, (s'.scope id).active = (s.scope id).active
  phase : ∀ id < s.scopes.size, (s'.scope id).phase = (s.scope id).phase
  cleanups : ∀ id < s.scopes.size, s.isAlive id = true →
    (s'.scope id).cleanups = (s.scope id).cleanups

theorem Steady.alive (h : Steady s s') (hid : id < s.scopes.size) :
    s'.isAlive id = s.isAlive id := by
  rw [isAlive, isAlive, Scope.isAlive, Scope.isAlive, h.phase id hid]

theorem Steady.trans (h : Steady s s') (h' : Steady s' s'') : Steady s s'' where
  handles := h'.handles.trans h.handles
  holds := h'.holds.trans h.holds
  aborted := h'.aborted.trans h.aborted
  size_le := Nat.le_trans h.size_le h'.size_le
  discipline id hid :=
    (h'.discipline id (Nat.lt_of_lt_of_le hid h.size_le)).trans (h.discipline id hid)
  active id hid := (h'.active id (Nat.lt_of_lt_of_le hid h.size_le)).trans (h.active id hid)
  phase id hid := (h'.phase id (Nat.lt_of_lt_of_le hid h.size_le)).trans (h.phase id hid)
  cleanups id hid halive :=
    (h'.cleanups id (Nat.lt_of_lt_of_le hid h.size_le) ((h.alive hid).trans halive)).trans
      (h.cleanups id hid halive)

theorem Steady.of_eq (scopes : s'.scopes = s.scopes) (handles : s'.handles = s.handles)
    (holds : s'.holds = s.holds) (aborted : s'.aborted = s.aborted) : Steady s s' := by
  have hscope : ∀ id, s'.scope id = s.scope id := fun id => by rw [scope, scope, scopes]
  exact ⟨handles, holds, aborted, Nat.le_of_eq (by rw [scopes]), fun id _ => by rw [hscope],
    fun id _ => by rw [hscope], fun id _ => by rw [hscope], fun id _ _ => by rw [hscope]⟩

theorem Steady.refl (s : State) : Steady s s := .of_eq rfl rfl rfl rfl

theorem steady_newScope (s : State) (d : Discipline) : Steady s (s.newScope d).2 := by
  have hscope : ∀ id < s.scopes.size, (s.newScope d).2.scope id = s.scope id := fun id hid =>
    scope_push_other s _ (Nat.ne_of_lt hid)
  refine ⟨rfl, rfl, rfl, ?_, fun id hid => by rw [hscope id hid],
    fun id hid => by rw [hscope id hid], fun id hid => by rw [hscope id hid],
    fun id hid _ => by rw [hscope id hid]⟩
  exact Nat.le_trans (Nat.le_succ _) (Nat.le_of_eq (Array.size_push _).symm)

/-- A scope changes in what does not matter, and that is written down. -/
theorem steady_note {f : Scope → Scope} {deed : Deed} (s : State) (id : ScopeId)
    (phase : ∀ scope, (f scope).phase = scope.phase)
    (discipline : ∀ scope, (f scope).discipline = scope.discipline)
    (active : ∀ scope, (f scope).active = scope.active)
    (cleanups : s.isAlive id = true → (f (s.scope id)).cleanups = (s.scope id).cleanups) :
    Steady s ((s.modifyScope id f).record id deed) := by
  have hself : ∀ other < s.scopes.size, other = id →
      ((s.modifyScope id f).record id deed).scope other = f (s.scope other) := by
    rintro other hother rfl
    exact scope_modifyScope_self f hother
  have hother : ∀ other, other ≠ id →
      ((s.modifyScope id f).record id deed).scope other = s.scope other := fun other h =>
    scope_modifyScope_other f h
  refine ⟨rfl, rfl, rfl, Nat.le_of_eq (size_modifyScope s id f).symm, fun other h => ?_,
    fun other h => ?_, fun other h => ?_, fun other h halive => ?_⟩
  all_goals by_cases heq : other = id
  · rw [hself other h heq, discipline]
  · rw [hother other heq]
  · rw [hself other h heq, active]
  · rw [hother other heq]
  · rw [hself other h heq, phase]
  · rw [hother other heq]
  · rw [hself other h heq]
    subst heq
    exact cleanups halive
  · rw [hother other heq]

theorem steady_freeBlock (s : State) (id : ScopeId) (block : Block) :
    Steady s (freeBlock id s block) := by
  have hfreed : Steady s ((s.modifyScope id fun scope =>
      { scope with blocks := scope.blocks.tail }).record id (.freed block)) :=
    steady_note s id (fun _ => rfl) (fun _ => rfl) (fun _ => rfl) fun _ => rfl
  unfold freeBlock
  split
  · exact hfreed
  · exact hfreed.trans (.of_eq rfl rfl rfl rfl)

theorem steady_freeBlocks (s : State) (id : ScopeId) (blocks : List Block) :
    Steady s (blocks.foldl (freeBlock id) s) := by
  induction blocks generalizing s with
  | nil => exact .refl s
  | cons block rest ih => exact (steady_freeBlock s id block).trans (ih _)

/-- What a closed scope has to clean up is nobody's business any more. -/
theorem steady_beginCleanup (dead : s.isAlive id = false) (hid : id < s.scopes.size) (t : Thread)
    (cleanup : Cleanup) : Steady s (s.beginCleanup t id cleanup) := by
  obtain ⟨event, heq⟩ := beginCleanup_eq s t id cleanup
  have hopened := steady_newScope s .global
  have hdead : (s.newScope .global).2.isAlive id = false := (hopened.alive hid).trans dead
  have htaken : Steady (s.newScope .global).2 (((s.newScope .global).2.modifyScope id fun scope =>
      { scope with cleanups := scope.cleanups.tail }).record id
      (.began cleanup ⟨cleanup.address, 0, .native, false, s.scopes.size⟩)) := by
    refine steady_note _ id (fun _ => rfl) (fun _ => rfl) (fun _ => rfl) fun halive => ?_
    rw [hdead] at halive
    cases halive
  rw [heq]
  exact (hopened.trans htaken).trans (.of_eq rfl rfl rfl rfl)

theorem Allots.steady {block : Block} (h : Allots s id block s') : Steady s s' := by
  obtain ⟨memory, events, rfl, -⟩ := h.made
  have hgained : Steady s (s.gainBlock id block) :=
    steady_note s id (fun _ => rfl) (fun _ => rfl) (fun _ => rfl) fun _ => rfl
  exact hgained.trans (.of_eq rfl rfl rfl rfl)

theorem Amid.refl (s : State) (t : Thread) (first : ScopeId) : Amid s t first s where
  handles := rfl
  holds := rfl
  aborted := rfl
  size_le := Nat.le_refl _
  discipline _ _ := rfl
  active _ _ := rfl
  cleanups _ _ _ := rfl
  alive _ _ h := h
  fallen _ _ halive hdead := absurd (halive.symm.trans hdead) Bool.noConfusion

theorem Amid.steady (h : Amid s t first now) (hs : Steady now now') : Amid s t first now' := by
  have hlt : ∀ id < s.scopes.size, id < now.scopes.size := fun id hid =>
    Nat.lt_of_lt_of_le hid h.size_le
  exact
    { handles := hs.handles.trans h.handles
      holds := hs.holds.trans h.holds
      aborted := hs.aborted.trans h.aborted
      size_le := Nat.le_trans h.size_le hs.size_le
      discipline := fun id hid => (hs.discipline id (hlt id hid)).trans (h.discipline id hid)
      active := fun id hid => (hs.active id (hlt id hid)).trans (h.active id hid)
      cleanups := fun id hid halive => by
        rw [hs.alive (hlt id hid)] at halive
        exact (hs.cleanups id (hlt id hid) halive).trans (h.cleanups id hid halive)
      alive := fun id hid halive => h.alive id hid ((hs.alive (hlt id hid)).symm.trans halive)
      fallen := fun id hid halive hdead =>
        h.fallen id hid halive ((hs.alive (hlt id hid)).symm.trans hdead) }

theorem Amid.arena? (h : Amid s t first now) (i : ArenaId) : now.arena? i = s.arena? i := by
  rw [State.arena?, State.arena?, h.handles]

theorem Amid.holdsScope (h : Amid s t first now) (u : Thread) (id : ScopeId) :
    now.holdsScope u id = s.holdsScope u id := by
  rw [State.holdsScope, State.holdsScope, h.holds]

/-- A close that would go through now would have at first; and conversely, as long as the scope is
alive. -/
theorem Amid.mayClose (h : Amid s t first now) (hid : id < s.scopes.size) :
    now.mayClose t id = true ↔ s.mayClose t id = true ∧ now.isAlive id = true := by
  rw [mayClose_iff, mayClose_iff, h.discipline id hid, h.holdsScope]
  exact ⟨fun ⟨halive, hmay⟩ => ⟨⟨h.alive id hid halive, hmay⟩, halive⟩,
    fun ⟨⟨_, hmay⟩, halive⟩ => ⟨halive, hmay⟩⟩

theorem isAlive_endScope (s : State) (id : ScopeId) (closer : Option Thread) :
    (s.endScope id closer).isAlive id = false := by
  rw [isAlive, Scope.isAlive, phase_endScope]
  rfl

theorem isAlive_endScope_other (s : State) {id other : ScopeId} (closer : Option Thread)
    (h : other ≠ id) : (s.endScope id closer).isAlive other = s.isAlive other :=
  congrArg Scope.isAlive (scope_modifyScope_other _ h)

theorem isAlive_endScope_iff (s : State) (id other : ScopeId) (closer : Option Thread) :
    (s.endScope id closer).isAlive other = true ↔ other ≠ id ∧ s.isAlive other = true := by
  by_cases h : other = id
  · subst h
    simp [isAlive_endScope]
  · simp [isAlive_endScope_other s closer h, h]

/-- The scope that a close goes through on has ended. -/
theorem Amid.endScope (h : Amid s t first now) (reached : s.Cascades t first id)
    (closer : Option Thread) : Amid s t first (now.endScope id closer) := by
  have hother : ∀ other, other ≠ id → (now.endScope id closer).scope other = now.scope other :=
    fun other hne => scope_modifyScope_other _ hne
  have hself : ∀ other < s.scopes.size, other = id →
      (now.endScope id closer).scope other = { now.scope other with phase := .closed } := by
    rintro other hlt rfl
    exact scope_modifyScope_self _ (Nat.lt_of_lt_of_le hlt h.size_le)
  refine ⟨h.handles, h.holds, h.aborted,
    Nat.le_trans h.size_le (Nat.le_of_eq (size_modifyScope now id _).symm), fun other hlt => ?_,
    fun other hlt => ?_, fun other hlt halive => ?_, fun other hlt halive => ?_,
    fun other hlt halive hended => ?_⟩
  · by_cases heq : other = id
    · rw [hself other hlt heq, h.discipline other hlt]
    · rw [hother other heq, h.discipline other hlt]
  · by_cases heq : other = id
    · rw [hself other hlt heq, h.active other hlt]
    · rw [hother other heq, h.active other hlt]
  · obtain ⟨hne, halive⟩ := (isAlive_endScope_iff now id other closer).mp halive
    rw [hother other hne, h.cleanups other hlt halive]
  · exact h.alive other hlt ((isAlive_endScope_iff now id other closer).mp halive).2
  · by_cases heq : other = id
    · exact heq ▸ reached
    · rw [isAlive_endScope_other now closer heq] at hended
      exact h.fallen other hlt halive hended

/-! ### What one close comes to -/

/-- A close of the scope that would have gone through has. -/
def Spent (s : State) (t : Thread) (now : State) (id : ScopeId) : Prop :=
  s.mayClose t id = true → now.isAlive id = false

/-- Closes have been made and are over: what has ended meanwhile has left nothing to be closed. -/
structure Onward (s : State) (t : Thread) (first : ScopeId) (now now' : State) : Prop where
  amid : Amid s t first now'
  dead : ∀ id < s.scopes.size, now.isAlive id = false → now'.isAlive id = false
  settled : ∀ id < s.scopes.size, now.isAlive id = true → now'.isAlive id = false →
    ∀ b, s.CloseEdge id b → s.Spent t now' b

theorem Spent.later (h : s.Spent t now id) (ho : Onward s t first now now') :
    s.Spent t now' id := fun hmay =>
  ho.dead id (lt_size_of_alive (mayClose_iff.mp hmay).1) (h hmay)

theorem Onward.of_steady (h : Amid s t first now) (hs : Steady now now') :
    Onward s t first now now' := by
  have halive : ∀ id < s.scopes.size, now'.isAlive id = now.isAlive id := fun id hid =>
    hs.alive (Nat.lt_of_lt_of_le hid h.size_le)
  refine ⟨h.steady hs, fun id hid hdead => (halive id hid).trans hdead, ?_⟩
  intro id hid hliving hdead
  rw [halive id hid, hliving] at hdead
  cases hdead

theorem Onward.refl (h : Amid s t first now) : Onward s t first now now := .of_steady h (.refl now)

theorem Onward.trans (h : Onward s t first now now') (h' : Onward s t first now' now'') :
    Onward s t first now now'' where
  amid := h'.amid
  dead id hid hdead := h'.dead id hid (h.dead id hid hdead)
  settled id hid halive hdead b hedge := by
    cases hmid : now'.isAlive id with
    | true => exact h'.settled id hid hmid hdead b hedge
    | false => exact (h.settled id hid halive hmid b hedge).later h'

/-! ### How many are alive -/

/-- How many of the scopes are alive. -/
def living (now : State) (members : List ScopeId) : Nat := members.countP (now.isAlive ·)

theorem living_le {members : List ScopeId}
    (dead : ∀ id ∈ members, now.isAlive id = false → now'.isAlive id = false) :
    now'.living members ≤ now.living members := by
  refine List.countP_mono_left fun id hid halive => ?_
  cases hdead : now.isAlive id with
  | true => rfl
  | false =>
    rw [dead id hid hdead] at halive
    cases halive

/-- Each end of one of them makes one less. -/
theorem living_lt {members : List ScopeId}
    (dead : ∀ id ∈ members, now.isAlive id = false → now'.isAlive id = false) (hid : id ∈ members)
    (halive : now.isAlive id = true) (hdead : now'.isAlive id = false) :
    now'.living members < now.living members := by
  obtain ⟨before, later, rfl⟩ := List.append_of_mem hid
  have hbefore : now'.living before ≤ now.living before :=
    living_le fun id hid => dead id (List.mem_append_left _ hid)
  have hlater : now'.living later ≤ now.living later :=
    living_le fun id hid => dead id (List.mem_append_right _ (List.mem_cons_of_mem _ hid))
  simp only [living, List.countP_append, List.countP_cons, halive, hdead] at hbefore hlater ⊢
  simp only [Bool.false_eq_true, if_false, if_true]
  omega

theorem living_pos {members : List ScopeId} (hid : id ∈ members) (halive : now.isAlive id = true) :
    0 < now.living members :=
  List.countP_pos_iff.mpr ⟨id, hid, halive⟩

end

end State

end ScopedMemory
