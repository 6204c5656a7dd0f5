import Mathlib.Logic.Relation
import ScopedMemory.Proofs.TidyRuns
import ScopedMemory.Proofs.Moves

/-! Who does what to a scope.

All that a thread does comes down to single acts (`Act`). It leaves every scope alone; it gives a
scope something to hold that is its own or anyone's; it closes a scope of which there is an arena;
it ends a scope that nothing keeps; or it releases what a closed scope has held. Every operation is
a sequence of acts of its own thread, whatever its callbacks do (`Operation.perform_acts`). -/
namespace ScopedMemory

/-! ### Counting in tables -/

namespace Table
variable {α : Type} {table : Table α} {name : String} {p : α → Bool}

theorem countP_erase_le (table : Table α) (name : String) (p : α → Bool) :
    (table.erase name).values.countP p ≤ table.values.countP p :=
  (table.entries.filter_sublist.map Prod.snd).countP_le

theorem countP_put_le (table : Table α) (name : String) (value : α) (p : α → Bool) :
    (table.put name value).values.countP p ≤ table.values.countP p + if p value then 1 else 0 := by
  have hvalues : (table.put name value).values = value :: (table.erase name).values := rfl
  rw [hvalues, List.countP_cons]
  exact Nat.add_le_add_right (table.countP_erase_le name p) _

/-- What is erased does not count any more. -/
theorem countP_erase_lt {value : α} (found : table.find? name = some value)
    (counts : p value = true) : (table.erase name).values.countP p < table.values.countP p := by
  obtain ⟨⟨key, v⟩, hentry, rfl⟩ := Option.map_eq_some_iff.mp found
  obtain ⟨hkey, before, later, hentries, -⟩ := List.find?_eq_some_iff_append.mp hentry
  have hname : key = name := of_decide_eq_true hkey
  have herased : (table.erase name).entries =
      before.filter (·.1 ≠ name) ++ later.filter (·.1 ≠ name) := by
    simp [erase, hentries, hname]
  have hbefore := ((before.filter_sublist (p := (·.1 ≠ name))).map Prod.snd).countP_le (p := p)
  have hlater := ((later.filter_sublist (p := (·.1 ≠ name))).map Prod.snd).countP_le (p := p)
  simp only [values, herased, hentries, List.map_append, List.map_cons, List.countP_append,
    List.countP_cons, counts, if_true]
  omega

end Table

namespace Deed

/-- The scope keeps what it has, and takes this on. -/
structure Adds (deed : Deed) (f : Scope → Scope) : Prop where
  accepts : deed.accepts = true
  phase : ∀ scope, (f scope).phase = scope.phase
  discipline : ∀ scope, (f scope).discipline = scope.discipline
  blocks : ∀ scope, (f scope).blocks = scope.blocks ++ deed.block?.toList
  cleanups : ∀ scope, (f scope).cleanups = scope.cleanups ++ deed.cleanup?.toList

end Deed

namespace State

/-! ### Acts -/

/-- How many handles there are of arenas of the scope. -/
def arenasOf (s : State) (id : ScopeId) : Nat := s.handles.arenas.values.countP (·.scope == id)

/-- No scope is touched, and none but a new one gets an arena; that of the process has any number.
-/
structure Aside (s s' : State) : Prop where
  size_le : s.scopes.size ≤ s'.scopes.size
  scopes : ∀ id < s.scopes.size, Untouched s s' id
  arenas : ∀ id, id ≠ processScope → (id < s.scopes.size ∨ s'.scopes.size ≤ id) →
    s'.arenasOf id ≤ s.arenasOf id
  opened : ∀ id, id ≠ processScope → s'.arenasOf id ≤ s.arenasOf id + 1

/-- A single act of a thread. -/
inductive Act (t : Thread) (s : State) : State → Prop where
  | aside {s' : State} : Aside s s' → Act t s s'
  /-- A scope takes something on. -/
  | gain {id : ScopeId} {f : Scope → Scope} {deed : Deed} : s.isAlive id = true →
      (s.scope id).discipline.accessibleBy t = true → deed.Adds f →
      Act t s ((s.modifyScope id f).record id deed)
  /-- A scope is closed. The arena by which that is done may just be going. -/
  | close {s₁ : State} {id : ScopeId} : Aside s s₁ → 0 < s.arenasOf id →
      (s₁.scope id).phase = .alive →
      (s₁.scope id).discipline = .confined t ∨ (s₁.scope id).discipline = .shared →
      Act t s (s₁.endScope id (some t))
  /-- A scope ends with its last handle. -/
  | expire {id : ScopeId} : s.keepsScope id = false → (s.scope id).phase ≠ .closed →
      Act t s (s.endScope id none)
  /-- Something of what a closed scope has held is released. -/
  | release {id : ScopeId} {f : Scope → Scope} {deed : Deed} : (s.scope id).phase = .closed →
      (∀ scope, (f scope).phase = scope.phase) →
      (∀ scope, (f scope).discipline = scope.discipline) →
      Act t s ((s.modifyScope id f).record id deed)

/-- Acts of a thread, one after the other. -/
abbrev Acts (t : Thread) : State → State → Prop := Relation.ReflTransGen (Act t)

section
variable {s s' s'' : State} {t : Thread} {id : ScopeId}

theorem Aside.refl (s : State) : Aside s s :=
  ⟨Nat.le_refl _, fun id _ => .refl s id, fun _ _ _ => Nat.le_refl _, fun _ _ => Nat.le_succ _⟩

theorem Aside.trans (h : Aside s s') (h' : Aside s' s'') : Aside s s'' where
  size_le := Nat.le_trans h.size_le h'.size_le
  scopes id hid := (h.scopes id hid).trans (h'.scopes id (Nat.lt_of_lt_of_le hid h.size_le))
  arenas id hne hid := by
    have hfirst := h.arenas id hne (hid.imp_right (Nat.le_trans h'.size_le))
    have hlater := h'.arenas id hne (hid.imp_left fun hlt => Nat.lt_of_lt_of_le hlt h.size_le)
    exact Nat.le_trans hlater hfirst
  opened id hne := by
    have hfirst := h.opened id hne
    have hlater := h'.opened id hne
    -- A scope that is new at first is not new any more later.
    by_cases hid : id < s'.scopes.size
    · have := h'.arenas id hne (.inl hid)
      omega
    · have := h.arenas id hne (.inr (Nat.le_of_not_lt hid))
      omega

theorem Aside.of_eq (scopes : s'.scopes = s.scopes) (journal : s'.journal = s.journal)
    (arenas : s'.handles.arenas = s.handles.arenas) : Aside s s' := by
  have hscope : ∀ id, s'.scope id = s.scope id := fun id => by rw [scope, scope, scopes]
  have hcount : ∀ id, s'.arenasOf id = s.arenasOf id := fun id => by rw [arenasOf, arenasOf, arenas]
  exact
    { size_le := Nat.le_of_eq (by rw [scopes])
      scopes := fun id _ => ⟨by rw [hscope], by rw [hscope], by rw [hscope], by rw [hscope],
        by rw [history, history, journal]⟩
      arenas := fun id _ _ => Nat.le_of_eq (hcount id)
      opened := fun id _ => Nat.le_succ_of_le (Nat.le_of_eq (hcount id)) }

theorem Beside.aside (h : Beside s s') : Aside s s' := by
  obtain ⟨_, _, _, _, rfl⟩ := h
  exact .of_eq rfl rfl rfl

theorem aside_newScope (s : State) (d : Discipline) : Aside s (s.newScope d).2 where
  size_le := by
    rw [show (s.newScope d).2.scopes.size = s.scopes.size + 1 from Array.size_push _]
    exact Nat.le_succ _
  scopes id hid := untouched_newScope s d (Nat.ne_of_lt hid)
  arenas _ _ _ := Nat.le_refl _
  opened _ _ := Nat.le_succ _

theorem aside_recount (s : State) (id : ScopeId) (guards : List Guard) (holds : List Hold)
    (f : Nat → Nat) : Aside s (s.recount id guards holds f) where
  size_le := Nat.le_of_eq (s.size_recount id guards holds f).symm
  scopes other _ := by
    obtain ⟨active, h⟩ := s.scope_recount id other guards holds f
    exact ⟨by rw [h], by rw [h], by rw [h], by rw [h], rfl⟩
  arenas _ _ _ := Nat.le_refl _
  opened _ _ := Nat.le_succ _

/-- An arena goes. -/
theorem aside_erase (s : State) (name : String) :
    Aside s { s with handles.arenas := s.handles.arenas.erase name } where
  size_le := Nat.le_refl _
  scopes _ _ := ⟨rfl, rfl, rfl, rfl, rfl⟩
  arenas _ _ _ := s.handles.arenas.countP_erase_le name _
  opened _ _ := Nat.le_succ_of_le (s.handles.arenas.countP_erase_le name _)

/-- An arena comes whose scope is new, or that of the process. -/
theorem Aside.put (h : Aside s s') {arena : Arena}
    (fresh : arena.scope = processScope ∨
      s.scopes.size ≤ arena.scope ∧ arena.scope < s'.scopes.size)
    (same : s'.handles = s.handles) (name : String) :
    Aside s { s' with handles.arenas := s'.handles.arenas.put name arena } := by
  have hcount : ∀ id, ({ s' with
      handles.arenas := s'.handles.arenas.put name arena } : State).arenasOf id ≤
        s.arenasOf id + if arena.scope == id then 1 else 0 := by
    intro id
    rw [arenasOf, arenasOf, ← same]
    exact s'.handles.arenas.countP_put_le name arena (·.scope == id)
  exact
    { size_le := h.size_le
      scopes := fun id hid => (h.scopes id hid).trans ⟨rfl, rfl, rfl, rfl, rfl⟩
      arenas := fun id hne hid => by
        refine Nat.le_trans (hcount id) (Nat.le_of_eq ?_)
        rw [if_neg, Nat.add_zero]
        intro heq
        obtain rfl := beq_iff_eq.mp heq
        rcases fresh with hprocess | ⟨hle, hlt⟩
        · exact hne hprocess
        · exact hid.elim (Nat.not_lt_of_le hle) (Nat.not_le_of_lt hlt)
      opened := fun id _ => by
        refine Nat.le_trans (hcount id) (Nat.add_le_add_left ?_ _)
        split
        · exact Nat.le_refl 1
        · exact Nat.zero_le 1 }

/-! ### What acts come to -/

theorem Aside.acts (h : Aside s s') : Acts t s s' := .single (.aside h)

theorem Act.gainBlock (alive : s.isAlive id = true)
    (accessible : (s.scope id).discipline.accessibleBy t = true) (block : Block) :
    Act t s (s.gainBlock id block) :=
  .gain alive accessible
    ⟨rfl, fun _ => rfl, fun _ => rfl, fun _ => rfl, fun _ => (List.append_nil _).symm⟩

theorem Act.gainCleanup (alive : s.isAlive id = true)
    (accessible : (s.scope id).discipline.accessibleBy t = true) (cleanup : Cleanup) :
    Act t s (s.gainCleanup id cleanup) :=
  .gain alive accessible
    ⟨rfl, fun _ => rfl, fun _ => rfl, fun _ => (List.append_nil _).symm, fun _ => rfl⟩

/-- A scope changes and that is written down: whose it is stays. -/
theorem discipline_note {f : Scope → Scope} {deed : Deed}
    (discipline : ∀ scope, (f scope).discipline = scope.discipline) (other : ScopeId) :
    (((s.modifyScope id f).record id deed).scope other).discipline =
      (s.scope other).discipline := by
  show ((s.modifyScope id f).scope other).discipline = _
  by_cases h : other = id
  · subst h
    by_cases hid : other < s.scopes.size
    · rw [scope_modifyScope_self f hid, discipline]
    · rw [modifyScope_of_size_le f (Nat.le_of_not_lt hid)]
  · rw [scope_modifyScope_other f h]

theorem history_note (s : State) (id : ScopeId) (f : Scope → Scope) (deed : Deed)
    (other : ScopeId) :
    ∃ more, ((s.modifyScope id f).record id deed).history other = s.history other ++ more := by
  by_cases h : other = id
  · subst h
    exact ⟨[deed], history_record_self _ _ _⟩
  · exact ⟨[], (history_record_other _ _ h).trans (List.append_nil _).symm⟩

/-- What every act keeps: scopes stay, whose they are stays, their histories go on, and none of them
gets another arena. -/
structure Continues (s s' : State) : Prop where
  size_le : s.scopes.size ≤ s'.scopes.size
  discipline : ∀ id < s.scopes.size, (s'.scope id).discipline = (s.scope id).discipline
  history : ∀ id < s.scopes.size, ∃ more, s'.history id = s.history id ++ more
  arenas : ∀ id, id ≠ processScope → (id < s.scopes.size ∨ s'.scopes.size ≤ id) →
    s'.arenasOf id ≤ s.arenasOf id
  opened : ∀ id, id ≠ processScope → s'.arenasOf id ≤ s.arenasOf id + 1

theorem Aside.continues (h : Aside s s') : Continues s s' where
  size_le := h.size_le
  discipline id hid := (h.scopes id hid).discipline
  history id hid := ⟨[], (h.scopes id hid).history.trans (List.append_nil _).symm⟩
  arenas := h.arenas
  opened := h.opened

/-- What stands aside and then changes one scope. -/
theorem Continues.note (h : Continues s s') {f : Scope → Scope} {deed : Deed}
    (discipline : ∀ scope, (f scope).discipline = scope.discipline) :
    Continues s ((s'.modifyScope id f).record id deed) where
  size_le := Nat.le_trans h.size_le (Nat.le_of_eq (size_modifyScope s' id f).symm)
  discipline other hother := (discipline_note discipline other).trans (h.discipline other hother)
  history other hother := by
    obtain ⟨more, hmore⟩ := h.history other hother
    obtain ⟨last, hlast⟩ := history_note s' id f deed other
    exact ⟨more ++ last, by rw [hlast, hmore, List.append_assoc]⟩
  arenas other hne hother := by
    refine h.arenas other hne (hother.imp_right fun hle => ?_)
    exact Nat.le_trans (Nat.le_of_eq (size_modifyScope s' id f).symm) hle
  opened := h.opened

theorem Act.continues (h : Act t s s') : Continues s s' := by
  have hrefl := (Aside.refl s).continues
  cases h with
  | aside h => exact h.continues
  | gain _ _ adds => exact hrefl.note adds.discipline
  | close h _ _ _ => exact h.continues.note fun _ => rfl
  | expire _ _ => exact hrefl.note fun _ => rfl
  | release _ _ discipline => exact hrefl.note discipline

theorem phase_endScope (s : State) (id : ScopeId) (closer : Option Thread) :
    ((s.endScope id closer).scope id).phase = .closed := by
  show ((s.modifyScope id fun scope => { scope with phase := .closed }).scope id).phase = _
  by_cases hid : id < s.scopes.size
  · rw [scope_modifyScope_self _ hid]
  · rw [scope_of_size_le]
    rw [size_modifyScope]
    exact Nat.le_of_not_lt hid

/-- What is closed stays closed. -/
theorem Act.closed (h : Act t s s') (hid : id < s.scopes.size)
    (closed : (s.scope id).phase = .closed) : (s'.scope id).phase = .closed := by
  cases h with
  | aside h => exact (h.scopes id hid).phase.trans closed
  | @gain other f deed _ _ adds =>
    by_cases heq : id = other
    · subst heq
      show ((s.modifyScope id f).scope id).phase = _
      rw [scope_modifyScope_self f hid, adds.phase, closed]
    · exact (untouched_note s f deed heq).phase.trans closed
  | @close s₁ other h _ _ _ =>
    by_cases heq : id = other
    · rw [heq]
      exact phase_endScope _ _ _
    · exact (untouched_note s₁ _ _ heq).phase.trans ((h.scopes id hid).phase.trans closed)
  | @expire other _ _ =>
    by_cases heq : id = other
    · rw [heq]
      exact phase_endScope _ _ _
    · exact (untouched_note s _ _ heq).phase.trans closed
  | @release other f deed _ phase _ =>
    by_cases heq : id = other
    · subst heq
      show ((s.modifyScope id f).scope id).phase = _
      rw [scope_modifyScope_self f hid, phase, closed]
    · exact (untouched_note s f deed heq).phase.trans closed

theorem Acts.closed (h : Acts t s s') (hid : id < s.scopes.size)
    (closed : (s.scope id).phase = .closed) :
    id < s'.scopes.size ∧ (s'.scope id).phase = .closed := by
  induction h with
  | refl => exact ⟨hid, closed⟩
  | tail _ hact ih =>
    exact ⟨Nat.lt_of_lt_of_le ih.1 hact.continues.size_le, hact.closed ih.1 ih.2⟩

end

end State

end ScopedMemory
