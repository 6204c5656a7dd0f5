import Mathlib.Tactic.Common
import ScopedMemory.Program.Run

/-! What the journal says about a scope.

While a scope is alive it holds what it has accepted (`Open`). Once it has ended all of that has
been released, in order and once (`Released`). Between the two the scope belongs to the function
that releases it: nothing else touches it, whatever callbacks do meanwhile. `Leads` says so of two
states of a session, and is what every function of the library is shown to satisfy. -/
namespace ScopedMemory

namespace Deed

/-- The scope takes something on. -/
def accepts : Deed → Bool
  | .attached _ | .registered _ => true
  | _ => false

def block? : Deed → Option Block
  | .attached block => some block
  | _ => none

def cleanup? : Deed → Option Cleanup
  | .registered cleanup => some cleanup
  | _ => none

/-- Cleanups run one after the other, each with its argument. -/
def ofRuns (runs : List (Cleanup × Segment)) : List Deed :=
  runs.flatMap fun run => [.began run.1 run.2, .done run.1]

/-- Blocks are freed one after the other. -/
def ofBlocks (blocks : List Block) : List Deed := blocks.map .freed

end Deed

namespace State

/-! ### Scopes of a changed state -/

theorem scope_of_size_le {s : State} {id : ScopeId} (h : s.scopes.size ≤ id) :
    s.scope id = { discipline := .global, phase := .closed } := by
  rw [scope, Array.getD_eq_getD_getElem?, Array.getElem?_eq_none h, Option.getD_none]

theorem lt_size_of_phase {s : State} {id : ScopeId} (h : (s.scope id).phase ≠ .closed) :
    id < s.scopes.size := by
  by_contra hid
  rw [scope_of_size_le (Nat.le_of_not_lt hid)] at h
  exact h rfl

@[simp] theorem size_modifyScope (s : State) (id : ScopeId) (f : Scope → Scope) :
    (s.modifyScope id f).scopes.size = s.scopes.size := Array.size_modify

theorem scope_modifyScope_self {s : State} {id : ScopeId} (f : Scope → Scope)
    (h : id < s.scopes.size) : (s.modifyScope id f).scope id = f (s.scope id) := by
  simp [scope, modifyScope, Array.getD_eq_getD_getElem?, Array.getElem_modify, h]

theorem scope_modifyScope_other {s : State} {id other : ScopeId} (f : Scope → Scope)
    (h : other ≠ id) : (s.modifyScope id f).scope other = s.scope other := by
  simp [scope, modifyScope, Array.getD_eq_getD_getElem?, Array.getElem?_modify, h.symm]

theorem modifyScope_of_size_le {s : State} {id : ScopeId} (f : Scope → Scope)
    (h : s.scopes.size ≤ id) : s.modifyScope id f = s := by
  have : s.scopes.modify id f = s.scopes := by
    apply Array.ext
    · simp
    · intro i hi hi'
      rw [Array.getElem_modify]
      split
      · omega
      · rfl
  rw [modifyScope, this]

theorem scope_push_self (s : State) (scope : Scope) :
    ({ s with scopes := s.scopes.push scope } : State).scope s.scopes.size = scope := by
  simp [State.scope, Array.getD_eq_getD_getElem?]

theorem scope_push_other (s : State) (scope : Scope) {id : ScopeId} (h : id ≠ s.scopes.size) :
    ({ s with scopes := s.scopes.push scope } : State).scope id = s.scope id := by
  simp [State.scope, Array.getD_eq_getD_getElem?, Array.getElem?_push, h]

/-! ### Histories -/

/-- What happened to a scope, the earliest first. -/
def history (s : State) (id : ScopeId) : List Deed :=
  (s.journal.filter (·.scope = id)).map Entry.deed

@[simp] theorem history_record_self (s : State) (id : ScopeId) (deed : Deed) :
    (s.record id deed).history id = s.history id ++ [deed] := by
  simp [history, record]

theorem history_record_other (s : State) {id other : ScopeId} (deed : Deed) (h : other ≠ id) :
    (s.record id deed).history other = s.history other := by
  simp [history, record, h.symm]

/-- What the scope has accepted is what it holds. -/
structure Holds (s : State) (id : ScopeId) (gains : List Deed) : Prop where
  history : s.history id = .opened :: gains
  accepted : ∀ deed ∈ gains, deed.accepts = true
  blocks : (s.scope id).blocks = gains.filterMap Deed.block?
  cleanups : (s.scope id).cleanups = gains.filterMap Deed.cleanup?

/-- The scope is alive, and nothing of what it has accepted has been released. -/
def Open (s : State) (id : ScopeId) : Prop :=
  (s.scope id).phase = .alive ∧ ∃ gains, s.Holds id gains

/-- The scope has ended with cause: a thread that may close it did so, or nothing keeps it. -/
def Caused (discipline : Discipline) : Option Thread → Bool → Prop
  | some t, _ => discipline = .confined t ∨ discipline = .shared
  | none, kept => kept = false

/-- The scope has ended. After its end its cleanups ran, each once and in the order in which they
were registered, and then its blocks were freed, each once. -/
structure Released (s : State) (id : ScopeId) : Prop where
  closed : (s.scope id).phase = .closed
  blocks : (s.scope id).blocks = []
  cleanups : (s.scope id).cleanups = []
  history : ∃ gains closer kept runs,
    s.history id = .opened :: gains ++ .ended closer kept :: (Deed.ofRuns runs ++
      Deed.ofBlocks (gains.filterMap Deed.block?)) ∧
    (∀ deed ∈ gains, deed.accepts = true) ∧
    runs.map Prod.fst = gains.filterMap Deed.cleanup? ∧
    Caused (s.scope id).discipline closer kept

end State

/-! ### The journal as a whole -/

/-- The system has put the block where it is; an empty block needs no place. -/
def System.Places (system : System) (journal : List Entry) (block : Block) : Prop :=
  block.size = 0 ∨ ∃ alignment, system.place journal block.size alignment = some block.address

/-- The argument that a cleanup gets is an empty native segment at its address. Its scope was opened
for this run, just before, and nothing has happened to it before. -/
def Cleanup.Given (cleanup : Cleanup) (journal : List Entry) (argument : Segment) : Prop :=
  argument = ⟨cleanup.address, 0, .native, false, argument.scope⟩ ∧
    ∃ earlier, journal = earlier ++ [⟨argument.scope, .opened⟩] ∧
      ∀ entry ∈ earlier, entry.scope ≠ argument.scope

/-- What can be written into the journal next. -/
def Deed.Follows (system : System) (journal : List Entry) : Deed → Prop
  | .attached block => system.Places journal block
  | .began cleanup argument => cleanup.Given journal argument
  | _ => True

/-- Every entry follows from those before it. -/
def Lawful (system : System) (journal : List Entry) : Prop :=
  ∀ before id deed later, journal = before ++ ⟨id, deed⟩ :: later → deed.Follows system before

theorem Lawful.append {system : System} {journal : List Entry} (h : Lawful system journal)
    {id : ScopeId} {deed : Deed} (follows : deed.Follows system journal) :
    Lawful system (journal ++ [⟨id, deed⟩]) := by
  intro before id' deed' later heq
  obtain rfl | ⟨later, last, rfl⟩ := List.eq_nil_or_concat later
  · obtain ⟨rfl, hlast⟩ := List.append_inj' heq rfl
    cases hlast
    exact follows
  · rw [List.concat_eq_append, ← List.cons_append, ← List.append_assoc] at heq
    exact h before id' deed' later (List.append_inj' heq rfl).1

namespace State

/-- What holds of every state of a session, also while callbacks run. -/
structure Sound (s : State) : Prop where
  /-- Nothing has happened to a scope that does not exist. -/
  unopened : ∀ id, s.scopes.size ≤ id → s.history id = []
  phases : ∀ id, (s.scope id).phase = .closed ∨ s.Open id
  lawful : Lawful s.system s.journal

/-- The scope is as it was. -/
structure Untouched (s s' : State) (id : ScopeId) : Prop where
  phase : (s'.scope id).phase = (s.scope id).phase
  discipline : (s'.scope id).discipline = (s.scope id).discipline
  cleanups : (s'.scope id).cleanups = (s.scope id).cleanups
  blocks : (s'.scope id).blocks = (s.scope id).blocks
  history : s'.history id = s.history id

/-- How a session goes on, but for the scopes in `own`: what has ended stays as it is, and all else
is open or has been released. -/
structure Course (own : ScopeId → Prop) (s s' : State) : Prop where
  sound : Sound s'
  system : s'.system = s.system
  size_le : s.scopes.size ≤ s'.scopes.size
  journal : s.journal <+: s'.journal
  discipline : ∀ id < s.scopes.size, (s'.scope id).discipline = (s.scope id).discipline
  ended : ∀ id < s.scopes.size, ¬ own id → (s.scope id).phase = .closed → Untouched s s' id
  settled : ∀ id < s'.scopes.size, ¬ own id → ¬ (id < s.scopes.size ∧ (s.scope id).phase = .closed) →
    s'.Open id ∨ s'.Released id

def LeadsBut (own : ScopeId → Prop) (s s' : State) : Prop := Sound s → Course own s s'

/-- A session goes on from one state to the other. -/
abbrev Leads : State → State → Prop := LeadsBut fun _ => False

/-! ### Going on -/

theorem Untouched.refl (s : State) (id : ScopeId) : Untouched s s id := ⟨rfl, rfl, rfl, rfl, rfl⟩

theorem Untouched.trans {s s' s'' : State} {id : ScopeId} (h : Untouched s s' id)
    (h' : Untouched s' s'' id) : Untouched s s'' id where
  phase := h'.phase.trans h.phase
  discipline := h'.discipline.trans h.discipline
  cleanups := h'.cleanups.trans h.cleanups
  blocks := h'.blocks.trans h.blocks
  history := h'.history.trans h.history

theorem Open.untouched {s s' : State} {id : ScopeId} (ho : s.Open id) (h : Untouched s s' id) :
    s'.Open id := by
  obtain ⟨halive, gains, hg⟩ := ho
  exact ⟨h.phase.trans halive, gains, h.history.trans hg.history, hg.accepted,
    h.blocks.trans hg.blocks, h.cleanups.trans hg.cleanups⟩

theorem Released.untouched {s s' : State} {id : ScopeId} (hr : s.Released id)
    (h : Untouched s s' id) : s'.Released id where
  closed := h.phase.trans hr.closed
  blocks := h.blocks.trans hr.blocks
  cleanups := h.cleanups.trans hr.cleanups
  history := by
    rw [h.history, h.discipline]
    exact hr.history

theorem Open.not_closed {s : State} {id : ScopeId} (h : s.Open id) :
    (s.scope id).phase ≠ .closed := by
  rw [h.1]
  decide

section
variable {own : ScopeId → Prop} {s s' s'' : State}

theorem Course.refl (hs : Sound s) : Course own s s where
  sound := hs
  system := rfl
  size_le := Nat.le_refl _
  journal := List.prefix_rfl
  discipline _ _ := rfl
  ended id _ _ _ := .refl s id
  settled id hid _ hc := .inl ((hs.phases id).resolve_left fun h => hc ⟨hid, h⟩)

theorem Course.trans (h : Course own s s') (h' : Course own s' s'') : Course own s s'' where
  sound := h'.sound
  system := h'.system.trans h.system
  size_le := Nat.le_trans h.size_le h'.size_le
  journal := h.journal.trans h'.journal
  discipline id hid :=
    (h'.discipline id (Nat.lt_of_lt_of_le hid h.size_le)).trans (h.discipline id hid)
  ended id hid hown hc := by
    have hu := h.ended id hid hown hc
    exact hu.trans (h'.ended id (Nat.lt_of_lt_of_le hid h.size_le) hown (hu.phase.trans hc))
  settled id hid hown hc := by
    by_cases hmid : id < s'.scopes.size
    · rcases h.settled id hmid hown hc with ho | hr
      · exact h'.settled id hid hown fun hc' => ho.not_closed hc'.2
      · exact .inr (hr.untouched (h'.ended id hmid hown hr.closed))
    · exact h'.settled id hid hown fun hc' => hmid hc'.1

theorem Course.mono {own' : ScopeId → Prop} (h : Course own s s') (hsub : ∀ id, own id → own' id) :
    Course own' s s' where
  sound := h.sound
  system := h.system
  size_le := h.size_le
  journal := h.journal
  discipline := h.discipline
  ended id hid hown := h.ended id hid fun ho => hown (hsub id ho)
  settled id hid hown := h.settled id hid fun ho => hown (hsub id ho)

end

/-! ### Small changes -/

/-- All scopes and what has happened to them are the same. -/
structure Alike (s s' : State) : Prop where
  system : s'.system = s.system
  size : s'.scopes.size = s.scopes.size
  journal : s'.journal = s.journal
  phase : ∀ id, (s'.scope id).phase = (s.scope id).phase
  discipline : ∀ id, (s'.scope id).discipline = (s.scope id).discipline
  cleanups : ∀ id, (s'.scope id).cleanups = (s.scope id).cleanups
  blocks : ∀ id, (s'.scope id).blocks = (s.scope id).blocks

theorem Alike.of_eq {s s' : State} (system : s'.system = s.system) (scopes : s'.scopes = s.scopes)
    (journal : s'.journal = s.journal) : Alike s s' := by
  have hscope : ∀ id, s'.scope id = s.scope id := fun id => by rw [scope, scope, scopes]
  exact ⟨system, by rw [scopes], journal, fun id => by rw [hscope], fun id => by rw [hscope],
    fun id => by rw [hscope], fun id => by rw [hscope]⟩

theorem Alike.untouched {s s' : State} (h : Alike s s') (id : ScopeId) : Untouched s s' id where
  phase := h.phase id
  discipline := h.discipline id
  cleanups := h.cleanups id
  blocks := h.blocks id
  history := by rw [history, history, h.journal]

theorem Alike.leads {s s' : State} {own : ScopeId → Prop} (h : Alike s s') : LeadsBut own s s' := by
  intro hs
  have hsound : Sound s' :=
    { unopened := fun id hid => by
        rw [(h.untouched id).history]
        exact hs.unopened id (h.size ▸ hid)
      phases := fun id => (hs.phases id).imp ((h.phase id).trans ·) (·.untouched (h.untouched id))
      lawful := h.system ▸ h.journal ▸ hs.lawful }
  exact
    { sound := hsound
      system := h.system
      size_le := Nat.le_of_eq h.size.symm
      journal := h.journal ▸ List.prefix_rfl
      discipline := fun id _ => h.discipline id
      ended := fun id _ _ _ => h.untouched id
      settled := fun id hid _ hc => .inl
        ((hsound.phases id).resolve_left fun hp => hc ⟨h.size ▸ hid, (h.phase id).symm.trans hp⟩) }

/-- A new scope is open, and the others stay as they are. -/
theorem untouched_newScope (s : State) (d : Discipline) {id : ScopeId} (h : id ≠ s.scopes.size) :
    Untouched s (s.newScope d).2 id := by
  have hscope : (s.newScope d).2.scope id = s.scope id := scope_push_other s _ h
  exact ⟨by rw [hscope], by rw [hscope], by rw [hscope], by rw [hscope],
    history_record_other _ _ h⟩

theorem open_newScope {s : State} (hs : Sound s) (d : Discipline) :
    (s.newScope d).2.Open s.scopes.size := by
  have hscope : (s.newScope d).2.scope s.scopes.size = { discipline := d } :=
    scope_push_self s _
  have hhistory : (s.newScope d).2.history s.scopes.size = [.opened] :=
    (history_record_self _ _ _).trans
      (congrArg (· ++ [Deed.opened]) (hs.unopened _ (Nat.le_refl _)))
  exact ⟨by rw [hscope], [], hhistory, nofun, by rw [hscope]; rfl, by rw [hscope]; rfl⟩

theorem newScope_leads (s : State) (d : Discipline) {own : ScopeId → Prop} :
    LeadsBut own s (s.newScope d).2 := by
  intro hs
  have hsize : (s.newScope d).2.scopes.size = s.scopes.size + 1 := Array.size_push _
  have hphases : ∀ id, ((s.newScope d).2.scope id).phase = .closed ∨ (s.newScope d).2.Open id := by
    intro id
    by_cases hid : id = s.scopes.size
    · exact .inr (hid ▸ open_newScope hs d)
    · have hu := untouched_newScope s d hid
      exact (hs.phases id).imp (hu.phase.trans ·) (·.untouched hu)
  exact
    { sound :=
        { unopened := fun id hid => by
            rw [(untouched_newScope s d (Nat.ne_of_gt (by omega))).history]
            exact hs.unopened id (by omega)
          phases := hphases
          lawful := hs.lawful.append trivial }
      system := rfl
      size_le := by omega
      journal := List.prefix_append _ _
      discipline := fun id hid => (untouched_newScope s d (Nat.ne_of_lt hid)).discipline
      ended := fun id hid _ _ => untouched_newScope s d (Nat.ne_of_lt hid)
      settled := fun id hid _ hc => .inl <| (hphases id).resolve_left fun hp => by
        by_cases hnew : id = s.scopes.size
        · exact (hnew ▸ open_newScope hs d).not_closed hp
        · exact hc ⟨by omega, (untouched_newScope s d hnew).phase.symm.trans hp⟩ }

/-- A scope changes and that is written down; the others stay as they are. -/
theorem untouched_note (s : State) {id other : ScopeId} (f : Scope → Scope) (deed : Deed)
    (h : other ≠ id) : Untouched s ((s.modifyScope id f).record id deed) other := by
  have hscope : ((s.modifyScope id f).record id deed).scope other = s.scope other :=
    scope_modifyScope_other f h
  exact ⟨by rw [hscope], by rw [hscope], by rw [hscope], by rw [hscope],
    history_record_other _ _ h⟩

theorem note_leads {s : State} {id : ScopeId} {f : Scope → Scope} {deed : Deed}
    {own : ScopeId → Prop} (hid : id < s.scopes.size)
    (discipline : (f (s.scope id)).discipline = (s.scope id).discipline)
    (follows : deed.Follows s.system s.journal)
    (here : Sound s → own id ∧ (f (s.scope id)).phase = .closed ∨
      (s.scope id).phase ≠ .closed ∧ ((s.modifyScope id f).record id deed).Open id) :
    LeadsBut own s ((s.modifyScope id f).record id deed) := by
  intro hs
  have hself : ((s.modifyScope id f).record id deed).scope id = f (s.scope id) :=
    scope_modifyScope_self f hid
  have hsize : ((s.modifyScope id f).record id deed).scopes.size = s.scopes.size :=
    size_modifyScope s id f
  have hphases : ∀ other, (((s.modifyScope id f).record id deed).scope other).phase = .closed ∨
      ((s.modifyScope id f).record id deed).Open other := by
    intro other
    by_cases h : other = id
    · rw [h, hself]
      exact (here hs).imp And.right And.right
    · have hu := untouched_note s f deed h
      exact (hs.phases other).imp (hu.phase.trans ·) (·.untouched hu)
  exact
    { sound :=
        { unopened := fun other hother => by
            have hne : other ≠ id := Nat.ne_of_gt (Nat.lt_of_lt_of_le hid (hsize ▸ hother))
            rw [(untouched_note s f deed hne).history]
            exact hs.unopened other (by omega)
          phases := hphases
          lawful := hs.lawful.append follows }
      system := rfl
      size_le := Nat.le_of_eq hsize.symm
      journal := List.prefix_append _ _
      discipline := fun other _ => by
        by_cases h : other = id
        · rw [h, hself, discipline]
        · exact (untouched_note s f deed h).discipline
      ended := fun other _ hown hc => untouched_note s f deed fun h => by
        subst h
        rcases here hs with ⟨hmine, -⟩ | ⟨hopen, -⟩
        · exact hown hmine
        · exact hopen hc
      settled := fun other hother hown hc => .inl <| (hphases other).resolve_left fun hp => by
        by_cases h : other = id
        · subst h
          rcases here hs with ⟨hmine, -⟩ | ⟨-, hopen⟩
          · exact hown hmine
          · exact hopen.not_closed hp
        · exact hc ⟨by omega, (untouched_note s f deed h).phase.symm.trans hp⟩ }

/-- An open scope takes something on. -/
theorem gain_leads {s : State} {id : ScopeId} {f : Scope → Scope} {deed : Deed}
    {own : ScopeId → Prop} (alive : (s.scope id).phase = .alive) (accepts : deed.accepts = true)
    (follows : deed.Follows s.system s.journal)
    (phase : (f (s.scope id)).phase = (s.scope id).phase)
    (discipline : (f (s.scope id)).discipline = (s.scope id).discipline)
    (blocks : (f (s.scope id)).blocks = (s.scope id).blocks ++ deed.block?.toList)
    (cleanups : (f (s.scope id)).cleanups = (s.scope id).cleanups ++ deed.cleanup?.toList) :
    LeadsBut own s ((s.modifyScope id f).record id deed) := by
  have hopen : (s.scope id).phase ≠ .closed := by
    rw [alive]
    decide
  have hid := lt_size_of_phase hopen
  have hself : ((s.modifyScope id f).record id deed).scope id = f (s.scope id) :=
    scope_modifyScope_self f hid
  refine note_leads hid discipline follows fun hs => .inr ⟨hopen, ?_⟩
  obtain ⟨-, gains, hg⟩ := (hs.phases id).resolve_left hopen
  refine ⟨by rw [hself, phase, alive], gains ++ [deed], ?_, ?_, ?_, ?_⟩
  · rw [history_record_self]
    exact congrArg (· ++ [deed]) hg.history
  · intro d hd
    rcases List.mem_append.mp hd with hd | hd
    · exact hg.accepted d hd
    · rw [List.mem_singleton.mp hd]
      exact accepts
  · rw [hself, blocks, hg.blocks, List.filterMap_append]
    cases hb : deed.block? <;> simp [hb]
  · rw [hself, cleanups, hg.cleanups, List.filterMap_append]
    cases hc : deed.cleanup? <;> simp [hc]

/-- A scope of one's own that is closed from here on changes. -/
theorem own_leads {s : State} {id : ScopeId} {f : Scope → Scope} {deed : Deed}
    (hid : id < s.scopes.size) (closed : (f (s.scope id)).phase = .closed)
    (discipline : (f (s.scope id)).discipline = (s.scope id).discipline)
    (follows : deed.Follows s.system s.journal) :
    LeadsBut (· = id) s ((s.modifyScope id f).record id deed) :=
  note_leads hid discipline follows fun _ => .inl ⟨rfl, closed⟩

end State

end ScopedMemory
