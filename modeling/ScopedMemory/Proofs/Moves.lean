import Mathlib.Logic.Relation
import ScopedMemory.Proofs.Guarding
import ScopedMemory.Proofs.Holds

/-! What threads do to scopes, one move at a time.

A thread closes a scope in two moves, and enters and leaves scopes; all else that happens leaves
phases and counts alone (`Calm`). Threads may make their moves in any order. Wherever their moves
lead (`Path`), scopes have only moved on, what is kept lasts, and every thread's holds and every
counter agree with the accesses that are under way (`Accounts`). -/
namespace ScopedMemory

namespace Phase

/-- Phases in their order. -/
def rank : Phase → Nat
  | .alive => 0
  | .closing => 1
  | .closed => 2

end Phase

namespace State

/-! ### Moves -/

/-- Phases, counts and accesses stay as they are. New scopes are alive and unused, and what comes to
be kept lasts. -/
structure Calm (s s' : State) : Prop where
  size_le : s.scopes.size ≤ s'.scopes.size
  discipline : ∀ id < s.scopes.size, (s'.scope id).discipline = (s.scope id).discipline
  phase : ∀ id < s.scopes.size, (s'.scope id).phase = (s.scope id).phase
  active : ∀ id < s.scopes.size, (s'.scope id).active = (s.scope id).active
  fresh : ∀ id < s'.scopes.size, s.scopes.size ≤ id →
    (s'.scope id).phase = .alive ∧ (s'.scope id).active = 0
  holds : s'.holds = s.holds
  guards : s'.guards = s.guards
  kept : ∀ id, s'.keepsScope id = true → s.keepsScope id = true ∨ s'.Lasting id

/-- One move of some thread. -/
inductive Move (s : State) : State → Prop where
  | calm {s' : State} : Calm s s' → Move s s'
  /-- A close begins. -/
  | shut {id : ScopeId} : s.isAlive id = true →
      (s.scope id).discipline.kind.closeable = true →
      Move s (s.modifyScope id fun scope => { scope with phase := .closing })
  /-- A scope ends that a close has begun on, or that nothing keeps. -/
  | finish {id : ScopeId} {closer : Option Thread} :
      (s.scope id).phase = .closing ∧ (s.scope id).discipline.kind.closeable = true ∨
        (s.scope id).phase = .alive ∧ s.keepsScope id = false →
      Move s (s.endScope id closer)
  | enter {t : Thread} {id : ScopeId} : s.checkEntry t id = .ok () → id < s.scopes.size →
      Move s (s.hold t id)
  | leave {t : Thread} {id : ScopeId} : ⟨t, id⟩ ∈ s.guards → Move s (s.letOut t id)

/-- Moves of any threads, one after the other. -/
abbrev Path : State → State → Prop := Relation.ReflTransGen Move

/-! ### Entering and leaving -/

/-- Other accesses are under way: those of a closeable scope are remembered, and those of a shared
one are counted. -/
def recount (s : State) (id : ScopeId) (guards : List Guard) (holds : List Hold) (f : Nat → Nat) :
    State :=
  { s with
    guards
    holds := if (s.scope id).discipline.kind.closeable then holds else s.holds
    scopes := if (s.scope id).discipline = .shared then
      s.scopes.modify id fun scope => { scope with active := f scope.active } else s.scopes }

theorem hold_eq (s : State) (t : Thread) (id : ScopeId) :
    s.hold t id = s.recount id (⟨t, id⟩ :: s.guards) (Hold.enter t id s.holds) (· + 1) := by
  have hscope : ({ s with guards := ⟨t, id⟩ :: s.guards } : State).scope id = s.scope id := rfl
  unfold hold recount
  dsimp only
  rw [hscope]
  cases (s.scope id).discipline <;> rfl

theorem letOut_eq (s : State) (t : Thread) (id : ScopeId) :
    s.letOut t id = s.recount id (s.guards.erase ⟨t, id⟩) (Hold.leave t id s.holds) (· - 1) := by
  have hscope : ({ s with guards := s.guards.erase ⟨t, id⟩ } : State).scope id = s.scope id := rfl
  unfold letOut recount
  dsimp only
  rw [hscope]
  cases (s.scope id).discipline <;> rfl

section
variable (s : State) (id other : ScopeId) (guards : List Guard) (holds : List Hold) (f : Nat → Nat)

/-- Counting leaves all else of a scope as it is. -/
theorem scope_recount :
    ∃ active, (s.recount id guards holds f).scope other = { s.scope other with active } := by
  unfold recount
  split
  · exact untouched_active s id other _
  · exact ⟨_, rfl⟩

theorem discipline_recount :
    ((s.recount id guards holds f).scope other).discipline = (s.scope other).discipline := by
  obtain ⟨active, h⟩ := s.scope_recount id other guards holds f
  rw [h]

theorem phase_recount :
    ((s.recount id guards holds f).scope other).phase = (s.scope other).phase := by
  obtain ⟨active, h⟩ := s.scope_recount id other guards holds f
  rw [h]

theorem size_recount : (s.recount id guards holds f).scopes.size = s.scopes.size := by
  unfold recount
  split
  · exact Array.size_modify
  · rfl

theorem active_recount (hid : id < s.scopes.size) :
    ((s.recount id guards holds f).scope other).active =
      if (s.scope id).discipline = .shared ∧ other = id then f (s.scope other).active
      else (s.scope other).active := by
  have hscopes : (s.recount id guards holds f).scopes =
      if (s.scope id).discipline = .shared then
        (s.modifyScope id fun scope => { scope with active := f scope.active }).scopes
      else s.scopes := rfl
  rw [scope, hscopes]
  by_cases hshared : (s.scope id).discipline = .shared
  · rw [if_pos hshared, ← scope]
    by_cases heq : other = id
    · rw [if_pos ⟨hshared, heq⟩, heq, scope_modifyScope_self _ hid]
    · rw [if_neg fun h => heq h.2, scope_modifyScope_other _ heq]
  · rw [if_neg hshared, if_neg fun h => hshared h.1, ← scope]

end

/-! ### What is kept lasts -/

/-- What is kept, and cannot be closed, is alive. -/
def KeptLast (s : State) : Prop := ∀ id, s.keepsScope id = true → s.Lasting id

section
variable {s s' : State} {t : Thread} {id : ScopeId}

/-- Handles, mappings and cleanups decide what is kept. -/
theorem keepsScope_congr (handles : s'.handles = s.handles) (outgoing : s'.outgoing = s.outgoing)
    (mappings : s'.mappings = s.mappings)
    (cleanups : ∀ id, (s'.scope id).cleanups = (s.scope id).cleanups) (id : ScopeId) :
    s'.keepsScope id = s.keepsScope id :=
  keepsScope_eq_of_retains
    (retains_of_cleanups handles outgoing mappings fun other _ h => cleanups other ▸ h)
    (retains_of_cleanups handles.symm outgoing.symm mappings.symm fun other _ h => cleanups other ▸ h)
    id

theorem keepsScope_recount (s : State) (id : ScopeId) (guards : List Guard) (holds : List Hold)
    (f : Nat → Nat) (other : ScopeId) :
    (s.recount id guards holds f).keepsScope other = s.keepsScope other := by
  refine keepsScope_congr ?_ ?_ ?_ (fun x => ?_) other
  iterate 3 rfl
  obtain ⟨active, h⟩ := s.scope_recount id x guards holds f
  rw [h]

/-- What becomes of the phase of one scope changes nothing about what is kept. -/
theorem keepsScope_phase (s : State) (id other : ScopeId) (phase : Phase) :
    (s.modifyScope id fun scope => { scope with phase }).keepsScope other = s.keepsScope other := by
  refine keepsScope_congr ?_ ?_ ?_ (fun x => ?_) other
  iterate 3 rfl
  by_cases heq : x = id
  · by_cases hid : id < s.scopes.size
    · rw [heq, scope_modifyScope_self _ hid]
    · rw [modifyScope_of_size_le _ (Nat.le_of_not_lt hid)]
  · rw [scope_modifyScope_other _ heq]

theorem Lasting.lt_size (h : s.Lasting id) : id < s.scopes.size := by
  by_contra hid
  have hnone := scope_of_size_le (Nat.le_of_not_lt hid)
  have halive := isAlive_iff.mp (h (by rw [hnone]; rfl))
  rw [hnone] at halive
  cases halive

theorem Lasting.congr (h : s.Lasting id)
    (discipline : (s'.scope id).discipline = (s.scope id).discipline)
    (phase : (s'.scope id).phase = (s.scope id).phase) : s'.Lasting id := by
  intro hlast
  rw [discipline] at hlast
  exact isAlive_iff.mpr (phase.trans (isAlive_iff.mp (h hlast)))

theorem lasting_hold {other : ScopeId} (h : s.Lasting other) : (s.hold t id).Lasting other := by
  rw [hold_eq]
  exact h.congr (s.discipline_recount id other _ _ _) (s.phase_recount id other _ _ _)

theorem Calm.keptLast (h : Calm s s') (hk : KeptLast s) : KeptLast s' := by
  intro id hid
  rcases h.kept id hid with hkept | hlast
  · have hlasting := hk id hkept
    exact hlasting.congr (h.discipline id hlasting.lt_size) (h.phase id hlasting.lt_size)
  · exact hlast

/-- A scope that can be closed, or that nothing keeps, may stop being alive. -/
theorem keptLast_of_phase (phase : Phase) (hk : KeptLast s)
    (may : (s.scope id).discipline.kind.closeable = true ∨ s.keepsScope id = false) :
    KeptLast (s.modifyScope id fun scope => { scope with phase }) := by
  intro other hother
  rw [keepsScope_phase] at hother
  have hlasting := hk other hother
  by_cases heq : other = id
  · subst heq
    intro hlast
    rw [scope_modifyScope_self _ hlasting.lt_size] at hlast
    rcases may with hcloseable | hunkept
    · rw [hcloseable] at hlast
      cases hlast
    · rw [hother] at hunkept
      cases hunkept
  · exact hlasting.congr (by rw [scope_modifyScope_other _ heq])
      (by rw [scope_modifyScope_other _ heq])

theorem keepsScope_record (s : State) (id : ScopeId) (deed : Deed) (other : ScopeId) :
    (s.record id deed).keepsScope other = s.keepsScope other :=
  keepsScope_congr rfl rfl rfl (fun _ => rfl) other

theorem KeptLast.recount (hk : KeptLast s) (id : ScopeId) (guards : List Guard)
    (holds : List Hold) (f : Nat → Nat) : KeptLast (s.recount id guards holds f) := by
  intro other hother
  rw [keepsScope_recount] at hother
  exact (hk other hother).congr (s.discipline_recount id other guards holds f)
    (s.phase_recount id other guards holds f)

theorem Move.keptLast (h : Move s s') (hk : KeptLast s) : KeptLast s' := by
  cases h with
  | calm h => exact h.keptLast hk
  | shut _ hcloseable => exact keptLast_of_phase _ hk (.inl hcloseable)
  | finish hmay =>
    have hended := keptLast_of_phase .closed hk (hmay.imp And.right And.right)
    intro id hid
    rw [endScope, keepsScope_record] at hid
    exact hended id hid
  | @enter t id _ _ =>
    rw [hold_eq]
    exact hk.recount _ _ _ _
  | @leave t id _ =>
    rw [letOut_eq]
    exact hk.recount _ _ _ _

/-! ### Accounts -/

/-- Every thread's holds and every scope's counter agree with the accesses under way. -/
structure Accounts (s : State) : Prop where
  proper : Hold.Proper s.holds
  depth : ∀ t id, Hold.depthOf t id s.holds =
    if (s.scope id).discipline.kind.closeable then s.guards.count ⟨t, id⟩ else 0
  active : ∀ id, (s.scope id).active =
    if (s.scope id).discipline = .shared then Hold.total id s.holds else 0
  known : ∀ guard ∈ s.guards, guard.scope < s.scopes.size

/-- No access is under way on a scope that there is not yet. -/
theorem Accounts.count_unknown (h : Accounts s) (t : Thread) (hid : s.scopes.size ≤ id) :
    s.guards.count ⟨t, id⟩ = 0 :=
  List.count_eq_zero.mpr fun hmem => Nat.not_lt.mpr hid (h.known _ hmem)

theorem Accounts.depth_unknown (h : Accounts s) (t : Thread) (hid : s.scopes.size ≤ id) :
    Hold.depthOf t id s.holds = 0 := by
  rw [h.depth, scope_of_size_le hid]
  rfl

/-- What leaves accesses and counters alone leaves the accounts in order. -/
theorem Accounts.transfer (h : Accounts s) (size_le : s.scopes.size ≤ s'.scopes.size)
    (discipline : ∀ id < s.scopes.size, (s'.scope id).discipline = (s.scope id).discipline)
    (active : ∀ id < s.scopes.size, (s'.scope id).active = (s.scope id).active)
    (fresh : ∀ id < s'.scopes.size, s.scopes.size ≤ id → (s'.scope id).active = 0)
    (holds : s'.holds = s.holds) (guards : s'.guards = s.guards) : Accounts s' where
  proper := holds ▸ h.proper
  depth t id := by
    rw [holds, guards]
    by_cases hid : id < s.scopes.size
    · rw [discipline id hid]
      exact h.depth t id
    · rw [h.depth_unknown t (Nat.le_of_not_lt hid), h.count_unknown t (Nat.le_of_not_lt hid)]
      split <;> rfl
  active id := by
    rw [holds]
    by_cases hid : id < s.scopes.size
    · rw [active id hid, discipline id hid]
      exact h.active id
    · have htotal : Hold.total id s.holds = 0 :=
        Hold.total_eq_zero h.proper.positive fun t => h.depth_unknown t (Nat.le_of_not_lt hid)
      have hzero : (s'.scope id).active = 0 := by
        by_cases hid' : id < s'.scopes.size
        · exact fresh id hid' (Nat.le_of_not_lt hid)
        · rw [scope_of_size_le (Nat.le_of_not_lt hid')]
      rw [hzero, htotal]
      split <;> rfl
  known guard hguard := Nat.lt_of_lt_of_le (h.known guard (guards ▸ hguard)) size_le

theorem Accounts.phase (h : Accounts s) (id : ScopeId) (phase : Phase) :
    Accounts (s.modifyScope id fun scope => { scope with phase }) := by
  have hscope : ∀ other, ∃ phase', (s.modifyScope id fun scope => { scope with phase }).scope other =
      { s.scope other with phase := phase' } := by
    intro other
    by_cases heq : other = id
    · by_cases hid : id < s.scopes.size
      · exact ⟨_, by rw [heq, scope_modifyScope_self _ hid]⟩
      · exact ⟨_, by rw [modifyScope_of_size_le _ (Nat.le_of_not_lt hid)]⟩
    · exact ⟨_, by rw [scope_modifyScope_other _ heq]⟩
  refine h.transfer (Nat.le_of_eq (size_modifyScope _ _ _).symm) (fun other _ => ?_)
    (fun other _ => ?_) (fun other hother hle => ?_) rfl rfl
  · obtain ⟨phase', hother⟩ := hscope other
    rw [hother]
  · obtain ⟨phase', hother⟩ := hscope other
    rw [hother]
  · rw [size_modifyScope] at hother
    omega

/-- A closeable scope is a shared one or has an owner. -/
theorem closeable_of_shared (h : (s.scope id).discipline = .shared) :
    (s.scope id).discipline.kind.closeable = true := by
  rw [h]
  rfl

/-- One thread's accesses to one scope change, and with them its hold and the counter. -/
theorem Accounts.recount (h : Accounts s) (t : Thread) (hid : id < s.scopes.size)
    {guards : List Guard} {holds : List Hold} {f : Nat → Nat} (proper : Hold.Proper holds)
    (known : ∀ guard ∈ guards, guard.scope < s.scopes.size)
    (self : (s.scope id).discipline.kind.closeable = true →
      Hold.depthOf t id holds = guards.count ⟨t, id⟩)
    (others : ∀ u other, ¬ (u = t ∧ other = id) →
      Hold.depthOf u other holds = Hold.depthOf u other s.holds ∧
        guards.count ⟨u, other⟩ = s.guards.count ⟨u, other⟩)
    (total : (s.scope id).discipline = .shared → f (Hold.total id s.holds) = Hold.total id holds)
    (totals : ∀ other, other ≠ id → Hold.total other holds = Hold.total other s.holds) :
    Accounts (s.recount id guards holds f) := by
  have hholds : (s.recount id guards holds f).holds =
      if (s.scope id).discipline.kind.closeable then holds else s.holds := rfl
  refine ⟨?_, fun u other => ?_, fun other => ?_, fun guard hguard => ?_⟩
  · rw [hholds]
    split
    · exact proper
    · exact h.proper
  · rw [hholds, discipline_recount]
    have hguards : (s.recount id guards holds f).guards = guards := rfl
    rw [hguards]
    have hdepth := h.depth u other
    by_cases hkey : u = t ∧ other = id
    · obtain ⟨rfl, rfl⟩ := hkey
      split
      · exact self ‹_›
      · rw [hdepth, if_neg ‹_›]
    · rw [(others u other hkey).2, ← hdepth]
      split
      · exact (others u other hkey).1
      · rfl
  · rw [hholds, discipline_recount, active_recount _ _ _ _ _ _ hid]
    have hactive := h.active other
    by_cases heq : other = id
    · subst heq
      by_cases hshared : (s.scope other).discipline = .shared
      · rw [if_pos hshared] at hactive ⊢
        rw [if_pos ⟨hshared, rfl⟩, if_pos (closeable_of_shared hshared), hactive]
        exact total hshared
      · rw [if_neg hshared] at hactive ⊢
        rw [if_neg fun hboth => hshared hboth.1]
        exact hactive
    · rw [if_neg fun hboth => heq hboth.2, hactive]
      split
      · split
        · exact (totals other heq).symm
        · rfl
      · rfl
  · rw [size_recount]
    exact known guard hguard

theorem count_cons_other {u : Thread} {other : ScopeId} (guards : List Guard)
    (h : ¬ (u = t ∧ other = id)) :
    (⟨t, id⟩ :: guards : List Guard).count ⟨u, other⟩ = guards.count ⟨u, other⟩ := by
  refine List.count_cons_of_ne fun heq => h ?_
  exact ⟨(congrArg Guard.thread heq).symm, (congrArg Guard.scope heq).symm⟩

theorem Accounts.enter (h : Accounts s) (t : Thread) (hid : id < s.scopes.size) :
    Accounts (s.hold t id) := by
  rw [hold_eq]
  refine h.recount t hid (h.proper.enter t id) (fun guard hguard => ?_) (fun hcloseable => ?_)
    (fun u other hkey => ⟨Hold.depthOf_enter_other hkey, count_cons_other _ hkey⟩)
    (fun _ => Hold.total_enter_self.symm) fun other hne => Hold.total_enter_other hne
  · rcases List.mem_cons.mp hguard with rfl | hguard
    · exact hid
    · exact h.known guard hguard
  · have hdepth := h.depth t id
    rw [if_pos hcloseable] at hdepth
    rw [Hold.depthOf_enter_self, hdepth, List.count_cons_self]

theorem Accounts.leave (h : Accounts s) (hmem : ⟨t, id⟩ ∈ s.guards) : Accounts (s.letOut t id) := by
  have hinside : (s.scope id).discipline.kind.closeable = true → 0 < Hold.depthOf t id s.holds := by
    intro hcloseable
    rw [h.depth, if_pos hcloseable]
    exact List.count_pos_iff.mpr hmem
  rw [letOut_eq]
  refine h.recount t (h.known _ hmem) (h.proper.leave t id)
    (fun guard hguard => h.known guard (List.mem_of_mem_erase hguard)) (fun hcloseable => ?_)
    (fun u other hkey => ⟨Hold.depthOf_leave_other hkey, ?_⟩) (fun hshared => ?_)
    fun other hne => Hold.total_leave_other hne
  · have hdepth := h.depth t id
    rw [if_pos hcloseable] at hdepth
    rw [Hold.depthOf_leave_self h.proper.single, hdepth, List.count_erase_self]
  · refine List.count_erase_of_ne fun heq => hkey ?_
    exact ⟨congrArg Guard.thread heq, congrArg Guard.scope heq⟩
  · have htotal := Hold.total_leave_self (hinside (closeable_of_shared hshared))
    exact Nat.sub_eq_of_eq_add htotal.symm

theorem Move.accounts (h : Move s s') (ha : Accounts s) : Accounts s' := by
  cases h with
  | calm h =>
    exact ha.transfer h.size_le h.discipline h.active (fun id hid hle => (h.fresh id hid hle).2)
      h.holds h.guards
  | shut _ _ => exact ha.phase _ _
  | @finish id closer _ =>
    have hended := ha.phase id .closed
    exact ⟨hended.proper, hended.depth, hended.active, hended.known⟩
  | enter _ hid => exact ha.enter _ hid
  | leave hmem => exact ha.leave hmem

/-- **Leaving undoes entering**, whatever was done in between with other accesses that are over. -/
theorem Accounts.restore (h : Accounts s) (hguards : s'.guards = (s.hold t id).guards)
    (hholds : s'.holds = (s.hold t id).holds)
    (discipline : (s'.scope id).discipline = (s.scope id).discipline) :
    (s'.letOut t id).guards = s.guards ∧ (s'.letOut t id).holds = s.holds := by
  rw [hold_eq] at hguards hholds
  rw [letOut_eq]
  constructor
  · show s'.guards.erase ⟨t, id⟩ = s.guards
    rw [hguards]
    exact List.erase_cons_head _ _
  · show (if (s'.scope id).discipline.kind.closeable then Hold.leave t id s'.holds else s'.holds) =
      s.holds
    rw [discipline, hholds]
    show (if _ then Hold.leave t id (if _ then _ else _) else (if _ then _ else _)) = _
    split
    · exact Hold.leave_enter h.proper.positive
    · rfl

theorem Path.keptLast (h : Path s s') (hk : KeptLast s) : KeptLast s' := by
  induction h with
  | refl => exact hk
  | tail _ hmove ih => exact hmove.keptLast ih

theorem Path.accounts (h : Path s s') (ha : Accounts s) : Accounts s' := by
  induction h with
  | refl => exact ha
  | tail _ hmove ih => exact hmove.accounts ih

/-! ### Scopes only move on -/

/-- Every scope is still there, with the same discipline and in the same phase or a later one. -/
structure Forward (s s' : State) : Prop where
  size_le : s.scopes.size ≤ s'.scopes.size
  discipline : ∀ id < s.scopes.size, (s'.scope id).discipline = (s.scope id).discipline
  phase : ∀ id < s.scopes.size, (s.scope id).phase.rank ≤ (s'.scope id).phase.rank

theorem Forward.refl (s : State) : Forward s s :=
  ⟨Nat.le_refl _, fun _ _ => rfl, fun _ _ => Nat.le_refl _⟩

theorem Forward.trans {s'' : State} (h : Forward s s') (h' : Forward s' s'') : Forward s s'' where
  size_le := Nat.le_trans h.size_le h'.size_le
  discipline id hid :=
    (h'.discipline id (Nat.lt_of_lt_of_le hid h.size_le)).trans (h.discipline id hid)
  phase id hid :=
    Nat.le_trans (h.phase id hid) (h'.phase id (Nat.lt_of_lt_of_le hid h.size_le))

theorem Forward.recount (s : State) (id : ScopeId) (guards : List Guard) (holds : List Hold)
    (f : Nat → Nat) : Forward s (s.recount id guards holds f) where
  size_le := Nat.le_of_eq (s.size_recount id guards holds f).symm
  discipline other _ := s.discipline_recount id other guards holds f
  phase other _ := Nat.le_of_eq (congrArg Phase.rank (s.phase_recount id other guards holds f).symm)

/-- One scope is in a later phase. -/
theorem Forward.phase_of_le (phase : Phase) (hle : (s.scope id).phase.rank ≤ phase.rank) :
    Forward s (s.modifyScope id fun scope => { scope with phase }) where
  size_le := Nat.le_of_eq (size_modifyScope _ _ _).symm
  discipline other hother := by
    by_cases heq : other = id
    · rw [heq, scope_modifyScope_self _ (heq ▸ hother)]
    · rw [scope_modifyScope_other _ heq]
  phase other hother := by
    by_cases heq : other = id
    · rw [heq, scope_modifyScope_self _ (heq ▸ hother)]
      exact hle
    · exact Nat.le_of_eq (by rw [scope_modifyScope_other _ heq])

theorem Move.forward (h : Move s s') : Forward s s' := by
  cases h with
  | calm h =>
    exact ⟨h.size_le, h.discipline, fun id hid =>
      Nat.le_of_eq (congrArg Phase.rank (h.phase id hid).symm)⟩
  | shut halive _ =>
    refine Forward.phase_of_le _ ?_
    rw [isAlive_iff.mp halive]
    exact Nat.zero_le _
  | @finish id closer _ =>
    have hle : (s.scope id).phase.rank ≤ Phase.closed.rank := by
      cases (s.scope id).phase <;> decide
    have hended := Forward.phase_of_le .closed hle
    exact ⟨hended.size_le, hended.discipline, hended.phase⟩
  | enter _ _ =>
    rw [hold_eq]
    exact .recount _ _ _ _ _
  | leave _ =>
    rw [letOut_eq]
    exact .recount _ _ _ _ _

/-- **Scopes only move on**, whatever threads do. -/
theorem Path.forward (h : Path s s') : Forward s s' := by
  induction h with
  | refl => exact .refl s
  | tail _ hmove ih => exact ih.trans hmove.forward

/-! ### Calm moves -/

/-- What is newly kept lasts if that is so of segments and arenas. -/
theorem kept_of_new
    (segments : ∀ x ∈ s'.keptSegments, x ∈ s.keptSegments ∨ s'.Lasting x.scope)
    (arenas : ∀ a ∈ s'.handles.arenas.values, a ∈ s.handles.arenas.values ∨ s'.Lasting a.scope)
    (id : ScopeId) (hid : s'.keepsScope id = true) : s.keepsScope id = true ∨ s'.Lasting id := by
  rcases keepsScope_iff.mp hid with rfl | ⟨a, ha, rfl⟩ | ⟨x, hx, rfl⟩
  · exact .inl (keepsScope_iff.mpr (.inl rfl))
  · exact (arenas a ha).imp_left keepsScope_of_arena
  · exact (segments x hx).imp_left keepsScope_of_segment

/-- The scopes stay as they are. -/
theorem Calm.of_scopes (scopes : s'.scopes = s.scopes) (holds : s'.holds = s.holds)
    (guards : s'.guards = s.guards)
    (segments : ∀ x ∈ s'.keptSegments, x ∈ s.keptSegments ∨ s'.Lasting x.scope)
    (arenas : ∀ a ∈ s'.handles.arenas.values, a ∈ s.handles.arenas.values ∨ s'.Lasting a.scope) :
    Calm s s' := by
  have hscope : ∀ id, s'.scope id = s.scope id := fun id => by rw [scope, scope, scopes]
  refine ⟨Nat.le_of_eq (congrArg Array.size scopes.symm), fun id _ => by rw [hscope],
    fun id _ => by rw [hscope], fun id _ => by rw [hscope], fun id hid hle => ?_, holds, guards,
    kept_of_new segments arenas⟩
  rw [scopes] at hid
  omega

/-- One scope gains or loses resources. -/
theorem Calm.of_modify {f : Scope → Scope}
    (discipline : ∀ scope, (f scope).discipline = scope.discipline)
    (phase : ∀ scope, (f scope).phase = scope.phase)
    (active : ∀ scope, (f scope).active = scope.active)
    (scopes : s'.scopes = (s.modifyScope id f).scopes) (holds : s'.holds = s.holds)
    (guards : s'.guards = s.guards)
    (segments : ∀ x ∈ s'.keptSegments, x ∈ s.keptSegments ∨ s'.Lasting x.scope)
    (arenas : ∀ a ∈ s'.handles.arenas.values, a ∈ s.handles.arenas.values ∨ s'.Lasting a.scope) :
    Calm s s' := by
  have hsize : s'.scopes.size = s.scopes.size := by rw [scopes, size_modifyScope]
  have hscope : ∀ other < s.scopes.size, s'.scope other = s.scope other ∨
      s'.scope other = f (s.scope other) := by
    intro other hother
    have heq : s'.scope other = (s.modifyScope id f).scope other := by rw [scope, scopes, ← scope]
    rw [heq]
    by_cases h : other = id
    · subst h
      exact .inr (scope_modifyScope_self f hother)
    · exact .inl (scope_modifyScope_other f h)
  refine ⟨Nat.le_of_eq hsize.symm, fun other hother => ?_, fun other hother => ?_,
    fun other hother => ?_, fun other hother hle => ?_, holds, guards, kept_of_new segments arenas⟩
  · rcases hscope other hother with h | h
    · rw [h]
    · rw [h, discipline]
  · rcases hscope other hother with h | h
    · rw [h]
    · rw [h, phase]
  · rcases hscope other hother with h | h
    · rw [h]
    · rw [h, active]
  · rw [hsize] at hother
    omega

theorem Calm.trans {s'' : State} (h : Calm s s') (h' : Calm s' s'') : Calm s s'' where
  size_le := Nat.le_trans h.size_le h'.size_le
  discipline id hid :=
    (h'.discipline id (Nat.lt_of_lt_of_le hid h.size_le)).trans (h.discipline id hid)
  phase id hid := (h'.phase id (Nat.lt_of_lt_of_le hid h.size_le)).trans (h.phase id hid)
  active id hid := (h'.active id (Nat.lt_of_lt_of_le hid h.size_le)).trans (h.active id hid)
  fresh id hid hle := by
    by_cases hmid : id < s'.scopes.size
    · rw [h'.phase id hmid, h'.active id hmid]
      exact h.fresh id hmid hle
    · exact h'.fresh id hid (Nat.le_of_not_lt hmid)
  holds := h'.holds.trans h.holds
  guards := h'.guards.trans h.guards
  kept id hid := by
    rcases h'.kept id hid with hkept | hlast
    · refine (h.kept id hkept).imp_right fun hlast => ?_
      exact hlast.congr (h'.discipline id hlast.lt_size) (h'.phase id hlast.lt_size)
    · exact .inr hlast

theorem calm_beside (h : Beside s s') : Calm s s' := by
  obtain ⟨_, _, _, _, rfl⟩ := h
  exact .of_scopes rfl rfl rfl (fun _ hx => .inl hx) fun _ ha => .inl ha

theorem calm_store (s : State) (memory : Memory) (arrays : Array HeapArray) :
    Calm s { s with memory, arrays } :=
  .of_scopes rfl rfl rfl (fun _ hx => .inl hx) fun _ ha => .inl ha

theorem calm_record (s : State) (id : ScopeId) (deed : Deed) : Calm s (s.record id deed) :=
  .of_scopes rfl rfl rfl (fun _ hx => .inl hx) fun _ ha => .inl ha

theorem keptSegments_newScope (s : State) (d : Discipline) {x : Segment}
    (hx : x ∈ (s.newScope d).2.keptSegments) : x ∈ s.keptSegments := by
  rw [mem_keptSegments] at hx ⊢
  refine hx.imp_right (Or.imp_right (Or.imp_right (Or.imp_right ?_)))
  rintro ⟨id, cleanup, hc, hx⟩
  by_cases hid : id = s.scopes.size
  · have hscope : (s.newScope d).2.scope id = { discipline := d } := hid ▸ scope_push_self s _
    rw [hscope] at hc
    cases hc
  · exact ⟨id, cleanup, (untouched_newScope s d hid).cleanups ▸ hc, hx⟩

theorem calm_newScope (s : State) (d : Discipline) : Calm s (s.newScope d).2 := by
  have hsize : (s.newScope d).2.scopes.size = s.scopes.size + 1 := Array.size_push _
  have hscope : ∀ id < s.scopes.size, (s.newScope d).2.scope id = s.scope id :=
    fun id hid => scope_push_other s _ (Nat.ne_of_lt hid)
  refine ⟨by omega, fun id hid => by rw [hscope id hid], fun id hid => by rw [hscope id hid],
    fun id hid => by rw [hscope id hid], fun id hid hle => ?_, rfl, rfl,
    kept_of_new (fun _ hx => .inl (keptSegments_newScope s d hx)) fun _ ha => .inl ha⟩
  obtain rfl : id = s.scopes.size := by omega
  have hself : (s.newScope d).2.scope s.scopes.size = { discipline := d } := scope_push_self s _
  rw [hself]
  exact ⟨rfl, rfl⟩

/-- One scope gains or loses resources, and that is written down. New cleanups keep what is kept
anyway. -/
theorem calm_note {f : Scope → Scope} {deed : Deed}
    (discipline : ∀ scope, (f scope).discipline = scope.discipline)
    (phase : ∀ scope, (f scope).phase = scope.phase)
    (active : ∀ scope, (f scope).active = scope.active)
    (cleanups : ∀ scope, ∀ cleanup ∈ (f scope).cleanups, cleanup ∈ scope.cleanups ∨
      ∀ x ∈ cleanup.script.segments, x ∈ s.keptSegments) :
    Calm s ((s.modifyScope id f).record id deed) := by
  refine .of_modify discipline phase active rfl rfl rfl (fun x hx => .inl ?_) fun _ ha => .inl ha
  rcases mem_keptSegments.mp hx with h | h | ⟨carver, h, rfl⟩ | ⟨_, _, hm, h⟩ |
    ⟨other, cleanup, hc, hx⟩
  · exact kept_of_outgoing h
  · exact kept_of_segment h
  · exact kept_of_carver h
  · exact kept_of_mapping hm h
  · have hkept : cleanup ∈ (s.scope other).cleanups ∨
        ∀ x ∈ cleanup.script.segments, x ∈ s.keptSegments := by
      change cleanup ∈ ((s.modifyScope id f).scope other).cleanups at hc
      by_cases heq : other = id
      · by_cases hid : id < s.scopes.size
        · rw [heq, scope_modifyScope_self f hid] at hc
          exact heq ▸ cleanups _ cleanup hc
        · rw [modifyScope_of_size_le f (Nat.le_of_not_lt hid)] at hc
          exact .inl hc
      · rw [scope_modifyScope_other f heq] at hc
        exact .inl hc
    rcases hkept with hkept | hkept
    · exact kept_of_cleanup hkept hx
    · exact hkept x hx

/-- **Growing is calm.** -/
theorem Grows.calm (h : Grows s s') : Calm s s' := by
  induction h with
  | refl => exact .of_scopes rfl rfl rfl (fun _ hx => .inl hx) fun _ ha => .inl ha
  | beside _ hb ih => exact ih.trans (calm_beside hb)
  | store memory arrays _ ih => exact ih.trans (calm_store _ memory arrays)
  | newScope d _ ih => exact ih.trans (calm_newScope _ d)
  | attach _ _ _ _ ih =>
    exact ih.trans (calm_note (fun _ => rfl) (fun _ => rfl) (fun _ => rfl) fun _ _ hc => .inl hc)
  | register _ _ _ kept ih =>
    refine ih.trans (calm_note (fun _ => rfl) (fun _ => rfl) (fun _ => rfl) fun scope c hc => ?_)
    rcases List.mem_append.mp hc with hold | hnew
    · exact .inl hold
    · rw [List.mem_singleton] at hnew
      subst hnew
      exact .inr kept

/-- Other segments stay for a while. -/
theorem calm_outgoing {outgoing : List Segment}
    (kept : ∀ x ∈ outgoing, x ∈ s.keptSegments ∨ s.Lasting x.scope) :
    Calm s { s with outgoing } := by
  refine .of_scopes rfl rfl rfl (fun x hx => ?_) fun _ ha => .inl ha
  rcases mem_keptSegments.mp hx with h | h
  · exact kept x h
  · exact .inl (mem_keptSegments.mpr (.inr h))

end

end State

end ScopedMemory
