import Mathlib.Data.List.Nodup
import ScopedMemory.Guard

/-! What threads remember of their accesses.

Entering and leaving change the hold of one thread on one scope and nothing else. A list of holds
stays in order meanwhile (`Proper`), and leaving undoes entering (`leave_enter`). -/
namespace ScopedMemory

namespace Hold

/-- Whose hold it is, and on what. -/
def key (h : Hold) : Thread × ScopeId := (h.thread, h.scope)

/-- How deep all threads together are inside of the scope. -/
def total (id : ScopeId) : List Hold → Nat
  | [] => 0
  | h :: rest => (if h.scope = id then h.depth else 0) + total id rest

/-- A thread has one hold on a scope at most, and none of no depth. -/
structure Proper (holds : List Hold) : Prop where
  single : (holds.map key).Nodup
  positive : ∀ h ∈ holds, 0 < h.depth

section
variable {t u : Thread} {id other : ScopeId} {holds : List Hold}

theorem key_eq {h : Hold} : h.key = (t, id) ↔ h.thread = t ∧ h.scope = id :=
  Prod.mk.injEq _ _ _ _ ▸ Iff.rfl

theorem depthOf_eq_zero (h : (t, id) ∉ holds.map key) : depthOf t id holds = 0 := by
  induction holds with
  | nil => rfl
  | cons first rest ih =>
    rw [List.map_cons, List.mem_cons, not_or] at h
    rw [depthOf, if_neg fun hkey => h.1 (key_eq.mpr hkey).symm]
    exact ih h.2

theorem total_eq_zero (positive : ∀ h ∈ holds, 0 < h.depth)
    (outside : ∀ t, depthOf t id holds = 0) : total id holds = 0 := by
  induction holds with
  | nil => rfl
  | cons first rest ih =>
    have hfirst := positive first List.mem_cons_self
    have hne : first.scope ≠ id := by
      intro heq
      have hdepth := outside first.thread
      rw [depthOf, if_pos ⟨rfl, heq⟩] at hdepth
      omega
    rw [total, if_neg hne, Nat.zero_add]
    refine ih (fun h hh => positive h (List.mem_cons_of_mem _ hh)) fun t => ?_
    have hdepth := outside t
    rwa [depthOf, if_neg fun hkey => hne hkey.2] at hdepth

/-! ### One access more -/

theorem depthOf_enter_self : depthOf t id (enter t id holds) = depthOf t id holds + 1 := by
  induction holds with
  | nil => simp [enter, depthOf]
  | cons first rest ih =>
    by_cases hkey : first.thread = t ∧ first.scope = id
    · simp [enter, depthOf, hkey]
    · simp [enter, depthOf, hkey, ih]

theorem depthOf_enter_other (h : ¬ (u = t ∧ other = id)) :
    depthOf u other (enter t id holds) = depthOf u other holds := by
  induction holds with
  | nil =>
    have hne : ¬ (t = u ∧ id = other) := fun heq => h ⟨heq.1.symm, heq.2.symm⟩
    simp [enter, depthOf, hne]
  | cons first rest ih =>
    by_cases hkey : first.thread = t ∧ first.scope = id
    · have hne : ¬ (t = u ∧ id = other) := fun heq => h ⟨heq.1.symm, heq.2.symm⟩
      simp [enter, depthOf, hkey, hne]
    · simp [enter, depthOf, hkey, ih]

theorem total_enter_self : total id (enter t id holds) = total id holds + 1 := by
  induction holds with
  | nil => simp [enter, total]
  | cons first rest ih =>
    by_cases hkey : first.thread = t ∧ first.scope = id
    · simp only [enter, if_pos hkey, total, if_pos hkey.2]
      omega
    · simp only [enter, if_neg hkey, total, ih]
      omega

theorem total_enter_other (h : other ≠ id) : total other (enter t id holds) = total other holds := by
  induction holds with
  | nil => simp [enter, total, h.symm]
  | cons first rest ih =>
    by_cases hkey : first.thread = t ∧ first.scope = id
    · simp [enter, total, hkey, h.symm]
    · simp [enter, total, hkey, ih]

theorem keys_enter : (enter t id holds).map key =
    if (t, id) ∈ holds.map key then holds.map key else holds.map key ++ [(t, id)] := by
  induction holds with
  | nil => simp [enter, key]
  | cons first rest ih =>
    by_cases hkey : first.thread = t ∧ first.scope = id
    · simp [enter, hkey, key]
    · have hne : (t, id) ≠ first.key := fun heq => hkey (key_eq.mp heq.symm)
      rw [enter, if_neg hkey, List.map_cons, ih, List.map_cons]
      simp only [List.mem_cons, hne, false_or]
      split <;> rfl

theorem Proper.enter (h : Proper holds) (t : Thread) (id : ScopeId) : Proper (enter t id holds) where
  single := by
    rw [keys_enter]
    split
    · exact h.single
    · exact h.single.append (List.nodup_singleton _) (by simpa using ‹(t, id) ∉ holds.map key›)
  positive := by
    have hpositive := h.positive
    clear h
    induction holds with
    | nil => simp [Hold.enter]
    | cons first rest ih =>
      intro hold hmem
      rw [Hold.enter] at hmem
      split at hmem
      · rcases List.mem_cons.mp hmem with rfl | hmem
        · exact Nat.succ_pos _
        · exact hpositive hold (List.mem_cons_of_mem _ hmem)
      · rcases List.mem_cons.mp hmem with rfl | hmem
        · exact hpositive hold List.mem_cons_self
        · exact ih (fun h hh => hpositive h (List.mem_cons_of_mem _ hh)) hold hmem

/-! ### One access less -/

theorem depthOf_leave_self (single : (holds.map key).Nodup) :
    depthOf t id (leave t id holds) = depthOf t id holds - 1 := by
  induction holds with
  | nil => rfl
  | cons first rest ih =>
    rw [List.map_cons, List.nodup_cons] at single
    by_cases hkey : first.thread = t ∧ first.scope = id
    · rw [leave, if_pos hkey, depthOf, if_pos hkey]
      split
      · have hgone : (t, id) ∉ rest.map key := key_eq.mpr hkey ▸ single.1
        rw [depthOf_eq_zero hgone]
        omega
      · rw [depthOf, if_pos hkey]
    · rw [leave, if_neg hkey, depthOf, if_neg hkey, depthOf, if_neg hkey]
      exact ih single.2

theorem depthOf_leave_other (h : ¬ (u = t ∧ other = id)) :
    depthOf u other (leave t id holds) = depthOf u other holds := by
  induction holds with
  | nil => rfl
  | cons first rest ih =>
    by_cases hkey : first.thread = t ∧ first.scope = id
    · have hne : ¬ (first.thread = u ∧ first.scope = other) :=
        fun heq => h ⟨heq.1.symm.trans hkey.1, heq.2.symm.trans hkey.2⟩
      rw [leave, if_pos hkey, depthOf, if_neg hne]
      split
      · rfl
      · rw [depthOf, if_neg hne]
    · rw [leave, if_neg hkey, depthOf, depthOf, ih]

theorem total_leave_self (inside : 0 < depthOf t id holds) :
    total id (leave t id holds) + 1 = total id holds := by
  induction holds with
  | nil => cases inside
  | cons first rest ih =>
    by_cases hkey : first.thread = t ∧ first.scope = id
    · rw [depthOf, if_pos hkey] at inside
      rw [leave, if_pos hkey, total, if_pos hkey.2]
      split
      · omega
      · rw [total, if_pos hkey.2]
        show first.depth - 1 + total id rest + 1 = first.depth + total id rest
        omega
    · rw [depthOf, if_neg hkey] at inside
      rw [leave, if_neg hkey, total, total, Nat.add_assoc, ih inside]

theorem total_leave_other (h : other ≠ id) : total other (leave t id holds) = total other holds := by
  induction holds with
  | nil => rfl
  | cons first rest ih =>
    by_cases hkey : first.thread = t ∧ first.scope = id
    · have hne : first.scope ≠ other := fun heq => h (heq.symm.trans hkey.2)
      rw [leave, if_pos hkey, total, if_neg hne, Nat.zero_add]
      split
      · rfl
      · rw [total, if_neg hne, Nat.zero_add]
    · rw [leave, if_neg hkey, total, total, ih]

theorem keys_leave : ((leave t id holds).map key).Sublist (holds.map key) := by
  induction holds with
  | nil => exact List.Sublist.refl _
  | cons first rest ih =>
    rw [leave]
    split
    · split
      · exact List.sublist_cons_self _ _
      · exact List.Sublist.refl _
    · exact ih.cons_cons _

theorem Proper.leave (h : Proper holds) (t : Thread) (id : ScopeId) : Proper (leave t id holds) where
  single := h.single.sublist keys_leave
  positive := by
    have hpositive := h.positive
    clear h
    induction holds with
    | nil => exact hpositive
    | cons first rest ih =>
      have hrest : ∀ h ∈ rest, 0 < h.depth := fun h hh => hpositive h (List.mem_cons_of_mem _ hh)
      intro hold hmem
      rw [Hold.leave] at hmem
      split at hmem
      · split at hmem
        · exact hrest hold hmem
        · rcases List.mem_cons.mp hmem with rfl | hmem
          · show 0 < first.depth - 1
            omega
          · exact hrest hold hmem
      · rcases List.mem_cons.mp hmem with rfl | hmem
        · exact hpositive hold List.mem_cons_self
        · exact ih hrest hold hmem

/-- **Leaving undoes entering.** -/
theorem leave_enter (positive : ∀ h ∈ holds, 0 < h.depth) : leave t id (enter t id holds) = holds := by
  induction holds with
  | nil => simp [enter, leave]
  | cons first rest ih =>
    have hfirst := positive first List.mem_cons_self
    by_cases hkey : first.thread = t ∧ first.scope = id
    · rw [enter, if_pos hkey, leave, if_pos hkey, if_neg (by simp only; omega)]
      rfl
    · rw [enter, if_neg hkey, leave, if_neg hkey,
        ih fun h hh => positive h (List.mem_cons_of_mem _ hh)]

theorem any_iff (positive : ∀ h ∈ holds, 0 < h.depth) :
    (holds.any fun h => h.thread == t && h.scope == id) = true ↔ 0 < depthOf t id holds := by
  induction holds with
  | nil => simp [depthOf]
  | cons first rest ih =>
    have hfirst := positive first List.mem_cons_self
    by_cases hkey : first.thread = t ∧ first.scope = id
    · simp [depthOf, hkey, hfirst]
    · have hnot : (first.thread == t && first.scope == id) = false := by simpa using hkey
      rw [List.any_cons, hnot, Bool.false_or, depthOf, if_neg hkey]
      exact ih fun h hh => positive h (List.mem_cons_of_mem _ hh)

end

end Hold

end ScopedMemory
