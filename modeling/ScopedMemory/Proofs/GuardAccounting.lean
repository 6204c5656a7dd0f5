import ScopedMemory.Proofs.Draining
import ScopedMemory.Proofs.Watching

/-! Guards are accounted for.

Wherever a run gets, each thread's holds and each scope's counter are what the accesses under way
come to (`Accounts`), and when an operation is over, however it ended, they are what they were
before. So a thread finds a scope in use exactly if it is inside of it. Between the single turns of
threads that share a scope the counter is the sum of their depths, unless one is just coming or
going. -/
namespace ScopedMemory

namespace State
variable {origin s s' : State} {nested other : Nested} {t : Thread} {id : ScopeId}

/-! ### Counters are restored -/

/-- Counters follow from the holds. -/
theorem Goes.active (h : Goes s s') (ha : Accounts s) (hid : id < s.scopes.size) :
    (s'.scope id).active = (s.scope id).active := by
  rw [(h.path.accounts ha).active, ha.active, h.holds, h.path.forward.discipline id hid]

/-! ### Scopes in use -/

/-- A thread is inside of a closeable scope if one of the accesses under way is its own. -/
theorem Accounts.holdsScope_iff (ha : Accounts s)
    (closeable : (s.scope id).discipline.kind.closeable = true) :
    s.holdsScope t id = true ↔ ⟨t, id⟩ ∈ s.guards := by
  rw [holdsScope, Hold.any_iff ha.proper.positive, ha.depth, if_pos closeable]
  exact List.count_pos_iff

/-- Being inside is all that stands in the way of a close by a thread that may. -/
theorem checkClose_eq (alive : s.isAlive id = true)
    (closeable : (s.scope id).discipline.kind.closeable = true)
    (permitted : (s.scope id).discipline.accessibleBy t = true) :
    s.checkClose t id = if s.holdsScope t id then .error .scopeInUse else .ok () := by
  have halive : s.checkAlive id = .ok () := if_pos alive
  have howner : s.checkOwner t id = .ok () := if_pos permitted
  unfold checkClose
  split
  · rw [halive, howner]
    cases s.holdsScope t id with
    | false => rfl
    | true => rfl
  · rw [halive]
    cases s.holdsScope t id with
    | false => rfl
    | true => rfl
  · rename_i hconfined hshared
    cases hd : (s.scope id).discipline with
    | confined owner => exact absurd hd (hconfined owner)
    | shared => exact absurd hd hshared
    | auto =>
      rw [hd] at closeable
      cases closeable
    | «global» =>
      rw [hd] at closeable
      cases closeable

/-- The arena is in use. -/
def inUse : Except Fault Unit := .error (.arena (.access .scopeInUse))

/-- **A close finds the scope in use** exactly if the thread is inside of it. -/
theorem closeArena_inUse (ha : Accounts s) {arena : Arena} (alive : s.isAlive arena.scope = true)
    (closeable : (s.scope arena.scope).discipline.kind.closeable = true)
    (permitted : (s.scope arena.scope).discipline.accessibleBy t = true) :
    (⟨t, arena.scope⟩ ∈ s.guards → s.closeArena nested t arena = (inUse, s)) ∧
    ((s.closeArena nested t arena).1 = inUse → ⟨t, arena.scope⟩ ∈ s.guards) := by
  have hcheck := checkClose_eq alive closeable permitted
  rw [← ha.holdsScope_iff closeable]
  unfold closeArena closeScope
  rw [if_pos closeable, hcheck]
  cases s.holdsScope t arena.scope with
  | true => exact ⟨fun _ => rfl, fun _ => rfl⟩
  | false =>
    refine ⟨fun h => (Bool.false_ne_true h).elim, fun hclosed => ?_⟩
    dsimp only [if_neg Bool.false_ne_true] at hclosed
    generalize State.finish nested t arena.scope (some t) _ = r at hclosed
    obtain ⟨_ | text, s'⟩ := r
    · cases hclosed
    · cases hclosed

end State

/-! ### Single turns -/

namespace SharedClose.Protocol

/-- No thread is just coming or going. -/
def Settled (p : Protocol) : Prop :=
  ∀ t, p.place t ≠ .announced ∧ p.place t ≠ .refused ∧ p.place t ≠ .leaving

theorem Settled.weight {p : Protocol} (h : Settled p) (t : Thread) : p.weight t = p.depth t := by
  obtain ⟨hannounced, hrefused, hleaving⟩ := h t
  unfold Protocol.weight
  cases hplace : p.place t with
  | announced => exact absurd hplace hannounced
  | refused => exact absurd hplace hrefused
  | leaving => exact absurd hplace hleaving
  | _ => rfl

/-- Then the counter is the sum of all depths. -/
theorem Settled.active {p : Protocol} (h : Settled p) (hc : Counted p) :
    ∃ threads : Finset Thread, (∀ u, u ∉ threads → p.depth u = 0) ∧
      p.active = ∑ u ∈ threads, p.depth u := by
  obtain ⟨threads, outside, total⟩ := hc
  refine ⟨threads, fun u hu => (h.weight u).symm.trans (outside u hu), ?_⟩
  rw [total]
  exact Finset.sum_congr rfl fun u _ => h.weight u

end SharedClose.Protocol

open SharedClose in
/-- An idle thread finds the scope in use exactly if it is inside, and then nothing changes. -/
theorem Drain.beginClose_inUse {p : Protocol} {t : Thread} (here : p.place t = .idle) :
    (p.depth t ≠ 0 → Drain.beginClose p t = (.error .scopeInUse, p)) ∧
    ((Drain.beginClose p t).1 = .error .scopeInUse → p.depth t ≠ 0) := by
  refine ⟨Drain.beginClose_inside here, fun hclosed outside => ?_⟩
  rw [Drain.beginClose_outside here outside] at hclosed
  split at hclosed
  · cases hclosed
  · cases hclosed

/-! ### Guard accounting -/

namespace State

/-- **Guards are accounted for** in every state that a run passes, inside of callbacks and accesses
too. Operations leave holds and counters as they were, and a close finds its scope in use exactly if
the thread is inside. Where threads share a scope, its counter is the sum of their depths. -/
theorem guards_accounted (system : System) :
    (∀ limit steps, Reached (initial system) (after system limit steps)) ∧
    (∀ watch : Watch, (∀ s, Reached (initial system) s → Accounts s → watch.passes s = true) →
      (∀ limit steps, watch.run limit (initial system) steps = (initial system).run limit steps) ∧
      ∀ s, Reached (initial system) s → ∀ (α : Type) (t : Thread) (v : Visit α),
        (∀ gate ∈ v.gates, gate.scope < s.scopes.size) → watch.visit t v s = v.unentered t s) ∧
    (∀ s, Reached (initial system) s → Accounts s ∧
      (∀ (t : Thread) (limit : Nat) (operation : Operation),
        (operation.perform (work t limit) t s).2.holds = s.holds ∧
        (operation.perform (work t limit) t s).2.guards = s.guards ∧
        ∀ id < s.scopes.size,
          ((operation.perform (work t limit) t s).2.scope id).active = (s.scope id).active) ∧
      ∀ (nested : Nested) (t : Thread) (arena : Arena), s.isAlive arena.scope = true →
        (s.scope arena.scope).discipline.kind.closeable = true →
        (s.scope arena.scope).discipline.accessibleBy t = true →
        (⟨t, arena.scope⟩ ∈ s.guards → s.closeArena nested t arena = (inUse, s)) ∧
        ((s.closeArena nested t arena).1 = inUse → ⟨t, arena.scope⟩ ∈ s.guards)) ∧
    ∀ turns : List SharedClose.Turn,
      ((SharedClose.Protocol.after turns).Settled → ∃ threads : Finset Thread,
        (∀ u, u ∉ threads → (SharedClose.Protocol.after turns).depth u = 0) ∧
        (SharedClose.Protocol.after turns).active =
          ∑ u ∈ threads, (SharedClose.Protocol.after turns).depth u) ∧
      ∀ t, (SharedClose.Protocol.after turns).place t = .idle →
        ((SharedClose.Protocol.after turns).depth t ≠ 0 →
          Drain.beginClose (SharedClose.Protocol.after turns) t =
            (.error .scopeInUse, SharedClose.Protocol.after turns)) ∧
        ((Drain.beginClose (SharedClose.Protocol.after turns) t).1 = .error .scopeInUse →
          (SharedClose.Protocol.after turns).depth t ≠ 0) := by
  have haccounts : ∀ {s}, Reached (initial system) s → Accounts s := fun hr =>
    hr.path.accounts (initial_accounts system)
  have hwatched : ∀ watch : Watch,
      (∀ s, Reached (initial system) s → Accounts s → watch.passes s = true) →
      Watched (initial system) watch := fun watch hpasses =>
    ⟨initial_keptLast system, initial_accounts system, fun hr => hpasses _ hr (haccounts hr)⟩
  refine ⟨after_reached system, fun watch hpasses => ⟨fun limit steps => ?_,
      fun s hr α t v known => visit_eq (hwatched watch hpasses) known hr⟩,
    fun s hr => ⟨haccounts hr, fun t limit operation => ?_,
      fun nested t arena alive closeable permitted =>
        closeArena_inUse (haccounts hr) alive closeable permitted⟩,
    fun turns => ⟨fun settled => ?_, fun t here => Drain.beginClose_inUse here⟩⟩
  · exact (run_watched (hwatched watch hpasses) (initial_reached system) limit steps).2
  · have hc := work_company (hwatched .blind fun _ _ _ => rfl) t limit
    have hgoes := (operation.perform_goes hc hr).1
    exact ⟨hgoes.holds, hgoes.guards, fun id hid => hgoes.active (haccounts hr) hid⟩
  · exact settled.active (SharedClose.Protocol.drains_after turns).counted

/-- One thread is inside of a shared scope twice. -/
def twiceInside : State :=
  ((after .bump 1 [some ⟨1, .openArena "a" .shared none⟩]).hold 1 1).hold 1 1

/-- The counter says so, the thread itself cannot close the scope, and a copy inside of it comes and
goes. -/
theorem guards_accounted_twice :
    Accounts twiceInside ∧ (twiceInside.scope 1).active = 2 ∧
    twiceInside.closeArena (work 1 1) 1 ⟨0, 1, {}, false⟩ = (inUse, twiceInside) ∧
    ∀ watch : Watch, (∀ s, Reached (initial .bump) s → Accounts s → watch.passes s = true) →
      watch.visit 1 (.copying ⟨8, 8, .native, false, 1⟩ 0 ⟨8, 8, .native, false, 1⟩ 4 4)
        twiceInside =
        (Visit.copying ⟨8, 8, .native, false, 1⟩ 0 ⟨8, 8, .native, false, 1⟩ 4 4).unentered 1
          twiceInside := by
  obtain ⟨hruns, hwatch, hstates, -⟩ := guards_accounted .bump
  have hr : Reached (initial .bump) twiceInside :=
    ((hruns 1 _).enter rfl (by decide)).enter rfl (by decide)
  obtain ⟨haccounts, -, hclose⟩ := hstates _ hr
  refine ⟨haccounts, rfl, (hclose _ _ _ rfl rfl rfl).1 List.mem_cons_self,
    fun watch hpasses => (hwatch watch hpasses).2 _ hr _ _ _ fun gate hgate => ?_⟩
  have hscope : gate.scope = 1 := by
    rcases List.mem_cons.mp hgate with rfl | hgate
    · rfl
    · rw [List.mem_singleton.mp hgate]
      rfl
  rw [hscope]
  decide

end State

end ScopedMemory
