import Mathlib.Algebra.BigOperators.Group.Finset.Basic
import Mathlib.Algebra.Order.BigOperators.Group.Finset
import ScopedMemory.Proofs.SharedTurns

/-! No access outlives the drain of a shared scope.

The counter is the census of all threads: each counts as often as it is inside, and once more while
it announces itself, backs out or leaves (`Counted`). A closing thread that reads zero has therefore
read that nobody is inside, and since the scope is no longer alive nobody comes in any more
(`Vacated`): threads that announce themselves later look, and back out. `drain_vacates` says so for
every schedule of any number of threads. -/
namespace ScopedMemory.SharedClose

namespace Place

/-- Counted besides the accesses that the thread is inside of. -/
def extra : Place → Nat
  | .announced | .refused | .leaving => 1
  | _ => 0

/-- The thread's close has gone through and is not over. -/
def closes : Place → Bool
  | .draining | .drained | .committing | .taking | .releasing _ _ => true
  | _ => false

/-- The closing thread has seen that nobody is counted. -/
def emptied : Place → Bool
  | .drained | .committing | .taking | .releasing _ _ => true
  | _ => false

end Place

namespace Protocol

/-! ### The census -/

/-- How often the thread is counted. -/
def weight (p : Protocol) (t : Thread) : Nat := p.depth t + (p.place t).extra

/-- The counter is the census: finitely many threads are counted, and it is their sum. -/
def Counted (p : Protocol) : Prop :=
  ∃ threads : Finset Thread, (∀ u, u ∉ threads → p.weight u = 0) ∧
    p.active = ∑ u ∈ threads, p.weight u

/-- The census follows when one thread's weight and the counter move together. -/
theorem Counted.follow {p q : Protocol} (h : Counted p) (t : Thread)
    (others : ∀ u, u ≠ t → q.weight u = p.weight u)
    (balance : q.active + p.weight t = p.active + q.weight t) : Counted q := by
  obtain ⟨threads, outside, total⟩ := h
  refine ⟨insert t threads, fun u hu => ?_, ?_⟩
  · rw [Finset.mem_insert, not_or] at hu
    rw [others u hu.1]
    exact outside u hu.2
  · have hp : p.active = ∑ u ∈ insert t threads, p.weight u := by
      rw [total]
      by_cases ht : t ∈ threads
      · rw [Finset.insert_eq_of_mem ht]
      · rw [Finset.sum_insert ht, outside t ht, Nat.zero_add]
    have hm : t ∈ insert t threads := Finset.mem_insert_self t threads
    have hrest : ∑ u ∈ (insert t threads).erase t, q.weight u =
        ∑ u ∈ (insert t threads).erase t, p.weight u :=
      Finset.sum_congr rfl fun u hu => others u (Finset.ne_of_mem_erase hu)
    rw [← Finset.add_sum_erase _ _ hm] at hp ⊢
    omega

theorem Counted.weight_le {p : Protocol} (h : Counted p) (t : Thread) : p.weight t ≤ p.active := by
  obtain ⟨threads, outside, total⟩ := h
  by_cases ht : t ∈ threads
  · rw [total]
    exact Finset.single_le_sum (fun _ _ => Nat.zero_le _) ht
  · rw [outside t ht]
    exact Nat.zero_le _

/-- A move changes the counter by what it changes the weight of its thread. Counting out never
meets a counter of zero, because the thread itself is counted. -/
theorem Move.balance {p q : Protocol} {t : Thread} (h : Move p t q) (hc : Counted p) :
    q.active + p.weight t = p.active + q.weight t := by
  have hle := hc.weight_le t
  cases h
  case backOut here | leave here =>
    unfold weight at hle ⊢
    rw [here] at hle ⊢
    rw [goto_place_self]
    simp only [goto, Place.extra] at hle ⊢
    omega
  case letGo here inside =>
    unfold weight
    rw [here, goto_place_self]
    simp only [goto, setDepth, Place.extra, if_true]
    omega
  case announce here =>
    unfold weight
    rw [here, goto_place_self]
    simp only [goto, Place.extra]
    omega
  case enter here alive =>
    unfold weight
    rw [here, goto_place_self]
    simp only [goto, setDepth, Place.extra, if_true]
  case stay => rfl
  -- The other moves leave the thread counted as it was.
  all_goals
    unfold weight
    rw [goto_place_self]
    simp_all only [goto, Place.extra]

theorem Counted.move {p q : Protocol} {t : Thread} (h : Move p t q) (hc : Counted p) :
    Counted q := by
  refine hc.follow t (fun u hu => ?_) (h.balance hc)
  rw [weight, weight, h.place_other hu, h.depth_other hu]

/-! ### Closing once -/

/-- While a close is under way the scope is not alive. -/
def ClosingIsSeen (p : Protocol) : Prop :=
  ∀ t, (p.place t).closes = true → p.phase ≠ .alive

theorem ClosingIsSeen.move {p q : Protocol} {t : Thread} (h : Move p t q) (hs : ClosingIsSeen p) :
    ClosingIsSeen q := by
  intro u hu
  by_cases hc : (p.place u).closes = true
  · exact h.phase (hs u hc)
  · have ht : u = t := by
      by_contra hne
      rw [h.place_other hne] at hu
      exact hc hu
    subst ht
    cases h
    -- The one way into a close moves the scope on itself.
    case shut => simp [goto]
    case stay => exact absurd hu hc
    all_goals simp_all [Place.closes]

/-- The scope is alive until a close goes through, and then one has. -/
def ClosedOnce (p : Protocol) : Prop :=
  p.closers.length = if p.phase = .alive then 0 else 1

theorem ClosedOnce.unclosed {p : Protocol} (ho : ClosedOnce p) (alive : p.phase = .alive) :
    p.closers = [] := by
  rw [ClosedOnce, if_pos alive] at ho
  exact List.eq_nil_of_length_eq_zero ho

theorem ClosedOnce.move {p q : Protocol} {t : Thread} (h : Move p t q) (hs : ClosingIsSeen p)
    (ho : ClosedOnce p) : ClosedOnce q := by
  unfold ClosedOnce at ho ⊢
  cases h
  case shut here alive =>
    rw [if_pos alive] at ho
    simpa [goto] using ho
  case commit here =>
    -- The thread that marks the scope closed has moved it on before.
    have ended : p.phase ≠ .alive := hs t (by rw [here]; rfl)
    rw [if_neg ended] at ho
    simpa [goto] using ho
  all_goals exact ho

/-! ### After the drain -/

/-- Nobody is inside, nobody is on the way out, and nobody comes in: the scope is not alive. -/
structure Vacated (p : Protocol) : Prop where
  phase : p.phase ≠ .alive
  outside : ∀ u, p.depth u = 0
  left : ∀ u, p.place u ≠ .leaving

theorem Vacated.move {p q : Protocol} {t : Thread} (h : Move p t q) (hv : Vacated p) :
    Vacated q := by
  have hself : q.depth t = 0 ∧ q.place t ≠ .leaving := by
    have hd := hv.outside t
    cases h
    case letGo here inside => exact absurd hd inside
    case enter here alive => exact absurd alive hv.phase
    case stay => exact ⟨hd, hv.left t⟩
    all_goals exact ⟨hd, by simp⟩
  refine ⟨h.phase hv.phase, fun u => ?_, fun u => ?_⟩
  · by_cases hu : u = t
    · rw [hu]
      exact hself.1
    · rw [h.depth_other hu]
      exact hv.outside u
  · by_cases hu : u = t
    · rw [hu]
      exact hself.2
    · rw [h.place_other hu]
      exact hv.left u

/-- A closing thread that reads zero has read that nobody is inside. -/
theorem Counted.vacated {p : Protocol} (hc : Counted p) (hs : ClosingIsSeen p) {t : Thread}
    (here : p.place t = .draining) (empty : p.active = 0) : Vacated p := by
  have hweight : ∀ u, p.depth u + (p.place u).extra = 0 := fun u =>
    Nat.le_zero.mp (empty ▸ hc.weight_le u)
  refine ⟨hs t (by rw [here]; rfl), fun u => ?_, fun u hu => ?_⟩
  · have := hweight u
    omega
  · have := hweight u
    rw [hu] at this
    exact absurd this (Nat.succ_ne_zero _)

/-- What holds along every schedule. -/
structure Drains (p : Protocol) : Prop where
  counted : Counted p
  once : ClosedOnce p
  seen : ClosingIsSeen p
  vacated : ∀ t, (p.place t).emptied = true → Vacated p

theorem drains_initial : Drains {} where
  counted := ⟨∅, fun _ _ => rfl, rfl⟩
  once := rfl
  seen := fun _ h => by cases h
  vacated := fun _ h => by cases h

theorem Drains.move {p q : Protocol} {t : Thread} (h : Move p t q) (hd : Drains p) : Drains q := by
  refine ⟨hd.counted.move h, hd.once.move h hd.seen, hd.seen.move h, fun u hu => ?_⟩
  by_cases he : (p.place u).emptied = true
  · exact (hd.vacated u he).move h
  · have ht : u = t := by
      by_contra hne
      rw [h.place_other hne] at hu
      exact he hu
    subst ht
    -- The one way to such a place is to wait and read zero.
    have hread : p.place u = .draining ∧ p.active = 0 := by
      cases h
      case drain here empty => exact ⟨here, empty⟩
      case stay => exact absurd hu he
      all_goals simp_all [Place.emptied]
    exact (hd.counted.vacated hd.seen hread.1 hread.2).move h

theorem drains_after (turns : List Turn) : Drains (after turns) :=
  run_keeps Drains.move drains_initial turns

theorem Vacated.run {p : Protocol} (h : Vacated p) (turns : List Turn) : Vacated (p.run turns) :=
  run_keeps Vacated.move h turns

/-- Cleanups run and blocks are freed by a thread that has seen nobody counted. -/
theorem Move.emptied {p q : Protocol} {t : Thread} (h : Move p t q)
    (released : q.ran ≠ p.ran ∨ q.freed ≠ p.freed) : (p.place t).emptied = true := by
  cases h
  case runCleanup here => rw [here]; rfl
  case freeBlock here => rw [here]; rfl
  all_goals simp [goto, setDepth] at released

/-- **No access outlives the drain.** In every schedule at most one close goes through. Once it has
read a counter of zero no thread is inside of the scope or on its way out, and none ever comes in,
so none is there while cleanups run and blocks are freed. -/
theorem drain_vacates (turns : List Turn) :
    (after turns).closers.length ≤ 1 ∧
    (∀ t, (after turns).place t = .draining → (after turns).active = 0 →
      ∀ later, Vacated ((after turns).run later)) ∧
    (∀ turn, ((after turns).turn turn).ran ≠ (after turns).ran ∨
        ((after turns).turn turn).freed ≠ (after turns).freed →
      ∀ later, Vacated ((after turns).run later)) := by
  have hd := drains_after turns
  refine ⟨?_, fun t here empty later => ?_, fun turn released later => ?_⟩
  · have honce := hd.once
    unfold ClosedOnce at honce
    split at honce <;> omega
  · exact (hd.counted.vacated hd.seen here empty).run later
  · exact (hd.vacated _ ((turn_move _ turn).emptied released)).run later

/-- One thread is inside, another closes, a third announces itself too late. -/
def contendedDrain : List Turn :=
  [.begin 1 .enter, .proceed 1, .begin 2 .close, .proceed 2, .begin 3 .enter, .proceed 2,
    .begin 1 .leave, .proceed 3, .proceed 1, .proceed 3]

theorem drain_vacates_contended :
    (after contendedDrain).place 2 = .draining ∧ (after contendedDrain).active = 0 ∧
      ∀ later, Vacated ((after contendedDrain).run later) :=
  ⟨by decide, by decide, (drain_vacates contendedDrain).2.1 2 (by decide) (by decide)⟩

end Protocol

end ScopedMemory.SharedClose
