import ScopedMemory.Proofs.Ownership
import ScopedMemory.Proofs.Elementwise

/-! What an access has to satisfy.

Before it touches memory an access passes five requirements, asked in a fixed order
(`Requirement.all`). Each is a condition in exact numbers: words that are added do not go round, and
an address is aligned if the alignment divides it. The check is these requirements, one after the
other (`State.check_eq_inTurn`), so it passes exactly if all are met, and complains about the first
that is not. -/
namespace ScopedMemory

/-- The width of the array's elements, if the segment is one over an array. -/
def Segment.elementSize? (x : Segment) : Option Nat :=
  match x.backing with
  | .heap array => some array.element.size
  | _ => none

/-- A thread that wants to access bytes. -/
structure Approach where
  thread : Thread
  segment : Segment
  offset : Word
  length : Word
  alignment : Alignment
  mode : AccessMode

inductive Requirement where
  | alive | owned | inside | aligned | writable
deriving DecidableEq, Repr

namespace Requirement

/-- The requirements in the order in which they are asked. -/
def all : List Requirement := [.alive, .owned, .inside, .aligned, .writable]

theorem mem_all (r : Requirement) : r ∈ all := by
  cases r <;> decide

def Met (s : State) (a : Approach) : Requirement → Prop
  | .alive => s.isAlive a.segment.scope = true
  | .owned => ∀ owner ∈ (s.scope a.segment.scope).discipline.owner?, owner = a.thread
  | .inside => a.offset.toNat + a.length.toNat ≤ a.segment.size.toNat
  | .aligned => (a.segment.address.toNat + a.offset.toNat) % a.alignment.bytes.toNat = 0 ∧
      ∀ size ∈ a.segment.elementSize?, a.alignment.bytes.toNat ≤ size
  | .writable => a.mode = .write → a.segment.readOnly = false

/-- What is said when it is not met. -/
def complaint (a : Approach) : Requirement → AccessError
  | .alive => .scopeNotAlive
  | .owned => .wrongThread
  | .inside => .outOfBounds a.offset a.length a.segment.size
  | .aligned => .misaligned (a.segment.address + a.offset) a.alignment.bytes
  | .writable => .readOnly

instance (s : State) (a : Approach) : DecidablePred (Met s a)
  | .alive => inferInstanceAs (Decidable (_ = true))
  | .owned => inferInstanceAs (Decidable (∀ owner ∈ _, owner = a.thread))
  | .inside => inferInstanceAs (Decidable (_ ≤ _))
  | .aligned => inferInstanceAs (Decidable (_ % _ = 0 ∧ ∀ size ∈ _, a.alignment.bytes.toNat ≤ size))
  | .writable => inferInstanceAs (Decidable (_ = _ → _ = false))

/-- Asks for one after the other, up to the first that is not met. -/
def inTurn (s : State) (a : Approach) : List Requirement → Except AccessError Unit
  | [] => .ok ()
  | r :: rest => if r.Met s a then inTurn s a rest else .error (r.complaint a)

section
variable {s : State} {a : Approach} {e : AccessError}

theorem inTurn_append (front back : List Requirement) :
    inTurn s a (front ++ back) = (inTurn s a front >>= fun _ => inTurn s a back) := by
  induction front with
  | nil => rfl
  | cons r rest ih =>
    rw [List.cons_append, inTurn, inTurn, ih]
    split <;> rfl

theorem inTurn_eq_ok {requirements : List Requirement} :
    inTurn s a requirements = .ok () ↔ ∀ r ∈ requirements, r.Met s a := by
  induction requirements with
  | nil => simp [inTurn]
  | cons r rest ih =>
    by_cases hmet : r.Met s a
    · simp [inTurn, hmet, ih]
    · simp [inTurn, hmet]

/-- The complaint is about the first that is not met. -/
theorem inTurn_eq_error {requirements : List Requirement} :
    inTurn s a requirements = .error e ↔
      ∃ earlier r later, requirements = earlier ++ r :: later ∧ (∀ q ∈ earlier, q.Met s a) ∧
        ¬ r.Met s a ∧ e = r.complaint a := by
  induction requirements with
  | nil => simp [inTurn]
  | cons first rest ih =>
    by_cases hmet : first.Met s a
    · rw [inTurn, if_pos hmet, ih]
      constructor
      · rintro ⟨earlier, r, later, rfl, hearlier, hr⟩
        exact ⟨first :: earlier, r, later, rfl, List.forall_mem_cons.mpr ⟨hmet, hearlier⟩, hr⟩
      · rintro ⟨earlier, r, later, hsplit, hearlier, hr⟩
        cases earlier with
        | nil =>
          obtain ⟨rfl, -⟩ := List.cons.inj hsplit
          exact absurd hmet hr.1
        | cons head earlier =>
          obtain ⟨rfl, hrest⟩ := List.cons.inj hsplit
          exact ⟨earlier, r, later, hrest, (List.forall_mem_cons.mp hearlier).2, hr⟩
    · rw [inTurn, if_neg hmet]
      constructor
      · intro h
        exact ⟨[], first, rest, rfl, by simp, hmet, (Except.error.inj h).symm⟩
      · rintro ⟨earlier, r, later, hsplit, hearlier, -, he⟩
        cases earlier with
        | nil =>
          obtain ⟨rfl, -⟩ := List.cons.inj hsplit
          rw [he]
        | cons head earlier =>
          obtain ⟨rfl, -⟩ := List.cons.inj hsplit
          exact absurd (List.forall_mem_cons.mp hearlier).1 hmet

end

end Requirement

namespace State
open Requirement

section
variable {s : State} {a : Approach}

/-- A scope that cannot be closed is not asked whether it is alive: it is, as long as anything is
there that could ask. -/
theorem checkEntry_eq_inTurn (lasting : s.Lasting a.segment.scope) :
    s.checkEntry a.thread a.segment.scope = inTurn s a [.alive, .owned] := by
  unfold Lasting at lasting
  unfold checkEntry
  cases hd : (s.scope a.segment.scope).discipline with
  | confined owner =>
    by_cases halive : s.isAlive a.segment.scope = true
    · by_cases howner : owner = a.thread
      · simp [inTurn, Met, checkAlive, checkOwner, Discipline.accessibleBy, Discipline.owner?, hd,
          halive, howner, bind, Except.bind]
      · simp [inTurn, Met, complaint, checkAlive, checkOwner, Discipline.accessibleBy,
          Discipline.owner?, hd, halive, howner, bind, Except.bind]
    · simp [inTurn, Met, complaint, checkAlive, halive, bind, Except.bind]
  | shared =>
    by_cases halive : s.isAlive a.segment.scope = true
    · simp [inTurn, Met, checkAlive, Discipline.owner?, hd, halive]
    · simp [inTurn, Met, complaint, checkAlive, halive]
  | auto =>
    have halive := lasting (by rw [hd]; rfl)
    simp [inTurn, Met, Discipline.owner?, hd, halive]
  | global =>
    have halive := lasting (by rw [hd]; rfl)
    simp [inTurn, Met, Discipline.owner?, hd, halive]

/-- A check that passes exactly if a requirement is met, and complains as the requirement does. -/
theorem eq_inTurn {r : Requirement} {verdict : Except AccessError Unit}
    (passes : verdict = .ok () ↔ r.Met s a)
    (complains : verdict = .ok () ∨ verdict = .error (r.complaint a)) :
    verdict = inTurn s a [r] := by
  by_cases hmet : r.Met s a
  · rw [inTurn, if_pos hmet]
    exact passes.mpr hmet
  · rw [inTurn, if_neg hmet]
    exact complains.resolve_left (mt passes.mp hmet)

theorem checkBounds_eq_inTurn : a.segment.checkBounds a.offset a.length = inTurn s a [.inside] :=
  eq_inTurn Segment.checkBounds_eq_ok (ite_eq_or_eq _ _ _)

theorem elementSize_fits :
    (∀ array, a.segment.backing = .heap array → ¬ array.element.width < a.alignment.bytes) ↔
      ∀ size ∈ a.segment.elementSize?, a.alignment.bytes.toNat ≤ size := by
  unfold Segment.elementSize?
  cases a.segment.backing with
  | heap array =>
    simp only [Backing.heap.injEq, forall_eq', Option.mem_some_iff, UInt64.not_lt,
      UInt64.le_iff_toNat_le, Carrier.toNat_width]
  | native => simp
  | mapped m => simp

theorem checkAlignment_eq_inTurn :
    a.segment.checkAlignment a.offset a.alignment.bytes = inTurn s a [.aligned] := by
  refine eq_inTurn ?_ (ite_eq_or_eq _ _ _).symm
  rw [Segment.checkAlignment_eq_ok, Word.offAlignment_sum, elementSize_fits, Nat.dvd_iff_mod_eq_zero]
  exact and_comm

theorem checkMode_eq_inTurn : a.segment.checkMode a.mode = inTurn s a [.writable] := by
  unfold Segment.checkMode
  cases hmode : a.mode with
  | read => simp [inTurn, Met, hmode]
  | write => cases hreadOnly : a.segment.readOnly <;> simp [inTurn, Met, complaint, hmode, hreadOnly]

/-- **The check is its requirements**, in their order. -/
theorem check_eq_inTurn (lasting : s.Lasting a.segment.scope) :
    s.check a.thread a.segment a.offset a.length a.alignment.bytes a.mode =
      inTurn s a Requirement.all := by
  have hall : Requirement.all =
      ([.alive, .owned] ++ [.inside]) ++ ([.aligned] ++ [.writable]) := rfl
  rw [hall, inTurn_append, inTurn_append, inTurn_append, ← checkEntry_eq_inTurn lasting,
    ← checkBounds_eq_inTurn, ← checkAlignment_eq_inTurn, ← checkMode_eq_inTurn]
  rfl

end

/-- **The check is exact, and it is ordered.** It lets an access through exactly if the scope is
alive and not another thread's, the bytes lie inside of the segment and are aligned, and nothing
read-only is to be written. Otherwise it complains about the first of these that is not met. -/
theorem check_is_exact (system : System) :
    (∀ s, Path (initial system) s → ∀ id, s.keepsScope id = true → s.Lasting id) ∧
    ∀ (s : State) (a : Approach), s.Lasting a.segment.scope →
      (s.check a.thread a.segment a.offset a.length a.alignment.bytes a.mode = .ok () ↔
        ∀ r : Requirement, r.Met s a) ∧
      ∀ e, s.check a.thread a.segment a.offset a.length a.alignment.bytes a.mode = .error e ↔
        ∃ earlier r later, Requirement.all = earlier ++ r :: later ∧ (∀ q ∈ earlier, q.Met s a) ∧
          ¬ r.Met s a ∧ e = r.complaint a := by
  refine ⟨fun s hpath => hpath.keptLast (initial_keptLast system), fun s a lasting => ?_⟩
  rw [check_eq_inTurn lasting]
  refine ⟨inTurn_eq_ok.trans ⟨fun h r => h r r.mem_all, fun h r _ => h r⟩, fun e => ?_⟩
  exact inTurn_eq_error

/-- The owner writes the upper half of a segment, but not at an odd address, which comes before the
segment being read-only; another thread is told that it is not the owner before it is told anything
about the range. -/
theorem check_is_exact_lent :
    let x : Segment := ⟨68719476736, 8, .native, false, 1⟩
    lent.segmentNamed "x" = .ok x ∧
    lent.check 0 x 4 4 4 .write = .ok () ∧
    lent.check 0 x.asReadOnly 3 4 4 .write = .error (.misaligned 68719476739 4) ∧
    lent.check 1 x.asReadOnly 7 4 4 .write = .error .wrongThread := by
  obtain ⟨hkept, hexact⟩ := check_is_exact .bump
  have hlasting : lent.Lasting 1 := hkept lent (after_reached .bump 1 _).path 1 rfl
  refine ⟨rfl, ?_, ?_, ?_⟩
  · refine (hexact lent ⟨0, ⟨68719476736, 8, .native, false, 1⟩, 4, 4, ⟨⟨2, by decide⟩⟩, .write⟩
      hlasting).1.mpr fun r => ?_
    cases r <;> decide
  · refine ((hexact lent ⟨0, ⟨68719476736, 8, .native, true, 1⟩, 3, 4, ⟨⟨2, by decide⟩⟩, .write⟩
      hlasting).2 _).mpr ⟨[.alive, .owned, .inside], .aligned, [.writable], rfl, ?_, by decide, rfl⟩
    decide
  · refine ((hexact lent ⟨1, ⟨68719476736, 8, .native, true, 1⟩, 7, 4, ⟨⟨2, by decide⟩⟩, .write⟩
      hlasting).2 _).mpr ⟨[.alive], .owned, [.inside, .aligned, .writable], rfl, ?_, by decide, rfl⟩
    decide

end State

end ScopedMemory
