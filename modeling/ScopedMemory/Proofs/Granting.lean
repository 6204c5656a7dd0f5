import ScopedMemory.Proofs.Admission
import ScopedMemory.Proofs.Atomicity
import ScopedMemory.Proofs.Compounds

/-! What an arena grants.

A thread that asks an arena for memory has to meet six conditions, looked at in a fixed order
(`Condition.all`). The first that is not met decides what the thread is told, and if all are met it
gets a block (`Demand.outcome`). The scope is looked at twice, before the system places and clears
the block and again when the block is attached; whoever passed the first time passes the second time
(`State.checkAttach_of_checkEntry`), so nothing was cleared in vain when an allocation fails. -/
namespace ScopedMemory

/-! ### Placing -/

/-- Every block that the system places starts at a multiple of its alignment. -/
def System.Aligns (system : System) : Prop :=
  ∀ journal size alignment start, system.place journal size alignment = some start →
    alignment.bytes.toNat ∣ start.toNat

theorem System.bump_aligns : bump.Aligns := by
  intro journal size alignment start h
  simp only [bump] at h
  split at h
  · cases h
  · split at h
    · cases h
    · rename_i found hround
      split at h
      · cases h
      · cases h
        rw [← Alignment.roundUp?_eq_some_iff.mp hround]
        exact alignment.dvd_ceil _

/-! ### Conditions -/

/-- A thread that wants memory from an arena. -/
structure Demand where
  arena : Arena
  thread : Thread
  size : Word
  alignment : Word

inductive Condition where
  | powerOfTwo | withinLimit | alive | owned | describable | available
deriving DecidableEq, Repr

namespace Condition

/-- The conditions in the order in which they are looked at. -/
def all : List Condition :=
  [.powerOfTwo, .withinLimit, .alive, .owned, .describable, .available]

def Met (s : State) (d : Demand) : Condition → Prop
  | .powerOfTwo => ∃ a : Alignment, a.bytes = d.alignment
  | .withinLimit => d.size.toNat ≤ d.arena.config.maxAllocation.toNat
  | .alive => s.isAlive d.arena.scope = true
  | .owned => ∀ owner ∈ (s.scope d.arena.scope).discipline.owner?, owner = d.thread
  | .describable => d.size.toNat + d.alignment.toNat ≤ 1 <<< 63
  | .available => d.size ≠ 0 →
      ∀ a : Alignment, a.bytes = d.alignment → s.system.place s.journal d.size a ≠ none

/-- What is said when it is not met. A block that cannot be described to the system is put down to
its alignment. -/
def complaint (d : Demand) : Condition → ArenaError
  | .powerOfTwo | .describable => .invalidAlignment d.alignment
  | .withinLimit => .capacityExceeded d.size d.arena.config.maxAllocation
  | .alive => .access .scopeNotAlive
  | .owned => .access .wrongThread
  | .available => .allocationFailed d.size d.alignment

section
variable {s : State} {d : Demand} {a : Alignment}

theorem powerOfTwo_iff : Met s d .powerOfTwo ↔ (Alignment.ofBytes? d.alignment).isSome = true := by
  constructor
  · rintro ⟨a, ha⟩
    rw [← ha, Alignment.ofBytes?_bytes]
    rfl
  · intro h
    obtain ⟨a, ha⟩ := Option.isSome_iff_exists.mp h
    exact ⟨a, Alignment.bytes_of_ofBytes? ha⟩

theorem available_iff : Met s d .available ↔
    (d.size ≠ 0 → ∀ a ∈ Alignment.ofBytes? d.alignment, s.system.place s.journal d.size a ≠ none) := by
  constructor
  · intro h hsize a ha
    exact h hsize a (Alignment.bytes_of_ofBytes? ha)
  · intro h hsize a ha
    exact h hsize a (by rw [← ha]; exact Alignment.ofBytes?_bytes a)

end

instance (s : State) (d : Demand) : DecidablePred (Met s d)
  | .powerOfTwo => decidable_of_iff' _ powerOfTwo_iff
  | .withinLimit => inferInstanceAs (Decidable (_ ≤ _))
  | .alive => inferInstanceAs (Decidable (_ = true))
  | .owned => inferInstanceAs (Decidable (∀ owner ∈ _, owner = d.thread))
  | .describable => inferInstanceAs (Decidable (_ ≤ _))
  | .available => decidable_of_iff' _ available_iff

/-- The first that is not met, if any. -/
def firstUnmet? (s : State) (d : Demand) : Option Condition := all.find? fun c => ¬ c.Met s d

theorem firstUnmet?_eq_none {s : State} {d : Demand} :
    firstUnmet? s d = none ↔ ∀ c : Condition, c.Met s d := by
  have hall : ∀ c : Condition, c ∈ all := by
    intro c
    cases c <;> decide
  simp [firstUnmet?, hall]

end Condition

/-! ### Reserving and attaching -/

namespace State
variable {s s' : State} {t : Thread} {id : ScopeId} {block : Block}

/-- **Whoever is let in may attach.** The owner is looked at in both cases, and of a scope that was
not asked whether it is alive it is supposed. -/
theorem checkAttach_of_checkEntry (lasting : s.Lasting id) (h : s.checkEntry t id = .ok ()) :
    s.checkAttach t id = .ok () := by
  have halive : s.checkAlive id = .ok () := checkAlive_eq_ok.mpr (checkEntry_alive h lasting)
  have howner : s.checkOwner t id = .ok () := by
    unfold checkEntry at h
    cases hd : (s.scope id).discipline with
    | confined owner =>
      simp only [hd] at h
      exact (bind_eq_ok.mp h).choose_spec.2
    | shared => simp [checkOwner, Discipline.accessibleBy, hd]
    | auto => simp [checkOwner, Discipline.accessibleBy, hd]
    | global => simp [checkOwner, Discipline.accessibleBy, hd]
  unfold checkAttach
  rw [howner, halive]
  rfl

/-- A block that is reserved is aligned, and cleared if it is to be. -/
theorem reserve_aligned {size : Word} {a : Alignment} {zeroed : Bool} (aligns : s.system.Aligns)
    (h : s.reserve size a zeroed = .ok (block, s')) :
    a.bytes.toNat ∣ block.address.toNat ∧
      (zeroed = true → ∀ address, block.Covers address → s'.memory.read .native address = 0) := by
  unfold reserve at h
  split at h
  · cases h
  · split at h
    · cases h
      exact ⟨Nat.dvd_refl _, fun _ address hc => absurd rfl hc.size_ne⟩
    · cases hplace : s.system.place s.journal size a with
      | none => simp [hplace] at h
      | some start =>
        simp only [hplace, Except.ok.injEq, Prod.mk.injEq] at h
        obtain ⟨rfl, rfl⟩ := h
        refine ⟨aligns _ _ _ _ hplace, fun hzeroed address hc => ?_⟩
        simp only [hzeroed, if_true, Memory.fill]
        exact (Memory.read_overlay ..).trans (if_pos ⟨rfl, hc⟩)

end State

/-! ### Outcomes -/

/-- What a thread gets: a segment over a new block of the arena's scope, of the size and at the
alignment that were asked for. -/
structure Demand.Grants (d : Demand) (s : State) (x : Segment) (s' : State) : Prop where
  segment : x = Block.segment ⟨x.address, d.size⟩ d.arena.scope
  aligned : d.alignment.toNat ∣ x.address.toNat
  allots : s.Allots d.arena.scope ⟨x.address, d.size⟩ s'
  zeroed : d.arena.config.zeroed = true →
    ∀ address, x.Covers .native address → s'.memory.read .native address = 0

namespace Arena
variable {arena : Arena} {t : Thread} {s : State} {size : Word} {a : Alignment}

theorem allocate_of_foreign {e : AccessError} (limit : ¬ arena.config.maxAllocation < size)
    (h : s.checkEntry t arena.scope = .error e) :
    arena.allocate t s size a.bytes = .error (.access e) := by
  simp only [allocate, Alignment.ofBytes?_bytes, if_neg limit, h]
  rfl

/-- A thread that is let in gets the block that the system places. -/
theorem allocate_of_entered (limit : ¬ arena.config.maxAllocation < size)
    (entered : s.checkEntry t arena.scope = .ok ()) (lasting : s.Lasting arena.scope) :
    arena.allocate t s size a.bytes = (s.reserve size a arena.config.zeroed).map fun (block, s') =>
      (⟨block.address, size, .native, false, arena.scope⟩,
        (s'.gainBlock arena.scope block).log
          (.allocated arena.scope block.address size a.bytes)) := by
  unfold allocate
  simp only [Alignment.ofBytes?_bytes, if_neg limit, entered]
  cases hreserve : s.reserve size a arena.config.zeroed with
  | error e => rfl
  | ok made =>
    obtain ⟨block, s'⟩ := made
    obtain ⟨-, -, memory, rfl, -⟩ := State.reserve_ok arena.scope hreserve
    have hattach : { s with memory }.checkAttach t arena.scope = .ok () :=
      State.checkAttach_of_checkEntry lasting entered
    show (liftAccess ({ s with memory }.checkAttach t arena.scope >>= _) >>= _) = _
    rw [hattach]
    rfl

end Arena

namespace Demand
open Condition
variable {d : Demand} {s s' : State} {x : Segment}

theorem grants_of_ok (aligns : s.system.Aligns)
    (h : d.arena.allocate d.thread s d.size d.alignment = .ok (x, s')) : d.Grants s x s' := by
  obtain ⟨whole, hwhole, hallots⟩ := State.allocate_allots h
  obtain ⟨a, block, s₁, ha, -, hreserve, -, rfl, rfl⟩ := State.allocate_steps h
  obtain ⟨hdvd, hzero⟩ := State.reserve_aligned aligns hreserve
  obtain ⟨-, hsize, -⟩ := State.reserve_ok d.arena.scope hreserve
  obtain rfl : whole = ⟨block.address, d.size⟩ := by
    obtain ⟨address, size⟩ := whole
    cases hwhole
    rfl
  refine ⟨rfl, Alignment.bytes_of_ofBytes? ha ▸ hdvd, hallots, fun hzeroed address hc => ?_⟩
  refine hzero hzeroed address ?_
  rw [Block.Covers, hsize]
  exact hc.2

theorem checkEntry_eq (lasting : s.Lasting d.arena.scope) : s.checkEntry d.thread d.arena.scope =
    if Met s d .alive then if Met s d .owned then .ok () else .error .wrongThread
    else .error .scopeNotAlive :=
  State.checkEntry_eq_inTurn
    (a := ⟨d.thread, Block.segment ⟨0, 0⟩ d.arena.scope, 0, 0, .one, .read⟩) lasting

section
variable {a : Alignment} {zeroed : Bool} (power : a.bytes = d.alignment)
include power

theorem reserve_of_indescribable (h : ¬ Met s d .describable) :
    s.reserve d.size a zeroed = .error (complaint d .describable) := by
  rw [State.reserve, power, if_pos (Nat.lt_of_not_le h)]
  rfl

theorem reserve_of_unavailable (h : Met s d .describable) (h' : ¬ Met s d .available) :
    s.reserve d.size a zeroed = .error (complaint d .available) := by
  have hsize : d.size ≠ 0 := fun hzero => h' fun hne => absurd hzero hne
  have hplace : s.system.place s.journal d.size a = none := by
    by_contra hsome
    refine h' fun _ b hb => ?_
    rwa [Alignment.bytes_inj.mp (hb.trans power.symm)]
  rw [State.reserve, power, if_neg (Nat.not_lt_of_le h), if_neg hsize, hplace]
  rfl

theorem reserve_of_available (h : Met s d .describable) (h' : Met s d .available) :
    ∃ made, s.reserve d.size a zeroed = .ok made := by
  rw [State.reserve, power, if_neg (Nat.not_lt_of_le h)]
  by_cases hsize : d.size = 0
  · exact ⟨_, if_pos hsize⟩
  · obtain ⟨start, hplace⟩ := Option.ne_none_iff_exists'.mp (h' hsize a power)
    rw [if_neg hsize, hplace]
    exact ⟨_, rfl⟩

end

/-- **The first condition that is not met decides**, and who meets all gets a block. -/
theorem outcome (d : Demand) (lasting : s.Lasting d.arena.scope) :
    match firstUnmet? s d with
    | some c => d.arena.allocate d.thread s d.size d.alignment = .error (c.complaint d)
    | none => ∃ made, d.arena.allocate d.thread s d.size d.alignment = .ok made := by
  by_cases hpower : Met s d .powerOfTwo
  case neg =>
    have hnone : Alignment.ofBytes? d.alignment = none := by simpa [powerOfTwo_iff] using hpower
    simp [firstUnmet?, all, hpower, Arena.allocate, hnone, complaint]
  obtain ⟨a, ha⟩ := id hpower
  by_cases hlimit : Met s d .withinLimit
  case neg =>
    have hover : d.arena.config.maxAllocation < d.size :=
      UInt64.lt_iff_toNat_lt.mpr (Nat.lt_of_not_le hlimit)
    simp [firstUnmet?, all, hpower, hlimit, Arena.allocate, ← ha, Alignment.ofBytes?_bytes, hover,
      complaint]
  have hwithin : ¬ d.arena.config.maxAllocation < d.size := by
    rw [UInt64.lt_iff_toNat_lt]
    exact Nat.not_lt_of_le hlimit
  have hentry := checkEntry_eq lasting
  by_cases halive : Met s d .alive
  case neg =>
    rw [if_neg halive] at hentry
    simpa [firstUnmet?, all, hpower, hlimit, halive, complaint, ← ha] using
      Arena.allocate_of_foreign hwithin hentry
  by_cases howned : Met s d .owned
  case neg =>
    rw [if_pos halive, if_neg howned] at hentry
    simpa [firstUnmet?, all, hpower, hlimit, halive, howned, complaint, ← ha] using
      Arena.allocate_of_foreign hwithin hentry
  -- From here on the arena does what the system does.
  rw [if_pos halive, if_pos howned] at hentry
  have hgrant := ha ▸ Arena.allocate_of_entered (a := a) hwithin hentry lasting
  by_cases hdescribable : Met s d .describable
  case neg =>
    rw [reserve_of_indescribable ha hdescribable] at hgrant
    simpa [firstUnmet?, all, hpower, hlimit, halive, howned, hdescribable,
      Except.map] using hgrant
  by_cases havailable : Met s d .available
  case neg =>
    rw [reserve_of_unavailable ha hdescribable havailable] at hgrant
    simpa [firstUnmet?, all, hpower, hlimit, halive, howned, hdescribable, havailable,
      Except.map] using hgrant
  obtain ⟨made, hmade⟩ := reserve_of_available ha hdescribable havailable
  rw [hmade] at hgrant
  simp [firstUnmet?, all, hpower, hlimit, halive, howned, hdescribable, havailable, hgrant,
    Except.map]

end Demand

/-! ### Allocating in place -/

namespace InPlace
variable {σ ε α β : Type} {s : σ}

/-- Where steps end that come to the given outcome: a failure leaves `s`. -/
def settled (s : σ) : Except ε (α × σ) → Except ε α × σ
  | .ok (a, s') => (.ok a, s')
  | .error e => (.error e, s)

/-- A look that lets everyone pass. -/
theorem inspect_pure (a : α) (k : α → InPlace σ ε β) (s : σ) :
    ((inspect fun _ => pure a) >>= k) s = k a s := rfl

theorem inspect_settled {f : σ → Except ε α} {k : α → InPlace σ ε β} {r : α → Except ε (β × σ)}
    (h : ∀ a, f s = .ok a → k a s = settled s (r a)) :
    (inspect f >>= k) s = settled s (f s >>= r) := by
  cases hf : f s with
  | error e =>
    have hlook : inspect f s = (.error e, s) := Prod.ext hf rfl
    exact bind_of_error hlook
  | ok a =>
    have hlook : inspect f s = (.ok a, s) := Prod.ext hf rfl
    exact (bind_of_ok hlook).trans (h a hf)

/-- Steps settle together if the later ones cannot fail once the first have succeeded. -/
theorem andThen_settled {m : InPlace σ ε α} {k : α → InPlace σ ε β} {r : Except ε (α × σ)}
    {r' : α × σ → Except ε (β × σ)} (first : m s = settled s r)
    (second : ∀ a s', r = .ok (a, s') → ∃ b s'', r' (a, s') = .ok (b, s'') ∧ k a s' = (.ok b, s'')) :
    (m >>= k) s = settled s (r >>= r') := by
  cases r with
  | error e => exact bind_of_error first
  | ok made =>
    obtain ⟨a, s'⟩ := made
    obtain ⟨b, s'', hr', hk⟩ := second a s' rfl
    show (m >>= k) s = settled s (r' (a, s'))
    rw [hr']
    exact (bind_of_ok first).trans hk

end InPlace

open InPlace

/-- Asks the system for a place. -/
def State.placing (size : Word) (alignment : Alignment) (s : State) : Except ArenaError Word :=
  match s.system.place s.journal size alignment with
  | none => .error (.allocationFailed size alignment.bytes)
  | some start => .ok start

/-- The block is cleared before anything is attached. -/
def State.reserveInPlace (size : Word) (alignment : Alignment) (zeroed : Bool) :
    InPlace State ArenaError Block := do
  inspect fun _ =>
    if 1 <<< 63 < size.toNat + alignment.bytes.toNat then
      throw (.invalidAlignment alignment.bytes)
    else pure ()
  if size = 0 then pure ⟨alignment.bytes, 0⟩
  else
    let start ← inspect (placing size alignment)
    if zeroed then alter fun s => { s with memory := s.memory.fill .native start size.toNat 0 }
    pure ⟨start, size⟩

theorem State.reserveInPlace_settled (s : State) (size : Word) (alignment : Alignment)
    (zeroed : Bool) :
    reserveInPlace size alignment zeroed s = settled s (s.reserve size alignment zeroed) := by
  unfold reserveInPlace reserve
  by_cases hlarge : 1 <<< 63 < size.toNat + alignment.bytes.toNat
  · simp only [if_pos hlarge]
    rfl
  by_cases hsize : size = 0
  · simp only [if_neg hlarge, if_pos hsize]
    rfl
  simp only [if_neg hlarge, if_neg hsize]
  refine (inspect_pure () _ s).trans ?_
  cases hplace : s.system.place s.journal size alignment with
  | none =>
    have hfound : inspect (placing size alignment) s =
        (.error (.allocationFailed size alignment.bytes), s) := by simp [inspect, placing, hplace]
    exact bind_of_error hfound
  | some start =>
    have hfound : inspect (placing size alignment) s = (.ok start, s) := by
      simp [inspect, placing, hplace]
    refine (bind_of_ok hfound).trans ?_
    cases zeroed <;> rfl

namespace Arena

/-- The scope is looked at again after the block was cleared. -/
def allocateInPlace (arena : Arena) (t : Thread) (size alignment : Word) :
    InPlace State ArenaError Segment := do
  let aligned ← inspect fun _ => match Alignment.ofBytes? alignment with
    | none => throw (.invalidAlignment alignment)
    | some aligned => pure aligned
  inspect fun _ =>
    if arena.config.maxAllocation < size then
      throw (.capacityExceeded size arena.config.maxAllocation)
    else pure ()
  inspect fun s => liftAccess (s.checkEntry t arena.scope)
  let block ← State.reserveInPlace size aligned arena.config.zeroed
  inspect fun s => liftAccess (s.checkAttach t arena.scope)
  alter fun s => (s.gainBlock arena.scope block).log
    (.allocated arena.scope block.address size alignment)
  pure ⟨block.address, size, .native, false, arena.scope⟩

theorem allocateInPlace_settled {arena : Arena} {s : State} (t : Thread) (size alignment : Word)
    (lasting : s.Lasting arena.scope) :
    arena.allocateInPlace t size alignment s = settled s (arena.allocate t s size alignment) := by
  unfold allocateInPlace allocate
  cases Alignment.ofBytes? alignment with
  | none => rfl
  | some aligned =>
    by_cases hlimit : arena.config.maxAllocation < size
    · simp only [if_pos hlimit]
      rfl
    simp only [if_neg hlimit]
    refine (inspect_pure aligned _ s).trans ((inspect_pure () _ s).trans ?_)
    refine inspect_settled fun _ hentry => ?_
    have hentered := liftAccess_eq_ok.mp hentry
    refine andThen_settled (State.reserveInPlace_settled s size aligned arena.config.zeroed) ?_
    intro block s' hreserve
    obtain ⟨-, -, memory, rfl, -⟩ := State.reserve_ok arena.scope hreserve
    have hattach : { s with memory }.checkAttach t arena.scope = .ok () :=
      State.checkAttach_of_checkEntry lasting hentered
    have hlook : inspect (fun s : State => liftAccess (s.checkAttach t arena.scope))
        { s with memory } = (.ok (), { s with memory }) := by
      simp [inspect, hattach, liftAccess, Except.mapError]
    refine ⟨_, _, ?_, (bind_of_ok hlook).trans rfl⟩
    simp [State.attachBlock, hattach, liftAccess, Except.mapError, bind, Except.bind, pure,
      Except.pure]

end Arena

namespace State

/-- **An allocation is granted, or refused for the first reason there is**, before anything is
attached or cleared. What is granted is a segment over a new block of the scope, of the size and at
a multiple of the alignment asked for, all zero if the arena clears what it allocates. -/
theorem allocation_is_classified (system : System) :
    (∀ s, Path (initial system) s →
      ∀ arena ∈ s.handles.arenas.values, s.Lasting arena.scope) ∧
    ∀ (s : State) (d : Demand), s.Lasting d.arena.scope → s.system.Aligns →
      (∀ e, d.arena.allocate d.thread s d.size d.alignment = .error e ↔
        ∃ c, Condition.firstUnmet? s d = some c ∧ e = c.complaint d) ∧
      (∀ e, d.arena.allocate d.thread s d.size d.alignment = .error e →
        d.arena.allocateInPlace d.thread d.size d.alignment s = (.error e, s)) ∧
      ((∀ c : Condition, c.Met s d) → ∃ x s',
        d.arena.allocate d.thread s d.size d.alignment = .ok (x, s') ∧
        d.arena.allocateInPlace d.thread d.size d.alignment s = (.ok x, s') ∧
        d.Grants s x s') := by
  refine ⟨fun s hpath arena harena => ?_, fun s d lasting aligns => ?_⟩
  · exact hpath.keptLast (initial_keptLast system) _ (keepsScope_of_arena harena)
  have houtcome := d.outcome lasting
  have hinPlace := Arena.allocateInPlace_settled d.thread d.size d.alignment lasting
  refine ⟨fun e => ?_, fun e he => ?_, fun hmet => ?_⟩
  · cases hfirst : Condition.firstUnmet? s d with
    | none =>
      rw [hfirst] at houtcome
      obtain ⟨made, hmade⟩ := houtcome
      simp [hmade]
    | some c =>
      rw [hfirst] at houtcome
      simp [houtcome, eq_comm]
  · rw [hinPlace, he]
    rfl
  · rw [Condition.firstUnmet?_eq_none.mpr hmet] at houtcome
    obtain ⟨⟨x, s'⟩, hmade⟩ := houtcome
    refine ⟨x, s', hmade, ?_, Demand.grants_of_ok aligns hmade⟩
    rw [hinPlace, hmade]
    rfl

/-- One byte is not to be had at the largest alignment, which is a power of two nevertheless;
another thread is told that it is not the owner although the system has no room either; and the
owner gets zeros. -/
theorem allocation_is_classified_lent :
    let arena : Arena := ⟨0, 1, {}, false⟩
    lent.arenaNamed "a" = .ok arena ∧
    arena.allocate 0 lent 1 0x8000000000000000 = .error (.invalidAlignment 0x8000000000000000) ∧
    arena.allocate 1 lent 0x200000 8 = .error (.access .wrongThread) ∧
    ∃ x s', arena.allocate 0 lent 24 64 = .ok (x, s') ∧ x.size = 24 ∧ 64 ∣ x.address.toNat ∧
      s'.memory.read .native x.address = 0 := by
  have harena : lent.arenaNamed "a" = .ok ⟨0, 1, {}, false⟩ := rfl
  obtain ⟨hkept, hclass⟩ := allocation_is_classified .bump
  have hlasting : lent.Lasting 1 :=
    hkept lent (after_reached .bump 1 _).path _ (arenaNamed_mem harena)
  have haligns : lent.system.Aligns := System.bump_aligns
  refine ⟨harena, ?_, ?_, ?_⟩
  · refine ((hclass lent ⟨⟨0, 1, {}, false⟩, 0, 1, 0x8000000000000000⟩ hlasting haligns).1 _).mpr
      ⟨.describable, ?_, rfl⟩
    decide +kernel
  · refine ((hclass lent ⟨⟨0, 1, {}, false⟩, 1, 0x200000, 8⟩ hlasting haligns).1 _).mpr
      ⟨.owned, ?_, rfl⟩
    decide +kernel
  · obtain ⟨x, s', hok, -, hgrants⟩ :=
      (hclass lent ⟨⟨0, 1, {}, false⟩, 0, 24, 64⟩ hlasting haligns).2.2
        (Condition.firstUnmet?_eq_none.mp (by decide +kernel))
    refine ⟨x, s', hok, congrArg Segment.size hgrants.segment, hgrants.aligned, ?_⟩
    refine hgrants.zeroed rfl x.address ?_
    rw [hgrants.segment]
    exact ⟨rfl, by simp [Block.segment, Memory.within]⟩

end State

end ScopedMemory
