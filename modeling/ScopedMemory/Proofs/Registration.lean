import ScopedMemory.Proofs.Draining

/-! Nothing that is attached to a shared scope is lost in its close.

Whether the scope is alive is tested under the lock, but the step from alive to closing is taken
without it. So a thread may store something after that step; the closing thread marks the scope
closed under the lock, and from there on nobody is about to store (`Staged`). Hence what was
accepted is what the close takes (`Accounted`), and what was turned away goes with the thread that
brought it. -/
namespace ScopedMemory.SharedClose

namespace Item

def cleanup? : Item → Option Nat
  | .cleanup id => some id
  | .block _ => none

def block? : Item → Option Nat
  | .cleanup _ => none
  | .block id => some id

end Item

namespace Place

/-- The thread has the lock. -/
def locks : Place → Bool
  | .committing | .taking | .testing _ | .storing _ | .unlocking | .rejecting _ => true
  | _ => false

/-- The close has gone through and has not been committed. -/
def waits : Place → Bool
  | .draining | .drained | .committing => true
  | _ => false

/-- The close has been committed and is not over. -/
def ends : Place → Bool
  | .taking | .releasing _ _ => true
  | _ => false

/-- What the thread has brought and has got no answer for. -/
def undecided : Place → List Item
  | .testing item | .storing item | .rejecting item => [item]
  | _ => []

/-- The cleanups that the closing thread has taken and not run. -/
def toRun : Place → List Nat
  | .releasing cleanups _ => cleanups
  | _ => []

/-- The blocks that the closing thread has taken and not freed. -/
def toFree : Place → List Nat
  | .releasing _ blocks => blocks
  | _ => []

end Place

namespace Protocol

/-! ### The lock -/

/-- The lock is held by the one thread that acts under it. -/
def LockIsHeld (p : Protocol) : Prop := ∀ t, (p.place t).locks = true ↔ p.lock = some t

theorem LockIsHeld.move {p q : Protocol} {t : Thread} (h : Move p t q) (hl : LockIsHeld p) :
    LockIsHeld q := by
  intro u
  have ht := hl t
  by_cases hu : u = t
  · subst hu
    cases h
    case stay => exact ht
    all_goals simp_all [goto, setDepth, Place.locks]
  · have hplace := h.place_other hu
    have hother := hl u
    rw [hplace, hother]
    cases h
    case offer unlocked item => simp [goto, unlocked, Ne.symm hu]
    case seize unlocked => simp [goto, unlocked, Ne.symm hu]
    case take here =>
      have : p.lock = some t := ht.mp (by rw [here]; rfl)
      simp [goto, this, Ne.symm hu]
    case unlock here =>
      have : p.lock = some t := ht.mp (by rw [here]; rfl)
      simp [goto, this, Ne.symm hu]
    case rejectCleanup here =>
      have : p.lock = some t := ht.mp (by rw [here]; rfl)
      simp [goto, this, Ne.symm hu]
    case rejectBlock here =>
      have : p.lock = some t := ht.mp (by rw [here]; rfl)
      simp [goto, this, Ne.symm hu]
    all_goals exact Iff.rfl

/-! ### Stages of a close -/

/-- One thread closes, the phase says how far it is, and nothing is stored once it has committed. -/
structure Staged (p : Protocol) : Prop where
  closer : ∀ t, (p.place t).closes = true → p.closers = [t]
  waiting : ∀ t, (p.place t).waits = true → p.phase = .closing
  ending : ∀ t, (p.place t).ends = true → p.phase = .closed
  underWay : p.phase = .closing → ∃ t, (p.place t).waits = true
  sealed : p.phase = .closed → ∀ t item, p.place t ≠ .storing item
  taken : p.phase = .closed → (∃ t, p.place t = .taking) ∨ (p.cleanups = [] ∧ p.blocks = [])

theorem closes_of_waits {x : Place} (h : x.waits = true) : x.closes = true := by
  cases x <;> first | rfl | cases h

theorem closes_of_ends {x : Place} (h : x.ends = true) : x.closes = true := by
  cases x <;> first | rfl | cases h

theorem Staged.closer_move {p q : Protocol} {t : Thread} (h : Move p t q) (hs : Staged p)
    (hd : Drains p) (u : Thread) (hu : (q.place u).closes = true) : q.closers = [u] := by
  by_cases hut : u = t
  · subst hut
    cases h
    case stay => exact hs.closer u hu
    case shut here alive => simp [goto, hd.once.unclosed alive]
    case drain here empty => exact hs.closer u (by rw [here]; rfl)
    case seize here unlocked => exact hs.closer u (by rw [here]; rfl)
    case commit here => exact hs.closer u (by rw [here]; rfl)
    case take here => exact hs.closer u (by rw [here]; rfl)
    case runCleanup here => exact hs.closer u (by rw [here]; rfl)
    case freeBlock here => exact hs.closer u (by rw [here]; rfl)
    all_goals simp [Place.closes] at hu
  · rw [h.place_other hut] at hu
    cases h
    case shut here alive => exact absurd alive (hd.seen u hu)
    all_goals exact hs.closer u hu

/-- Two threads never close at once. -/
theorem Staged.unique {p : Protocol} (hs : Staged p) {t u : Thread}
    (ht : (p.place t).closes = true) (hu : (p.place u).closes = true) : u = t := by
  have heq := (hs.closer u hu).symm.trans (hs.closer t ht)
  exact (List.cons.inj heq).1

theorem Staged.waiting_move {p q : Protocol} {t : Thread} (h : Move p t q) (hs : Staged p)
    (hd : Drains p) (u : Thread) (hu : (q.place u).waits = true) : q.phase = .closing := by
  by_cases hut : u = t
  · subst hut
    cases h
    case stay => exact hs.waiting u hu
    case shut => rfl
    case drain here empty => exact hs.waiting u (by rw [here]; rfl)
    case seize here unlocked => exact hs.waiting u (by rw [here]; rfl)
    all_goals simp [Place.waits] at hu
  · rw [h.place_other hut] at hu
    cases h
    case shut here alive => exact absurd alive (hd.seen u (closes_of_waits hu))
    case commit here =>
      exact absurd (hs.unique (t := t) (by rw [here]; rfl) (closes_of_waits hu)) hut
    all_goals exact hs.waiting u hu

theorem Staged.ending_move {p q : Protocol} {t : Thread} (h : Move p t q) (hs : Staged p)
    (hd : Drains p) (u : Thread) (hu : (q.place u).ends = true) : q.phase = .closed := by
  by_cases hut : u = t
  · subst hut
    cases h
    case stay => exact hs.ending u hu
    case commit => rfl
    case take here => exact hs.ending u (by rw [here]; rfl)
    case runCleanup here => exact hs.ending u (by rw [here]; rfl)
    case freeBlock here => exact hs.ending u (by rw [here]; rfl)
    all_goals simp [Place.ends] at hu
  · rw [h.place_other hut] at hu
    cases h
    case shut here alive => exact absurd alive (hd.seen u (closes_of_ends hu))
    case commit => rfl
    all_goals exact hs.ending u hu

theorem Staged.underWay_move {p q : Protocol} {t : Thread} (h : Move p t q) (hs : Staged p)
    (hq : q.phase = .closing) : ∃ u, (q.place u).waits = true := by
  by_cases hp : p.phase = .closing
  · obtain ⟨u, hu⟩ := hs.underWay hp
    by_cases hut : u = t
    · subst hut
      refine ⟨u, ?_⟩
      cases h
      case stay => exact hu
      case drain => rw [goto_place_self]; rfl
      case seize => rw [goto_place_self]; rfl
      case commit => simp [goto] at hq
      all_goals simp_all [Place.waits]
    · exact ⟨u, by rw [h.place_other hut]; exact hu⟩
  · cases h
    case shut => exact ⟨t, by rw [goto_place_self]; rfl⟩
    case commit => simp [goto] at hq
    all_goals exact absurd hq hp

theorem Staged.sealed_move {p q : Protocol} {t : Thread} (h : Move p t q) (hs : Staged p)
    (hl : LockIsHeld p) (hq : q.phase = .closed) (u : Thread) (item : Item) :
    q.place u ≠ .storing item := by
  intro hu
  by_cases hut : u = t
  · subst hut
    cases h
    case stay => exact hs.sealed hq u item hu
    case letIn here alive => exact absurd (alive.symm.trans hq) (by decide)
    all_goals simp at hu
  · rw [h.place_other hut] at hu
    cases h
    case commit here =>
      -- The committing thread has the lock, so nobody else is about to store.
      have ht : p.lock = some t := (hl t).mp (by rw [here]; rfl)
      have hstore : p.lock = some u := (hl u).mp (by rw [hu]; rfl)
      exact hut (Option.some.inj (hstore.symm.trans ht))
    case shut => simp [goto] at hq
    all_goals exact hs.sealed hq u item hu

theorem Staged.taken_move {p q : Protocol} {t : Thread} (h : Move p t q) (hs : Staged p)
    (hq : q.phase = .closed) :
    (∃ u, q.place u = .taking) ∨ (q.cleanups = [] ∧ q.blocks = []) := by
  cases h
  case commit => exact .inl ⟨t, goto_place_self _ _ _⟩
  case take => exact .inr ⟨rfl, rfl⟩
  case shut => simp [goto] at hq
  case storeCleanup here => exact absurd here (hs.sealed hq t _)
  case storeBlock here => exact absurd here (hs.sealed hq t _)
  case stay => exact hs.taken hq
  all_goals
    rcases hs.taken hq with ⟨u, hu⟩ | hempty
    · have hut : u ≠ t := by
        rintro rfl
        simp_all
      exact .inl ⟨u, (goto_place_other _ _ hut).trans hu⟩
    · exact .inr hempty

theorem Staged.move {p q : Protocol} {t : Thread} (h : Move p t q) (hd : Drains p)
    (hl : LockIsHeld p) (hs : Staged p) : Staged q where
  closer := hs.closer_move h hd
  waiting := hs.waiting_move h hd
  ending := hs.ending_move h hd
  underWay := hs.underWay_move h
  sealed := hs.sealed_move h hl
  taken := hs.taken_move h

/-! ### Answers -/

/-- What has been brought and not been answered: at most one thing, in the hands of the thread that
has the lock. -/
def inFlight (p : Protocol) : List Item :=
  match p.lock with
  | none => []
  | some t => (p.place t).undecided

theorem inFlight_of_held {p : Protocol} {t : Thread} (held : p.lock = some t) :
    p.inFlight = (p.place t).undecided := by
  rw [inFlight, held]

theorem inFlight_of_unlocked {p : Protocol} (unlocked : p.lock = none) : p.inFlight = [] := by
  rw [inFlight, unlocked]

theorem inFlight_goto_held (p : Protocol) (t : Thread) (x : Place) (held : p.lock = some t) :
    (p.goto t x).inFlight = x.undecided := by
  rw [inFlight_of_held (p := p.goto t x) held, goto_place_self]

/-- A thread that keeps what it had brought. -/
theorem inFlight_goto (p : Protocol) (t : Thread) (x : Place)
    (same : x.undecided = (p.place t).undecided) : (p.goto t x).inFlight = p.inFlight := by
  show (match p.lock with | none => [] | some u => ((p.goto t x).place u).undecided) = p.inFlight
  rw [inFlight]
  split
  · rfl
  · rename_i u _
    by_cases hu : u = t
    · rw [hu, goto_place_self, same]
    · rw [goto_place_other p x hu]

/-- Everything that was brought has been accepted or turned away, or waits for its answer. -/
def Answered (p : Protocol) : Prop :=
  ∀ item, p.offered.count item =
    p.accepted.count item + (p.rejected.map Prod.snd).count item + p.inFlight.count item

theorem Answered.move {p q : Protocol} {t : Thread} (h : Move p t q) (hl : LockIsHeld p)
    (ha : Answered p) : Answered q := by
  intro item
  have hp := ha item
  have hlock : (p.place t).locks = true → p.lock = some t := (hl t).mp
  cases h
  case offer here unlocked new =>
    rw [inFlight_of_unlocked unlocked] at hp
    rw [inFlight_goto_held _ _ _ rfl]
    simp only [goto, Place.undecided, List.count_append, List.count_nil] at hp ⊢
    omega
  case storeCleanup id here | storeBlock id here =>
    have held := hlock (by rw [here]; rfl)
    rw [inFlight_of_held held, here] at hp
    rw [inFlight_goto_held _ _ _ (by exact held)]
    simp only [goto, Place.undecided, List.count_append, List.count_nil] at hp ⊢
    omega
  case rejectCleanup id here | rejectBlock id here =>
    have held := hlock (by rw [here]; rfl)
    rw [inFlight_of_held held, here] at hp
    rw [inFlight_of_unlocked rfl]
    simp only [goto, Place.undecided, List.map_append, List.map_cons, List.map_nil,
      List.count_append, List.count_nil] at hp ⊢
    omega
  case unlock here | take here =>
    have held := hlock (by rw [here]; rfl)
    rw [inFlight_of_held held, here] at hp
    rw [inFlight_of_unlocked rfl]
    exact hp
  case seize here unlocked =>
    rw [inFlight_of_unlocked unlocked] at hp
    rw [inFlight_goto_held _ _ _ rfl]
    exact hp
  case stay => exact hp
  all_goals
    have here := ‹p.place t = _›
    rw [inFlight_goto _ _ _ (by show _ = (p.place t).undecided; rw [here]; rfl)]
    exact hp

/-! ### What the close takes -/

/-- A part of what the closing thread has taken. -/
def underRelease (p : Protocol) (part : Place → List Nat) : List Nat :=
  match p.closers with
  | [] => []
  | t :: _ => part (p.place t)

theorem underRelease_of_closer {p : Protocol} {t : Thread} (h : p.closers = [t])
    (part : Place → List Nat) : p.underRelease part = part (p.place t) := by
  rw [underRelease, h]

theorem underRelease_goto_closer (p : Protocol) (t : Thread) (x : Place)
    (part : Place → List Nat) (h : p.closers = [t]) : (p.goto t x).underRelease part = part x := by
  rw [underRelease_of_closer (p := p.goto t x) h, goto_place_self]

theorem underRelease_goto (p : Protocol) (t : Thread) (x : Place) (part : Place → List Nat)
    (same : part x = part (p.place t)) :
    (p.goto t x).underRelease part = p.underRelease part := by
  show (match p.closers with | [] => [] | u :: _ => part ((p.goto t x).place u)) =
    p.underRelease part
  rw [underRelease]
  split
  · rfl
  · rename_i u _ _
    by_cases hu : u = t
    · rw [hu, goto_place_self, same]
    · rw [goto_place_other p x hu]

/-- What was accepted has been released, or is taken to be released, or is still attached. -/
structure Accounted (p : Protocol) : Prop where
  cleanups : p.accepted.filterMap Item.cleanup? =
    p.ran ++ p.underRelease Place.toRun ++ p.cleanups
  blocks : p.accepted.filterMap Item.block? =
    p.freed ++ p.underRelease Place.toFree ++ p.blocks

theorem Accounted.move {p q : Protocol} {t : Thread} (h : Move p t q) (hd : Drains p)
    (hs : Staged p) (ha : Accounted p) : Accounted q := by
  obtain ⟨hc, hb⟩ := ha
  have hcloser : (p.place t).closes = true → p.closers = [t] := hs.closer t
  cases h
  case stay => exact ⟨hc, hb⟩
  case shut here alive =>
    have hnone := hd.once.unclosed alive
    have hnew : p.closers ++ [t] = [t] := by rw [hnone]; rfl
    rw [underRelease, hnone] at hc hb
    constructor
    · rw [underRelease_goto_closer _ _ _ _ (by exact hnew)]
      exact hc
    · rw [underRelease_goto_closer _ _ _ _ (by exact hnew)]
      exact hb
  case take here | runCleanup here | freeBlock here =>
    have hself := hcloser (by rw [here]; rfl)
    rw [underRelease_of_closer hself, here] at hc hb
    constructor
    · rw [underRelease_goto_closer _ _ _ _ (by exact hself)]
      simpa [goto, Place.toRun] using hc
    · rw [underRelease_goto_closer _ _ _ _ (by exact hself)]
      simpa [goto, Place.toFree] using hb
  case storeCleanup id here =>
    constructor
    · rw [underRelease_goto _ _ _ _ (by show _ = Place.toRun (p.place t); rw [here]; rfl)]
      show (p.accepted ++ [Item.cleanup id]).filterMap Item.cleanup? =
        p.ran ++ p.underRelease Place.toRun ++ (p.cleanups ++ [id])
      rw [List.filterMap_append, hc, List.append_assoc _ p.cleanups]
      rfl
    · rw [underRelease_goto _ _ _ _ (by show _ = Place.toFree (p.place t); rw [here]; rfl)]
      show (p.accepted ++ [Item.cleanup id]).filterMap Item.block? =
        p.freed ++ p.underRelease Place.toFree ++ p.blocks
      rw [List.filterMap_append, hb]
      exact List.append_nil _
  case storeBlock id here =>
    constructor
    · rw [underRelease_goto _ _ _ _ (by show _ = Place.toRun (p.place t); rw [here]; rfl)]
      show (p.accepted ++ [Item.block id]).filterMap Item.cleanup? =
        p.ran ++ p.underRelease Place.toRun ++ p.cleanups
      rw [List.filterMap_append, hc]
      exact List.append_nil _
    · rw [underRelease_goto _ _ _ _ (by show _ = Place.toFree (p.place t); rw [here]; rfl)]
      show (p.accepted ++ [Item.block id]).filterMap Item.block? =
        p.freed ++ p.underRelease Place.toFree ++ (p.blocks ++ [id])
      rw [List.filterMap_append, hb, List.append_assoc _ p.blocks]
      rfl
  all_goals
    have here := ‹p.place t = _›
    constructor
    · rw [underRelease_goto _ _ _ _ (by show _ = Place.toRun (p.place t); rw [here]; rfl)]
      exact hc
    · rw [underRelease_goto _ _ _ _ (by show _ = Place.toFree (p.place t); rw [here]; rfl)]
      exact hb

/-! ### What is turned away -/

/-- The blocks that were turned away, and who brought them. -/
def rejectedBlocks (p : Protocol) : List (Thread × Nat) :=
  p.rejected.filterMap fun (t, item) => item.block?.map fun id => (t, id)

/-- A thread whose block was turned away has freed it, or is about to. -/
def Discarded (p : Protocol) : Prop :=
  ∀ t id, p.rejectedBlocks.count (t, id) =
    p.discarded.count (t, id) + if p.place t = .discarding id then 1 else 0

theorem Discarded.move {p q : Protocol} {t : Thread} (h : Move p t q) (hd : Discarded p) :
    Discarded q := by
  intro u id
  have hp := hd u id
  by_cases hu : u = t
  · subst hu
    cases h
    case stay => exact hp
    case rejectCleanup here | rejectBlock here | discard here =>
      rw [goto_place_self]
      rw [here] at hp
      simp [goto, rejectedBlocks, Item.block?, List.filterMap_append, List.count_cons] at hp ⊢
      omega
    all_goals
      have here := ‹p.place u = _›
      rw [goto_place_self]
      rw [here] at hp
      exact hp
  · rw [h.place_other hu]
    have hut : ¬t = u := fun e => hu e.symm
    cases h
    case rejectBlock | discard =>
      simpa [goto, rejectedBlocks, Item.block?, List.filterMap_append, List.count_cons, hut]
        using hp
    case rejectCleanup =>
      simpa [goto, rejectedBlocks, Item.block?, List.filterMap_append] using hp
    all_goals exact hp

/-- Only a scope that is not alive turns things away. -/
structure Refuses (p : Protocol) : Prop where
  refusing : ∀ t item, p.place t = .rejecting item → p.phase ≠ .alive
  refused : p.rejected ≠ [] → p.phase ≠ .alive

theorem Refuses.move {p q : Protocol} {t : Thread} (h : Move p t q) (hr : Refuses p) :
    Refuses q := by
  constructor
  · intro u item hu
    by_cases hut : u = t
    · subst hut
      cases h
      case stay => exact hr.refusing u item hu
      case turnAway here ended => exact ended
      all_goals simp at hu
    · rw [h.place_other hut] at hu
      exact h.phase (hr.refusing u item hu)
  · intro hne
    cases h
    case rejectCleanup here => exact hr.refusing t _ here
    case rejectBlock here => exact hr.refusing t _ here
    case shut | commit => simp [goto]
    all_goals exact hr.refused hne

/-! ### Whole schedules -/

/-- What holds along every schedule. -/
structure Registers (p : Protocol) : Prop where
  drains : Drains p
  locked : LockIsHeld p
  staged : Staged p
  answered : Answered p
  accounted : Accounted p
  discarded : Discarded p
  refuses : Refuses p

theorem registers_initial : Registers {} where
  drains := drains_initial
  locked := fun _ => ⟨nofun, nofun⟩
  staged := ⟨nofun, nofun, nofun, nofun, nofun, nofun⟩
  answered := fun _ => rfl
  accounted := ⟨rfl, rfl⟩
  discarded := fun _ _ => rfl
  refuses := ⟨nofun, fun h => absurd rfl h⟩

theorem Registers.move {p q : Protocol} {t : Thread} (h : Move p t q) (hr : Registers p) :
    Registers q where
  drains := hr.drains.move h
  locked := hr.locked.move h
  staged := hr.staged.move h hr.drains hr.locked
  answered := hr.answered.move h hr.locked
  accounted := hr.accounted.move h hr.drains hr.staged
  discarded := hr.discarded.move h
  refuses := hr.refuses.move h

theorem registers_after (turns : List Turn) : Registers (after turns) :=
  run_keeps Registers.move registers_initial turns

/-- The close has taken what was attached. -/
structure Taken (p : Protocol) : Prop where
  registers : Registers p
  closed : p.phase = .closed
  past : ∀ t, p.place t ≠ .taking

theorem Taken.empty {p : Protocol} (h : Taken p) : p.cleanups = [] ∧ p.blocks = [] :=
  (h.registers.staged.taken h.closed).resolve_left fun ⟨t, ht⟩ => h.past t ht

theorem Taken.move {p q : Protocol} {t : Thread} (h : Move p t q) (ht : Taken p) : Taken q := by
  refine ⟨ht.registers.move h, ?_, fun u hu => ?_⟩
  · cases h
    case shut here alive => exact absurd (alive.symm.trans ht.closed) (by decide)
    case commit => rfl
    all_goals exact ht.closed
  · by_cases hut : u = t
    · subst hut
      cases h
      case stay => exact ht.past u hu
      case commit here =>
        -- A thread about to commit would have found the scope closing.
        have hclosing := ht.registers.staged.waiting u (by rw [here]; rfl)
        exact absurd (hclosing.symm.trans ht.closed) (by decide)
      all_goals simp at hu
    · rw [h.place_other hut] at hu
      exact ht.past u hu

theorem Registers.take {p : Protocol} (hr : Registers p) {t : Thread} (here : p.place t = .taking) :
    Taken (p.turn (.proceed t)) := by
  have hclosed := hr.staged.ending t (by rw [here]; rfl)
  have hnext : p.turn (.proceed t) =
      { p with lock := none, cleanups := [], blocks := [] }.goto t
        (.releasing p.cleanups p.blocks) := by
    simp only [Protocol.turn, next, here]
  refine ⟨hr.move (p.turn_move (.proceed t)), by rw [hnext]; exact hclosed, fun u hu => ?_⟩
  by_cases hut : u = t
  · subst hut
    rw [hnext, goto_place_self] at hu
    cases hu
  · rw [hnext, goto_place_other _ _ hut] at hu
    exact hut (hr.staged.unique (t := t) (by rw [here]; rfl)
      (by show (p.place u).closes = true; rw [show p.place u = .taking from hu]; rfl))

/-! ### When all is over -/

theorem count_block (items : List Item) (id : Nat) :
    (items.filterMap Item.block?).count id = items.count (.block id) := by
  induction items with
  | nil => rfl
  | cons item rest ih =>
    cases item with
    | cleanup other =>
      rw [List.filterMap_cons_none rfl, List.count_cons_of_ne (by simp), ih]
    | block other =>
      rw [List.filterMap_cons_some (show Item.block? (.block other) = some other from rfl),
        List.count_cons, List.count_cons, ih]
      simp

theorem map_rejectedBlocks (p : Protocol) :
    p.rejectedBlocks.map Prod.snd = (p.rejected.map Prod.snd).filterMap Item.block? := by
  rw [rejectedBlocks, List.map_filterMap, List.filterMap_map]
  congr 1
  funext entry
  cases h : entry.2 with
  | cleanup id => simp [Item.block?, h]
  | block id => simp [Item.block?, h]

/-- Every operation is over, and one of them was a close that went through. -/
structure Over (p : Protocol) : Prop where
  closed : p.closers ≠ []
  idle : ∀ t, p.place t = .idle

theorem Registers.taken_of_over {p : Protocol} (hr : Registers p) (ho : Over p) : Taken p := by
  refine ⟨hr, ?_, fun t ht => by rw [ho.idle t] at ht; cases ht⟩
  cases hphase : p.phase with
  | alive => exact absurd (hr.drains.once.unclosed hphase) ho.closed
  | closing =>
    obtain ⟨t, ht⟩ := hr.staged.underWay hphase
    rw [ho.idle t] at ht
    cases ht
  | closed => rfl

theorem underRelease_of_idle {p : Protocol} (idle : ∀ t, p.place t = .idle)
    (part : Place → List Nat) (none : part .idle = []) : p.underRelease part = [] := by
  rw [underRelease]
  split
  · rfl
  · rw [idle, none]

theorem inFlight_of_idle {p : Protocol} (idle : ∀ t, p.place t = .idle) : p.inFlight = [] := by
  rw [inFlight]
  split
  · rfl
  · rw [idle]
    rfl

/-- **Nothing attached is lost in a close.** In every schedule what was brought is accepted, turned
away, or waits. When all is over the close has run exactly the accepted cleanups and freed exactly
the accepted blocks, and every block has been freed once, by the close or by who brought it. -/
theorem close_settles_registrations (turns : List Turn) :
    Answered (after turns) ∧ Accounted (after turns) ∧ Discarded (after turns) ∧
    ((after turns).rejected ≠ [] → (after turns).phase ≠ .alive) ∧
    (∀ t, (after turns).place t = .taking → ∀ later,
      (((after turns).turn (.proceed t)).run later).cleanups = [] ∧
      (((after turns).turn (.proceed t)).run later).blocks = []) ∧
    (Over (after turns) →
      (after turns).ran = (after turns).accepted.filterMap Item.cleanup? ∧
      (after turns).freed = (after turns).accepted.filterMap Item.block? ∧
      (after turns).discarded.Perm (after turns).rejectedBlocks ∧
      ∀ id, (after turns).offered.count (.block id) =
        (after turns).freed.count id + ((after turns).discarded.map Prod.snd).count id) := by
  have hr := registers_after turns
  generalize after turns = p at hr
  refine ⟨hr.answered, hr.accounted, hr.discarded, hr.refuses.refused, fun t here later => ?_,
    fun ho => ?_⟩
  · exact (run_keeps Taken.move (hr.take here) later).empty
  · obtain ⟨hcleanups, hblocks⟩ := (hr.taken_of_over ho).empty
    have hran := hr.accounted.cleanups
    have hfreed := hr.accounted.blocks
    rw [underRelease_of_idle ho.idle _ rfl, hcleanups, List.append_nil, List.append_nil] at hran
    rw [underRelease_of_idle ho.idle _ rfl, hblocks, List.append_nil, List.append_nil] at hfreed
    have hperm : p.discarded.Perm p.rejectedBlocks := by
      rw [List.perm_iff_count]
      rintro ⟨t, id⟩
      have hcount := hr.discarded t id
      rw [ho.idle t, if_neg (by simp)] at hcount
      exact hcount.symm
    refine ⟨hran.symm, hfreed.symm, hperm, fun id => ?_⟩
    have hanswer := hr.answered (.block id)
    rw [inFlight_of_idle ho.idle, ← count_block p.accepted, hfreed,
      ← count_block (p.rejected.map Prod.snd), ← map_rejectedBlocks,
      ← (hperm.map Prod.snd).count_eq] at hanswer
    exact hanswer

/-- A block is stored while the close waits, a cleanup comes too late and a block is turned away. -/
def contendedClose : List Turn :=
  [.begin 1 (.attach (.cleanup 7)), .proceed 1, .proceed 1, .proceed 1,
    .begin 3 (.attach (.block 8)), .proceed 3, .begin 2 .close, .proceed 2, .proceed 2, .proceed 3,
    .proceed 3, .begin 4 (.attach (.block 9)), .proceed 4, .proceed 4, .proceed 2, .proceed 2,
    .proceed 4, .proceed 2, .begin 1 (.attach (.cleanup 10)), .proceed 1, .proceed 1, .proceed 2,
    .proceed 2, .proceed 2]

theorem contendedClose_idle (t : Thread) : (after contendedClose).place t = .idle := by
  by_cases h : t ∈ contendedClose.map Turn.thread
  · have hall : ∀ u ∈ contendedClose.map Turn.thread, (after contendedClose).place u = .idle := by
      decide
    exact hall t h
  · exact run_place_other {} contendedClose fun turn hturn ht =>
      h (List.mem_map.mpr ⟨turn, hturn, ht⟩)

theorem close_settles_registrations_contended :
    Over (after contendedClose) ∧ (after contendedClose).rejected ≠ [] ∧
      (after contendedClose).ran = [7] ∧ (after contendedClose).freed = [8] ∧
      (after contendedClose).discarded.Perm [(4, 9)] := by
  have hover : Over (after contendedClose) := ⟨by decide, contendedClose_idle⟩
  obtain ⟨hran, hfreed, hdiscarded, -⟩ :=
    (close_settles_registrations contendedClose).2.2.2.2.2 hover
  exact ⟨hover, by decide, hran.trans (by decide), hfreed.trans (by decide), hdiscarded⟩

end Protocol

end ScopedMemory.SharedClose
