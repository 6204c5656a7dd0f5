import ScopedMemory.Proofs.Inertness

/-! What is said of a scope that is not alive.

Whoever uses a scope that is not alive is to hear just that, or that the request makes no sense. The
check of a range looks at the scope first. Some accesses compute where they go before they get to
it, and taking up a cleanup asks for the owner first: what is wrong there is said in its place
(`Access.early?`). Nothing else gets ahead of the scope. -/
namespace ScopedMemory

/-- What may be said of a scope that is not alive: so much, or that the request makes no sense. -/
def AccessError.yields : AccessError → Bool
  | .scopeNotAlive | .illegalArgument _ | .unsupportedKind .. => true
  | _ => false

/-- An access to segments, or the binding of one to a scope. -/
inductive Access where
  | get {c : Carrier} (x : Segment) (layout : ValueLayout c) (offset : Word)
  | getAt {c : Carrier} (x : Segment) (layout : ValueLayout c) (index : Word)
  | set {c : Carrier} (x : Segment) (layout : ValueLayout c) (offset : Word) (value : c.Value)
  | setAt {c : Carrier} (x : Segment) (layout : ValueLayout c) (index : Word) (value : c.Value)
  | getAddress (x : Segment) (layout : AddressLayout) (offset : Word)
  | getAddressAt (x : Segment) (layout : AddressLayout) (index : Word)
  | setAddress (x : Segment) (layout : AddressLayout) (offset : Word) (value : Segment)
  | setAddressAt (x : Segment) (layout : AddressLayout) (index : Word) (value : Segment)
  | values {c : Carrier} (x : Segment) (layout : ValueLayout c)
  | readRun {c : Carrier} (x : Segment) (layout : ValueLayout c) (offset count : Word)
  | writeRun {c : Carrier} (x : Segment) (layout : ValueLayout c) (offset : Word)
      (vs : List c.Value)
  | getText (x : Segment) (offset : Word)
  | setText (x : Segment) (offset : Word) (text : String)
  | fill (x : Segment) (byte : UInt8)
  | copy (source : Segment) (sourceOffset : Word) (target : Segment) (targetOffset length : Word)
  | copyAll (source target : Segment)
  | copyElements {c d : Carrier} (source : Segment) (sourceLayout : ValueLayout c)
      (sourceOffset : Word) (target : Segment) (targetLayout : ValueLayout d)
      (targetOffset count : Word)
  | mismatch (a b : Segment)
  | mismatchRange (a : Segment) (aStart aStop : Word) (b : Segment) (bStart bStop : Word)
  | sliceFrom (x : Segment) (offset : Word)
  | slice (x : Segment) (offset size alignment : Word)
  | rebind (token : Token) (x : Segment) (size : Word) (scope : ScopeId)
      (cleanup : Option (String × Script))

namespace Access

/-- The scopes that must be alive: those of the segments accessed, or the one to be bound to. -/
def scopes : Access → List ScopeId
  | .get x .. | .getAt x .. | .set x .. | .setAt x .. | .getAddress x .. | .getAddressAt x ..
  | .setAddress x .. | .setAddressAt x .. | .values x _ | .readRun x .. | .writeRun x ..
  | .getText x _ | .setText x .. | .fill x _ | .sliceFrom x _ | .slice x .. => [x.scope]
  | .copy source _ target .. | .copyAll source target | .copyElements source _ _ target .. =>
    [source.scope, target.scope]
  | .mismatch a b | .mismatchRange a _ _ b .. => [a.scope, b.scope]
  | .rebind _ _ _ scope _ => [scope]

/-- How the access ends. -/
def outcome (t : Thread) (s : State) : Access → Except AccessError Unit
  | .get x layout offset => discard (s.get t x layout offset)
  | .getAt x layout index => discard (s.getAt t x layout index)
  | .set x layout offset value => discard (s.set t x layout offset value)
  | .setAt x layout index value => discard (s.setAt t x layout index value)
  | .getAddress x layout offset => discard (s.getAddress t x layout offset)
  | .getAddressAt x layout index => discard (s.getAddressAt t x layout index)
  | .setAddress x layout offset value => discard (s.setAddress t x layout offset value)
  | .setAddressAt x layout index value => discard (s.setAddressAt t x layout index value)
  | .values x layout => discard (s.values t x layout)
  | .readRun x layout offset count => discard (s.readRun t x layout offset count)
  | .writeRun x layout offset vs => discard (s.writeRun t x layout offset vs)
  | .getText x offset => discard (s.getText t x offset)
  | .setText x offset text => discard (s.setText t x offset text)
  | .fill x byte => discard (s.fill t x byte)
  | .copy source sourceOffset target targetOffset length =>
    discard (s.copy t source sourceOffset target targetOffset length)
  | .copyAll source target => discard (s.copyAll t source target)
  | .copyElements source sourceLayout sourceOffset target targetLayout targetOffset count =>
    discard (s.copyElements t source sourceLayout sourceOffset target targetLayout targetOffset
      count)
  | .mismatch a b => discard (s.mismatch t a b)
  | .mismatchRange a aStart aStop b bStart bStop =>
    discard (s.mismatchRange t a aStart aStop b bStart bStop)
  | .sliceFrom x offset => discard (s.sliceFrom x offset)
  | .slice x offset size alignment => discard (s.slice x offset size alignment)
  | .rebind token x size scope cleanup => discard (s.rebind t token x size scope cleanup)

/-! ### Before the scope -/

/-- An index of elements that are not too strictly aligned lies beyond all words. -/
def indexTooFar? (x : Segment) (shape : Shape) (index : Word) : Option AccessError :=
  if shape.alignment.bytes ≤ shape.size ∧ Word.limit ≤ index.toNat * shape.size.toNat then
    some (.outOfBounds Word.last shape.size x.size)
  else none

/-- A run of values has more bytes than a word can say. -/
def runTooLong? (c : Carrier) (x : Segment) (offset : Word) (count : Nat) : Option AccessError :=
  if Word.limit ≤ count * c.size then some (.outOfBounds offset Word.last x.size) else none

/-- A range ends before it starts. -/
def turned? (x : Segment) (start stop : Word) : Option AccessError :=
  if stop < start then some (.outOfBounds start 0 x.size) else none

/-- A text starts behind the end. -/
def textBeyond? (x : Segment) (offset : Word) : Option AccessError :=
  if x.size < offset then some (.outOfBounds offset 1 x.size) else none

/-- Elements that could be copied are too many. -/
def tooMany? {c d : Carrier} (source : Segment) (sourceLayout : ValueLayout c) (sourceOffset : Word)
    (targetLayout : ValueLayout d) (count : Word) : Option AccessError :=
  if c.width = d.width ∧ sourceLayout.alignment.bytes ≤ c.width ∧
      targetLayout.alignment.bytes ≤ c.width then
    runTooLong? c source sourceOffset count.toNat
  else none

/-- A cleanup of a segment off the heap is registered by a thread that does not own the scope. -/
def foreignCleanup? (t : Thread) (s : State) (x : Segment) (scope : ScopeId) : Option AccessError :=
  if x.backing.isHeap = false ∧ (s.scope scope).discipline.accessibleBy t = false then
    some .wrongThread
  else none

/-- What is said in place of the scope. -/
def early? (t : Thread) (s : State) : Access → Option AccessError
  | .getAt x layout index | .setAt x layout index _ => indexTooFar? x layout.shape index
  | .getAddressAt x layout index | .setAddressAt x layout index _ =>
    indexTooFar? x layout.shape index
  | @readRun c x _ offset count => runTooLong? c x offset count.toNat
  | @writeRun c x _ offset vs => runTooLong? c x offset vs.length
  | .getText x offset => textBeyond? x offset
  | .copyElements source sourceLayout sourceOffset _ targetLayout _ count =>
    tooMany? source sourceLayout sourceOffset targetLayout count
  | .mismatchRange a aStart aStop b bStart bStop =>
    (turned? a aStart aStop).or (turned? b bStart bStop)
  | .rebind _ x _ scope (some _) => foreignCleanup? t s x scope
  | _ => none

end Access

/-- The result is an error: the early one, if there is one, and otherwise one that yields to the
scope. -/
def Heeds {α : Type} (early : Option AccessError) (r : Except AccessError α) : Prop :=
  ∃ e, r = .error e ∧ (early = some e ∧ e.yields = false ∨ early = none ∧ e.yields = true)

namespace Heeds
variable {α β : Type} {early : Option AccessError} {r : Except AccessError α}

theorem of_yields {e : AccessError} (h : r = .error e) (yields : e.yields = true) : Heeds none r :=
  ⟨e, h, .inr ⟨rfl, yields⟩⟩

theorem of_early {e : AccessError} (h : r = .error e) (yields : e.yields = false) :
    Heeds (some e) r :=
  ⟨e, h, .inl ⟨rfl, yields⟩⟩

theorem of_dead (h : r = .error .scopeNotAlive) : Heeds none r := of_yields h rfl

/-- The first to fail decides. -/
theorem bind {f : α → Except AccessError β} (h : Heeds early r) : Heeds early (r >>= f) := by
  obtain ⟨e, rfl, he⟩ := h
  exact ⟨e, rfl, he⟩

theorem discard (h : Heeds early r) : Heeds early (discard r) := by
  obtain ⟨e, rfl, he⟩ := h
  exact ⟨e, rfl, he⟩

open Access

theorem indexed {x : Segment} {shape : Shape} {index : Word} {f : Word → Except AccessError α}
    (h : ∀ offset, Heeds none (f offset)) :
    Heeds (indexTooFar? x shape index) (State.indexOffset x shape index >>= f) := by
  unfold indexTooFar? State.indexOffset
  dsimp only
  by_cases hstrict : shape.size < shape.alignment.bytes
  · rw [if_pos hstrict, if_neg fun h => UInt64.not_le.mpr hstrict h.1]
    exact of_yields rfl rfl
  · by_cases hfar : index.toNat * shape.size.toNat < Word.limit
    · have hproduct : index.mul? shape.size = some (index * shape.size) := if_pos hfar
      rw [if_neg hstrict, if_neg fun h => Nat.not_le.mpr hfar h.2, hproduct]
      exact h _
    · have hproduct : index.mul? shape.size = none := if_neg hfar
      rw [if_neg hstrict, if_pos ⟨UInt64.not_lt.mp hstrict, Nat.le_of_not_lt hfar⟩, hproduct]
      exact .of_early rfl rfl

theorem run {c : Carrier} {x : Segment} {offset : Word} {count : Nat}
    {f : Word → Except AccessError α} (h : ∀ length, Heeds none (f length)) :
    Heeds (runTooLong? c x offset count) (State.runLength c x offset count >>= f) := by
  unfold runTooLong? State.runLength
  by_cases hlong : count * c.size < Word.limit
  · rw [if_pos hlong, if_neg (Nat.not_le.mpr hlong)]
    exact h _
  · rw [if_neg hlong, if_pos (Nat.le_of_not_lt hlong)]
    exact .of_early rfl rfl

/-- One range is measured, and then what comes next. -/
theorem ranged {x : Segment} {start stop : Word} {f : Word → Except AccessError α}
    (h : ∀ length, Heeds early (f length)) :
    Heeds ((turned? x start stop).or early) (State.rangeLength x start stop >>= f) := by
  unfold turned? State.rangeLength
  by_cases hturned : stop < start
  · have hlength : stop.sub? start = none := if_neg (UInt64.not_le.mpr hturned)
    rw [if_pos hturned, hlength]
    exact .of_early rfl rfl
  · have hlength : stop.sub? start = some (stop - start) := if_pos (UInt64.not_lt.mp hturned)
    rw [if_neg hturned, hlength]
    exact h _

end Heeds

namespace State.Shut
variable {s : State} {t : Thread} {id : ScopeId} {x : Segment}

theorem check_eq (h : s.Shut x.scope) (t : Thread) (offset length alignment : Word)
    (mode : AccessMode) : s.check t x offset length alignment mode = .error .scopeNotAlive := by
  unfold State.check checkRange
  rw [h.entry t]
  rfl

theorem heeds (h : s.Shut x.scope) {α : Type} {offset length alignment : Word} {mode : AccessMode}
    {f : Unit → Except AccessError α} : Heeds none (s.check t x offset length alignment mode >>= f) :=
  (Heeds.of_dead (h.check_eq t _ _ _ _)).bind

theorem heeds_slice (h : s.Shut x.scope) (offset size alignment : Word) :
    Heeds none (s.slice x offset size alignment) := by
  unfold State.slice Alignment.ofBytes
  cases Alignment.ofBytes? alignment with
  | none => exact .of_yields rfl rfl
  | some a => exact (Heeds.of_dead h.alive).bind

theorem heeds_setAddress (h : s.Shut x.scope) (layout : AddressLayout) (offset : Word)
    (value : Segment) : Heeds none (s.setAddress t x layout offset value) := by
  unfold State.setAddress
  split
  · exact .of_yields rfl rfl
  · exact h.heeds

theorem heeds_values {c : Carrier} (h : s.Shut x.scope) (layout : ValueLayout c) :
    Heeds none (s.values t x layout) := by
  unfold State.values State.checkValues
  split
  · exact .of_yields rfl rfl
  · exact h.heeds

theorem heeds_getText (h : s.Shut x.scope) (offset : Word) :
    Heeds (Access.textBeyond? x offset) (s.getText t x offset) := by
  unfold State.getText Access.textBeyond?
  by_cases hbeyond : x.size < offset
  · have hsize : x.size.sub? offset = none := if_neg (UInt64.not_le.mpr hbeyond)
    rw [if_pos hbeyond, hsize]
    exact .of_early rfl rfl
  · have hsize : x.size.sub? offset = some (x.size - offset) := if_pos (UInt64.not_lt.mp hbeyond)
    rw [if_neg hbeyond, hsize]
    exact h.heeds

theorem heeds_checkElements {c d : Carrier} (h : s.Shut x.scope) {target : Segment}
    (sourceLayout : ValueLayout c) (layout : ValueLayout d) (sourceOffset offset count : Word) :
    Heeds (Access.tooMany? x sourceLayout sourceOffset layout count)
      (s.checkElements t x sourceLayout sourceOffset target layout offset count) := by
  unfold State.checkElements Access.tooMany?
  dsimp only
  by_cases hwidths : c.width = d.width
  · rw [if_neg (not_not.mpr hwidths)]
    by_cases hsource : c.width < sourceLayout.alignment.bytes
    · rw [if_pos hsource, if_neg fun h => UInt64.not_le.mpr hsource h.2.1]
      exact .of_yields rfl rfl
    · by_cases htarget : c.width < layout.alignment.bytes
      · rw [if_neg hsource, if_pos htarget, if_neg fun h => UInt64.not_le.mpr htarget h.2.2]
        exact .of_yields rfl rfl
      · rw [if_neg hsource, if_neg htarget,
          if_pos ⟨hwidths, UInt64.not_lt.mp hsource, UInt64.not_lt.mp htarget⟩]
        by_cases hlong : count.toNat * c.size < Word.limit
        · have hlength : count.mul? c.width = some (count * c.width) :=
            if_pos (by rwa [Carrier.toNat_width])
          rw [Access.runTooLong?, if_neg (Nat.not_le.mpr hlong), hlength]
          exact h.heeds
        · have hlength : count.mul? c.width = none := if_neg (by rwa [Carrier.toNat_width])
          rw [Access.runTooLong?, if_pos (Nat.le_of_not_lt hlong), hlength]
          exact .of_early rfl rfl
  · rw [if_pos hwidths, if_neg fun h => hwidths h.1]
    exact .of_yields rfl rfl

/-- Taking up a cleanup asks for the owner first. -/
theorem heeds_attach (h : s.Shut id) (cleanup : Cleanup) (off : x.backing.isHeap = false) :
    Heeds (Access.foreignCleanup? t s x id) (s.attachCleanup t id cleanup) := by
  refine Heeds.bind ?_
  unfold checkAttach checkOwner Access.foreignCleanup?
  cases (s.scope id).discipline.accessibleBy t with
  | true =>
    rw [if_neg fun h => Bool.false_ne_true h.2.symm]
    exact .of_dead h.alive
  | false =>
    rw [if_pos ⟨off, rfl⟩]
    exact .of_early rfl rfl

theorem heeds_rebind (h : s.Shut id) (token : Token) (size : Word)
    (cleanup : Option (String × Script)) :
    Heeds (Access.early? t s (.rebind token x size id cleanup))
      (s.rebind t token x size id cleanup) := by
  unfold State.rebind checkOffHeap
  cases hheap : x.backing.isHeap with
  | true =>
    cases cleanup with
    | none => exact .of_yields rfl rfl
    | some cleanup =>
      have hnone : Access.foreignCleanup? t s x id = none :=
        if_neg fun h => Bool.false_ne_true (h.1.symm.trans hheap)
      show Heeds (Access.foreignCleanup? t s x id) _
      rw [hnone]
      exact .of_yields rfl rfl
  | false =>
    cases cleanup with
    | none => exact (Heeds.of_dead (h.entry t)).bind
    | some cleanup => exact (h.heeds_attach _ hheap).bind

/-- Both ranges are measured before the scopes are asked. -/
theorem heeds_mismatchRange {y : Segment} (h : s.Shut x.scope) (xStart xStop yStart yStop : Word) :
    Heeds ((Access.turned? x xStart xStop).or (Access.turned? y yStart yStop))
      (s.mismatchRange t x xStart xStop y yStart yStop) := by
  refine Heeds.ranged fun xLength => ?_
  rw [← Option.or_none (o := Access.turned? y yStart yStop)]
  exact Heeds.ranged fun yLength => h.heeds

end State.Shut

open State in
/-- **Every access to scopes that are not alive heeds them**, but for what is found wrong early. -/
theorem Access.heeds {s : State} (t : Thread) (a : Access) (shut : ∀ id ∈ a.scopes, s.Shut id) :
    Heeds (a.early? t s) (a.outcome t s) := by
  cases a with
  | get x layout offset => exact (shut x.scope (List.mem_singleton_self _)).heeds.discard
  | getAt x layout index =>
    have hx := shut x.scope (List.mem_singleton_self _)
    exact (Heeds.indexed fun _ => hx.heeds).discard
  | set x layout offset value => exact (shut x.scope (List.mem_singleton_self _)).heeds.discard
  | setAt x layout index value =>
    have hx := shut x.scope (List.mem_singleton_self _)
    exact (Heeds.indexed fun _ => hx.heeds).discard
  | getAddress x layout offset => exact (shut x.scope (List.mem_singleton_self _)).heeds.discard
  | getAddressAt x layout index =>
    have hx := shut x.scope (List.mem_singleton_self _)
    exact (Heeds.indexed fun _ => hx.heeds).discard
  | setAddress x layout offset value =>
    exact ((shut x.scope (List.mem_singleton_self _)).heeds_setAddress layout offset value).discard
  | setAddressAt x layout index value =>
    have hx := shut x.scope (List.mem_singleton_self _)
    exact (Heeds.indexed fun offset => hx.heeds_setAddress layout offset value).discard
  | values x layout => exact ((shut x.scope (List.mem_singleton_self _)).heeds_values layout).discard
  | readRun x layout offset count =>
    have hx := shut x.scope (List.mem_singleton_self _)
    exact (Heeds.run fun _ => hx.heeds).discard
  | writeRun x layout offset vs =>
    have hx := shut x.scope (List.mem_singleton_self _)
    exact (Heeds.run fun _ => hx.heeds).discard
  | getText x offset => exact ((shut x.scope (List.mem_singleton_self _)).heeds_getText offset).discard
  | setText x offset text =>
    exact ((shut x.scope (List.mem_singleton_self _)).heeds_slice _ _ _).bind.discard
  | fill x byte => exact (shut x.scope (List.mem_singleton_self _)).heeds.discard
  | copy source sourceOffset target targetOffset length =>
    exact (shut source.scope (List.mem_cons_self ..)).heeds.discard
  | copyAll source target => exact (shut source.scope (List.mem_cons_self ..)).heeds.discard
  | copyElements source sourceLayout sourceOffset target targetLayout targetOffset count =>
    have hsource := shut source.scope (List.mem_cons_self ..)
    exact (hsource.heeds_checkElements sourceLayout targetLayout _ _ _).bind.discard
  | mismatch a b =>
    have ha := shut a.scope (List.mem_cons_self ..)
    have hstraight : ∀ x : Segment, Access.turned? x 0 x.size = none := fun x =>
      if_neg (UInt64.not_lt.mpr (UInt64.zero_le ..))
    have hheeds := ha.heeds_mismatchRange (t := t) (y := b) 0 a.size 0 b.size
    rw [hstraight, hstraight] at hheeds
    exact hheeds.discard
  | mismatchRange a aStart aStop b bStart bStop =>
    have ha := shut a.scope (List.mem_cons_self ..)
    exact (ha.heeds_mismatchRange aStart aStop bStart bStop).discard
  | sliceFrom x offset =>
    exact (Heeds.of_dead (shut x.scope (List.mem_singleton_self _)).alive).bind.discard
  | slice x offset size alignment =>
    exact ((shut x.scope (List.mem_singleton_self _)).heeds_slice _ _ _).discard
  | rebind token x size scope cleanup =>
    exact ((shut scope (List.mem_singleton_self _)).heeds_rebind token size cleanup).discard

namespace State

/-- **Liveness comes first, with exceptions.** In every state that a run can get to, an access to
scopes that are kept and not alive fails. It says so, or that the request makes no sense, exactly if
nothing is found wrong before the scopes are asked. -/
theorem liveness_reported_unless_early (system : System) {s : State}
    (reached : Path (initial system) s) (t : Thread) (a : Access)
    (dead : ∀ id ∈ a.scopes, s.keepsScope id = true ∧ s.isAlive id = false) :
    ∃ e, a.outcome t s = .error e ∧ (e.yields = true ↔ a.early? t s = none) ∧
      ∀ early, a.early? t s = some early → e = early := by
  have hk := reached.keptLast (initial_keptLast system)
  obtain ⟨e, houtcome, hsaid⟩ := a.heeds t fun id hid => hk.shut (dead id hid).1 (dead id hid).2
  refine ⟨e, houtcome, ?_, fun early hearly => ?_⟩
  · rcases hsaid with ⟨hearly, hyields⟩ | ⟨hearly, hyields⟩
    · simp [hearly, hyields]
    · simp [hearly, hyields]
  · rcases hsaid with ⟨hsome, -⟩ | ⟨hnone, -⟩
    · exact Option.some.inj (hsome.symm.trans hearly)
    · rw [hnone] at hearly
      cases hearly

/-- A confined arena with a segment, closed by its owner. -/
def closedConfined : State := after .bump 1
  [some ⟨1, .openArena "a" .confined none⟩,
    some ⟨1, .allocate (.arena "a") (.bytes 8 8) (some "x")⟩,
    some ⟨1, .closeArena "a"⟩]

/-- On another thread and behind the end of its segment, a read yields to the closed scope. A text
is out of bounds there, an index that is too large for a word too, and a cleanup is refused for the
thread. -/
theorem liveness_reported_unless_early_closed :
    let x : Segment := ⟨68719476736, 8, .native, false, 1⟩
    closedConfined.segmentNamed "x" = .ok x ∧ closedConfined.isAlive 1 = false ∧
    (∃ e, (Access.get x (.natural .int) 9).outcome 2 closedConfined = .error e ∧ e.yields = true) ∧
    (Access.getText x 9).outcome 2 closedConfined = .error (.outOfBounds 9 1 8) ∧
    (Access.getAt x (.natural .int) 4611686018427387904).outcome 2 closedConfined =
      .error (.outOfBounds Word.last 4 8) ∧
    (Access.rebind ⟨"driver"⟩ x 8 1 (some ("c", []))).outcome 2 closedConfined =
      .error .wrongThread := by
  have hdead : ∀ id ∈ [1], closedConfined.keepsScope id = true ∧
      closedConfined.isAlive id = false := by
    intro id hid
    rw [List.mem_singleton.mp hid]
    exact ⟨rfl, rfl⟩
  have hpath : Path (initial .bump) closedConfined := (after_reached .bump 1 _).path
  have hsaid : ∀ a : Access, a.scopes = [1] → ∀ early, a.early? 2 closedConfined = some early →
      a.outcome 2 closedConfined = .error early := by
    intro a hscopes early hearly
    obtain ⟨e, houtcome, -, hinstead⟩ :=
      liveness_reported_unless_early .bump hpath 2 a (hscopes.symm ▸ hdead)
    rw [houtcome, hinstead early hearly]
  obtain ⟨e, hread, hyields, -⟩ := liveness_reported_unless_early .bump hpath 2
    (.get ⟨68719476736, 8, .native, false, 1⟩ (.natural .int) 9) hdead
  exact ⟨rfl, rfl, ⟨e, hread, hyields.mpr rfl⟩, hsaid _ rfl _ rfl, hsaid _ rfl _ rfl,
    hsaid _ rfl _ rfl⟩

end State

end ScopedMemory
