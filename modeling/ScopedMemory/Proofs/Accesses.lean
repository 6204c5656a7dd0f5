import ScopedMemory.Proofs.Entering

/-! What every access enters.

A query reads memory from inside of the scopes of the segments it names, and a change writes it so;
copies and comparisons are inside of two scopes at once, which may be the same. Seen from outside,
that is the answer (`query_eq`) and the change in place (`change_eq`). -/
namespace ScopedMemory

open InPlace

/-! ### Queries -/

/-- Where a value at a position starts. -/
def Position.start (x : Segment) (shape : Shape) : Position → Except AccessError Word
  | .offset bytes => .ok bytes
  | .index elements => State.indexOffset x shape elements

/-- What is to be read: the scopes to enter, and how memory is read inside. -/
structure Reading where
  gates : List Gate
  read : Memory → Except Fault Answer

namespace Reading

/-- Reads no memory. -/
def direct (answer : Except Fault Answer) : Reading := ⟨[], fun _ => answer⟩

def value {c : Carrier} (x : Segment) (layout : ValueLayout c) (offset : Word)
    (answer : c.Value → Answer) : Reading where
  gates := [x.gate offset c.width layout.alignment.bytes .read]
  read memory :=
    .ok (answer (c.decode layout.order (memory.bytes x.space (x.address + offset) c.size)))

/-- Reads a segment as a whole number of values. -/
def values {c : Carrier} (x : Segment) (layout : ValueLayout c) (answer : List c.Value → Answer) :
    Except Fault Reading := do
  if x.size % c.width ≠ 0 then
    throw (.access (.illegalArgument (.unevenCarrier x.size c.name c.width)))
  return {
    gates := [x.gate 0 x.size layout.alignment.bytes .read]
    read := fun memory => do
      gathering x.size.toNat
      return answer (c.decodeAll layout.order (x.size / c.width).toNat
        (memory.bytes x.space (x.address + 0) x.size.toNat)) }

def run {c : Carrier} (x : Segment) (layout : ValueLayout c) (offset count : Word)
    (answer : List c.Value → Answer) : Except Fault Reading := do
  let length ← access (State.runLength c x offset count.toNat)
  return {
    gates := [x.gate offset length layout.alignment.bytes .read]
    read := fun memory => return answer (c.decodeAll layout.order count.toNat
      (memory.bytes x.space (x.address + offset) length.toNat)) }

def text (x : Segment) (offset : Word) : Except Fault Reading :=
  match x.size.sub? offset with
  | none => .error (.access (.outOfBounds offset 1 x.size))
  | some remaining => .ok {
      gates := [x.gate offset remaining 1 .read]
      read := fun memory =>
        match memory.find? x.space (x.address + offset) remaining.toNat 0 with
        | none => .error (.access (.outOfBounds offset (remaining + 1) x.size))
        | some length =>
          .ok (.text (Text.Utf8.decode (memory.bytes x.space (x.address + offset) length))) }

/-- Compares two ranges from inside of both scopes. -/
def mismatch (a : Segment) (aStart aStop : Word) (b : Segment) (bStart bStop : Word) :
    Except Fault Reading := do
  let aLength ← access (State.rangeLength a aStart aStop)
  let bLength ← access (State.rangeLength b bStart bStop)
  let shorter := min aLength bLength
  return {
    gates := [a.gate aStart aLength 1 .read, b.gate bStart bLength 1 .read]
    read := fun memory =>
      match memory.firstDifference? a.space (a.address + aStart) b.space (b.address + bStart)
          shorter.toNat with
      | some i => .ok (.number (UInt64.ofNat i))
      | none => .ok (if aLength = bLength then .nothing else .number shorter) }

end Reading

/-- What a query reads. -/
def Query.reading (t : Thread) (s : State) : Query → Except Fault Reading
  | .check segment offset length alignment mode => do
    let x ← s.segmentNamed segment
    if alignment = 0 then
      return ⟨[⟨x.scope, x.checkBounds offset length⟩], fun _ => throw (.panic none)⟩
    return ⟨[x.gate offset length alignment mode], fun _ => return .nothing⟩
  | .get segment layout position => do
    let x ← s.segmentNamed segment
    let layout ← access layout.build
    let offset ← access (position.start x layout.shape)
    return .value x layout offset (.scalar _)
  | .values segment layout => do
    let x ← s.segmentNamed segment
    Reading.values x (← access layout.build) (.scalars _)
  | .bytes segment => do Reading.values (← s.segmentNamed segment) State.byteLayout .bytes
  | .text segment offset => do Reading.text (← s.segmentNamed segment) offset
  | .run segment expr offset count => do
    let x ← s.segmentNamed segment
    let layout ← access expr.build
    gathering (count.toNat * expr.carrier.size)
    Reading.run x layout offset count (.scalars _)
  | .mismatch a b => do
    let a ← s.segmentNamed a
    let b ← s.segmentNamed b
    Reading.mismatch a 0 a.size b 0 b.size
  | .mismatchRange a aStart aStop b bStart bStop => do
    Reading.mismatch (← s.segmentNamed a) aStart aStop (← s.segmentNamed b) bStart bStop
  | q => return .direct (q.answer t s)

/-- The answer of one who looks at the scopes and enters none. -/
def Reading.unentered (t : Thread) (s : State) (reading : Reading) : Except Fault Answer := do
  access (Gate.checkAll t s reading.gates)
  reading.read s.memory

theorem access_bind {α β : Type} (r : Except AccessError α) (f : α → Except AccessError β) :
    access (r >>= f) = access r >>= fun a => access (f a) := by
  cases r <;> rfl

theorem Segment.check_gate (x : Segment) (t : Thread) (s : State) (offset length alignment : Word)
    (mode : AccessMode) :
    (x.gate offset length alignment mode).check t s = s.check t x offset length alignment mode := by
  unfold Gate.check State.check State.checkRange Segment.gate
  cases s.checkEntry t x.scope with
  | error e => rfl
  | ok u => rfl

section
variable {t : Thread} {s : State}

theorem Gate.checkAll_one (gate : Gate) : Gate.checkAll t s [gate] = gate.check t s := by
  rw [checkAll]
  cases gate.check t s <;> rfl

theorem Gate.checkAll_two (gate gate' : Gate) :
    Gate.checkAll t s [gate, gate'] = (do gate.check t s; gate'.check t s) := by
  rw [checkAll, checkAll_one]

namespace Reading

theorem value_unentered {c : Carrier} (x : Segment) (layout : ValueLayout c) (offset : Word)
    (answer : c.Value → Answer) :
    (Reading.value x layout offset answer).unentered t s =
      (do return answer (← access (s.get t x layout offset))) := by
  rw [unentered, value, Gate.checkAll_one, Segment.check_gate, State.get, access_bind]
  cases s.check t x offset c.width layout.alignment.bytes .read with
  | error e => rfl
  | ok _ => rfl

theorem values_unentered {c : Carrier} (x : Segment) (layout : ValueLayout c)
    (answer : List c.Value → Answer) :
    (do (← Reading.values x layout answer).unentered t s) = (do
      access (s.checkValues t x layout)
      gathering x.size.toNat
      return answer (← access (s.values t x layout))) := by
  unfold Reading.values State.values State.checkValues
  split
  · rfl
  · show unentered t s _ = _
    rw [unentered, Gate.checkAll_one, Segment.check_gate]
    show (do access (s.check t x 0 x.size layout.alignment.bytes .read); _) = (do
      access (s.check t x 0 x.size layout.alignment.bytes .read); _)
    cases s.check t x 0 x.size layout.alignment.bytes .read with
    | error e => rfl
    | ok _ => rfl

theorem run_unentered {c : Carrier} (x : Segment) (layout : ValueLayout c) (offset count : Word)
    (answer : List c.Value → Answer) :
    (do (← Reading.run x layout offset count answer).unentered t s) =
      (do return answer (← access (s.readRun t x layout offset count))) := by
  unfold Reading.run State.readRun
  cases State.runLength c x offset count.toNat with
  | error e => rfl
  | ok length =>
    show unentered t s _ = (do return answer (← access (do
      s.check t x offset length layout.alignment.bytes .read; _)))
    rw [unentered, Gate.checkAll_one, Segment.check_gate, access_bind]
    cases s.check t x offset length layout.alignment.bytes .read with
    | error e => rfl
    | ok _ => rfl

theorem text_unentered (x : Segment) (offset : Word) :
    (do (← Reading.text x offset).unentered t s) =
      (do return .text (← access (s.getText t x offset))) := by
  unfold Reading.text State.getText
  cases x.size.sub? offset with
  | none => rfl
  | some remaining =>
    show unentered t s _ = (do return Answer.text (← access (do
      s.check t x offset remaining 1 .read; _)))
    rw [unentered, Gate.checkAll_one, Segment.check_gate, access_bind]
    cases s.check t x offset remaining 1 .read with
    | error e => rfl
    | ok _ =>
      show (match s.memory.find? x.space (x.address + offset) remaining.toNat 0 with
        | none => _
        | some length => _) = (do return Answer.text (← access
          (match s.memory.find? x.space (x.address + offset) remaining.toNat 0 with
          | none => _
          | some length => _)))
      cases s.memory.find? x.space (x.address + offset) remaining.toNat 0 with
      | none => rfl
      | some length => rfl

theorem mismatch_unentered (a : Segment) (aStart aStop : Word) (b : Segment) (bStart bStop : Word) :
    (do (← Reading.mismatch a aStart aStop b bStart bStop).unentered t s) = (do
      let found ← access (s.mismatchRange t a aStart aStop b bStart bStop)
      return (found.map Answer.number).getD .nothing) := by
  unfold Reading.mismatch State.mismatchRange
  cases State.rangeLength a aStart aStop with
  | error e => rfl
  | ok aLength =>
    cases State.rangeLength b bStart bStop with
    | error e => rfl
    | ok bLength =>
      show unentered t s _ = (do
        let found ← access (do
          s.check t a aStart aLength 1 .read
          s.check t b bStart bLength 1 .read
          _)
        _)
      rw [unentered, Gate.checkAll_two, Segment.check_gate, Segment.check_gate]
      cases s.check t a aStart aLength 1 .read with
      | error e => rfl
      | ok _ =>
        cases s.check t b bStart bLength 1 .read with
        | error e => rfl
        | ok _ =>
          show (match s.memory.firstDifference? a.space (a.address + aStart) b.space
              (b.address + bStart) (min aLength bLength).toNat with
            | some i => _
            | none => _) = access
              (match s.memory.firstDifference? a.space (a.address + aStart) b.space
                (b.address + bStart) (min aLength bLength).toNat with
              | some i => _
              | none => _) >>= _
          cases s.memory.firstDifference? a.space (a.address + aStart) b.space
              (b.address + bStart) (min aLength bLength).toNat with
          | some i => rfl
          | none =>
            by_cases hsame : aLength = bLength
            · rw [if_pos hsame, if_pos hsame]
              rfl
            · rw [if_neg hsame, if_neg hsame]
              rfl

end Reading

theorem Query.answer_eq (t : Thread) (s : State) (q : Query) :
    q.answer t s = (do (← q.reading t s).unentered t s) := by
  cases q with
  | check segment offset length alignment mode =>
    rw [answer, reading]
    simp only [bind_assoc]
    refine bind_congr fun x => ?_
    unfold checkAsked State.checkRange
    by_cases hzero : alignment = 0
    · rw [if_pos hzero, if_pos hzero]
      show _ = Reading.unentered t s ⟨_, _⟩
      rw [Reading.unentered, Gate.checkAll_one, Gate.check]
      simp only [bind_assoc]
      rfl
    · rw [if_neg hzero, if_neg hzero]
      show _ = Reading.unentered t s ⟨_, _⟩
      rw [Reading.unentered, Gate.checkAll_one, Segment.check_gate]
  | get segment layout position =>
    rw [answer, reading]
    simp only [bind_assoc, pure_bind, Reading.value_unentered]
    refine bind_congr fun x => bind_congr fun layout => ?_
    cases position with
    | offset bytes => rfl
    | index elements =>
      simp only [State.getAt, access_bind, bind_assoc]
      rfl
  | values segment layout =>
    rw [answer, reading]
    simp only [bind_assoc, Reading.values_unentered]
  | bytes segment =>
    rw [answer, reading]
    simp only [bind_assoc]
    exact bind_congr fun x => (Reading.values_unentered x State.byteLayout Answer.bytes).symm
  | text segment offset =>
    rw [answer, reading]
    simp only [bind_assoc, Reading.text_unentered]
  | run segment layout offset count =>
    rw [answer, reading]
    simp only [bind_assoc, Reading.run_unentered]
  | mismatch a b =>
    rw [answer, reading]
    simp only [bind_assoc, Reading.mismatch_unentered]
    rfl
  | mismatchRange a aStart aStop b bStart bStop =>
    rw [answer, reading]
    simp only [bind_assoc, Reading.mismatch_unentered]
  | _ => rfl

end

/-! ### Changes -/

/-- Stores bytes from inside of a scope. -/
def Visit.writing (x : Segment) (offset length alignment : Word) (bytes : List UInt8) :
    Visit Unit where
  gates := [x.gate offset length alignment .write]
  work := alter fun memory => memory.write x.space (x.address + offset) bytes

def Visit.copying (source : Segment) (sourceOffset : Word) (x : Segment) (offset length : Word) :
    Visit Unit where
  gates := [source.gate sourceOffset length 1 .read, x.gate offset length 1 .write]
  work := alter fun memory => memory.move source.space (source.address + sourceOffset) x.space
    (x.address + offset) length.toNat

/-- The bytes that elements have, whose sizes must agree. -/
def State.elementsLength {c d : Carrier} (source : Segment) (sourceLayout : ValueLayout c)
    (sourceOffset : Word) (layout : ValueLayout d) (count : Word) : Except AccessError Word := do
  if c.width ≠ d.width then throw (.illegalArgument (.sizesDiffer c.width d.width))
  if c.width < sourceLayout.alignment.bytes then
    throw (.illegalArgument (.overalignedEnd .source sourceLayout.alignment.bytes c.width))
  if c.width < layout.alignment.bytes then
    throw (.illegalArgument (.overalignedEnd .destination layout.alignment.bytes c.width))
  match count.mul? c.width with
  | some length => pure length
  | none => throw (.outOfBounds sourceOffset Word.last source.size)

/-- Elements that are to be turned around are gathered while both scopes are held. -/
def Visit.copyingElements {c d : Carrier} (source : Segment) (sourceLayout : ValueLayout c)
    (sourceOffset : Word) (x : Segment) (layout : ValueLayout d) (offset length : Word) :
    Visit Unit where
  gates := [source.gate sourceOffset length sourceLayout.alignment.bytes .read,
    x.gate offset length layout.alignment.bytes .write]
  work := do
    let turns := State.turnsElements sourceLayout layout
    inspect fun _ => if turns then gathering length.toNat else .ok ()
    alter fun memory => State.movedElements memory c.size turns source.space
      (source.address + sourceOffset) x.space (x.address + offset) length.toNat

/-- The visits that a change makes. -/
def Change.visits (s : State) : Change → Except Fault (List (Visit Unit))
  | .set segment expr position value => do
    let x ← s.segmentNamed segment
    let layout ← access expr.build
    let offset ← access (position.start x layout.shape)
    return [.writing x offset expr.carrier.width layout.alignment.bytes
      (Carrier.encode _ layout.order value)]
  | .setAddress segment layout position value => do
    let x ← s.segmentNamed segment
    let value ← s.segmentNamed value
    let layout ← access layout.build
    let offset ← access (position.start x layout.shape)
    if value.backing.isHeap then throw (.access (.illegalArgument .noMachineAddress))
    return [.writing x offset AddressLayout.width layout.alignment.bytes
      (Carrier.encode .ulong layout.order value.address)]
  | .setText segment offset text => do
    let x ← s.segmentNamed segment
    let bytes := Text.Utf8.encode text
    let target ← access (s.slice x offset (UInt64.ofNat bytes.length + 1) 1)
    let length ← access (State.runLength .ubyte target 0 bytes.length)
    let alignment := State.byteLayout.alignment.bytes
    return [.writing target 0 length alignment
        (Carrier.encodeAll .ubyte State.byteLayout.order bytes),
      .writing target (UInt64.ofNat bytes.length) Carrier.ubyte.width alignment
        (Carrier.encode .ubyte State.byteLayout.order (0 : UInt8))]
  | .setRun segment expr offset values => do
    let x ← s.segmentNamed segment
    let layout ← access expr.build
    let length ← access (State.runLength expr.carrier x offset values.length)
    return [.writing x offset length layout.alignment.bytes (Carrier.encodeAll _ layout.order values)]
  | .fill segment byte => do
    let x ← s.segmentNamed segment
    return [⟨[x.gate 0 x.size 1 .write],
      alter fun memory => memory.fill x.space x.address x.size.toNat byte⟩]
  | .copy source sourceOffset target targetOffset length => do
    let source ← s.segmentNamed source
    let x ← s.segmentNamed target
    return [.copying source sourceOffset x targetOffset length]
  | .copyAll source target => do
    let source ← s.segmentNamed source
    let x ← s.segmentNamed target
    return [.copying source 0 x 0 source.size]
  | .copyElements source sourceLayout sourceOffset target targetLayout targetOffset count => do
    let source ← s.segmentNamed source
    let x ← s.segmentNamed target
    let sourceLayout ← access sourceLayout.build
    let targetLayout ← access targetLayout.build
    let length ← access
      (State.elementsLength source sourceLayout sourceOffset targetLayout count)
    return [.copyingElements source sourceLayout sourceOffset x targetLayout targetOffset length]

/-- In place, the same is done as by visits. -/
def Visit.Make (t : Thread) (s : State) (m : InPlace State Fault Unit)
    (visits : Except Fault (List (Visit Unit))) : Prop :=
  m s = match visits with
    | .error e => (.error e, s)
    | .ok visits => Visit.unenteredAll t visits s

namespace InPlace
variable {σ ε α β : Type}

/-- A look that fails ends everything; one that succeeds leaves all to what follows. -/
theorem inspect_bind (f : σ → Except ε α) (k : α → InPlace σ ε β) (s : σ) :
    (inspect f >>= k) s = match f s with
      | .error e => (.error e, s)
      | .ok a => k a s := by
  cases hf : f s with
  | error e =>
    have hlook : inspect f s = (.error e, s) := Prod.ext hf rfl
    exact bind_of_error hlook
  | ok a =>
    have hlook : inspect f s = (.ok a, s) := Prod.ext hf rfl
    exact bind_of_ok hlook

theorem accessing_bind (m : InPlace σ AccessError α) (k : α → InPlace σ AccessError β) :
    accessing (m >>= k) = accessing m >>= fun a => accessing (k a) := by
  funext s
  rcases hrun : m s with ⟨e | a, s'⟩
  · have hrun' : accessing m s = (.error (.access e), s') := by rw [accessing, hrun]; rfl
    rw [bind_of_error hrun', accessing, bind_of_error hrun]
    rfl
  · have hrun' : accessing m s = (.ok a, s') := by rw [accessing, hrun]; rfl
    rw [bind_of_ok hrun', accessing, bind_of_ok hrun]
    rfl

theorem accessing_inspect (f : σ → Except AccessError α) (k : α → InPlace σ AccessError β) :
    accessing (inspect f >>= k) = inspect (fun s => access (f s)) >>= fun a => accessing (k a) :=
  accessing_bind (inspect f) k

/-- Two looks are one. -/
theorem inspect_both (f g : σ → Except ε Unit) (k : InPlace σ ε α) :
    (do inspect f; inspect g; k) = (do inspect (fun s => do f s; g s); k) := by
  funext s
  rw [inspect_bind]
  refine Eq.trans ?_ (inspect_bind _ _ s).symm
  cases f s with
  | error e => rfl
  | ok _ => exact inspect_bind g (fun _ => k) s

end InPlace

theorem State.onMemory_inspect {α β : Type} (f : Memory → Except Fault α)
    (k : α → InPlace Memory Fault β) (s : State) :
    State.onMemory (inspect f >>= k) s = match f s.memory with
      | .error e => (.error e, s)
      | .ok a => State.onMemory (k a) s := by
  rw [State.onMemory, inspect_bind]
  cases f s.memory with
  | error e => rfl
  | ok a => rfl

namespace Visit
variable {t : Thread} {s : State}

theorem Make.inspect {α : Type} {f : State → Except Fault α} {k : α → InPlace State Fault Unit}
    {visits : α → Except Fault (List (Visit Unit))} (h : ∀ a, Make t s (k a) (visits a)) :
    Make t s (InPlace.inspect f >>= k) (f s >>= visits) := by
  unfold Make
  rw [inspect_bind]
  cases f s with
  | error e => rfl
  | ok a => exact h a

theorem unenteredAll_one (v : Visit Unit) : unenteredAll t [v] s = v.unentered t s := by
  rw [unenteredAll, unenteredAll]
  rcases hrun : v.unentered t s with ⟨e | u, s'⟩
  · exact bind_of_error hrun
  · exact bind_of_ok hrun

/-- A second visit follows. -/
theorem Make.andThen {α : Type} {m k : InPlace State Fault Unit} {known : Except Fault α}
    {v : α → Visit Unit} {w : Visit Unit} (first : Make t s m (do return [v (← known)]))
    (second : ∀ s', Make t s' k (.ok [w])) :
    Make t s (m >>= fun _ => k) (do return [v (← known), w]) := by
  cases known with
  | error e => exact bind_of_error first
  | ok a =>
    have hfirst : m s = (v a).unentered t s := first.trans (unenteredAll_one _)
    have hsecond : k = w.unentered t := funext fun s' => (second s').trans (unenteredAll_one _)
    show _ = unenteredAll t [v a, w] s
    rw [unenteredAll, hsecond]
    rcases hrun : (v a).unentered t s with ⟨e | u, s'⟩
    · rw [bind_of_error hrun, bind_of_error (hfirst.trans hrun)]
    · rw [bind_of_ok hrun, bind_of_ok (hfirst.trans hrun), unenteredAll_one]

/-- One visit: memory changes after the checks. -/
theorem make_one {check : State → Except AccessError Unit} {f : State → State}
    {gates : List Gate} {g : Memory → Memory} (checked : check s = Gate.checkAll t s gates)
    (worked : f s = { s with memory := g s.memory }) :
    Make t s (accessing (do InPlace.inspect check; alter f)) (.ok [⟨gates, alter g⟩]) := by
  show accessing _ s = unenteredAll t [_] s
  rw [unenteredAll_one, unentered, ← checked, accessing_inspect, inspect_bind]
  cases check s with
  | error e => rfl
  | ok _ => exact Prod.ext rfl worked

theorem checked_one (x : Segment) (offset length alignment : Word) (mode : AccessMode) :
    s.check t x offset length alignment mode =
      Gate.checkAll t s [x.gate offset length alignment mode] := by
  rw [Gate.checkAll_one, Segment.check_gate]

theorem make_set {c : Carrier} (x : Segment) (layout : ValueLayout c) (offset : Word)
    (value : c.Value) :
    Make t s (accessing (State.setInPlace t x layout offset value))
      (.ok [.writing x offset c.width layout.alignment.bytes (c.encode layout.order value)]) :=
  make_one (checked_one x offset c.width layout.alignment.bytes .write) rfl

theorem make_setAddress (x : Segment) (layout : AddressLayout) (offset : Word) (value : Segment) :
    Make t s (accessing (State.setAddressInPlace t x layout offset value)) (do
      if value.backing.isHeap then throw (.access (.illegalArgument .noMachineAddress))
      return [.writing x offset AddressLayout.width layout.alignment.bytes
        (Carrier.encode .ulong layout.order value.address)]) := by
  unfold State.setAddressInPlace
  rw [accessing_inspect]
  cases value.backing.isHeap with
  | true => rfl
  | false =>
    exact make_one (checked_one x offset AddressLayout.width layout.alignment.bytes .write) rfl

theorem make_run {c : Carrier} (x : Segment) (layout : ValueLayout c) (offset : Word)
    (values : List c.Value) :
    Make t s (accessing (State.writeRunInPlace t x layout offset values)) (do
      let length ← access (State.runLength c x offset values.length)
      return [.writing x offset length layout.alignment.bytes (c.encodeAll layout.order values)]) := by
  unfold State.writeRunInPlace
  rw [accessing_inspect]
  exact .inspect fun length =>
    make_one (checked_one x offset length layout.alignment.bytes .write) rfl

/-- The zero byte is stored on a visit of its own. -/
theorem make_terminated (x : Segment) (bytes : List UInt8) :
    Make t s (accessing (State.writeTerminatedInPlace t x bytes)) (do
      let length ← access (State.runLength .ubyte x 0 bytes.length)
      return [.writing x 0 length State.byteLayout.alignment.bytes
          (Carrier.encodeAll .ubyte State.byteLayout.order bytes),
        .writing x (UInt64.ofNat bytes.length) Carrier.ubyte.width State.byteLayout.alignment.bytes
          (Carrier.encode .ubyte State.byteLayout.order (0 : UInt8))]) := by
  unfold State.writeTerminatedInPlace
  rw [accessing_bind]
  exact Make.andThen (make_run (c := .ubyte) x State.byteLayout 0 bytes)
    fun s' => make_set (c := .ubyte) x State.byteLayout (UInt64.ofNat bytes.length) (0 : UInt8)

theorem make_copy (source : Segment) (sourceOffset : Word) (x : Segment) (offset length : Word) :
    Make t s (accessing (State.copyInPlace t x source sourceOffset offset length))
      (.ok [.copying source sourceOffset x offset length]) := by
  unfold State.copyInPlace
  rw [inspect_both]
  refine make_one ?_ rfl
  rw [Gate.checkAll_two, Segment.check_gate, Segment.check_gate]

/-- Both ends are checked once the length is known. -/
theorem checkElements_eq {c d : Carrier} (source : Segment) (sourceLayout : ValueLayout c)
    (sourceOffset : Word) (x : Segment) (layout : ValueLayout d) (offset count : Word) :
    s.checkElements t source sourceLayout sourceOffset x layout offset count = (do
      let length ← State.elementsLength source sourceLayout sourceOffset layout count
      Gate.checkAll t s
        (copyingElements source sourceLayout sourceOffset x layout offset length).gates
      return length) := by
  have hgates : ∀ length, Gate.checkAll t s
      (copyingElements source sourceLayout sourceOffset x layout offset length).gates = (do
        s.check t source sourceOffset length sourceLayout.alignment.bytes .read
        s.check t x offset length layout.alignment.bytes .write) := by
    intro length
    rw [copyingElements, Gate.checkAll_two, Segment.check_gate, Segment.check_gate]
  simp only [hgates, bind_assoc]
  unfold State.checkElements State.elementsLength
  dsimp only
  by_cases hsizes : c.width ≠ d.width
  · rw [if_pos hsizes, if_pos hsizes]
    rfl
  rw [if_neg hsizes, if_neg hsizes]
  by_cases hsource : c.width < sourceLayout.alignment.bytes
  · rw [if_pos hsource, if_pos hsource]
    rfl
  rw [if_neg hsource, if_neg hsource]
  by_cases htarget : c.width < layout.alignment.bytes
  · rw [if_pos htarget, if_pos htarget]
    rfl
  rw [if_neg htarget, if_neg htarget]
  cases count.mul? c.width with
  | none => rfl
  | some length => rfl

theorem make_copyElements {c d : Carrier} (source : Segment) (sourceLayout : ValueLayout c)
    (sourceOffset : Word) (x : Segment) (layout : ValueLayout d) (offset count : Word) :
    Make t s (do
      if State.turnsElements sourceLayout layout then
        let length ← InPlace.inspect fun s => access (s.checkElements t source sourceLayout
          sourceOffset x layout offset count)
        InPlace.inspect fun _ => gathering length.toNat
      accessing (State.copyElementsInPlace t x source sourceLayout sourceOffset layout offset count))
      (do
        let length ← access (State.elementsLength source sourceLayout sourceOffset layout count)
        return [.copyingElements source sourceLayout sourceOffset x layout offset length]) := by
  have hcheck := checkElements_eq (t := t) (s := s) source sourceLayout sourceOffset x layout offset
    count
  unfold State.copyElementsInPlace Make
  rw [accessing_inspect]
  cases helements : State.elementsLength source sourceLayout sourceOffset layout count with
  | error e =>
    rw [helements] at hcheck
    cases State.turnsElements sourceLayout layout with
    | true => exact (inspect_bind _ _ s).trans (by rw [hcheck]; rfl)
    | false => exact (inspect_bind _ _ s).trans (by rw [hcheck]; rfl)
  | ok length =>
    rw [helements] at hcheck
    show _ = unenteredAll t [_] s
    rw [unenteredAll_one, unentered]
    cases hgates : Gate.checkAll t s
        (copyingElements source sourceLayout sourceOffset x layout offset length).gates with
    | error e =>
      have hrefused := hcheck.trans (congrArg (fun r => r >>= fun _ => pure length) hgates)
      cases State.turnsElements sourceLayout layout with
      | true => exact (inspect_bind _ _ s).trans (by rw [hrefused]; rfl)
      | false => exact (inspect_bind _ _ s).trans (by rw [hrefused]; rfl)
    | ok _ =>
      have hallowed := hcheck.trans (congrArg (fun r => r >>= fun _ => pure length) hgates)
      refine Eq.trans ?_ (State.onMemory_inspect _ _ s).symm
      cases State.turnsElements sourceLayout layout with
      | true =>
        refine (inspect_bind _ _ s).trans ?_
        rw [hallowed]
        refine (inspect_bind _ _ s).trans ?_
        rw [if_pos rfl]
        cases gathering length.toNat with
        | error e => rfl
        | ok _ => exact (inspect_bind _ _ s).trans (by rw [hallowed]; rfl)
      | false => exact (inspect_bind _ _ s).trans (by rw [hallowed]; rfl)

end Visit

/-- **A change in place** makes its visits one after the other. -/
theorem Change.inPlace_eq (t : Thread) (s : State) (change : Change) :
    Visit.Make t s (change.inPlace t) (change.visits s) := by
  cases change with
  | set segment layout position value =>
    refine .inspect fun x => .inspect fun layout => ?_
    cases position with
    | offset offset => exact Visit.make_set x layout offset value
    | index index =>
      show Visit.Make t s (accessing (State.setAtInPlace t x layout index value)) _
      unfold State.setAtInPlace
      rw [accessing_inspect]
      exact .inspect fun offset => Visit.make_set x layout offset value
  | setAddress segment layout position value =>
    refine .inspect fun x => .inspect fun value => .inspect fun layout => ?_
    cases position with
    | offset offset => exact Visit.make_setAddress x layout offset value
    | index index =>
      show Visit.Make t s (accessing (State.setAddressAtInPlace t x layout index value)) _
      unfold State.setAddressAtInPlace
      rw [accessing_inspect]
      exact .inspect fun offset => Visit.make_setAddress x layout offset value
  | setText segment offset text =>
    refine .inspect fun x => ?_
    unfold State.setTextInPlace
    rw [accessing_inspect]
    exact .inspect fun target => Visit.make_terminated target (Text.Utf8.encode text)
  | setRun segment layout offset values =>
    exact .inspect fun x => .inspect fun layout => Visit.make_run x layout offset values
  | fill segment byte =>
    exact .inspect fun x => Visit.make_one (Visit.checked_one x 0 x.size 1 .write) rfl
  | copy source sourceOffset target targetOffset length =>
    exact .inspect fun source => .inspect fun x =>
      Visit.make_copy source sourceOffset x targetOffset length
  | copyAll source target =>
    exact .inspect fun source => .inspect fun x => Visit.make_copy source 0 x 0 source.size
  | copyElements source sourceLayout sourceOffset target targetLayout targetOffset count =>
    refine .inspect fun source => .inspect fun x => .inspect fun sourceLayout =>
      .inspect fun targetLayout => ?_
    exact Visit.make_copyElements source sourceLayout sourceOffset x targetLayout targetOffset count

/-! ### Values and addresses -/

/-- Reads one value. -/
def Visit.value {c : Carrier} (x : Segment) (layout : ValueLayout c) (offset : Word) :
    Visit c.Value where
  gates := [x.gate offset c.width layout.alignment.bytes .read]
  work := inspect fun memory =>
    .ok (c.decode layout.order (memory.bytes x.space (x.address + offset) c.size))

/-- Reads an address, and answers it with the size of what is there. -/
def Visit.address (x : Segment) (layout : AddressLayout) (offset : Word) : Visit (Word × Word) where
  gates := [x.gate offset AddressLayout.width layout.alignment.bytes .read]
  work := inspect fun memory =>
    let address : Word := Carrier.decode .ulong layout.order
      (memory.bytes x.space (x.address + offset) AddressLayout.width.toNat)
    match layout.target with
    | none => .ok (address, 0)
    | some target =>
      if address.offAlignment target.alignment.bytes then
        .error (.access (.misaligned address target.alignment.bytes))
      else .ok (address, target.size)

/-- A new segment, given its address and its size. -/
def State.segmentAt (made : Word × Word) : InPlace State Fault Segment :=
  fun s => (.ok (s.atAddress made.1 made.2).1, (s.atAddress made.1 made.2).2)

namespace Visit
variable {t : Thread} {s : State}

theorem value_unentered {c : Carrier} (x : Segment) (layout : ValueLayout c) (offset : Word) :
    (Visit.value x layout offset).unentered t s = (access (s.get t x layout offset), s) := by
  rw [unentered, value, ← checked_one, State.get]
  cases s.check t x offset c.width layout.alignment.bytes .read with
  | error e => rfl
  | ok _ => rfl

/-- A new scope for what is at the address. -/
theorem address_unentered (x : Segment) (layout : AddressLayout) (offset : Word) :
    ((Visit.address x layout offset).unentered t s).2 = s ∧
    access (s.getAddress t x layout offset) = (do
      let (address, size) ← ((Visit.address x layout offset).unentered t s).1
      return s.atAddress address size) := by
  rw [unentered, address, ← checked_one, State.getAddress]
  cases s.check t x offset AddressLayout.width layout.alignment.bytes .read with
  | error e => exact ⟨rfl, rfl⟩
  | ok _ =>
    refine ⟨rfl, ?_⟩
    cases htarget : layout.target with
    | none => rfl
    | some target =>
      show access (if (s.addressAt x layout offset).offAlignment target.alignment.bytes then
          .error (.misaligned (s.addressAt x layout offset) target.alignment.bytes)
        else .ok (s.atAddress (s.addressAt x layout offset) target.size)) =
        (if (s.addressAt x layout offset).offAlignment target.alignment.bytes then
          .error (.access (.misaligned (s.addressAt x layout offset) target.alignment.bytes))
        else .ok (s.addressAt x layout offset, target.size)) >>= fun made =>
          pure (s.atAddress made.1 made.2)
      split
      · rfl
      · rfl

end Visit

/-! ### Only what is kept is entered -/

/-- What is found enters no scopes but those of kept segments. -/
def State.Enters {α : Type} (s : State) (gates : α → List Gate) (found : Except Fault α) : Prop :=
  ∀ a, found = .ok a → ∀ gate ∈ gates a, ∃ x ∈ s.keptSegments, gate.scope = x.scope

namespace State
variable {s : State} {t : Thread} {α β : Type} {gates : β → List Gate}

theorem Enters.bind {first : Except Fault α} {next : α → Except Fault β}
    (h : ∀ a, first = .ok a → s.Enters gates (next a)) : s.Enters gates (first >>= next) := by
  intro b hb
  obtain ⟨a, hfirst, hnext⟩ := bind_eq_ok.mp hb
  exact h a hfirst b hnext

theorem Enters.error (e : Fault) : s.Enters gates (.error e) := nofun

theorem Enters.ok {b : β} (h : ∀ gate ∈ gates b, ∃ x ∈ s.keptSegments, gate.scope = x.scope) :
    s.Enters gates (.ok b) := by
  intro b' hb
  obtain rfl := Except.ok.inj hb
  exact h

theorem enters_one {x : Segment} (hx : x ∈ s.keptSegments) {gate : Gate}
    (hscope : gate.scope = x.scope) :
    ∀ g ∈ [gate], ∃ x ∈ s.keptSegments, g.scope = x.scope := by
  intro g hg
  obtain rfl := List.mem_singleton.mp hg
  exact ⟨x, hx, hscope⟩

theorem enters_two {x y : Segment} (hx : x ∈ s.keptSegments) (hy : y ∈ s.keptSegments)
    {gate gate' : Gate} (hscope : gate.scope = x.scope) (hscope' : gate'.scope = y.scope) :
    ∀ g ∈ [gate, gate'], ∃ x ∈ s.keptSegments, g.scope = x.scope := by
  intro g hg
  rcases List.mem_cons.mp hg with rfl | hg
  · exact ⟨x, hx, hscope⟩
  · exact enters_one hy hscope' g hg

end State

namespace Reading
variable {s : State} {x : Segment}

theorem values_enters {c : Carrier} (hx : x ∈ s.keptSegments) (layout : ValueLayout c)
    (answer : List c.Value → Answer) : s.Enters gates (Reading.values x layout answer) := by
  unfold Reading.values
  split
  · exact .error _
  · exact .ok (State.enters_one hx rfl)

theorem mismatch_enters {y : Segment} (hx : x ∈ s.keptSegments) (hy : y ∈ s.keptSegments)
    (xStart xStop yStart yStop : Word) :
    s.Enters gates (Reading.mismatch x xStart xStop y yStart yStop) :=
  .bind fun _ _ => .bind fun _ _ => .ok (State.enters_two hx hy rfl rfl)

end Reading

open State in
theorem Query.reading_enters (t : Thread) (s : State) (q : Query) :
    s.Enters Reading.gates (q.reading t s) := by
  have hnone : ∀ answer, s.Enters Reading.gates (.ok (.direct answer)) := fun _ => .ok nofun
  cases q with
  | check segment offset length alignment mode =>
    refine .bind fun x hx => ?_
    split
    · exact .ok (enters_one (segmentNamed_mem hx) rfl)
    · exact .ok (enters_one (segmentNamed_mem hx) rfl)
  | get segment layout position =>
    exact .bind fun x hx => .bind fun _ _ => .bind fun _ _ =>
      .ok (enters_one (segmentNamed_mem hx) rfl)
  | values segment layout =>
    exact .bind fun x hx => .bind fun _ _ => Reading.values_enters (segmentNamed_mem hx) _ _
  | bytes segment => exact .bind fun x hx => Reading.values_enters (segmentNamed_mem hx) _ _
  | text segment offset =>
    refine .bind fun x hx => ?_
    unfold Reading.text
    split
    · exact .error _
    · exact .ok (enters_one (segmentNamed_mem hx) rfl)
  | run segment layout offset count =>
    exact .bind fun x hx => .bind fun _ _ => .bind fun _ _ => .bind fun _ _ =>
      .ok (enters_one (segmentNamed_mem hx) rfl)
  | mismatch a b =>
    exact .bind fun a ha => .bind fun b hb =>
      Reading.mismatch_enters (segmentNamed_mem ha) (segmentNamed_mem hb) _ _ _ _
  | mismatchRange a aStart aStop b bStart bStop =>
    exact .bind fun a ha => .bind fun b hb =>
      Reading.mismatch_enters (segmentNamed_mem ha) (segmentNamed_mem hb) _ _ _ _
  | _ => exact hnone _

open State in
theorem Change.visits_enters (s : State) (change : Change) :
    s.Enters (·.flatMap Visit.gates) (change.visits s) := by
  cases change with
  | set segment layout position value =>
    exact .bind fun x hx => .bind fun _ _ => .bind fun _ _ =>
      .ok (enters_one (segmentNamed_mem hx) rfl)
  | setAddress segment layout position value =>
    refine .bind fun x hx => .bind fun value _ => .bind fun _ _ => .bind fun _ _ => ?_
    cases value.backing.isHeap with
    | true => exact .error _
    | false => exact .ok (enters_one (segmentNamed_mem hx) rfl)
  | setText segment offset text =>
    refine .bind fun x hx => .bind fun target htarget => .bind fun _ _ => .ok ?_
    obtain ⟨-, -, rfl⟩ := slice_ok (access_eq_ok.mp htarget)
    exact enters_two (segmentNamed_mem hx) (segmentNamed_mem hx) rfl rfl
  | setRun segment layout offset values =>
    exact .bind fun x hx => .bind fun _ _ => .bind fun _ _ =>
      .ok (enters_one (segmentNamed_mem hx) rfl)
  | fill segment byte => exact .bind fun x hx => .ok (enters_one (segmentNamed_mem hx) rfl)
  | copy source sourceOffset target targetOffset length =>
    exact .bind fun _ hx => .bind fun _ hy =>
      .ok (enters_two (segmentNamed_mem hx) (segmentNamed_mem hy) rfl rfl)
  | copyAll source target =>
    exact .bind fun _ hx => .bind fun _ hy =>
      .ok (enters_two (segmentNamed_mem hx) (segmentNamed_mem hy) rfl rfl)
  | copyElements source sourceLayout sourceOffset target targetLayout targetOffset count =>
    exact .bind fun _ hx => .bind fun _ hy => .bind fun _ _ => .bind fun _ _ => .bind fun _ _ =>
      .ok (enters_two (segmentNamed_mem hx) (segmentNamed_mem hy) rfl rfl)

/-! ### Accesses that are watched -/

namespace Watch
variable (watch : Watch) (t : Thread)

def query (q : Query) : InPlace State Fault Answer := fun s =>
  match q.reading t s with
  | .error e => (.error e, s)
  | .ok reading => watch.visit t ⟨reading.gates, inspect reading.read⟩ s

def change (c : Change) : InPlace State Fault Unit := fun s =>
  match c.visits s with
  | .error e => (.error e, s)
  | .ok visits => watch.visitAll t visits s

/-- Reads an address, and makes a segment there. -/
def atAddress (segment : String) (layout : AddressExpr) (position : Position) :
    InPlace State Fault Segment := do
  let x ← inspect (·.segmentNamed segment)
  let layout ← inspect fun _ => access layout.build
  let offset ← inspect fun _ => access (position.start x layout.shape)
  let made ← watch.visit t (.address x layout offset)
  State.segmentAt made

end Watch

namespace State
variable {origin s : State} {watch : Watch} {t : Thread}

theorem Watched.lt_size (hw : Watched origin watch) (hr : Reached origin s) {x : Segment}
    (hx : x ∈ s.keptSegments) : x.scope < s.scopes.size :=
  (hr.path.keptLast hw.kept _ (keepsScope_of_segment hx)).lt_size

/-- **A query** comes to its answer, though it enters scopes on the way. -/
theorem query_eq (hw : Watched origin watch) (hr : Reached origin s) (q : Query) :
    watch.query t q s = (q.answer t s, s) := by
  have henters := q.reading_enters t s
  rw [Watch.query, q.answer_eq]
  cases hreading : q.reading t s with
  | error e => rfl
  | ok reading =>
    refine (visit_eq hw (fun gate hgate => ?_) hr).trans ?_
    · obtain ⟨x, hx, hscope⟩ := henters reading hreading gate hgate
      exact hscope ▸ hw.lt_size hr hx
    · show Visit.unentered t _ s = (Reading.unentered t s reading, s)
      rw [Visit.unentered, Reading.unentered]
      cases access (Gate.checkAll t s reading.gates) with
      | error e => rfl
      | ok _ => rfl

/-- **A change** comes to the change in place. -/
theorem change_eq (hw : Watched origin watch) (hr : Reached origin s) (c : Change) :
    watch.change t c s = c.inPlace t s := by
  have henters := c.visits_enters s
  rw [Watch.change, c.inPlace_eq t s]
  cases hvisits : c.visits s with
  | error e => rfl
  | ok visits =>
    refine visitAll_eq hw (fun v hv gate hgate => ?_) hr
    obtain ⟨x, hx, hscope⟩ := henters visits hvisits gate (List.mem_flatMap.mpr ⟨v, hv, hgate⟩)
    exact hscope ▸ hw.lt_size hr hx

/-- A segment that was made comes with a new state. -/
def madeOrSame (s : State) : Except Fault (Segment × State) → Except Fault Segment × State
  | .error e => (.error e, s)
  | .ok (x, s') => (.ok x, s')

/-- A segment is made at the address that was read. -/
theorem visit_address (hw : Watched origin watch) (hr : Reached origin s) {x : Segment}
    (hx : x ∈ s.keptSegments) (layout : AddressLayout) (offset : Word) :
    (watch.visit t (.address x layout offset) >>= segmentAt) s =
      s.madeOrSame (access (s.getAddress t x layout offset)) := by
  obtain ⟨hsame, hget⟩ := Visit.address_unentered (t := t) (s := s) x layout offset
  have hvisit : watch.visit t (.address x layout offset) s =
      (Visit.address x layout offset).unentered t s :=
    visit_eq hw (fun gate hgate => List.mem_singleton.mp hgate ▸ hw.lt_size hr hx) hr
  rw [hget]
  rcases hrun : (Visit.address x layout offset).unentered t s with ⟨e | made, s'⟩
  · rw [hrun] at hsame
    obtain rfl : s' = s := hsame
    exact bind_of_error (hvisit.trans hrun)
  · rw [hrun] at hsame
    obtain rfl : s' = s := hsame
    exact bind_of_ok (hvisit.trans hrun)

/-- What is found first decides. -/
theorem madeOrSame_bind {α : Type} {found : State → Except Fault α}
    {next : α → InPlace State Fault Segment} {make : α → Except Fault (Segment × State)}
    (h : ∀ a, found s = .ok a → next a s = s.madeOrSame (make a)) :
    (inspect found >>= next) s = s.madeOrSame (found s >>= make) := by
  rw [inspect_bind]
  cases hfound : found s with
  | error e => rfl
  | ok a => exact h a hfound

/-- **A stored address** is read from inside of the scope it is stored in. -/
theorem atAddress_eq (hw : Watched origin watch) (hr : Reached origin s) (segment : String)
    (layout : AddressExpr) (position : Position) :
    watch.atAddress t segment layout position s =
      s.madeOrSame ((Making.fromAddress segment layout position).make t s) := by
  refine madeOrSame_bind fun x hx => madeOrSame_bind fun layout _ => ?_
  have hget : (access (match position with
        | .offset offset => s.getAddress t x layout offset
        | .index index => s.getAddressAt t x layout index)) =
      (access (position.start x layout.shape) >>= fun offset =>
        access (s.getAddress t x layout offset)) := by
    cases position with
    | offset offset => rfl
    | index index => exact access_bind _ _
  refine Eq.trans ?_ (congrArg s.madeOrSame hget.symm)
  exact madeOrSame_bind fun offset _ => visit_address hw hr (segmentNamed_mem hx) layout offset

end State

end ScopedMemory
