import ScopedMemory.Proofs.Guarding

/-! What is read.

Two states that differ in memory alone are told apart only by bytes that are looked at. A query
answers the same if the memories agree on the segments that it names and whose scopes are alive
(`Query.answer_agrees`). What a change writes, and which address is found, depends on no other byte
either (`Change.apply_traces`, `Making.fromAddress_agrees`). -/
namespace ScopedMemory

/-! ### Memories that agree -/

namespace Memory

/-- The memories hold the same `count` bytes from `start` on. -/
def Agree (m m' : Memory) (space : Space) (start : Word) (count : Nat) : Prop :=
  ∀ i < count, m'.read space (start + UInt64.ofNat i) = m.read space (start + UInt64.ofNat i)

section
variable {m m' : Memory} {space space' : Space} {start start' : Word} {count : Nat}

theorem Agree.mono {fewer : Nat} (h : Agree m m' space start count) (hle : fewer ≤ count) :
    Agree m m' space start fewer := fun i hi => h i (Nat.lt_of_lt_of_le hi hle)

theorem Agree.head (h : Agree m m' space start (count + 1)) :
    m'.read space start = m.read space start := by
  have hzero := h 0 (Nat.succ_pos count)
  rwa [show UInt64.ofNat 0 = 0 from rfl, UInt64.add_zero] at hzero

theorem Agree.tail (h : Agree m m' space start (count + 1)) :
    Agree m m' space (start + 1) count := by
  intro i hi
  have hnext := h (i + 1) (Nat.succ_lt_succ hi)
  rwa [UInt64.ofNat_add, UInt64.add_comm (UInt64.ofNat i), ← UInt64.add_assoc] at hnext

theorem Agree.bytes (h : Agree m m' space start count) :
    m'.bytes space start count = m.bytes space start count :=
  List.map_congr_left fun i hi => h i (List.mem_range.mp hi)

theorem Agree.find? (h : Agree m m' space start count) (byte : UInt8) :
    m'.find? space start count byte = m.find? space start count byte := by
  rw [Memory.find?, Memory.find?]
  generalize 0 = seen
  induction count generalizing start seen with
  | zero => rfl
  | succ count ih => rw [findFrom, findFrom, h.head, ih h.tail]

theorem findFrom_lt {byte : UInt8} {seen found : Nat}
    (h : m.findFrom space byte seen start count = some found) : found < seen + count := by
  induction count generalizing start seen with
  | zero => cases h
  | succ count ih =>
    rw [findFrom] at h
    split at h
    · cases h
      omega
    · have hlater := ih h
      omega

theorem find?_lt {byte : UInt8} {found : Nat} (h : m.find? space start count byte = some found) :
    found < count := by
  have hlt := findFrom_lt h
  omega

theorem Agree.firstDifference? (h : Agree m m' space start count)
    (h' : Agree m m' space' start' count) :
    m'.firstDifference? space start space' start' count =
      m.firstDifference? space start space' start' count := by
  rw [Memory.firstDifference?, Memory.firstDifference?]
  generalize 0 = seen
  induction count generalizing start start' seen with
  | zero => rfl
  | succ count ih => rw [differFrom, differFrom, h.head, h'.head, ih h.tail h'.tail]

end

/-- The pair of memories became the other pair: every byte was set to one value in both, or left
alone in both. -/
def Traces (m m' w w' : Memory) : Prop :=
  ∀ space address, w'.read space address = w.read space address ∨
    w.read space address = m.read space address ∧ w'.read space address = m'.read space address

theorem Traces.trans {m m' w w' v v' : Memory} (h : Traces m m' w w') (h' : Traces w w' v v') :
    Traces m m' v v' := by
  intro space address
  rcases h' space address with hsame | ⟨hv, hv'⟩
  · exact .inl hsame
  · rw [hv, hv']
    exact h space address

/-- A range set to contents that agree. -/
theorem traces_overlay {m m' : Memory} {space : Space} {start : Word} {count : Nat}
    {content content' : Nat → UInt8} (h : ∀ i < count, content' i = content i) :
    Traces m m' (m.overlay space start count content) (m'.overlay space start count content') := by
  intro other address
  rw [read_overlay, read_overlay]
  split
  · rename_i hin
    exact .inl (h _ (by simpa [within] using hin.2))
  · exact .inr ⟨rfl, rfl⟩

theorem traces_write {m m' : Memory} {space : Space} {start : Word} {bytes : List UInt8} :
    Traces m m' (m.write space start bytes) (m'.write space start bytes) := by
  rw [write, write]
  exact traces_overlay fun _ _ => rfl

theorem Traces.refl (m m' : Memory) : Traces m m' m m' := fun _ _ => .inr ⟨rfl, rfl⟩

/-- What was the same in both still is. -/
theorem Traces.read_eq {m m' w w' : Memory} (h : Traces m m' w w') {space : Space} {address : Word}
    (same : m'.read space address = m.read space address) :
    w'.read space address = w.read space address := by
  rcases h space address with hsame | ⟨hw, hw'⟩
  · exact hsame
  · rw [hw, hw', same]

theorem traces_moveEach {m m' : Memory} {source target : Space} {sourceStart targetStart : Word}
    {order : List Nat} {buffer buffer' : Array UInt8} (size : buffer'.size = buffer.size)
    (h : Traces m m' (m.splice target targetStart buffer) (m'.splice target targetStart buffer'))
    (same : ∀ i ∈ order, m'.read source (sourceStart + UInt64.ofNat i) =
      m.read source (sourceStart + UInt64.ofNat i)) :
    Traces m m' (m.splice target targetStart
        (m.moveEach source sourceStart target targetStart order buffer))
      (m'.splice target targetStart
        (m'.moveEach source sourceStart target targetStart order buffer')) := by
  induction order generalizing buffer buffer' with
  | nil => exact h
  | cons i rest ih =>
    rw [moveEach, moveEach, h.read_eq (same i List.mem_cons_self)]
    refine ih (by simp [size]) (fun space address => ?_) fun j hj =>
      same j (List.mem_cons_of_mem _ hj)
    rw [read_splice_set, read_splice_set, size]
    split
    · exact .inl rfl
    · exact h space address

/-- Bytes that are the same in both are moved alike. -/
theorem traces_move {m m' : Memory} {source target : Space} {sourceStart targetStart : Word}
    {count : Nat} (h : Agree m m' source sourceStart count) :
    Traces m m' (m.move source sourceStart target targetStart count)
      (m'.move source sourceStart target targetStart count) := by
  rw [move, move]
  split
  · exact .refl m m'
  · refine traces_moveEach (by simp [bytes]) ?_ fun i hi => h i ?_
    · rw [splice_bytes, splice_bytes]
      exact .refl m m'
    · split at hi <;> simpa using hi

end Memory

/-- Outcomes are the same if what follows a success is. -/
theorem bind_congr_ok {ε α β : Type} {x : Except ε α} {f g : α → Except ε β}
    (h : ∀ a, x = .ok a → f a = g a) : (x >>= f) = (x >>= g) := by
  cases x with
  | error e => rfl
  | ok a => exact h a rfl

theorem access_map {α β : Type} (f : α → β) (r : Except AccessError α) :
    access (r.map f) = (access r).map f := by
  cases r with
  | error e => rfl
  | ok a => rfl

/-! ### Accesses -/

namespace State

/-- The memory agrees with the state's on the segment, if the segment can be read. -/
def Agrees (s : State) (memory : Memory) (x : Segment) : Prop :=
  s.isAlive x.scope = true → ∀ space address, x.Covers space address →
    memory.read space address = s.memory.read space address

section
variable {s : State} {memory : Memory} {t : Thread} {x : Segment} {offset length alignment : Word}
  {mode : AccessMode} {u : Unit}

/-- What was checked is the same in both. -/
theorem Agrees.checked (h : s.Agrees memory x) (lasting : s.Lasting x.scope)
    (hcheck : s.check t x offset length alignment mode = .ok u) :
    s.memory.Agree memory x.space (x.address + offset) length.toNat := by
  obtain ⟨hentry, hbounds, -⟩ := check_ok hcheck
  intro i hi
  refine h (checkEntry_alive hentry lasting) _ _ (Segment.covers_of_within hbounds ?_)
  have hword : i < 2 ^ 64 := Nat.lt_trans hi (UInt64.toNat_lt length)
  have hback : x.address + offset + UInt64.ofNat i - (x.address + offset) = UInt64.ofNat i := by
    grind
  rw [Memory.within, hback, UInt64.toNat_ofNat_of_lt' hword]
  exact decide_eq_true hi

end

section
variable {c : Carrier} {s : State} {memory : Memory} {t : Thread} {x : Segment}
  {layout : ValueLayout c} (h : s.Agrees memory x) (lasting : s.Lasting x.scope)
include h lasting

theorem get_agrees (offset : Word) :
    ({ s with memory } : State).get t x layout offset = s.get t x layout offset := by
  refine bind_congr_ok fun _ hcheck => ?_
  have hbytes := (h.checked lasting hcheck).bytes
  rw [Carrier.toNat_width] at hbytes
  exact congrArg (fun bytes => Except.ok (c.decode layout.order bytes)) hbytes

theorem getAt_agrees (index : Word) :
    ({ s with memory } : State).getAt t x layout index = s.getAt t x layout index :=
  bind_congr_ok fun offset _ => get_agrees h lasting offset

theorem values_agrees :
    ({ s with memory } : State).values t x layout = s.values t x layout := by
  refine bind_congr_ok fun _ hvalues => ?_
  have hcheck : s.check t x 0 x.size layout.alignment.bytes .read = .ok () := by
    unfold checkValues at hvalues
    split at hvalues
    · cases hvalues
    · exact hvalues
  exact congrArg (fun bytes => Except.ok (c.decodeAll layout.order (x.size / c.width).toNat bytes))
    (h.checked lasting hcheck).bytes

theorem readRun_agrees (offset count : Word) :
    ({ s with memory } : State).readRun t x layout offset count =
      s.readRun t x layout offset count := by
  refine bind_congr_ok fun length _ => bind_congr_ok fun _ hcheck => ?_
  exact congrArg (fun bytes => Except.ok (c.decodeAll layout.order count.toNat bytes))
    (h.checked lasting hcheck).bytes

end

section
variable {s : State} {memory : Memory} {t : Thread} {x : Segment} (h : s.Agrees memory x)
  (lasting : s.Lasting x.scope)
include h lasting

theorem getText_agrees (offset : Word) :
    ({ s with memory } : State).getText t x offset = s.getText t x offset := by
  unfold getText
  split
  · rfl
  · rename_i remaining hremaining
    refine bind_congr_ok fun _ hcheck => ?_
    have hagree := h.checked lasting hcheck
    dsimp only
    rw [hagree.find? 0]
    split
    · rfl
    · rename_i length hfound
      have hlength := Memory.find?_lt hfound
      exact congrArg (fun bytes => Except.ok (Text.Utf8.decode bytes))
        (hagree.mono (Nat.le_of_lt hlength)).bytes

theorem mismatchRange_agrees {y : Segment} (h' : s.Agrees memory y) (lasting' : s.Lasting y.scope)
    (xStart xStop yStart yStop : Word) :
    ({ s with memory } : State).mismatchRange t x xStart xStop y yStart yStop =
      s.mismatchRange t x xStart xStop y yStart yStop := by
  refine bind_congr_ok fun xLength _ => bind_congr_ok fun yLength _ => ?_
  refine bind_congr_ok fun _ hx => bind_congr_ok fun _ hy => ?_
  have hleft : (min xLength yLength).toNat ≤ xLength.toNat :=
    UInt64.le_iff_toNat_le.mp Std.min_le_left
  have hright : (min xLength yLength).toNat ≤ yLength.toNat :=
    UInt64.le_iff_toNat_le.mp Std.min_le_right
  have hxs := (h.checked lasting hx).mono hleft
  have hys := (h'.checked lasting' hy).mono hright
  dsimp only
  rw [hxs.firstDifference? hys]

theorem addressAt_agrees (layout : AddressLayout) {offset alignment : Word} {u : Unit}
    (hcheck : s.check t x offset AddressLayout.width alignment .read = .ok u) :
    ({ s with memory } : State).addressAt x layout offset = s.addressAt x layout offset :=
  congrArg (Carrier.decode .ulong layout.order) (h.checked lasting hcheck).bytes

/-- The segment at a stored address is the same, in a scope of the same number. -/
theorem getAddress_agrees (layout : AddressLayout) (offset : Word) :
    ({ s with memory } : State).getAddress t x layout offset =
      (s.getAddress t x layout offset).map fun made => (made.1, { made.2 with memory }) := by
  unfold getAddress
  have hsame : ({ s with memory } : State).check t x offset AddressLayout.width
      layout.alignment.bytes .read = s.check t x offset AddressLayout.width
      layout.alignment.bytes .read := rfl
  rw [hsame]
  cases hcheck : s.check t x offset AddressLayout.width layout.alignment.bytes .read with
  | error e => rfl
  | ok u =>
    have haddress := addressAt_agrees h lasting layout hcheck
    simp only [haddress, bind, Except.bind]
    split
    · rfl
    · split
      · rfl
      · rfl

theorem getAddressAt_agrees (layout : AddressLayout) (index : Word) :
    ({ s with memory } : State).getAddressAt t x layout index =
      (s.getAddressAt t x layout index).map fun made => (made.1, { made.2 with memory }) := by
  unfold getAddressAt
  cases indexOffset x layout.shape index with
  | error e => rfl
  | ok offset => exact getAddress_agrees h lasting layout offset

end

/-! ### Writes -/

/-- How one write goes on two memories: it fails alike, or it leaves a trace of its own. -/
inductive Tracks (s : State) (memory : Memory) {ε : Type} :
    Except ε State → Except ε State → Prop where
  | failed (e : ε) : Tracks s memory (.error e) (.error e)
  | wrote {w w' : Memory} (traces : s.memory.Traces memory w w') :
      Tracks s memory (.ok { s with memory := w }) (.ok { s with memory := w' })

section
variable {s : State} {memory : Memory} {t : Thread} {x : Segment}

theorem Tracks.bind {ε α : Type} {r : Except ε α} {f g : α → Except ε State}
    (h : ∀ a, r = .ok a → Tracks s memory (f a) (g a)) : Tracks s memory (r >>= f) (r >>= g) := by
  cases r with
  | error e => exact .failed e
  | ok a => exact h a rfl

theorem Tracks.access {r r' : Except AccessError State} (h : Tracks s memory r r') :
    Tracks s memory (access r) (access r') := by
  cases h with
  | failed e => exact .failed (Fault.access e)
  | wrote traces => exact .wrote traces

theorem Tracks.after {ε : Type} {w w' : Memory} {r r' : Except ε State}
    (h : Tracks { s with memory := w } w' r r') (traces : s.memory.Traces memory w w') :
    Tracks s memory r r' := by
  cases h with
  | failed e => exact .failed e
  | wrote more => exact .wrote (traces.trans more)

/-- A write after a write. -/
theorem Tracks.andThen {ε : Type} {r r' : Except ε State} {f : State → Except ε State}
    (h : Tracks s memory r r')
    (later : ∀ w w', Tracks { s with memory := w } w' (f { s with memory := w })
      (f { s with memory := w' })) : Tracks s memory (r >>= f) (r' >>= f) := by
  cases h with
  | failed e => exact .failed e
  | @wrote w w' traces => exact (later w w').after traces

theorem set_tracks {c : Carrier} (layout : ValueLayout c) (offset : Word) (value : c.Value) :
    Tracks s memory (s.set t x layout offset value)
      (({ s with memory } : State).set t x layout offset value) :=
  .bind fun _ _ => .wrote Memory.traces_write

theorem setAt_tracks {c : Carrier} (layout : ValueLayout c) (index : Word) (value : c.Value) :
    Tracks s memory (s.setAt t x layout index value)
      (({ s with memory } : State).setAt t x layout index value) :=
  .bind fun offset _ => set_tracks layout offset value

theorem writeRun_tracks {c : Carrier} (layout : ValueLayout c) (offset : Word)
    (values : List c.Value) :
    Tracks s memory (s.writeRun t x layout offset values)
      (({ s with memory } : State).writeRun t x layout offset values) :=
  .bind fun _ _ => .bind fun _ _ => .wrote Memory.traces_write

theorem setAddress_tracks (layout : AddressLayout) (offset : Word) (value : Segment) :
    Tracks s memory (s.setAddress t x layout offset value)
      (({ s with memory } : State).setAddress t x layout offset value) := by
  unfold setAddress
  split
  · exact .failed _
  · exact .bind fun _ _ => .wrote Memory.traces_write

theorem setAddressAt_tracks (layout : AddressLayout) (index : Word) (value : Segment) :
    Tracks s memory (s.setAddressAt t x layout index value)
      (({ s with memory } : State).setAddressAt t x layout index value) :=
  .bind fun offset _ => setAddress_tracks layout offset value

theorem writeTerminated_tracks (bytes : List UInt8) :
    Tracks s memory (s.writeTerminated t x bytes)
      (({ s with memory } : State).writeTerminated t x bytes) :=
  (writeRun_tracks byteLayout 0 bytes).andThen fun _ _ => set_tracks byteLayout _ _

theorem setText_tracks (offset : Word) (text : String) :
    Tracks s memory (s.setText t x offset text)
      (({ s with memory } : State).setText t x offset text) :=
  .bind fun _ _ => writeTerminated_tracks _

theorem fill_tracks (byte : UInt8) :
    Tracks s memory (s.fill t x byte) (({ s with memory } : State).fill t x byte) :=
  .bind fun _ _ => .wrote (Memory.traces_overlay fun _ _ => rfl)

end

section
variable {s : State} {memory : Memory} {t : Thread} {source x : Segment}
  (h : s.Agrees memory source) (lasting : s.Lasting source.scope)
include h lasting

theorem copy_tracks (sourceOffset offset length : Word) :
    Tracks s memory (s.copy t source sourceOffset x offset length)
      (({ s with memory } : State).copy t source sourceOffset x offset length) :=
  .bind fun _ hread => .bind fun _ _ =>
    .wrote (Memory.traces_move (h.checked lasting hread))

theorem copyElements_tracks {c d : Carrier} (sourceLayout : ValueLayout c)
    (layout : ValueLayout d) (sourceOffset offset count : Word) :
    Tracks s memory (s.copyElements t source sourceLayout sourceOffset x layout offset count)
      (({ s with memory } : State).copyElements t source sourceLayout sourceOffset x layout offset
        count) := by
  refine .bind fun length hcheck => .wrote ?_
  have hagree := h.checked lasting (checkElements_ok hcheck).2.1
  cases turnsElements sourceLayout layout with
  | true =>
    rw [movedElements, movedElements, if_pos rfl, if_pos rfl, hagree.bytes]
    exact Memory.traces_write
  | false => exact Memory.traces_move hagree

end

/-! ### Names -/

/-- The byte is one of a segment with one of these names, whose scope is alive. -/
def Reaches (s : State) (names : List String) (space : Space) (address : Word) : Prop :=
  ∃ name ∈ names, ∃ x, s.handles.segments.find? name = some x ∧ s.isAlive x.scope = true ∧
    x.Covers space address

/-- The memory holds the bytes that the names reach. -/
def AgreesOn (s : State) (names : List String) (memory : Memory) : Prop :=
  ∀ space address, s.Reaches names space address →
    memory.read space address = s.memory.read space address

section
variable {s : State} {memory : Memory} {names : List String} {name : String} {x : Segment}

theorem AgreesOn.agrees (h : s.AgreesOn names memory) (hname : name ∈ names)
    (hx : s.segmentNamed name = .ok x) : s.Agrees memory x :=
  fun alive space address hc =>
    h space address ⟨name, hname, x, segmentNamed_ok hx, alive, hc⟩

theorem Guarded.named_lasting (h : Guarded s) (hx : s.segmentNamed name = .ok x) :
    s.Lasting x.scope :=
  (h.keepable (segmentNamed_mem hx)).2

end

end State

open State

/-- The segments whose bytes a query looks at. -/
def Query.sources : Query → List String
  | .get segment .. | .values segment _ | .bytes segment | .text segment _
  | .run segment .. => [segment]
  | .mismatch a b | .mismatchRange a _ _ b _ _ => [a, b]
  | _ => []

/-- The segments whose bytes a change looks at. -/
def Change.sources : Change → List String
  | .copy source .. | .copyAll source _ | .copyElements source .. => [source]
  | _ => []

section
variable {s : State} {memory : Memory} {t : Thread}

/-- **A query** looks at the bytes that it reaches, and at no others. -/
theorem Query.answer_agrees (h : Guarded s) {q : Query} (agrees : s.AgreesOn q.sources memory) :
    q.answer t { s with memory } = q.answer t s := by
  cases q with
  | get segment layout position =>
    refine bind_congr_ok fun x hx => bind_congr_ok fun layout _ => ?_
    have hagrees := agrees.agrees (List.mem_singleton.mpr rfl) hx
    have hlasting := h.named_lasting hx
    cases position with
    | offset offset =>
      dsimp only
      rw [get_agrees hagrees hlasting offset]
    | index index =>
      dsimp only
      rw [getAt_agrees hagrees hlasting index]
  | values segment layout =>
    refine bind_congr_ok fun x hx => bind_congr_ok fun layout _ => ?_
    refine bind_congr_ok fun _ _ => bind_congr_ok fun _ _ => ?_
    rw [values_agrees (agrees.agrees (List.mem_singleton.mpr rfl) hx) (h.named_lasting hx)]
  | bytes segment =>
    refine bind_congr_ok fun x hx => bind_congr_ok fun _ _ => bind_congr_ok fun _ _ => ?_
    rw [values_agrees (agrees.agrees (List.mem_singleton.mpr rfl) hx) (h.named_lasting hx)]
  | text segment offset =>
    refine bind_congr_ok fun x hx => ?_
    rw [getText_agrees (agrees.agrees (List.mem_singleton.mpr rfl) hx) (h.named_lasting hx)]
  | run segment layout offset count =>
    refine bind_congr_ok fun x hx => bind_congr_ok fun layout _ => bind_congr_ok fun _ _ => ?_
    rw [readRun_agrees (agrees.agrees (List.mem_singleton.mpr rfl) hx) (h.named_lasting hx)]
  | mismatch a b =>
    refine bind_congr_ok fun x hx => bind_congr_ok fun y hy => ?_
    have hfirst := agrees.agrees (List.mem_cons_self ..) hx
    have hsecond := agrees.agrees (List.mem_cons_of_mem _ (List.mem_singleton.mpr rfl)) hy
    rw [State.mismatch, State.mismatch, mismatchRange_agrees hfirst (h.named_lasting hx) hsecond
      (h.named_lasting hy)]
  | mismatchRange a aStart aStop b bStart bStop =>
    refine bind_congr_ok fun x hx => bind_congr_ok fun y hy => ?_
    have hfirst := agrees.agrees (List.mem_cons_self ..) hx
    have hsecond := agrees.agrees (List.mem_cons_of_mem _ (List.mem_singleton.mpr rfl)) hy
    rw [mismatchRange_agrees hfirst (h.named_lasting hx) hsecond (h.named_lasting hy)]
  | arenaInfo _ | allocatorInfo _ | segmentInfo _ | accessible _ _ | compare _ _ | offsetOf _ _
  | elements _ _ _ | check _ _ _ _ _ | policy | calls _ => rfl

/-- **A change** writes nothing that depends on bytes which it does not reach. -/
theorem Change.apply_tracks (h : Guarded s) {c : Change} (agrees : s.AgreesOn c.sources memory) :
    Tracks s memory (c.apply t s) (c.apply t { s with memory }) := by
  cases c with
  | set segment layout position value =>
    refine .bind fun x _ => .bind fun layout _ => .access ?_
    cases position with
    | offset offset => exact set_tracks layout offset value
    | index index => exact setAt_tracks layout index value
  | setAddress segment layout position value =>
    refine .bind fun x _ => .bind fun value _ => .bind fun layout _ => .access ?_
    cases position with
    | offset offset => exact setAddress_tracks layout offset value
    | index index => exact setAddressAt_tracks layout index value
  | setText segment offset text => exact .bind fun x _ => (setText_tracks offset text).access
  | setRun segment layout offset values =>
    exact .bind fun x _ => .bind fun layout _ => (writeRun_tracks layout offset values).access
  | fill segment byte => exact .bind fun x _ => (fill_tracks byte).access
  | copy source sourceOffset target targetOffset length =>
    refine .bind fun x hx => .bind fun y _ => .access ?_
    exact copy_tracks (agrees.agrees (List.mem_singleton.mpr rfl) hx) (h.named_lasting hx) ..
  | copyAll source target =>
    refine .bind fun x hx => .bind fun y _ => .access ?_
    exact copy_tracks (agrees.agrees (List.mem_singleton.mpr rfl) hx) (h.named_lasting hx) ..
  | copyElements source sourceLayout sourceOffset target targetLayout targetOffset count =>
    refine .bind fun x hx => .bind fun y _ => .bind fun sourceLayout _ => .bind fun layout _ => ?_
    have hcopy := copyElements_tracks (t := t) (x := y)
      (agrees.agrees (List.mem_singleton.mpr rfl) hx) (h.named_lasting hx) sourceLayout layout
      sourceOffset targetOffset count
    dsimp only
    split
    · exact .bind fun length _ => .bind fun _ _ => hcopy.access
    · exact hcopy.access

/-- **The segment at a stored address** depends on no other bytes either. -/
theorem Making.fromAddress_agrees (h : Guarded s) {segment : String} {layout : AddressExpr}
    {position : Position} (agrees : s.AgreesOn [segment] memory) :
    (Making.fromAddress segment layout position).make t { s with memory } =
      ((Making.fromAddress segment layout position).make t s).map
        fun made => (made.1, { made.2 with memory }) := by
  have hsame : ({ s with memory } : State).segmentNamed segment = s.segmentNamed segment := rfl
  rw [Making.make, Making.make, hsame]
  cases hx : s.segmentNamed segment with
  | error fault => rfl
  | ok x =>
    have hagrees := agrees.agrees (List.mem_singleton.mpr rfl) hx
    have hlasting := h.named_lasting hx
    cases hbuilt : layout.build with
    | error e => rfl
    | ok built =>
      cases position with
      | offset offset =>
        have hfound := getAddress_agrees (t := t) hagrees hlasting built offset
        exact (congrArg access hfound).trans (access_map _ _)
      | index index =>
        have hfound := getAddressAt_agrees (t := t) hagrees hlasting built index
        exact (congrArg access hfound).trans (access_map _ _)

end

end ScopedMemory
