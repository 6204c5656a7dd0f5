import ScopedMemory.Proofs.Atomicity
import ScopedMemory.Proofs.Cutting
import ScopedMemory.Proofs.FirstFit
import ScopedMemory.Proofs.Ownership
import ScopedMemory.Proofs.Views

/-! Allocating with contents.

An order says what to allocate and what to fill it with. Placing it takes two steps, the allocation
and the filling (`Order.place_eq`), and the second can be refused when the first was not. In a
segment that was cut out for the order it is refused for one of two reasons only, that the scope
belongs to another thread or that the segment is read-only (`Order.fill_eq_error`). The bytes are
then as they were, but what was cut out is not given back. -/
namespace ScopedMemory

/-- What is asked of an allocator. -/
inductive Order where
  | bytes (size alignment : Word)
  | shape (form : Shape)
  | array (element : Shape) (count : Word)
  | value {c : Carrier} (layout : ValueLayout c) (v : c.Value)
  | values {c : Carrier} (layout : ValueLayout c) (vs : List c.Value)
  | text (content : String)

namespace Order

/-- Has an allocator place it. -/
def place (a : Allocator) (t : Thread) (s : State) : Order → Allocation
  | .bytes size alignment => a.allocate t s size alignment
  | .shape form => a.allocateShape t s form
  | .array element count => a.allocateArray t s element count
  | .value layout v => a.allocateValue t s layout v
  | .values layout vs => a.allocateFrom t s layout vs
  | .text content => a.allocateText t s content

/-- The bytes that an array of so many elements takes, and their alignment. -/
def arrayExtent (element : Shape) (count : Word) : Except AccessError (Word × Word) := do
  let whole ← Shape.sequence count element
  return (whole.size, whole.alignment.bytes)

/-- How many bytes it takes, and their alignment. -/
def extent : Order → Except AccessError (Word × Word)
  | .bytes size alignment => .ok (size, alignment)
  | .shape form => .ok (form.size, form.alignment.bytes)
  | .array element count => arrayExtent element count
  | .value layout _ => .ok (layout.shape.size, layout.shape.alignment.bytes)
  | .values layout vs => arrayExtent layout.shape (UInt64.ofNat vs.length)
  | .text content => .ok (UInt64.ofNat (Text.Utf8.encode content).length + 1, 1)

/-- It comes with contents. -/
def fills : Order → Bool
  | .value .. | .values .. | .text _ => true
  | _ => false

/-- Writes the contents into the segment that was allocated. -/
def fill (order : Order) (t : Thread) (s : State) (x : Segment) : Except AccessError State :=
  match order with
  | .value layout v => s.set t x layout 0 v
  | .values layout vs => s.writeRun t x layout 0 vs
  | .text content => s.writeTerminated t x (Text.Utf8.encode content)
  | _ => .ok s

/-- The contents can be counted in words, as whatever is in memory can. -/
def Counted : Order → Prop
  | .values _ vs => vs.length < Word.limit
  | .text content => (Text.Utf8.encode content).length + 1 < Word.limit
  | _ => True

end Order

/-! ### Two steps -/

/-- Nothing is written without contents. -/
theorem Allocation.fillWith_nothing (allocation : Allocation) :
    (allocation.fillWith fun s _ => .ok s) = allocation := by
  obtain ⟨result, allocator, s⟩ := allocation
  cases result <;> rfl

namespace Order
variable {order : Order} {a : Allocator} {t : Thread} {s s' : State} {x y : Segment}
  {size alignment used used' : Word}

theorem allocateArray_eq (a : Allocator) (t : Thread) (s : State) (element : Shape) (count : Word) :
    a.allocateArray t s element count = match arrayExtent element count with
      | .ok (size, alignment) => a.allocate t s size alignment
      | .error e => ⟨.error (.access e), a, s⟩ := by
  unfold Allocator.allocateArray arrayExtent
  cases Shape.sequence count element <;> rfl

/-- **First the bytes, then the contents.** -/
theorem place_eq (order : Order) (a : Allocator) (t : Thread) (s : State) :
    order.place a t s = match order.extent with
      | .ok (size, alignment) => (a.allocate t s size alignment).fillWith (order.fill t)
      | .error e => ⟨.error (.access e), a, s⟩ := by
  cases order with
  | bytes size alignment => exact (Allocation.fillWith_nothing _).symm
  | shape form => exact (Allocation.fillWith_nothing _).symm
  | array element count =>
    rw [place, allocateArray_eq, extent]
    cases arrayExtent element count with
    | error e => rfl
    | ok extent => exact (Allocation.fillWith_nothing _).symm
  | value layout v => rfl
  | values layout vs =>
    rw [place, Allocator.allocateFrom, allocateArray_eq, extent]
    cases arrayExtent layout.shape (UInt64.ofNat vs.length) <;> rfl
  | text content => rfl

end Order

/-! ### Who may write -/

namespace State
variable {s : State} {t : Thread} {x y : Segment} {length alignment : Word} {e : AccessError}

/-- The segment can be written by the thread, as long as its scope is alive. -/
def mayWrite (s : State) (t : Thread) (x : Segment) : Except AccessError Unit := do
  s.checkOwner t x.scope
  x.checkMode .write

theorem mayWrite_eq_error : s.mayWrite t x = .error e ↔
    (s.scope x.scope).discipline.accessibleBy t = false ∧ e = .wrongThread ∨
    (s.scope x.scope).discipline.accessibleBy t = true ∧ x.readOnly = true ∧ e = .readOnly := by
  cases howner : (s.scope x.scope).discipline.accessibleBy t <;> cases hmode : x.readOnly <;>
    simp [mayWrite, checkOwner, Segment.checkMode, howner, hmode, bind, Except.bind, eq_comm]

/-- Of a scope that is alive only the owner is asked. -/
theorem checkEntry_of_alive {id : ScopeId} (alive : s.isAlive id = true) :
    s.checkEntry t id = s.checkOwner t id := by
  have halive : s.checkAlive id = .ok () := checkAlive_eq_ok.mpr alive
  unfold checkEntry
  cases hd : (s.scope id).discipline with
  | confined owner =>
    simp only [halive]
    rfl
  | shared => simp [halive, checkOwner, Discipline.accessibleBy, hd]
  | auto => simp [checkOwner, Discipline.accessibleBy, hd]
  | global => simp [checkOwner, Discipline.accessibleBy, hd]

/-- At the front of a segment that is aligned, bytes that lie inside can be written by who may. -/
theorem check_front (alive : s.isAlive x.scope = true)
    (aligned : x.checkAlignment 0 alignment = .ok ()) (fits : length.toNat ≤ x.size.toNat) :
    s.check t x 0 length alignment .write = s.mayWrite t x := by
  have hbounds : x.checkBounds 0 length = .ok () :=
    Segment.checkBounds_eq_ok.mpr ((Nat.zero_add _).symm ▸ fits)
  unfold check checkRange mayWrite
  rw [checkEntry_of_alive alive, hbounds, aligned]
  cases s.checkOwner t x.scope <;> rfl

theorem store_eq_error {verdict : Except AccessError Unit} {s' : State} :
    (verdict >>= fun _ => pure s') = .error e ↔ verdict = .error e := by
  cases verdict <;> simp [bind, Except.bind, pure, Except.pure]

/-- Values that have room are refused for want of rights alone. -/
theorem writeRun_eq_error {c : Carrier} {layout : ValueLayout c} {values : List c.Value}
    (alive : s.isAlive x.scope = true) (aligned : x.checkAlignment 0 layout.alignment.bytes = .ok ())
    (fits : values.length * c.size ≤ x.size.toNat) :
    s.writeRun t x layout 0 values = .error e ↔ s.mayWrite t x = .error e := by
  have hword : values.length * c.size < Word.limit := Nat.lt_of_le_of_lt fits (Word.toNat_lt x.size)
  have hlength : runLength c x 0 values.length = .ok (UInt64.ofNat (values.length * c.size)) :=
    if_pos hword
  have hcheck : s.check t x 0 (UInt64.ofNat (values.length * c.size)) layout.alignment.bytes .write =
      s.mayWrite t x := by
    refine check_front alive aligned ?_
    rwa [UInt64.toNat_ofNat_of_lt' hword]
  rw [← store_eq_error, ← hcheck, writeRun, hlength]
  rfl

/-- And so is a text. -/
theorem writeTerminated_eq_error {bytes : List UInt8} (alive : s.isAlive x.scope = true)
    (counted : bytes.length + 1 < Word.limit) (cut : x.size = UInt64.ofNat bytes.length + 1) :
    s.writeTerminated t x bytes = .error e ↔ s.mayWrite t x = .error e := by
  have hlength : (UInt64.ofNat bytes.length).toNat = bytes.length :=
    UInt64.toNat_ofNat_of_lt' (Nat.lt_of_succ_lt counted)
  have hroom : x.size.toNat = bytes.length + 1 := by
    rw [cut, UInt64.toNat_add, hlength]
    exact Nat.mod_eq_of_lt counted
  have hrun : ∀ e, s.writeRun t x byteLayout 0 bytes = .error e ↔ s.mayWrite t x = .error e :=
    fun e => writeRun_eq_error alive (checkAlignment_one 0) (by
      show bytes.length * 1 ≤ _
      omega)
  unfold writeTerminated
  cases hwrite : s.writeRun t x byteLayout 0 bytes with
  | error e' => simp [bind, Except.bind, (hrun e').mp hwrite]
  | ok s' =>
    obtain ⟨s'', hzero⟩ := set_after_writeRun 0 hwrite (terminator_fits hwrite cut)
    rw [← hrun, hwrite]
    simp [bind, Except.bind, hzero]

end State

namespace Order
variable {order : Order} {t : Thread} {s : State} {x : Segment} {size : Word} {a : Alignment}
  {e : AccessError}
open State

/-- **Contents are refused for want of rights alone**, in a segment that was cut out for them. -/
theorem fill_eq_error (extent : order.extent = .ok (x.size, a.bytes)) (counted : order.Counted)
    (alive : s.isAlive x.scope = true) (aligned : x.checkAlignment 0 a.bytes = .ok ()) :
    order.fill t s x = .error e ↔ order.fills = true ∧ s.mayWrite t x = .error e := by
  cases order with
  | bytes _ _ => simp [fill, fills]
  | shape _ => simp [fill, fills]
  | array _ _ => simp [fill, fills]
  | @value c layout v =>
    obtain ⟨hsize, halignment⟩ := Prod.mk.inj (Except.ok.inj extent)
    rw [← halignment] at aligned
    have hcheck : s.check t x 0 c.width layout.alignment.bytes .write = s.mayWrite t x :=
      check_front alive aligned (Nat.le_of_eq (congrArg UInt64.toNat hsize))
    simp only [fill, fills, true_and, State.set, hcheck]
    exact store_eq_error
  | @values c layout vs =>
    obtain ⟨whole, hwhole, hextent⟩ := bind_eq_ok.mp extent
    obtain ⟨hsize, halignment⟩ := Prod.mk.inj (pure_eq_ok.mp hextent)
    obtain ⟨-, hlength, hsame⟩ := Shape.sequence_eq_ok_iff.mp hwhole
    rw [← halignment, ← hsame] at aligned
    have hcount : (UInt64.ofNat vs.length).toNat = vs.length := UInt64.toNat_ofNat_of_lt' counted
    simp only [fill, fills, true_and]
    refine writeRun_eq_error alive aligned (Nat.le_of_eq ?_)
    rw [← hsize, ← hlength, hcount]
    exact congrArg _ c.toNat_width.symm
  | text content =>
    obtain ⟨hsize, -⟩ := Prod.mk.inj (Except.ok.inj extent)
    simp only [fill, fills, true_and]
    exact writeTerminated_eq_error alive counted hsize.symm

end Order

/-! ### What is cut out -/

/-- Whatever is carved out is a slice of the segment. -/
theorem Carver.slice_of_carve {carver : Carver} {s : State} {x : Segment} {size alignment : Word}
    (h : (carver.carve s size alignment).1 = .ok x) :
    ∃ start, s.slice carver.segment start size alignment = .ok x := by
  cases carver with
  | slicing base used =>
    simp only [carve] at h
    split at h
    · rename_i slice used' hbump
      obtain rfl := Except.ok.inj h
      obtain ⟨a, rfl⟩ := bytes_of_bump hbump
      simp only [bump, Alignment.ofBytes?_bytes] at hbump
      split at hbump
      · obtain ⟨z, hz, hbump⟩ := bind_eq_ok.mp hbump
        obtain ⟨rfl, -⟩ := Prod.mk.inj (pure_eq_ok.mp hbump)
        exact ⟨_, liftAccess_eq_ok.mp hz⟩
      · exact absurd hbump throw_ne_ok
    · cases h
  | front base =>
    simp only [carve, takeFront] at h
    split at h
    · cases h
    · exact ⟨0, liftAccess_eq_ok.mp h⟩

/-- An allocation is as large as was asked. -/
theorem Allocator.allocate_size {a : Allocator} {t : Thread} {s : State} {x : Segment}
    {size alignment : Word} (h : (a.allocate t s size alignment).result = .ok x) : x.size = size := by
  cases a with
  | arena owner =>
    simp only [allocate] at h
    split at h
    · rename_i y s' hy
      obtain rfl := Except.ok.inj h
      obtain ⟨a, block, s₁, -, -, -, -, rfl, -⟩ := State.allocate_steps hy
      rfl
    · cases h
  | carver carver =>
    obtain ⟨start, hslice⟩ := Carver.slice_of_carve h
    rw [(State.slice_ok hslice).2.2]
    rfl

/-! ### Placing in place -/

namespace Order
open InPlace
variable {order : Order} {t : Thread} {s : State} {x : Segment} {alignment : Word}

def fillInPlace (order : Order) (t : Thread) (x : Segment) : InPlace State AccessError Unit :=
  match order with
  | .value layout v => State.setInPlace t x layout 0 v
  | .values layout vs => State.writeRunInPlace t x layout 0 vs
  | .text content => State.writeTerminatedInPlace t x (Text.Utf8.encode content)
  | _ => pure ()

/-- Filling what was cut out does not fail late. -/
theorem fillInPlace_settles (extent : order.extent = .ok (x.size, alignment)) :
    (order.fillInPlace t x).Settles s (order.fill t s x) := by
  cases order with
  | bytes _ _ => rfl
  | shape _ => rfl
  | array _ _ => rfl
  | value layout v => exact State.setInPlace_settles layout 0 v
  | values layout vs => exact State.writeRunInPlace_settles layout 0 vs
  | text content =>
    obtain ⟨hsize, -⟩ := Prod.mk.inj (Except.ok.inj extent)
    refine (State.writeRunInPlace_settles State.byteLayout 0 _).andThen fun s' hrun => ?_
    exact ⟨State.setInPlace_settles State.byteLayout _ (0 : UInt8),
      State.set_after_writeRun 0 hrun (State.terminator_fits hrun hsize.symm)⟩

/-- Takes bytes, with which the allocator moves on. -/
def takeInPlace (t : Thread) (size alignment : Word) : InPlace (Allocator × State) ArenaError Segment :=
  fun (a, s) =>
    let allocation := a.allocate t s size alignment
    (allocation.result, allocation.allocator, allocation.state)

/-- Writes the contents, with which the allocator has nothing to do. -/
def putInPlace (order : Order) (t : Thread) (x : Segment) :
    InPlace (Allocator × State) ArenaError Unit :=
  fun (a, s) =>
    let filled := order.fillInPlace t x s
    (liftAccess filled.1, a, filled.2)

/-- The allocator has moved on by the time that anything is written. -/
def placeInPlace (order : Order) (t : Thread) : InPlace (Allocator × State) ArenaError Segment := do
  let (size, alignment) ← inspect fun _ => liftAccess order.extent
  let x ← takeInPlace t size alignment
  order.putInPlace t x
  return x

/-- **Placing in place comes to the same**: what a failure has changed is the allocator. -/
theorem placeInPlace_eq (order : Order) (a : Allocator) (t : Thread) (s : State) :
    order.placeInPlace t (a, s) = ((order.place a t s).result, (order.place a t s).allocator,
      (order.place a t s).state) := by
  rw [place_eq]
  unfold placeInPlace
  cases hextent : order.extent with
  | error e => rfl
  | ok extent =>
    obtain ⟨size, alignment⟩ := extent
    rcases hallocation : a.allocate t s size alignment with ⟨result, a', s'⟩
    have htake : takeInPlace t size alignment (a, s) = (result, a', s') := by
      simp only [takeInPlace, hallocation]
    have hlook : inspect (fun _ : Allocator × State => liftAccess (.ok (size, alignment))) (a, s) =
        (.ok (size, alignment), a, s) := rfl
    refine (bind_of_ok hlook).trans ?_
    dsimp only
    rw [hallocation]
    cases result with
    | error e => exact bind_of_error htake
    | ok x =>
      have hsize : x.size = size := Allocator.allocate_size (congrArg Allocation.result hallocation)
      have hsettles : (order.fillInPlace t x).Settles s' (order.fill t s' x) :=
        fillInPlace_settles (hsize ▸ hextent)
      refine (bind_of_ok htake).trans ?_
      obtain ⟨e, hfill, hin⟩ | ⟨s'', hfill, hin⟩ := hsettles.cases
      · have hput : order.putInPlace t x (a', s') = (.error (.access e), a', s') := by
          simp only [putInPlace, hin]
          rfl
        simp only [Allocation.fillWith, hfill]
        exact bind_of_error hput
      · have hput : order.putInPlace t x (a', s') = (.ok (), a', s'') := by
          simp only [putInPlace, hin]
          rfl
        simp only [Allocation.fillWith, hfill]
        exact bind_of_ok hput

end Order

/-! ### Orders that fail -/

/-- A slice is alive, and aligned at its front as was asked. -/
theorem State.slice_front {s : State} {x y : Segment} {start size : Word} {a : Alignment}
    (h : s.slice x start size a.bytes = .ok y) :
    s.isAlive y.scope = true ∧ y.checkAlignment 0 a.bytes = .ok () ∧ y = x.part start size := by
  obtain ⟨halive, -, haligned, rfl⟩ := slice_eq_ok_iff.mp h
  refine ⟨halive, ?_, rfl⟩
  rwa [Segment.checkAlignment_part, UInt64.add_zero]

namespace Carver
variable {x y : Segment} {used used' size alignment : Word} {t : Thread} {s : State} {order : Order}

/-- Contents are refused in a slice that was cut out for them for want of rights to the base. -/
theorem fill_of_bump {e : AccessError} (counted : order.Counted)
    (extent : order.extent = .ok (size, alignment))
    (cut : bump s x used size alignment = .ok (y, used')) (refused : order.fill t s y = .error e) :
    order.fills = true ∧ s.mayWrite t x = .error e := by
  obtain ⟨a, rfl⟩ := bytes_of_bump cut
  have hcarve : ((Carver.slicing x used).carve s size a.bytes).1 = .ok y := by
    simp only [carve, cut]
  obtain ⟨start, hslice⟩ := slice_of_carve hcarve
  obtain ⟨halive, haligned, rfl⟩ := State.slice_front hslice
  exact (Order.fill_eq_error extent counted halive haligned).mp refused

/-- **An order that fails writes nothing**, not even on the way. A slicing allocator is as it was,
unless there was room for the contents and the thread may not write to the base: then what was cut
out for them counts as used. -/
theorem failed_order_moves_cursor_at_most {e : ArenaError} (counted : order.Counted)
    (failed : (order.place (.carver (.slicing x used)) t s).result = .error e) :
    (order.place (.carver (.slicing x used)) t s).state = s ∧
    order.placeInPlace t (.carver (.slicing x used), s) =
      (.error e, (order.place (.carver (.slicing x used)) t s).allocator, s) ∧
    ((order.place (.carver (.slicing x used)) t s).allocator = .carver (.slicing x used) ∨
      order.fills = true ∧ (∃ size alignment y used', order.extent = .ok (size, alignment) ∧
        bump s x used size alignment = .ok (y, used') ∧
        (order.place (.carver (.slicing x used)) t s).allocator = .carver (.slicing x used')) ∧
      ((s.scope x.scope).discipline.accessibleBy t = false ∧ e = .access .wrongThread ∨
        (s.scope x.scope).discipline.accessibleBy t = true ∧ x.readOnly = true ∧
          e = .access .readOnly)) := by
  rw [Order.placeInPlace_eq, failed]
  have hplace := order.place_eq (.carver (.slicing x used)) t s
  cases hextent : order.extent with
  | error e' =>
    rw [hextent] at hplace
    simp [hplace]
  | ok extent =>
    obtain ⟨size, alignment⟩ := extent
    rw [hextent] at hplace
    dsimp only at hplace
    cases hbump : bump s x used size alignment with
    | error e' =>
      rw [allocate_of_refused hbump] at hplace
      simp [hplace, Allocation.fillWith]
    | ok cut =>
      obtain ⟨y, used'⟩ := cut
      rw [allocate_of_bump hbump] at hplace
      cases hfill : order.fill t s y with
      | ok s' =>
        simp only [Allocation.fillWith, hfill] at hplace
        rw [hplace] at failed
        cases failed
      | error e' =>
        obtain ⟨hfills, hrights⟩ := fill_of_bump counted hextent hbump hfill
        simp only [Allocation.fillWith, hfill] at hplace
        rw [hplace] at failed ⊢
        obtain rfl := Except.error.inj failed
        refine ⟨rfl, rfl, .inr ⟨hfills, ⟨size, alignment, y, used', rfl, hbump, rfl⟩, ?_⟩⟩
        simpa using State.mayWrite_eq_error.mp hrights

/-- Another thread may not write a text into a confined segment; the two bytes that it takes are
used up. -/
theorem failed_order_moves_cursor_at_most_foreign :
    let x : Segment := ⟨68719476736, 8, .native, false, 1⟩
    let placed := (Order.text "q").place (.carver (.slicing x 3)) 1 State.lent
    State.lent.segmentNamed "x" = .ok x ∧ (Order.text "q").Counted ∧
    placed.result = .error (.access .wrongThread) ∧ placed.state = State.lent ∧
    placed.allocator = .carver (.slicing x 5) := by
  have hcounted : (Order.text "q").Counted := by
    show (Text.Utf8.encode "q").length + 1 < Word.limit
    decide
  exact ⟨rfl, hcounted, rfl, (failed_order_moves_cursor_at_most hcounted rfl).1, rfl⟩

/-- The owner may not write a value into a read-only base either, and four bytes of it are used
nevertheless. -/
theorem refused_value_counts_as_used :
    let x : Segment := ⟨68719476736, 8, .native, true, 1⟩
    let placed := (Allocator.carver (.slicing x 0)).allocateValue 0 State.lent (.natural .uint)
      (7 : UInt32)
    placed.result = .error (.access .readOnly) ∧ placed.allocator = .carver (.slicing x 4) ∧
    placed.allocator ≠ .carver (.slicing x 0) := by
  refine ⟨rfl, rfl, ?_⟩
  decide

end Carver

end ScopedMemory
