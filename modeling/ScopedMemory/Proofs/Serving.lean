import ScopedMemory.Proofs.Allocations
import ScopedMemory.Proofs.TidyRuns
import ScopedMemory.Proofs.Filling
import ScopedMemory.Proofs.Partition

/-! Allocators serve orders one after the other.

What an arena has given lies in blocks that its scope still has when the next order comes, and the
system places no block on these. What a slicing allocator has given ends where it has used its base
up to, and it goes on from there. So an order writes over nothing that was given before
(`Served.keeps`), whatever the session has done in between. -/
namespace ScopedMemory

open State

/-! ### Going on -/

namespace State
variable {s s' : State} {id : ScopeId} {block : Block} {x : Segment}

/-- A session goes on with the block. -/
theorem Allots.leads (h : Allots s id block s') : Leads s s' := by
  obtain ⟨memory, events, rfl, -⟩ := h.made
  have halive : (s.scope id).phase = .alive := by
    simpa [isAlive, Scope.isAlive] using h.alive
  have hgained : Leads s (s.gainBlock id block) :=
    gain_leads halive rfl h.placed rfl rfl rfl (List.append_nil _).symm
  have halike : Alike (s.gainBlock id block) { s.gainBlock id block with memory, events } :=
    .of_eq rfl rfl rfl
  exact fun hs => (hgained hs).trans (halike.leads (hgained hs).sound)

theorem Writes.leads (h : Writes x s s') : Leads s s' := by
  obtain ⟨memory, rfl, -⟩ := h
  have halike : Alike s { s with memory } := .of_eq rfl rfl rfl
  exact halike.leads

/-- A segment has the same bytes if each of its addresses has. -/
theorem bytesAt_eq_of_covers (same : ∀ space address, x.Covers space address →
      s'.memory.read space address = s.memory.read space address) :
    s'.bytesAt x 0 x.size.toNat = s.bytesAt x 0 x.size.toNat := by
  refine List.map_congr_left fun i hi => same _ _ ⟨rfl, ?_⟩
  have hlt : i < x.size.toNat := List.mem_range.mp hi
  have hback : x.address + 0 + UInt64.ofNat i - x.address = UInt64.ofNat i := by grind
  have hword : (UInt64.ofNat i).toNat = i :=
    UInt64.toNat_ofNat_of_lt' (Nat.lt_trans hlt (Word.toNat_lt x.size))
  rw [Memory.within, hback, hword]
  exact decide_eq_true hlt

end State

/-! ### Orders -/

/-- Gives no byte twice, unless it starts over. -/
def Allocator.givesApart : Allocator → Bool
  | .arena _ | .carver (.slicing ..) => true
  | .carver (.front _) => false

/-- What an order comes to: nothing, a new block of the arena's scope, or a piece of the base behind
all that is used. A slicing allocator goes on behind the piece, even when it cannot be filled. -/
inductive Serves (s : State) : Allocator → Allocation → Prop where
  | refused {a : Allocator} (apart : a.givesApart = true) (e : ArenaError) : Serves s a ⟨.error e, a, s⟩
  | allotted {owner : Arena} {block : Block} {s' : State} {result : Except ArenaError Segment}
      (allots : Allots s owner.scope block s')
      (given : ∀ y, result = .ok y → y = block.segment owner.scope) :
      Serves s (.arena owner) ⟨result, .arena owner, s'⟩
  | cut {x : Segment} {used start size used' : Word} {s' : State} {result : Except ArenaError Segment}
      (behind : used.toNat ≤ start.toNat) (stop : used'.toNat = start.toNat + size.toNat)
      (inside : start.toNat + size.toNat ≤ x.size.toNat) (writes : Writes (x.part start size) s s')
      (given : ∀ y, result = .ok y → y = x.part start size) :
      Serves s (.carver (.slicing x used)) ⟨result, .carver (.slicing x used'), s'⟩

namespace Order

theorem fill_fills {order : Order} {t : Thread} {s s' : State} {x : Segment}
    (h : order.fill t s x = .ok s') : Fills t x s s' := by
  cases order with
  | value layout v => exact .inr (set_wroteAt h).wrote
  | values layout vs => exact .inr (writeRun_wroteAt h).wrote
  | text content => exact .inr (writeTerminated_wroteAt h).wrote
  | _ =>
    cases h
    exact .inl rfl

theorem place_arena (order : Order) (owner : Arena) (t : Thread) (s : State) :
    Serves s (.arena owner) (order.place (.arena owner) t s) := by
  have hallocates : Allocates t s (.arena owner) (order.place (.arena owner) t s) := by
    rw [place_eq]
    split
    · exact (Allocator.allocate_allocates _ t s _ _).fill fun _ _ _ => fill_fills
    · exact .refused
  generalize order.place (.arena owner) t s = allocation at hallocates ⊢
  cases hallocates with
  | refused => exact .refused rfl _
  | allotted _ allots given => exact .allotted allots given

theorem place_slicing (order : Order) (x : Segment) (used : Word) (t : Thread) (s : State) :
    Serves s (.carver (.slicing x used)) (order.place (.carver (.slicing x used)) t s) := by
  rw [place_eq]
  cases order.extent with
  | error e => exact .refused rfl _
  | ok extent =>
    obtain ⟨size, alignment⟩ := extent
    dsimp only
    cases hbump : Carver.bump s x used size alignment with
    | error e =>
      rw [Carver.allocate_of_refused hbump]
      exact .refused rfl e
    | ok cut =>
      obtain ⟨y, used'⟩ := cut
      rw [Carver.allocate_of_bump hbump]
      obtain ⟨a, rfl⟩ := Carver.bytes_of_bump hbump
      obtain ⟨-, -, start, hceil, -, hroom, rfl, hstop⟩ := Carver.bump_eq_ok_iff.mp hbump
      have hbehind : used.toNat ≤ start.toNat := by
        have hle := a.le_ceil (x.address.toNat + used.toNat)
        omega
      cases hfill : order.fill t s (x.part start size) with
      | error e =>
        simp only [Allocation.fillWith, hfill]
        exact .cut hbehind hstop hroom (.refl _ s) fun _ h => by cases h
      | ok s' =>
        simp only [Allocation.fillWith, hfill]
        exact .cut hbehind hstop hroom (fill_fills hfill).writes fun _ h => (Except.ok.inj h).symm

/-- **Orders are served** in one of these ways. -/
theorem place_serves {a : Allocator} (apart : a.givesApart = true) (order : Order) (t : Thread)
    (s : State) : Serves s a (order.place a t s) := by
  cases a with
  | arena owner => exact order.place_arena owner t s
  | carver carver =>
    cases carver with
    | slicing x used => exact order.place_slicing x used t s
    | front x => cases apart

/-- Places orders one after the other, each for a thread. -/
def placeAll (a : Allocator) (s : State) : List (Order × Thread) → Allocator × State
  | [] => (a, s)
  | (order, t) :: rest => placeAll (order.place a t s).allocator (order.place a t s).state rest

end Order

/-- Where a segment lies that the allocator has given. -/
def Allocator.Gave (s : State) : Allocator → Segment → Prop
  | .arena owner, y => ∃ block : Block, y = block.segment owner.scope ∧
      ⟨owner.scope, .attached block⟩ ∈ s.journal
  | .carver (.slicing x used), y => ∃ start : Word, y = x.part start y.size ∧
      start.toNat + y.size.toNat ≤ used.toNat ∧ start.toNat + y.size.toNat ≤ x.size.toNat
  | .carver (.front _), _ => False

theorem Allocator.Gave.course {a : Allocator} {s s' : State} {y : Segment} {own : ScopeId → Prop}
    (h : a.Gave s y) (hcourse : Course own s s') : a.Gave s' y := by
  cases a with
  | arena owner =>
    obtain ⟨block, rfl, hattached⟩ := h
    exact ⟨block, rfl, hcourse.journal.subset hattached⟩
  | carver carver => cases carver <;> exact h

namespace Serves
variable {s : State} {a : Allocator} {allocation : Allocation} {y : Segment}

theorem givesApart (h : Serves s a allocation) : allocation.allocator.givesApart = true := by
  cases h with
  | refused apart e => exact apart
  | allotted _ _ => rfl
  | cut _ _ _ _ _ => rfl

theorem leads (h : Serves s a allocation) : Leads s allocation.state := by
  cases h with
  | refused _ e => exact Course.refl
  | allotted allots _ => exact allots.leads
  | cut _ _ _ writes _ => exact writes.leads

/-- What was given stays given. -/
theorem gave_earlier (h : Serves s a allocation) (sound : Sound s) (given : a.Gave s y) :
    allocation.allocator.Gave allocation.state y := by
  have hcourse := h.leads sound
  cases h with
  | refused _ e => exact given
  | allotted _ _ => exact given.course hcourse
  | cut behind stop _ _ _ =>
    obtain ⟨start, hy, hused, hfits⟩ := given
    exact ⟨start, hy, by omega, hfits⟩

/-- And what the order gets is given. -/
theorem gave_result (h : Serves s a allocation) (hresult : allocation.result = .ok y) :
    allocation.allocator.Gave allocation.state y := by
  cases h with
  | refused _ e => cases hresult
  | @allotted _ block _ _ allots given =>
    obtain ⟨memory, events, rfl, -⟩ := allots.made
    exact ⟨block, given y hresult, List.mem_append_right _ (List.mem_singleton.mpr rfl)⟩
  | @cut _ _ start _ _ _ _ behind stop inside writes given =>
    obtain rfl := given y hresult
    exact ⟨start, rfl, Nat.le_of_eq stop.symm, inside⟩

/-- **An order writes over nothing that was given.** -/
theorem kept (h : Serves s a allocation) (sound : Sound s) (system : s.system.Sound)
    (given : a.Gave s y) {space : Space} {address : Word} (covered : y.Covers space address) :
    allocation.state.memory.read space address = s.memory.read space address := by
  cases h with
  | refused _ e => rfl
  | allotted allots _ =>
    obtain ⟨block, rfl, hattached⟩ := given
    obtain ⟨memory, events, rfl, hsame⟩ := allots.made
    -- the scope is alive, or it would get no block, so it still has the earlier one
    have hopen := sound.open_of_alive allots.alive
    refine hsame space address fun hnew => ?_
    exact system.places_disjoint allots.placed hattached hopen.not_freed hnew.2 covered.2
  | cut behind stop inside writes _ =>
    obtain ⟨start, hy, hused, hfits⟩ := given
    obtain ⟨memory, rfl, hsame⟩ := writes
    rw [hy, Segment.covers_part_iff hfits] at covered
    refine hsame space address fun hnew => ?_
    rw [Segment.covers_part_iff inside] at hnew
    omega

end Serves

/-! ### Services -/

/-- What an allocator has given in a session, the earliest first. Between orders the session goes on
as it may. An allocator that starts over has given nothing. -/
inductive Served : Allocator → List Segment → State → Prop where
  | fresh {a : Allocator} {s : State} : Sound s → a.givesApart = true → Served a [] s
  | goesOn {a : Allocator} {given : List Segment} {s s' : State} :
      Served a given s → Leads s s' → Served a given s'
  | placed {a : Allocator} {given : List Segment} {s : State} (order : Order) (t : Thread) :
      Served a given s → Served (order.place a t s).allocator
        (given ++ (order.place a t s).result.toOption.toList) (order.place a t s).state
  | reset {carver carver' : Carver} {given : List Segment} {s : State} :
      Served (.carver carver) given s → carver.reset? = some carver' → Served (.carver carver') [] s

namespace Served
variable {a : Allocator} {given : List Segment} {s : State} {y : Segment}

theorem givesApart (h : Served a given s) : a.givesApart = true := by
  induction h with
  | fresh _ apart => exact apart
  | goesOn _ _ ih => exact ih
  | placed order t _ ih => exact (order.place_serves ih t _).givesApart
  | @reset carver _ _ _ _ hreset _ =>
    cases carver with
    | slicing x used =>
      obtain rfl := Option.some.inj hreset
      rfl
    | front x => cases hreset

theorem serves (h : Served a given s) (order : Order) (t : Thread) :
    Serves s a (order.place a t s) := order.place_serves h.givesApart t s

theorem sound (h : Served a given s) : Sound s := by
  induction h with
  | fresh hsound _ => exact hsound
  | goesOn _ hleads ih => exact (hleads ih).sound
  | placed order t hserved ih => exact ((hserved.serves order t).leads ih).sound
  | reset _ _ ih => exact ih

theorem gave (h : Served a given s) (hy : y ∈ given) : a.Gave s y := by
  induction h with
  | fresh _ _ => cases hy
  | goesOn hserved hleads ih => exact (ih hy).course (hleads hserved.sound)
  | @placed a _ s order t hserved ih =>
    rcases List.mem_append.mp hy with hearlier | hlast
    · exact (hserved.serves order t).gave_earlier hserved.sound (ih hearlier)
    · cases hresult : (order.place a t s).result with
      | error e => simp [hresult, Except.toOption] at hlast
      | ok z =>
        simp only [hresult, Except.toOption, Option.toList_some, List.mem_singleton] at hlast
        exact (hserved.serves order t).gave_result (hlast ▸ hresult)
  | reset _ _ _ => cases hy

/-- **What an allocator has given keeps its bytes** through all the orders that follow. -/
theorem keeps (h : Served a given s) (system : s.system.Sound) (hy : y ∈ given)
    (orders : List (Order × Thread)) {space : Space} {address : Word}
    (covered : y.Covers space address) :
    (Order.placeAll a s orders).2.memory.read space address = s.memory.read space address := by
  induction orders generalizing a given s with
  | nil => rfl
  | cons first rest ih =>
    obtain ⟨order, t⟩ := first
    have hserves := h.serves order t
    have hsystem := (hserves.leads h.sound).system
    have hlater := ih (h.placed order t) (hsystem ▸ system) (List.mem_append_left _ hy)
    exact hlater.trans (hserves.kept h.sound system (h.gave hy) covered)

end Served

namespace Allocator

/-- **Allocations hold their contents, and keep them.** What was allocated from values or from a
text has their size, is aligned for them and gives them back. All that an arena has given, or a
slicing allocator since it last started over, keeps its bytes, whatever orders follow. -/
theorem allocated_contents_last (a : Allocator) (t : Thread) (s : State) :
    (∀ (c : Carrier) (layout : ValueLayout c) (values : List c.Value) (x : Segment),
      (a.allocateFrom t s layout values).result = .ok x →
      x.size.toNat = values.length * c.size ∧
      (x.Admits layout.alignment ∧ layout.alignment.bytes.toNat ∣ x.address.toNat) ∧
      (a.allocateFrom t s layout values).state.values t x layout = .ok values) ∧
    (∀ (c : Carrier) (layout : ValueLayout c) (v : c.Value) (x : Segment),
      (a.allocateValue t s layout v).result = .ok x →
      (a.allocateValue t s layout v).state.get t x layout 0 = .ok v) ∧
    (∀ (text : String) (x : Segment), (a.allocateText t s text).result = .ok x →
      x.size.toNat = text.utf8ByteSize + 1 ∧
      (Char.ofNat 0 ∉ text.toList → (a.allocateText t s text).state.getText t x 0 = .ok text)) ∧
    ∀ given : List Segment, Served a given s → s.system.Sound →
      ∀ y ∈ given, ∀ orders : List (Order × Thread),
      (Order.placeAll a s orders).2.bytesAt y 0 y.size.toNat = s.bytesAt y 0 y.size.toNat := by
  refine ⟨fun c layout values x h => ?_, fun c layout v x h => ?_, fun text x h => ?_,
    fun given hserved system y hy orders => ?_⟩
  · obtain ⟨hsize, s', hwrite⟩ := allocateFrom_ok h
    exact ⟨hsize, aligned_of_writeRun hwrite, values_of_writeRun hwrite hsize.symm⟩
  · exact get_of_set (Allocation.fillWith_ok h).2
  · obtain ⟨hsize, s', hwrite⟩ := allocateText_ok h
    refine ⟨hsize.trans (congrArg (· + 1) (Text.Utf8.length_encode text)), fun hzero => ?_⟩
    rw [getText_of_writeTerminated hwrite (Text.Utf8.zero_not_mem_encode hzero),
      Text.Utf8.decode_encode]
  · exact bytesAt_eq_of_covers fun _ _ covered => hserved.keeps system hy orders covered

/-- Two numbers, one of them not a number, and then a text of characters of every length. -/
theorem allocated_contents_last_lent :
    let owner : Allocator := .arena ⟨0, 1, {}, false⟩
    let layout := (ValueLayout.natural .double).withOrder .big
    let numbers : List UInt64 := [0x7FF0000000000001, 0x8000000000000000]
    let x : Segment := ⟨0x1000000008, 16, .native, false, 1⟩
    let s := (owner.allocateFrom 0 lent layout numbers).state
    let later := owner.allocateText 0 s "aé€😀"
    s.values 0 x layout = .ok numbers ∧
    (∃ y, later.result = .ok y ∧ y.size.toNat = 11 ∧ later.state.getText 0 y 0 = .ok "aé€😀") ∧
    later.state.bytesAt x 0 16 = s.bytesAt x 0 16 := by
  intro owner layout numbers x s later
  have hsound : Sound lent := (after_settling .bump 1 _).course.sound
  have hnumbers : (owner.allocateFrom 0 lent layout numbers).result = .ok x := by decide +kernel
  have htext : later.result = .ok ⟨0x1000000018, 11, .native, false, 1⟩ := by decide +kernel
  have hsame : (owner.allocateFrom 0 lent layout numbers).allocator = owner := by decide +kernel
  have hfresh : Served owner [] lent := .fresh hsound rfl
  have hserved : Served owner [x] s := by
    have hplaced := hfresh.placed (.values layout numbers) 0
    simp only [Order.place, hsame, hnumbers] at hplaced
    exact hplaced
  obtain ⟨-, -, hvalues⟩ := (allocated_contents_last owner 0 lent).1 _ layout numbers x hnumbers
  obtain ⟨-, -, hcontent, hkept⟩ := allocated_contents_last owner 0 s
  obtain ⟨hsize, hread⟩ := hcontent "aé€😀" _ htext
  refine ⟨hvalues, ⟨_, htext, hsize.trans (by decide +kernel), hread (by decide +kernel)⟩, ?_⟩
  have hsystem : s.system = .bump := ((hfresh.serves (.values layout numbers) 0).leads hsound).system
  exact hkept [x] hserved (hsystem ▸ System.bump_sound) x (List.mem_singleton_self x)
    [(.text "aé€😀", 0)]

end Allocator

end ScopedMemory
