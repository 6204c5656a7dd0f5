import ScopedMemory.Proofs.Registration
import ScopedMemory.Proofs.Watching

/-! A closed scope is inert.

Once a scope is not alive, whatever would work in it is refused and changes nothing: reading and
writing, allocating, requests to a mapping, and binding anything to it, because the scope lets
nobody in (`Bars`, one lemma for each way to get to that question); and cutting out slices and
closing, because it is not alive (`Shut`). Scopes only move on, so that stays. A scope that cannot
be closed is alive as long as anything is left by which to reach it. -/
namespace ScopedMemory

/-! ### Failures -/

def Fails {ε α : Type} (r : Except ε α) : Prop := ∃ e, r = .error e

namespace Fails
variable {ε ε' α β : Type} {r : Except ε α}

theorem left {f : α → Except ε β} (h : Fails r) : Fails (r >>= f) := by
  obtain ⟨e, rfl⟩ := h
  exact ⟨e, rfl⟩

/-- What comes next fails, if it comes to that. -/
theorem right {f : α → Except ε β} (h : ∀ a, r = .ok a → Fails (f a)) : Fails (r >>= f) := by
  cases r with
  | error e => exact ⟨e, rfl⟩
  | ok a => exact h a rfl

/-- What was found decides. -/
theorem found {a : α} {f : α → Except ε β} (hr : r = .ok a) (h : Fails (f a)) : Fails (r >>= f) :=
  right fun _ hb => Except.ok.inj (hr.symm.trans hb) ▸ h

theorem mapError (f : ε → ε') (h : Fails r) : Fails (r.mapError f) := by
  obtain ⟨e, rfl⟩ := h
  exact ⟨f e, rfl⟩

theorem of_not_ok (h : ∀ a, r ≠ .ok a) : Fails r := by
  cases r with
  | error e => exact ⟨e, rfl⟩
  | ok a => exact absurd rfl (h a)

end Fails

namespace State

/-- A scope that can be closed and is not alive any more. -/
structure Shut (s : State) (id : ScopeId) : Prop where
  dead : s.isAlive id = false
  closeable : (s.scope id).discipline.kind.closeable = true

/-- The scope does not let the thread in, and takes nothing from it. -/
structure Bars (s : State) (t : Thread) (id : ScopeId) : Prop where
  entry : Fails (s.checkEntry t id)
  attach : Fails (s.checkAttach t id)

section
variable {s s' : State} {t : Thread} {id : ScopeId} {x : Segment}

namespace Bars

theorem check (h : s.Bars t x.scope) (offset length alignment : Word) (mode : AccessMode) :
    Fails (s.check t x offset length alignment mode) :=
  .left (.left h.entry)

theorem allocate {arena : Arena} (h : s.Bars t arena.scope) (size alignment : Word) :
    Fails (arena.allocate t s size alignment) := by
  unfold Arena.allocate
  split
  · exact ⟨_, rfl⟩
  · split
    · exact ⟨_, rfl⟩
    · exact .left (.mapError _ h.entry)

/-! ### Reading -/

section
variable {c : Carrier} (layout : ValueLayout c) (offset : Word)

theorem get (h : s.Bars t x.scope) : Fails (s.get t x layout offset) :=
  .left (h.check _ _ _ _)

theorem getAt (h : s.Bars t x.scope) : Fails (s.getAt t x layout offset) :=
  .right fun _ _ => h.get layout _

theorem checkValues (h : s.Bars t x.scope) : Fails (s.checkValues t x layout) := by
  unfold State.checkValues
  split
  · exact ⟨_, rfl⟩
  · exact h.check _ _ _ _

theorem readRun (h : s.Bars t x.scope) (count : Word) :
    Fails (s.readRun t x layout offset count) :=
  .right fun _ _ => .left (h.check _ _ _ _)

theorem getText (h : s.Bars t x.scope) : Fails (s.getText t x offset) := by
  unfold State.getText
  split
  · exact ⟨_, rfl⟩
  · exact .left (h.check _ _ _ _)

end

theorem getAddress (h : s.Bars t x.scope) (layout : AddressLayout) (offset : Word) :
    Fails (s.getAddress t x layout offset) :=
  .left (h.check _ _ _ _)

/-- Either end will do. -/
theorem mismatchRange {y : Segment} (h : s.Bars t x.scope ∨ s.Bars t y.scope)
    (xStart xStop yStart yStop : Word) :
    Fails (s.mismatchRange t x xStart xStop y yStart yStop) := by
  refine .right fun xLength _ => .right fun yLength _ => ?_
  rcases h with h | h
  · exact .left (h.check _ _ _ _)
  · exact .right fun _ _ => .left (h.check _ _ _ _)

/-! ### Writing -/

section
variable {c d : Carrier} (layout : ValueLayout c) (offset : Word)

theorem set (h : s.Bars t x.scope) (value : c.Value) : Fails (s.set t x layout offset value) :=
  .left (h.check _ _ _ _)

theorem setAt (h : s.Bars t x.scope) (value : c.Value) :
    Fails (s.setAt t x layout offset value) :=
  .right fun _ _ => h.set layout _ value

theorem setAddress (h : s.Bars t x.scope) (layout : AddressLayout) (value : Segment) :
    Fails (s.setAddress t x layout offset value) := by
  unfold State.setAddress
  split
  · exact ⟨_, rfl⟩
  · exact .left (h.check _ _ _ _)

theorem writeRun (h : s.Bars t x.scope) (values : List c.Value) :
    Fails (s.writeRun t x layout offset values) :=
  .right fun _ _ => .left (h.check _ _ _ _)

theorem writeTerminated (h : s.Bars t x.scope) (bytes : List UInt8) :
    Fails (s.writeTerminated t x bytes) :=
  .left (h.writeRun byteLayout 0 bytes)

/-- What is cut out for the text is in the same scope. -/
theorem setText (h : s.Bars t x.scope) (text : String) : Fails (s.setText t x offset text) := by
  refine .right fun y hy => ?_
  rw [← (Segment.partOf_of_slice hy).scope] at h
  exact h.writeTerminated _

theorem fill (h : s.Bars t x.scope) (byte : UInt8) : Fails (s.fill t x byte) :=
  .left (h.check _ _ _ _)

theorem copy {source : Segment} (h : s.Bars t source.scope ∨ s.Bars t x.scope)
    (sourceOffset length : Word) : Fails (s.copy t source sourceOffset x offset length) := by
  rcases h with h | h
  · exact .left (h.check _ _ _ _)
  · exact .right fun _ _ => .left (h.check _ _ _ _)

theorem checkElements {source : Segment} (h : s.Bars t source.scope ∨ s.Bars t x.scope)
    (sourceLayout : ValueLayout d) (sourceOffset count : Word) :
    Fails (s.checkElements t source sourceLayout sourceOffset x layout offset count) := by
  rw [Visit.checkElements_eq]
  refine .right fun length _ => .left ?_
  rw [Visit.copyingElements, Gate.checkAll_two, Segment.check_gate, Segment.check_gate]
  rcases h with h | h
  · exact .left (h.check _ _ _ _)
  · exact .right fun _ _ => h.check _ _ _ _

end

/-! ### Mappings and bindings -/

theorem ask (h : s.Bars t x.scope) (nested : Nested) (request : Request) :
    ∃ e, s.ask nested t x request = (.error (.access e), s) := by
  obtain ⟨e, hentry⟩ := h.entry
  unfold State.ask
  split
  · rw [enter_of_error hentry]
    exact ⟨_, rfl⟩
  · exact ⟨_, rfl⟩

theorem rebind (h : s.Bars t id) (token : Token) (size : Word)
    (cleanup : Option (String × Script)) : Fails (s.rebind t token x size id cleanup) := by
  refine .right fun _ _ => ?_
  cases cleanup with
  | none => exact .left h.entry
  | some cleanup => exact .left (.left h.attach)

theorem mapSegment (h : s.Bars t id) (mapping : MappingId) (address size : Word)
    (readOnly : Bool) : Fails (s.mapSegment t mapping address size readOnly id) :=
  .left h.entry

end Bars

/-! ### Scopes that are not alive -/

/-- What is kept and not alive can be closed. -/
theorem KeptLast.shut (hk : KeptLast s) (kept : s.keepsScope id = true)
    (dead : s.isAlive id = false) : s.Shut id := by
  refine ⟨dead, ?_⟩
  by_contra hlasting
  rw [hk id kept (Bool.eq_false_iff.mpr hlasting)] at dead
  cases dead

namespace Shut

theorem alive (h : s.Shut id) : s.checkAlive id = .error .scopeNotAlive := by
  rw [checkAlive, h.dead]
  rfl

theorem entry (h : s.Shut id) (t : Thread) : s.checkEntry t id = .error .scopeNotAlive := by
  have hcloseable := h.closeable
  unfold checkEntry
  split
  · rw [h.alive]
    rfl
  · exact h.alive
  · rename_i hauto
    rw [hauto] at hcloseable
    cases hcloseable
  · rename_i hglobal
    rw [hglobal] at hcloseable
    cases hcloseable

/-- It lets nobody in. -/
theorem bars (h : s.Shut id) (t : Thread) : s.Bars t id :=
  ⟨⟨_, h.entry t⟩, .right fun _ _ => ⟨_, h.alive⟩⟩

theorem sliceFrom (h : s.Shut x.scope) (offset : Word) : Fails (s.sliceFrom x offset) :=
  .left ⟨_, h.alive⟩

theorem slice (h : s.Shut x.scope) (offset size alignment : Word) :
    Fails (s.slice x offset size alignment) :=
  .right fun _ _ => .left ⟨_, h.alive⟩

theorem closeArena {arena : Arena} (h : s.Shut arena.scope) (nested : Nested) (t : Thread) :
    ∃ e, s.closeArena nested t arena = (.error (.arena e), s) := by
  obtain ⟨e, hrefused⟩ : Fails (s.checkClose t arena.scope) := by
    refine .of_not_ok fun u hu => ?_
    have halive := isAlive_iff.mpr (checkClose_ok hu).1
    exact Bool.false_ne_true (h.dead.symm.trans halive)
  refine ⟨.access e, ?_⟩
  unfold State.closeArena closeScope
  simp only [h.closeable, hrefused, if_true]

end Shut

end

end State

/-! ### What works in a scope -/

/-- The segments that a query reads. -/
def Query.accessed : Query → List String
  | .check segment .. | .get segment .. | .values segment _ | .bytes segment | .text segment _
  | .run segment .. => [segment]
  | .mismatch a b | .mismatchRange a _ _ b _ _ => [a, b]
  | _ => []

/-- The segments that a change reads and writes. -/
def Change.accessed : Change → List String
  | .set segment .. | .setAddress segment .. | .setText segment .. | .setRun segment ..
  | .fill segment _ => [segment]
  | .copy source _ target .. | .copyAll source target | .copyElements source _ _ target .. =>
    [source, target]

/-- The scopes that are needed to make a segment: of what is cut or read, of the arena that
allocates, or the one to which it is bound. -/
def Making.accessed : Making → List ScopeRef
  | .slice segment _ | .fromAddress segment .. => [.segment segment]
  | .counting arena _ | .patterned arena .. => [.arena arena]
  | .rebind _ _ scope .. | .map _ _ _ _ scope => [scope]
  | _ => []

/-- The scope of what is allocated. -/
def Allocator.scope : Allocator → ScopeId
  | .arena owner => owner.scope
  | .carver c => c.segment.scope

/-- The operation works in the scope. -/
def Operation.WorksIn (s : State) (id : ScopeId) : Operation → Prop
  | .query q => ∃ name ∈ q.accessed, s.scopeNamed (.segment name) = .ok id
  | .change c => ∃ name ∈ c.accessed, s.scopeNamed (.segment name) = .ok id
  | .make m _ => ∃ ref ∈ m.accessed, s.scopeNamed ref = .ok id
  | .allocate source _ _ => ∃ a, s.sourceNamed source = .ok a ∧ a.scope = id
  | .closeArena name => s.scopeNamed (.arena name) = .ok id
  | .ask segment _ => s.scopeNamed (.segment segment) = .ok id
  | _ => False

/-- An action of a callback works in the scope. -/
def ActionOver.WorksIn (s : State) (id : ScopeId) : Action ArenaId Segment → Prop
  | .close arena | .alloc arena _ _ => ∃ a, s.arena? arena = some a ∧ a.scope = id
  | .load x | .get x _ => x ∈ s.keptSegments ∧ x.scope = id
  | .panic _ | .perform _ => False

namespace State
variable {s : State} {t : Thread} {id : ScopeId}

/-- Everything is as it was, though the table of allocators may be written anew. -/
def Unmoved (s s' : State) : Prop :=
  ∃ allocators : Table Carver, s' = { s with handles.allocators := allocators } ∧
    ∀ name, allocators.find? name = s.handles.allocators.find? name

theorem Unmoved.refl (s : State) : Unmoved s s := ⟨_, rfl, fun _ => rfl⟩

theorem segment_of_scopeNamed {name : String} (h : s.scopeNamed (.segment name) = .ok id) :
    ∃ x, s.segmentNamed name = .ok x ∧ x.scope = id := by
  obtain ⟨x, hx, h⟩ := bind_eq_ok.mp h
  exact ⟨x, hx, Except.ok.inj h⟩

theorem arena_of_scopeNamed {name : String} (h : s.scopeNamed (.arena name) = .ok id) :
    ∃ arena, s.arenaNamed name = .ok arena ∧ arena.scope = id := by
  obtain ⟨arena, harena, h⟩ := bind_eq_ok.mp h
  exact ⟨arena, harena, Except.ok.inj h⟩

end State

open State

section
variable {s : State} {t : Thread} {id : ScopeId}

/-- One of two segments is meant. -/
theorem State.Bars.either {a b name : String} {x y z : Segment} (h : s.Bars t x.scope)
    (hname : name ∈ [a, b]) (hx : s.segmentNamed name = .ok x) (hy : s.segmentNamed a = .ok y)
    (hz : s.segmentNamed b = .ok z) : s.Bars t y.scope ∨ s.Bars t z.scope := by
  rcases List.mem_cons.mp hname with rfl | hname
  · exact .inl (Except.ok.inj (hx.symm.trans hy) ▸ h)
  · obtain rfl := List.mem_singleton.mp hname
    exact .inr (Except.ok.inj (hx.symm.trans hz) ▸ h)

theorem Query.refused {q : Query} {name : String} (hname : name ∈ q.accessed)
    (hid : s.scopeNamed (.segment name) = .ok id) (h : s.Bars t id) : Fails (q.answer t s) := by
  obtain ⟨x, hx, rfl⟩ := segment_of_scopeNamed hid
  cases q with
  | check segment offset length alignment mode =>
    obtain rfl := List.mem_singleton.mp hname
    refine .found hx (.left ?_)
    unfold checkAsked
    split
    · exact .left (.mapError _ (.left h.entry))
    · exact .mapError _ (h.check _ _ _ _)
  | get segment layout position =>
    obtain rfl := List.mem_singleton.mp hname
    refine .found hx (.right fun layout _ => .left (.mapError _ ?_))
    cases position with
    | offset offset => exact h.get layout offset
    | index index => exact h.getAt layout index
  | values segment layout =>
    obtain rfl := List.mem_singleton.mp hname
    exact .found hx (.right fun layout _ => .left (.mapError _ (h.checkValues layout)))
  | bytes segment =>
    obtain rfl := List.mem_singleton.mp hname
    exact .found hx (.left (.mapError _ (h.checkValues byteLayout)))
  | text segment offset =>
    obtain rfl := List.mem_singleton.mp hname
    exact .found hx (.left (.mapError _ (h.getText offset)))
  | run segment layout offset count =>
    obtain rfl := List.mem_singleton.mp hname
    exact .found hx (.right fun layout _ => .right fun _ _ =>
      .left (.mapError _ (h.readRun layout offset count)))
  | mismatch a b =>
    exact .right fun y hy => .right fun z hz =>
      .left (.mapError _ (Bars.mismatchRange (h.either hname hx hy hz) _ _ _ _))
  | mismatchRange a aStart aStop b bStart bStop =>
    exact .right fun y hy => .right fun z hz =>
      .left (.mapError _ (Bars.mismatchRange (h.either hname hx hy hz) _ _ _ _))
  | _ => cases hname

theorem Change.refused {c : Change} {name : String} (hname : name ∈ c.accessed)
    (hid : s.scopeNamed (.segment name) = .ok id) (h : s.Bars t id) : Fails (c.apply t s) := by
  obtain ⟨x, hx, rfl⟩ := segment_of_scopeNamed hid
  cases c with
  | set segment layout position value =>
    obtain rfl := List.mem_singleton.mp hname
    refine .found hx (.right fun layout _ => .mapError _ ?_)
    cases position with
    | offset offset => exact h.set layout offset value
    | index index => exact h.setAt layout index value
  | setAddress segment layout position value =>
    obtain rfl := List.mem_singleton.mp hname
    refine .found hx (.right fun value _ => .right fun layout _ => .mapError _ ?_)
    cases position with
    | offset offset => exact h.setAddress offset layout value
    | index index => exact .right fun offset _ => h.setAddress offset layout value
  | setText segment offset text =>
    obtain rfl := List.mem_singleton.mp hname
    exact .found hx (.mapError _ (h.setText offset text))
  | setRun segment layout offset values =>
    obtain rfl := List.mem_singleton.mp hname
    exact .found hx (.right fun layout _ => .mapError _ (h.writeRun layout offset values))
  | fill segment byte =>
    obtain rfl := List.mem_singleton.mp hname
    exact .found hx (.mapError _ (h.fill byte))
  | copy source sourceOffset target targetOffset length =>
    exact .right fun y hy => .right fun z hz =>
      .mapError _ (Bars.copy _ (h.either hname hx hy hz) _ _)
  | copyAll source target =>
    exact .right fun y hy => .right fun z hz =>
      .mapError _ (Bars.copy _ (h.either hname hx hy hz) _ _)
  | copyElements source sourceLayout sourceOffset target targetLayout targetOffset count =>
    refine .right fun y hy => .right fun z hz => .right fun sourceLayout _ =>
      .right fun targetLayout _ => ?_
    have hcheck : Fails (s.checkElements t y sourceLayout sourceOffset z targetLayout targetOffset
        count) := Bars.checkElements _ _ (h.either hname hx hy hz) _ _ _
    cases turnsElements sourceLayout targetLayout with
    | true => exact .left (.mapError _ hcheck)
    | false => exact .mapError _ (.left hcheck)

theorem State.Shut.slices {x : Segment} (h : s.Shut x.scope) (range : SliceRange) :
    Fails (range.slice s x) := by
  cases range with
  | «from» offset => exact .mapError _ (h.sliceFrom offset)
  | sized offset size => exact .mapError _ (h.slice _ _ _)
  | aligned offset size alignment => exact .mapError _ (h.slice _ _ _)
  | shaped offset layout => exact .right fun _ _ => .mapError _ (h.slice _ _ _)

/-- Slices are the only segments that the scope need not let the thread in for. -/
theorem Making.barred {m : Making} {ref : ScopeRef} (href : ref ∈ m.accessed)
    (hid : s.scopeNamed ref = .ok id) (h : s.Bars t id) :
    Fails (m.make t s) ∨ ∃ segment range, m = .slice segment range := by
  cases m with
  | slice segment range => exact .inr ⟨segment, range, rfl⟩
  | fromAddress segment layout position =>
    obtain rfl := List.mem_singleton.mp href
    obtain ⟨x, hx, rfl⟩ := segment_of_scopeNamed hid
    refine .inl (.found hx (.right fun layout _ => .mapError _ ?_))
    cases position with
    | offset offset => exact h.getAddress layout offset
    | index index => exact .right fun offset _ => h.getAddress layout offset
  | counting arena length =>
    obtain rfl := List.mem_singleton.mp href
    obtain ⟨arena, harena, rfl⟩ := arena_of_scopeNamed hid
    obtain ⟨e, hrefused⟩ : Fails (s.counting t arena length) := .left (h.allocate _ _)
    refine .inl (.found harena ?_)
    rw [hrefused]
    exact ⟨_, rfl⟩
  | patterned arena length seed =>
    obtain rfl := List.mem_singleton.mp href
    obtain ⟨arena, harena, rfl⟩ := arena_of_scopeNamed hid
    exact .inl (.found harena (.mapError _ (.left (h.allocate _ _))))
  | rebind segment size scope cleanup token =>
    obtain rfl := List.mem_singleton.mp href
    exact .inl (.right fun x _ => .found hid (.right fun token _ => .right fun cleanup _ =>
      .mapError _ (h.rebind token _ cleanup)))
  | map mapping address size readOnly scope =>
    obtain rfl := List.mem_singleton.mp href
    exact .inl (.right fun mapping _ =>
      .found hid (.left (.mapError _ (h.mapSegment mapping _ _ _))))
  | _ => cases href

theorem Making.refused {m : Making} {ref : ScopeRef} (href : ref ∈ m.accessed)
    (hid : s.scopeNamed ref = .ok id) (h : s.Shut id) : Fails (m.make t s) := by
  rcases Making.barred href hid (h.bars t) with hfails | ⟨segment, range, rfl⟩
  · exact hfails
  · obtain rfl := List.mem_singleton.mp href
    obtain ⟨x, hx, rfl⟩ := segment_of_scopeNamed hid
    exact .found hx (.left (h.slices range))

/-- Whatever is to be allocated, nothing is, and the allocator is as it was. -/
theorem Allocates.refused_of_shut {a : Allocator} {allocation : Allocation}
    (ha : Allocates t s a allocation) (h : s.Shut a.scope) :
    ∃ e, allocation = ⟨.error e, a, s⟩ := by
  cases ha with
  | refused => exact ⟨_, rfl⟩
  | allotted _ allots _ => exact absurd (h.dead.symm.trans allots.alive) Bool.false_ne_true
  | carved _ alive _ _ _ => exact absurd (h.dead.symm.trans alive) Bool.false_ne_true

theorem orElseSame_of_fails {outcome : Except Fault (Answer × State)} (h : Fails outcome) :
    ∃ e, orElseSame s outcome = (.error e, s) := by
  obtain ⟨e, rfl⟩ := h
  exact ⟨e, rfl⟩

/-- What is allocated from is kept; putting it back changes nothing. -/
theorem State.sourceNamed_scope {source : AllocatorRef} {a : Allocator}
    (h : s.sourceNamed source = .ok a) :
    s.keepsScope a.scope = true ∧ Unmoved s (s.updateSource source a) := by
  cases source with
  | arena name =>
    obtain ⟨arena, harena, h⟩ := bind_eq_ok.mp h
    cases h
    exact ⟨keepsScope_of_arena (arenaNamed_mem harena), .refl s⟩
  | allocator name =>
    obtain ⟨carver, hcarver, h⟩ := bind_eq_ok.mp h
    cases h
    have hfound := named_eq_ok.mp hcarver
    refine ⟨keepsScope_of_segment (kept_of_carver (Table.mem_values_of_find? hfound)), _, rfl,
      fun other => ?_⟩
    rw [Table.find?_put]
    split
    · rw [‹other = name›, hfound]
    · rfl

theorem allocate_refused (hk : KeptLast s) (dead : s.isAlive id = false) (nested : Nested)
    {source : AllocatorRef} {contents : Contents} {name : Option String}
    (works : (Operation.allocate source contents name).WorksIn s id) :
    ∃ e s', (Operation.allocate source contents name).perform nested t s = (.error e, s') ∧
      Unmoved s s' := by
  obtain ⟨a, ha, rfl⟩ := works
  obtain ⟨hkept, hput⟩ := sourceNamed_scope ha
  have hshut := hk.shut hkept dead
  have hsource : (s.sourceNamed source >>= contents.allocate t s) = contents.allocate t s a := by
    rw [ha]
    rfl
  rw [Operation.perform, hsource]
  cases hallocate : contents.allocate t s a with
  | error fault => exact ⟨fault, s, rfl, .refl s⟩
  | ok allocation =>
    obtain ⟨e, rfl⟩ := (Contents.allocate_allocates hallocate).refused_of_shut hshut
    exact ⟨.arena e, _, rfl, hput⟩

/-- **A shut scope is inert**: an operation that works in it is refused and changes nothing. -/
theorem Operation.refused (hk : KeptLast s) (dead : s.isAlive id = false) (nested : Nested)
    {operation : Operation} (works : operation.WorksIn s id) :
    ∃ e s', operation.perform nested t s = (.error e, s') ∧ Unmoved s s' := by
  have same : ∀ {r}, (∃ e, r = (.error e, s)) →
      ∃ e s', r = ((.error e : Except Fault Answer), s') ∧ Unmoved s s' :=
    fun ⟨e, he⟩ => ⟨e, s, he, .refl s⟩
  cases operation with
  | query q =>
    obtain ⟨name, hname, hid⟩ := works
    obtain ⟨e, he⟩ := q.refused hname hid ((hk.shut (scopeNamed_kept hid) dead).bars t)
    exact same ⟨e, Prod.ext he rfl⟩
  | change c =>
    obtain ⟨name, hname, hid⟩ := works
    have hbars := (hk.shut (scopeNamed_kept hid) dead).bars t
    exact same (orElseSame_of_fails (.left (c.refused hname hid hbars)))
  | make m name =>
    obtain ⟨ref, href, hid⟩ := works
    exact same (orElseSame_of_fails (.left (m.refused href hid (hk.shut (scopeNamed_kept hid) dead))))
  | allocate source contents name => exact allocate_refused hk dead nested works
  | closeArena name =>
    obtain ⟨arena, harena, rfl⟩ := arena_of_scopeNamed works
    obtain ⟨e, he⟩ := (hk.shut (scopeNamed_kept works) dead).closeArena nested t
    refine same ⟨.arena e, ?_⟩
    simp only [perform, harena, he]
    rfl
  | ask segment request =>
    obtain ⟨x, hx, rfl⟩ := segment_of_scopeNamed works
    obtain ⟨e, he⟩ := ((hk.shut (scopeNamed_kept works) dead).bars t).ask nested request
    refine same ⟨.access e, ?_⟩
    simp only [perform, hx, he]
    rfl
  | _ => cases works

/-- Callbacks are refused too. -/
theorem ActionOver.refused (hk : KeptLast s) (dead : s.isAlive id = false) (nested : Nested)
    {action : Action ArenaId Segment} (works : ActionOver.WorksIn s id action) :
    ∃ fault, s.act nested t action = (.ok (.failed fault), s) := by
  cases action with
  | close arena =>
    obtain ⟨a, ha, rfl⟩ := works
    have hkept := keepsScope_of_arena (List.mem_of_find?_eq_some ha)
    obtain ⟨e, he⟩ := (hk.shut hkept dead).closeArena nested t
    refine ⟨.arena e, ?_⟩
    simp only [act, ha, he]
    rfl
  | alloc arena size alignment =>
    obtain ⟨a, ha, rfl⟩ := works
    have hkept := keepsScope_of_arena (List.mem_of_find?_eq_some ha)
    obtain ⟨e, he⟩ := ((hk.shut hkept dead).bars t).allocate size alignment
    refine ⟨.arena e, ?_⟩
    simp only [act, ha, he]
  | load x =>
    obtain ⟨hx, rfl⟩ := works
    obtain ⟨e, he⟩ := ((hk.shut (keepsScope_of_segment hx) dead).bars t).ask nested .load
    refine ⟨.access e, ?_⟩
    simp only [act, he]
    rfl
  | get x offset =>
    obtain ⟨hx, rfl⟩ := works
    obtain ⟨e, he⟩ := ((hk.shut (keepsScope_of_segment hx) dead).bars t).get byteLayout offset
    refine ⟨.access e, ?_⟩
    simp only [act, he]
  | panic text => cases works
  | perform operation => cases works

end

/-! ### Scopes move on -/

/-- How a scope moves on, from one phase to the next. -/
inductive Phase.MovesOn : Phase → Phase → Prop where
  | stay (phase : Phase) : MovesOn phase phase
  | shut : MovesOn .alive .closing
  | finish : MovesOn .closing .closed

namespace State

/-- A move takes a scope that is kept from alive to closing, or from closing to closed. -/
theorem Move.movesOn {s s' : State} (h : Move s s') {id : ScopeId} (hid : id < s.scopes.size)
    (kept : s.keepsScope id = true) : Phase.MovesOn (s.scope id).phase (s'.scope id).phase := by
  cases h with
  | calm h =>
    rw [h.phase id hid]
    exact .stay _
  | @shut other halive _ =>
    by_cases heq : id = other
    · rw [← heq, scope_modifyScope_self _ hid, isAlive_iff.mp (heq ▸ halive)]
      exact .shut
    · rw [scope_modifyScope_other _ heq]
      exact .stay _
  | @finish other closer hmay =>
    show Phase.MovesOn _ (((s.modifyScope other fun scope => { scope with phase := .closed }).scope
      id).phase)
    by_cases heq : id = other
    · rw [← heq] at hmay ⊢
      rw [scope_modifyScope_self _ hid]
      rcases hmay with ⟨hclosing, -⟩ | ⟨-, hunkept⟩
      · rw [hclosing]
        exact .finish
      · rw [kept] at hunkept
        cases hunkept
    · rw [scope_modifyScope_other _ heq]
      exact .stay _
  | @enter t other _ _ =>
    rw [hold_eq, phase_recount]
    exact .stay _
  | @leave t other _ =>
    rw [letOut_eq, phase_recount]
    exact .stay _

end State

namespace SharedClose.Protocol

theorem Move.movesOn {p q : Protocol} {t : Thread} (h : Move p t q) (hs : Staged p) :
    Phase.MovesOn p.phase q.phase := by
  cases h
  case shut here alive =>
    rw [alive]
    exact .shut
  case commit here =>
    rw [hs.waiting t (by rw [here]; rfl)]
    exact .finish
  all_goals exact .stay _

/-- How threads go on once the scope is not alive: nobody gets in, no close goes through, and
nothing is stored but by a thread that has looked before. -/
structure Barred (p q : Protocol) : Prop where
  ended : q.phase ≠ .alive
  closers : q.closers = p.closers
  depth : ∀ u, q.depth u ≤ p.depth u
  storing : ∀ u item, q.place u = .storing item → p.place u = .storing item
  accepted : ∀ item ∈ q.accepted, item ∈ p.accepted ∨ ∃ u, p.place u = .storing item

theorem Barred.refl {p : Protocol} (ended : p.phase ≠ .alive) : Barred p p :=
  ⟨ended, rfl, fun _ => Nat.le_refl _, fun _ _ h => h, fun _ h => .inl h⟩

theorem Barred.move {p q r : Protocol} {t : Thread} (h : Move q t r) (hb : Barred p q) :
    Barred p r where
  ended := h.phase hb.ended
  closers := by
    cases h
    case shut here alive => exact absurd alive hb.ended
    all_goals exact hb.closers
  depth u := by
    by_cases hu : u = t
    · subst hu
      cases h
      case letGo here inside =>
        have hle := hb.depth u
        simp only [goto, setDepth, if_true]
        omega
      case enter here alive => exact absurd alive hb.ended
      all_goals exact hb.depth u
    · rw [h.depth_other hu]
      exact hb.depth u
  storing u item hu := by
    by_cases hut : u = t
    · subst hut
      cases h
      case stay => exact hb.storing u item hu
      case letIn here alive => exact absurd alive hb.ended
      all_goals simp at hu
    · rw [h.place_other hut] at hu
      exact hb.storing u item hu
  accepted item hitem := by
    cases h
    case storeCleanup id here =>
      rcases List.mem_append.mp hitem with hitem | hitem
      · exact hb.accepted item hitem
      · rw [List.mem_singleton.mp hitem]
        exact .inr ⟨t, hb.storing t _ here⟩
    case storeBlock id here =>
      rcases List.mem_append.mp hitem with hitem | hitem
      · exact hb.accepted item hitem
      · rw [List.mem_singleton.mp hitem]
        exact .inr ⟨t, hb.storing t _ here⟩
    all_goals exact hb.accepted item hitem

theorem barred_run {p : Protocol} (ended : p.phase ≠ .alive) (turns : List Turn) :
    Barred p (p.run turns) :=
  run_keeps Barred.move (.refl ended) turns

end SharedClose.Protocol

open SharedClose in
/-- A thread that comes too late is told so. -/
theorem Drain.refused {p : Protocol} (ended : p.phase ≠ .alive) {t : Thread}
    (here : p.place t = .idle) :
    (Drain.enter p t).1 = .error .scopeNotAlive ∧ Fails (Drain.beginClose p t).1 := by
  constructor
  · simp [Drain.enter, Protocol.run, Protocol.turn, Protocol.start, Protocol.next, Protocol.goto,
      here, ended]
  · by_cases outside : p.depth t = 0
    · exact ⟨.scopeNotAlive, (Drain.beginClose_outside here outside).trans (if_neg ended)⟩
    · exact ⟨.scopeInUse, congrArg Prod.fst (Drain.beginClose_inside here outside)⟩

/-! ### Closed means inert -/

namespace State

/-- Whatever works in the scope is refused, on every thread, and changes nothing. -/
structure Inert (s : State) (id : ScopeId) : Prop where
  operations : ∀ (nested : Nested) (t : Thread) (operation : Operation), operation.WorksIn s id →
    ∃ e s', operation.perform nested t s = (.error e, s') ∧ Unmoved s s'
  actions : ∀ (nested : Nested) (t : Thread) (action : Action ArenaId Segment),
    ActionOver.WorksIn s id action → ∃ fault, s.act nested t action = (.ok (.failed fault), s)

/-- **Closed means inert.** In every state that a run passes, inside of callbacks too, scopes only
move on, and whatever works in one that is not alive is refused and changes nothing. Where threads
share a scope, nobody gets in any more and nothing more is taken in. -/
theorem closed_is_inert (system : System) :
    (∀ limit steps, Path (initial system) (after system limit steps)) ∧
    (∀ watch : Watch, (∀ s, Path (initial system) s → watch.passes s = true) →
      ∀ limit steps, watch.run limit (initial system) steps = (initial system).run limit steps) ∧
    (∀ s, Path (initial system) s →
      (∀ s', Move s s' → ∀ id < s.scopes.size, s.keepsScope id = true →
        Phase.MovesOn (s.scope id).phase (s'.scope id).phase) ∧
      (∀ s', Path s s' → ∀ id < s.scopes.size,
        (s.scope id).phase.rank ≤ (s'.scope id).phase.rank) ∧
      ∀ id, s.isAlive id = false → Inert s id) ∧
    ∀ turns : List SharedClose.Turn,
      (∀ turn, Phase.MovesOn (SharedClose.Protocol.after turns).phase
        ((SharedClose.Protocol.after turns).turn turn).phase) ∧
      ((SharedClose.Protocol.after turns).phase ≠ .alive →
        (∀ later, (SharedClose.Protocol.after turns).Barred
          ((SharedClose.Protocol.after turns).run later)) ∧
        ∀ t, (SharedClose.Protocol.after turns).place t = .idle →
          (Drain.enter (SharedClose.Protocol.after turns) t).1 = .error .scopeNotAlive ∧
            Fails (Drain.beginClose (SharedClose.Protocol.after turns) t).1) := by
  refine ⟨fun limit steps => (after_reached system limit steps).path,
    fun watch hpasses limit steps => ?_, fun s hpath => ⟨fun s' hmove id hid hkept =>
      hmove.movesOn hid hkept, fun s' hlater id hid => hlater.forward.phase id hid,
      fun id hdead => ?_⟩, fun turns => ⟨fun turn => ?_, fun hended => ⟨?_, fun t here => ?_⟩⟩⟩
  · have hw : Watched (initial system) watch :=
      ⟨initial_keptLast system, initial_accounts system, fun hr => hpasses _ hr.path⟩
    exact (run_watched hw (initial_reached system) limit steps).2
  · have hk := hpath.keptLast (initial_keptLast system)
    exact ⟨fun nested t _ works => Operation.refused hk hdead nested works,
      fun nested t _ works => ActionOver.refused hk hdead nested works⟩
  · exact (SharedClose.Protocol.turn_move _ turn).movesOn
      (SharedClose.Protocol.registers_after turns).staged
  · exact SharedClose.Protocol.barred_run hended
  · exact Drain.refused hended here

/-- A shared arena with a segment of its own and a mapped one, closed on another thread. -/
def closedArena : State := after .bump 1
  [some ⟨1, .openArena "a" .shared none⟩,
    some ⟨1, .allocate (.arena "a") (.bytes 8 8) (some "x")⟩,
    some ⟨1, .openRecorder "m" false⟩,
    some ⟨1, .make (.map "m" 4096 16 false (.arena "a")) (some "y")⟩,
    some ⟨2, .closeArena "a"⟩]

/-- Nothing can be read any more, not even no bytes, and the mapping is not asked. -/
theorem closed_is_inert_recorder :
    (∃ e s', (Operation.query (.run "x" ⟨.ubyte, []⟩ 0 0)).perform (work 3 1) 3 closedArena =
      (.error e, s') ∧ Unmoved closedArena s') ∧
    ∃ e s', (Operation.ask "y" .load).perform (work 3 1) 3 closedArena = (.error e, s') ∧
      Unmoved closedArena s' := by
  obtain ⟨hruns, -, hstates, -⟩ := closed_is_inert .bump
  have hdead : closedArena.isAlive 1 = false := rfl
  have hinert := (hstates closedArena (hruns 1 _)).2.2 1 hdead
  exact ⟨hinert.operations _ _ _ ⟨"x", List.mem_singleton.mpr rfl, rfl⟩,
    hinert.operations _ _ _ rfl⟩

end State

end ScopedMemory
