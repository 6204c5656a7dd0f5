import ScopedMemory.Proofs.Growth

/-! What operations do.

An operation gets hold of segments (`Gains`); then names change, and what has lost its name is let
go of (`Renames`). A few operations open, close, ask or drop something instead. All of this is said
once for every operation (`Operation.perform_does`), whoever runs the callbacks, and what operations
keep follows from it case by case. -/
namespace ScopedMemory

/-- Takes no token, and gives an address no target. -/
def Making.tokenFree : Making → Bool
  | .resize .. | .rebind .. | .map .. => false
  | .fromAddress _ layout _ => match layout.build with
    | .ok layout => layout.target.isNone
    | .error _ => true
  | _ => true

namespace Operation

/-- Takes no token, and gives an address no target. -/
def tokenFree : Operation → Bool
  | .make m _ => m.tokenFree
  | _ => true

/-- The segment that an operation writes through, if it does. -/
def written? (s : State) : Operation → Option Segment
  | .change c => s.handles.segments.find? c.target
  | .allocate (.allocator name) _ _ => (s.handles.allocators.find? name).map Carver.segment
  | _ => none

end Operation

/-- The segments that an answer shows. -/
def Answer.segments : Answer → List Segment
  | .segment x => [x]
  | .report r => [r.segment]
  | .elements _ first _ => first
  | _ => []

namespace State

/-! ### What is gained -/

/-- The segments that an operation gets hold of before any name changes, and what that takes. -/
inductive Gains (t : Thread) (s : State) (operation : Operation) : List Segment → State → Prop where
  | beside {s' : State} : Beside s s' → Gains t s operation [] s'
  | fresh (d : Discipline) : Gains t s operation [] (s.newScope d).2
  /-- Something is written, through a part of a segment that is kept. -/
  | filled {x z : Segment} {s' : State} : operation.written? s = some x → x ∈ s.keptSegments →
      x.Derived z → Fills t z s s' → Gains t s operation [z] s'
  | derived {x y : Segment} : x ∈ s.keptSegments → x.Derived y → Gains t s operation [y] s
  | placed (address size : Word) : (operation.tokenFree = true → size = 0) →
      Gains t s operation [(s.atAddress address size).1] (s.atAddress address size).2
  | array (c : Carrier) (values : List c.Value) :
      Gains t s operation [(s.newArray c values).1] (s.newArray c values).2
  | again {segment : String} {name : Option String} {x : Segment} {array : HeapArray} :
      operation = .make (.wrapAgain segment) name → s.segmentNamed segment = .ok x →
      x.backing = .heap array → Gains t s operation [(s.overArray array).1] (s.overArray array).2
  | allotted {arena : Arena} {block : Block} {s' : State} : arena ∈ s.handles.arenas.values →
      (s.scope arena.scope).discipline.accessibleBy t = true → Allots s arena.scope block s' →
      Gains t s operation [block.segment arena.scope] s'
  /-- With a token, or for a mapping: native memory is bound to a scope that is kept. -/
  | bound {y : Segment} {s' : State} : operation.tokenFree = false → y.space = .native →
      s.keepsScope y.scope = true → Beside s s' → Gains t s operation [y] s'
  | registered {y : Segment} {cleanup : Cleanup} {s' : State} : operation.tokenFree = false →
      y.space = .native → s.keepsScope y.scope = true → s.isAlive y.scope = true →
      (s.scope y.scope).discipline.accessibleBy t = true →
      (∀ x ∈ cleanup.script.segments, x ∈ s.keptSegments) →
      Beside (s.gainCleanup y.scope cleanup) s' → Gains t s operation [y] s'

section
variable {s s' : State} {t : Thread} {operation : Operation} {gained : List Segment}

theorem Gains.same : Gains t s operation [] s := .beside ⟨_, _, _, _, rfl⟩

/-- **Gaining** lets go of nothing. -/
theorem Gains.grows (h : Gains t s operation gained s') : Grows s s' := by
  cases h with
  | beside hb => exact .of_beside hb
  | fresh d => exact .newScope d .refl
  | filled _ _ _ fills => exact fills.writes.grows
  | derived _ _ => exact .refl
  | placed address size _ => exact .newScope _ .refl
  | array c values => exact .newScope _ (.store _ _ .refl)
  | again _ _ _ => exact .newScope _ .refl
  | allotted harena _ hallots => exact hallots.grows (keepsScope_of_arena harena)
  | bound _ _ _ hb => exact .of_beside hb
  | registered _ _ kept alive _ found hb => exact (Grows.refl.register alive kept found).beside hb

/-- The segments of actions that were found are kept. -/
theorem findScript_kept {script : ScriptText} {found : Script}
    (h : s.findScript script = .ok found) : ∀ x ∈ found.segments, x ∈ s.keptSegments := by
  induction script generalizing found with
  | nil =>
    cases h
    exact nofun
  | cons action rest ih =>
    rw [findScript, List.mapM_cons] at h
    obtain ⟨first, hfirst, h⟩ := bind_eq_ok.mp h
    obtain ⟨others, hothers, h⟩ := bind_eq_ok.mp h
    cases h
    intro x hx
    rw [Script.segments, List.filterMap_cons] at hx
    have hrest : x ∈ Script.segments others → x ∈ s.keptSegments := ih hothers x
    cases action with
    | load segment =>
      obtain ⟨y, hy, hfirst⟩ := bind_eq_ok.mp hfirst
      cases hfirst
      rcases List.mem_cons.mp hx with rfl | hx
      · exact segmentNamed_mem hy
      · exact hrest hx
    | get segment offset =>
      obtain ⟨y, hy, hfirst⟩ := bind_eq_ok.mp hfirst
      cases hfirst
      rcases List.mem_cons.mp hx with rfl | hx
      · exact segmentNamed_mem hy
      · exact hrest hx
    | close arena | alloc arena size alignment =>
      obtain ⟨_, -, hfirst⟩ := bind_eq_ok.mp hfirst
      cases hfirst
      exact hrest hx
    | panic _ | perform _ =>
      cases hfirst
      exact hrest hx

/-- What binding a segment to another scope does: its cleanup is registered there. -/
theorem rebind_ok {token : Token} {x y : Segment} {size : Word} {id : ScopeId}
    {cleanup : Option (String × Script)} (h : s.rebind t token x size id cleanup = .ok (y, s')) :
    y = { x with size, backing := .native, scope := id } ∧ match cleanup with
    | none => Beside s s'
    | some (tag, script) => s.checkAttach t id = .ok () ∧
      Beside (s.gainCleanup id ⟨tag, x.address, script⟩) s' := by
  obtain ⟨⟨⟩, -, h⟩ := bind_eq_ok.mp h
  cases cleanup with
  | none =>
    obtain ⟨⟨⟩, -, h⟩ := bind_eq_ok.mp h
    obtain ⟨s₁, hs₁, h⟩ := bind_eq_ok.mp h
    obtain rfl := pure_eq_ok.mp hs₁
    cases h
    exact ⟨rfl, log_beside _ _⟩
  | some cleanup =>
    obtain ⟨s₁, hs₁, h⟩ := bind_eq_ok.mp h
    obtain ⟨⟨⟩, hcheck, hs₁⟩ := bind_eq_ok.mp hs₁
    obtain rfl := pure_eq_ok.mp hs₁
    cases h
    exact ⟨rfl, hcheck, log_beside _ _⟩

/-- The cleanup that comes with a binding keeps what is kept anyway. -/
theorem findCleanup_kept {text : Option (String × ScriptText)} {cleanup : Option (String × Script)}
    (h : (text.mapM fun (tag, script) => do return (tag, ← s.findScript script) :
      Except Fault (Option (String × Script))) = .ok cleanup) (tag : String) (script : Script)
    (hc : cleanup = some (tag, script)) : ∀ x ∈ script.segments, x ∈ s.keptSegments := by
  subst hc
  cases text with
  | none => cases h
  | some pair =>
    obtain ⟨found, hpair, hsome⟩ := bind_eq_ok.mp h
    obtain ⟨script', hscript, hfound⟩ := bind_eq_ok.mp hpair
    cases hsome
    cases hfound
    exact findScript_kept hscript

end

end State

open State

section
variable {s s' : State} {t : Thread} {x : Segment}

/-- **Makings** gain the segment that they make. -/
theorem Making.make_gains {m : Making} (name : Option String) (h : m.make t s = .ok (x, s')) :
    Gains t s (.make m name) [x] s' := by
  cases m with
  | array c values =>
    cases h
    exact .array c values
  | zeros c length =>
    obtain ⟨⟨⟩, -, h⟩ := bind_eq_ok.mp h
    cases h
    exact .array c _
  | wrapAgain segment =>
    obtain ⟨y, hy, h⟩ := bind_eq_ok.mp h
    cases hb : y.backing with
    | heap array =>
      simp only [hb] at h
      cases h
      exact .again rfl hy hb
    | native => simp [hb] at h
    | mapped id => simp [hb] at h
  | atAddress address =>
    cases h
    exact .placed address 0 fun _ => rfl
  | counting arena length =>
    obtain ⟨arena, harena, h⟩ := bind_eq_ok.mp h
    split at h
    · rename_i made hmade
      obtain rfl := pure_eq_ok.mp h
      obtain ⟨block, rfl, hallots⟩ := filled_allots hmade setEach_writes
      obtain ⟨_, hallocate, -⟩ := bind_eq_ok.mp hmade
      exact .allotted (arenaNamed_mem harena) (allocate_accessible hallocate) hallots
    · simp at h
  | countingArray length =>
    obtain ⟨⟨⟩, -, h⟩ := bind_eq_ok.mp h
    cases h
    exact .array _ _
  | patterned arena length seed =>
    obtain ⟨arena, harena, h⟩ := bind_eq_ok.mp h
    have hmade := allocating_eq_ok.mp h
    obtain ⟨block, rfl, hallots⟩ := filled_allots hmade fun h => (writeRun_wroteAt h).wrote.writes
    obtain ⟨_, hallocate, -⟩ := bind_eq_ok.mp hmade
    exact .allotted (arenaNamed_mem harena) (allocate_accessible hallocate) hallots
  | patternedArray length seed =>
    obtain ⟨⟨⟩, -, h⟩ := bind_eq_ok.mp h
    cases h
    exact .array _ _
  | readOnly segment =>
    obtain ⟨y, hy, h⟩ := bind_eq_ok.mp h
    cases h
    exact .derived (segmentNamed_mem hy) (.readOnly .refl)
  | slice segment range =>
    obtain ⟨y, hy, h⟩ := bind_eq_ok.mp h
    obtain ⟨z, hslice, h⟩ := bind_eq_ok.mp h
    cases h
    exact .derived (segmentNamed_mem hy) (.slice .refl hslice)
  | fromAddress segment layout position =>
    obtain ⟨y, -, h⟩ := bind_eq_ok.mp h
    obtain ⟨built, hbuilt, h⟩ := bind_eq_ok.mp h
    have hmade : ∃ address, (x, s') = s.atAddress address ((built.target.map Shape.size).getD 0) := by
      cases position with
      | offset offset => exact getAddress_ok (access_eq_ok.mp h)
      | index index => exact getAddressAt_ok (access_eq_ok.mp h)
    obtain ⟨address, hmade⟩ := hmade
    cases hmade
    refine .placed address _ fun free => ?_
    have hnone : built.target = none := by
      simpa [Operation.tokenFree, Making.tokenFree, access_eq_ok.mp hbuilt] using free
    rw [hnone]
    rfl
  | resize segment size token =>
    obtain ⟨y, hy, h⟩ := bind_eq_ok.mp h
    obtain ⟨token, -, h⟩ := bind_eq_ok.mp h
    obtain ⟨⟨⟩, -, h⟩ := bind_eq_ok.mp (access_eq_ok.mp h)
    cases h
    have hkept : s.keepsScope y.scope = true := keepsScope_of_segment (segmentNamed_mem hy)
    exact .bound rfl rfl hkept (log_beside _ _)
  | rebind segment size scope cleanup token =>
    obtain ⟨y, -, h⟩ := bind_eq_ok.mp h
    obtain ⟨id, hid, h⟩ := bind_eq_ok.mp h
    obtain ⟨token, -, h⟩ := bind_eq_ok.mp h
    obtain ⟨cleanup, hcleanup, h⟩ := bind_eq_ok.mp h
    obtain ⟨rfl, hbound⟩ := rebind_ok (access_eq_ok.mp h)
    cases cleanup with
    | none => exact .bound rfl rfl (scopeNamed_kept hid) hbound
    | some cleanup =>
      obtain ⟨hattach, hbeside⟩ := hbound
      exact .registered rfl rfl (scopeNamed_kept hid) (checkAttach_ok hattach)
        (checkAttach_accessible hattach) (findCleanup_kept hcleanup _ _ rfl) hbeside
  | map mapping address size fixed scope =>
    obtain ⟨mapping, -, h⟩ := bind_eq_ok.mp h
    obtain ⟨id, hid, h⟩ := bind_eq_ok.mp h
    obtain ⟨y, hy, h⟩ := bind_eq_ok.mp h
    obtain ⟨⟨⟩, -, hy⟩ := bind_eq_ok.mp (access_eq_ok.mp hy)
    cases h
    cases hy
    exact .bound rfl rfl (scopeNamed_kept hid) ⟨_, _, _, _, rfl⟩

/-- **Allocations** gain what is allotted or carved, even if it cannot be filled. -/
theorem Allocates.gains {source : AllocatorRef} {a : Allocator} {allocation : Allocation}
    (h : Allocates t s a allocation) (contents : Contents) (name : Option String)
    (hsource : s.sourceNamed source = .ok a) :
    ∃ gained, Gains t s (.allocate source contents name) gained allocation.state ∧
      ∀ x, allocation.result = .ok x → gained = [x] := by
  cases h with
  | refused => exact ⟨[], .same, fun x hx => by cases hx⟩
  | allotted accessible allots given =>
    refine ⟨_, .allotted ?_ accessible allots, fun x hx => by rw [given x hx]⟩
    cases source with
    | arena source =>
      obtain ⟨found, harena, heq⟩ := bind_eq_ok.mp hsource
      cases heq
      exact arenaNamed_mem harena
    | allocator source =>
      obtain ⟨found, -, heq⟩ := bind_eq_ok.mp hsource
      cases heq
  | @carved c c' z s' result same alive derived fills given =>
    cases source with
    | arena source =>
      obtain ⟨found, -, heq⟩ := bind_eq_ok.mp hsource
      cases heq
    | allocator source =>
      obtain ⟨found, hfound, heq⟩ := bind_eq_ok.mp hsource
      cases heq
      have hfind := named_eq_ok.mp hfound
      have hwritten : (Operation.allocate (.allocator source) contents name).written? s =
          some c.segment := by
        rw [Operation.written?, hfind]
        rfl
      exact ⟨[z], .filled hwritten (kept_of_carver (Table.mem_values_of_find? hfind)) derived fills,
        fun x hx => by rw [given x hx]⟩

end

namespace State

/-! ### Names -/

section
variable {α : Type} {table : Table α} {name : String} {v x : α} {p : α → Prop}

/-- What the table had under the name, if anything. -/
theorem mem_put_or (h : x ∈ table.values) :
    table.find? name = some x ∨ x ∈ (table.put name v).values :=
  Table.find?_or_mem_erase h |>.imp_right fun h => Table.mem_values_put.mpr (.inr h)

/-- What holds of a new thing and of all things in a table holds of the table with it. -/
theorem put_forall (hv : p v) (h : ∀ x ∈ table.values, p x) :
    ∀ x ∈ (table.put name v).values, p x := by
  intro x hx
  rcases Table.mem_values_put.mp hx with rfl | hx
  · exact hv
  · exact h x (Table.mem_values_of_erase hx)

theorem erase_forall (h : ∀ x ∈ table.values, p x) : ∀ x ∈ (table.erase name).values, p x :=
  fun x hx => h x (Table.mem_values_of_erase hx)

end

/-- Other names for segments and allocators. What has one was gained or is kept anyway, and what has
lost its name is `lost`. -/
structure Renaming (s : State) (gained : List Segment) (handles : Handles) (lost : List Segment) :
    Prop where
  arenas : handles.arenas = s.handles.arenas
  mappings : handles.mappings = s.handles.mappings
  segments : ∀ x ∈ handles.segments.values, x ∈ gained ∨ x ∈ s.keptSegments
  carvers : ∀ c ∈ handles.allocators.values, c.segment ∈ gained ∨ c.segment ∈ s.keptSegments
  named : ∀ x ∈ s.handles.segments.values, x ∈ lost ∨ x ∈ handles.segments.values
  carved : ∀ c ∈ s.handles.allocators.values, c.segment ∈ lost ∨
    ∃ c' ∈ handles.allocators.values, c'.segment = c.segment
  known : ∀ x ∈ lost, x ∈ gained ∨ x ∈ s.keptSegments

/-- Names change, and what has lost its name is let go of. -/
inductive Renames (t : Thread) (s : State) (gained : List Segment) : (Nested → State) → Prop where
  | intro (handles : Handles) (lost : List Segment) : Renaming s gained handles lost →
      Renames t s gained fun nested => ({ s with handles } : State).releaseSegments nested t lost

section
variable {s : State} {t : Thread} {gained lost : List Segment} {handles : Handles} {x : Segment}
  {f : Nested → State}

theorem Renaming.refl (s : State) (gained : List Segment) : Renaming s gained s.handles [] where
  arenas := rfl
  mappings := rfl
  segments _ hx := .inr (kept_of_segment hx)
  carvers _ hc := .inr (kept_of_carver hc)
  named _ hx := .inr hx
  carved c hc := .inr ⟨c, hc, rfl⟩
  known _ hx := absurd hx List.not_mem_nil

theorem Renames.same : Renames t s gained fun _ => s := .intro s.handles [] (.refl s gained)

/-- What is kept under other names was gained or is kept anyway. -/
theorem Renaming.kept (h : Renaming s gained handles lost)
    (hx : x ∈ ({ s with handles } : State).keptSegments) : x ∈ gained ∨ x ∈ s.keptSegments := by
  rcases mem_keptSegments.mp hx with hx | hx | ⟨c, hc, rfl⟩ | ⟨_, _, hm, hx⟩ | ⟨_, _, hc, hx⟩
  · exact .inr (kept_of_outgoing hx)
  · exact h.segments x hx
  · exact h.carvers c hc
  · exact .inr (kept_of_mapping hm hx)
  · exact .inr (kept_of_cleanup hc hx)

/-- First nothing loses its name, and then names change again. -/
theorem Renames.after (h : Renames t { s with handles } gained f)
    (first : Renaming s gained handles []) : Renames t s gained f := by
  obtain ⟨handles', lost, h⟩ := h
  have hkept : ∀ {x}, x ∈ gained ∨ x ∈ ({ s with handles } : State).keptSegments →
      x ∈ gained ∨ x ∈ s.keptSegments := fun hx => hx.elim .inl first.kept
  refine .intro handles' lost
    { arenas := h.arenas.trans first.arenas
      mappings := h.mappings.trans first.mappings
      segments := fun x hx => hkept (h.segments x hx)
      carvers := fun c hc => hkept (h.carvers c hc)
      named := fun x hx => ?_
      carved := fun c hc => ?_
      known := fun x hx => hkept (h.known x hx) }
  · exact h.named x ((first.named x hx).resolve_left List.not_mem_nil)
  · obtain ⟨c', hc', hsame⟩ := (first.carved c hc).resolve_left List.not_mem_nil
    rw [← hsame]
    exact h.carved c' hc'

theorem bindSegment_renames (s : State) (t : Thread) (name : Option String) (x : Segment) :
    Renames t s [x] fun nested => s.bindSegment nested t name x := by
  cases name with
  | none =>
    refine .intro s.handles [x] { Renaming.refl s [x] with
      named := fun y hy => .inr hy
      carved := fun c hc => .inr ⟨c, hc, rfl⟩
      known := fun y hy => .inl hy }
  | some name =>
    have hput : ∀ lost, (∀ y, s.handles.segments.find? name = some y → y ∈ lost) →
        (∀ y ∈ lost, s.handles.segments.find? name = some y) →
        Renaming s [x] { s.handles with segments := s.handles.segments.put name x } lost :=
      fun lost old known => { Renaming.refl s [x] with
        segments := put_forall (.inl List.mem_cons_self) fun y hy => .inr (kept_of_segment hy)
        named := fun y hy => (mem_put_or hy).imp_left (old y)
        carved := fun c hc => .inr ⟨c, hc, rfl⟩
        known := fun y hy => .inr (kept_of_segment (Table.mem_values_of_find? (known y hy))) }
    cases hold : s.handles.segments.find? name with
    | none =>
      simp only [bindSegment, hold]
      exact .intro _ [] (hput [] (by simp [hold]) (by simp))
    | some old =>
      simp only [bindSegment, hold]
      exact .intro _ [old] (hput [old] (by simp [hold]) (by simp [hold]))

theorem bindAllocator_renames (t : Thread) (name : String) {carver : Carver}
    (kept : carver.segment ∈ s.keptSegments) :
    Renames t s gained fun nested => s.bindAllocator nested t name carver := by
  have hput : ∀ lost, (∀ c, s.handles.allocators.find? name = some c → c.segment ∈ lost) →
      (∀ y ∈ lost, ∃ c, s.handles.allocators.find? name = some c ∧ c.segment = y) →
      Renaming s gained { s.handles with allocators := s.handles.allocators.put name carver } lost :=
    fun lost old known => { Renaming.refl s gained with
      carvers := put_forall (.inr kept) fun c hc => .inr (kept_of_carver hc)
      named := fun y hy => .inr hy
      carved := fun c hc => (mem_put_or hc).imp (old c) fun hc => ⟨c, hc, rfl⟩
      known := fun y hy => by
        obtain ⟨c, hc, rfl⟩ := known y hy
        exact .inr (kept_of_carver (Table.mem_values_of_find? hc)) }
  cases hold : s.handles.allocators.find? name with
  | none =>
    simp only [bindAllocator, hold]
    exact .intro _ [] (hput [] (by simp [hold]) (by simp))
  | some old =>
    simp only [bindAllocator, hold]
    exact .intro _ [old.segment] (hput [old.segment] (by simp [hold]) (by simp [hold]))

/-- An allocator that is put in place of another carves the same segment. -/
theorem updateSource_renaming (gained : List Segment) {source : AllocatorRef}
    {allocator : Allocator}
    (same : ∀ name carver, source = .allocator name → allocator = .carver carver →
      ∃ old, s.handles.allocators.find? name = some old ∧ old.segment = carver.segment) :
    ∃ handles, Renaming s gained handles [] ∧ s.updateSource source allocator = { s with handles } := by
  unfold updateSource
  split
  · rename_i name carver
    obtain ⟨old, hold, hsegment⟩ := same name carver rfl rfl
    refine ⟨{ s.handles with allocators := s.handles.allocators.put name carver },
      { Renaming.refl s gained with carvers := ?_, carved := ?_ }, rfl⟩
    · refine put_forall (.inr ?_) fun c hc => .inr (kept_of_carver hc)
      rw [← hsegment]
      exact kept_of_carver (Table.mem_values_of_find? hold)
    · intro c hc
      rcases mem_put_or (v := carver) hc with h | h
      · rw [hold] at h
        cases h
        exact .inr ⟨carver, Table.mem_values_put.mpr (.inl rfl), hsegment.symm⟩
      · exact .inr ⟨c, h, rfl⟩
  · exact ⟨s.handles, .refl s gained, rfl⟩

theorem bindToken_renames (s : State) (t : Thread) (name : Option String) (token : Token) :
    Renames t s gained fun _ => s.bindToken name token := by
  cases name with
  | none => exact .same
  | some name =>
    exact .intro { s.handles with tokens := s.handles.tokens.put name token } []
      { Renaming.refl s gained with }

theorem eraseSegment_renames (t : Thread) {name : String} (hx : s.segmentNamed name = .ok x) :
    Renames t s gained fun nested =>
      ({ s with handles.segments := s.handles.segments.erase name } : State).forget nested t x := by
  have hfind := segmentNamed_ok hx
  refine .intro { s.handles with segments := s.handles.segments.erase name } [x]
    { Renaming.refl s gained with
      segments := erase_forall fun y hy => .inr (kept_of_segment hy)
      named := fun y hy => (Table.find?_or_mem_erase hy).imp_left fun h => ?_
      carved := fun c hc => .inr ⟨c, hc, rfl⟩
      known := fun y hy => .inr (List.mem_singleton.mp hy ▸ segmentNamed_mem hx) }
  rw [hfind] at h
  cases h
  exact List.mem_cons_self

theorem eraseAllocator_renames (t : Thread) {name : String} {carver : Carver}
    (hc : s.allocatorNamed name = .ok carver) :
    Renames t s gained fun nested =>
      ({ s with handles.allocators := s.handles.allocators.erase name } : State).forget nested t
        carver.segment := by
  have hfind := named_eq_ok.mp hc
  refine .intro { s.handles with allocators := s.handles.allocators.erase name } [carver.segment]
    { Renaming.refl s gained with
      carvers := erase_forall fun c hc => .inr (kept_of_carver hc)
      named := fun y hy => .inr hy
      carved := fun c hc => (Table.find?_or_mem_erase hc).imp (fun h => ?_) fun h => ⟨c, h, rfl⟩
      known := fun y hy => .inr (List.mem_singleton.mp hy ▸
        kept_of_carver (Table.mem_values_of_find? hfind)) }
  rw [hfind] at h
  cases h
  exact List.mem_cons_self

end

end State

/-! ### Operations -/

/-- What an operation does on a thread, and what it answers. -/
inductive Does (t : Thread) (s : State) (operation : Operation) :
    (Nested → Except Fault Answer × State) → Prop where
  | query {q : Query} : Does t s operation fun _ => (q.answer t s, s)
  | name {gained : List Segment} {s₁ : State} {f : Nested → State} {result : Except Fault Answer} :
      Gains t s operation gained s₁ → Renames t s₁ gained f →
      (∀ answer, result = .ok answer → ∀ x ∈ answer.segments, x ∈ gained) →
      Does t s operation fun nested => (result, f nested)
  | openArena {name : String} {kind : ScopeKind} {config : Option ArenaConfig} {arena : Arena}
      {s' : State} : s.openArena t kind config = .ok (arena, s') →
      Does t s operation fun nested =>
        (.ok (.arenaOpened arena.scope), s'.bindArena nested t name arena)
  | closeArena {arena : Arena} : arena ∈ s.handles.arenas.values →
      Does t s operation fun nested => ((s.closeArena nested t arena).1.map fun _ => .nothing,
        (s.closeArena nested t arena).2)
  | dropArena {name : String} {arena : Arena} : s.arenaNamed name = .ok arena →
      Does t s operation fun nested => (.ok .nothing,
        { s with handles.arenas := s.handles.arenas.erase name }.releaseArena nested t arena)
  | openMapping {name : String} {mapping : Mapping} :
      (∀ x ∈ mapping.segments, x ∈ s.keptSegments) →
      Does t s operation fun nested => (.ok .nothing, s.bindMapping nested name mapping)
  | dropMapping {name : String} {m : MappingId} : s.mappingNamed name = .ok m →
      Does t s operation fun nested => (.ok .nothing,
        { s with handles.mappings := s.handles.mappings.erase name }.releaseMapping nested m)
  | ask {x : Segment} {request : Request} : x ∈ s.keptSegments →
      Does t s operation fun nested =>
        ((s.ask nested t x request).1.map fun b =>
          if request = .isLoaded then .truth b else .nothing, (s.ask nested t x request).2)

section
variable {t : Thread} {s s' : State} {operation : Operation}

theorem Does.fails (fault : Fault) : Does t s operation fun _ => (.error fault, s) :=
  .name .same .same fun _ h => by cases h

theorem Does.renames {gained : List Segment} {f : Nested → State} {answer : Answer}
    (h : Gains t s operation gained s') (h' : Renames t s' gained f)
    (shown : ∀ x ∈ answer.segments, x ∈ gained) :
    Does t s operation fun nested => (.ok answer, f nested) := by
  refine .name h h' fun answer' heq => ?_
  cases heq
  exact shown

/-- Something is looked up first. -/
theorem Does.bind {α : Type} {found : Except Fault α}
    {f : α → Nested → Except Fault (Answer × State)}
    (h : ∀ a, found = .ok a → Does t s operation fun nested => orElseSame s (f a nested)) :
    Does t s operation fun nested => orElseSame s (found >>= fun a => f a nested) := by
  cases found with
  | error fault => exact .fails fault
  | ok a => exact h a rfl

/-- What is looked up is dropped. -/
theorem Does.drop {α : Type} {found : Except Fault α} {f : α → Nested → State}
    (h : ∀ a, found = .ok a → Does t s operation fun nested => (.ok .nothing, f a nested)) :
    Does t s operation fun nested => orElseSame s do
      return (.nothing, ← (do return f (← found) nested : Except Fault State)) := by
  cases found with
  | error fault => exact .fails fault
  | ok a => exact h a rfl

theorem enableAccess_beside {caller : String} {token : Token}
    (h : s.enableAccess caller = .ok (token, s')) : Beside s s' := by
  unfold enableAccess at h
  split at h
  · cases h
  · cases h
    exact ⟨_, _, _, _, rfl⟩
  · split at h
    · cases h
      exact ⟨_, _, _, _, rfl⟩
    · cases h
      exact ⟨_, _, _, _, rfl⟩

theorem Carver.reset?_segment {c c' : Carver} (h : c.reset? = some c') : c.segment = c'.segment := by
  cases c with
  | slicing x used =>
    cases h
    rfl
  | front x => cases h

/-- An allocator stays an arena, or carves the same segment as before. -/
theorem Allocates.follows {a : Allocator} {allocation : Allocation} (h : Allocates t s a allocation)
    {carver : Carver} (hc : allocation.allocator = .carver carver) :
    ∃ old, a = .carver old ∧ old.segment = carver.segment := by
  cases h with
  | refused => exact ⟨carver, hc, rfl⟩
  | allotted _ _ _ => cases hc
  | carved same _ _ _ _ =>
    cases hc
    exact ⟨_, rfl, same.symm⟩

theorem allocate_does (t : Thread) (s : State) (source : AllocatorRef) (contents : Contents)
    (name : Option String) : Does t s (.allocate source contents name) fun nested =>
      (Operation.allocate source contents name).perform nested t s := by
  simp only [Operation.perform]
  cases hok : (s.sourceNamed source >>= contents.allocate t s) with
  | error fault => exact .fails fault
  | ok allocation =>
    obtain ⟨result, allocator, s₁⟩ := allocation
    obtain ⟨a, ha, hok⟩ := bind_eq_ok.mp hok
    have hallocates := Contents.allocate_allocates hok
    obtain ⟨gained, hgains, hgiven⟩ := hallocates.gains contents name ha
    have hsame : ∀ name carver, source = .allocator name → allocator = .carver carver →
        ∃ old, s₁.handles.allocators.find? name = some old ∧ old.segment = carver.segment := by
      intro name carver hsource hcarver
      obtain ⟨old, hold, hsegment⟩ := hallocates.follows hcarver
      refine ⟨old, ?_, hsegment⟩
      subst hsource
      obtain ⟨c, hc, heq⟩ := bind_eq_ok.mp ha
      rw [hold] at heq
      cases heq
      rw [hgains.grows.grown.handles]
      exact named_eq_ok.mp hc
    obtain ⟨handles, hrenaming, hupdate⟩ := updateSource_renaming gained hsame
    dsimp only
    rw [hupdate]
    cases result with
    | error e => exact .name hgains (.intro handles [] hrenaming) fun _ h => by cases h
    | ok x =>
      obtain rfl := hgiven x rfl
      exact .renames hgains ((bindSegment_renames _ t name x).after hrenaming) fun _ hy => hy

/-- **Every operation** does one of these things, whoever runs its callbacks. -/
theorem Operation.perform_does (t : Thread) (s : State) (operation : Operation) :
    Does t s operation fun nested => operation.perform nested t s := by
  cases operation with
  | query q => exact .query
  | change c =>
    refine .bind fun s₁ happly => ?_
    obtain ⟨x, hx, hwrote⟩ := Change.apply_wrote happly
    have hkept := kept_of_segment (Table.mem_values_of_find? hx)
    exact .renames (.filled hx hkept .refl (.inr hwrote)) .same (List.forall_mem_nil _)
  | make m name =>
    refine .bind fun made hmake => ?_
    exact .renames (Making.make_gains name hmake) (bindSegment_renames made.2 t name made.1)
      fun _ hy => hy
  | overlap a b name =>
    refine .bind fun x hx => .bind fun y _ => ?_
    cases hoverlap : x.overlap y with
    | none => exact .renames .same .same (List.forall_mem_nil _)
    | some z =>
      exact .renames (.derived (segmentNamed_mem hx) (.overlap .refl hoverlap))
        (bindSegment_renames s t name z) fun _ hy => hy
  | allocate source contents name => exact allocate_does t s source contents name
  | openArena name kind config =>
    refine .bind fun opened hopen => ?_
    exact .openArena (allocating_eq_ok.mp hopen)
  | closeArena name =>
    simp only [Operation.perform]
    cases harena : s.arenaNamed name with
    | error fault => exact .fails fault
    | ok arena => exact .closeArena (arenaNamed_mem harena)
  | openAllocator name carving segment =>
    refine .bind fun x hx => .renames .same (bindAllocator_renames t name ?_) (List.forall_mem_nil _)
    cases carving with
    | slicing => exact segmentNamed_mem hx
    | front => exact segmentNamed_mem hx
  | resetAllocator name =>
    refine .bind fun old hold => .bind fun carver hreset => ?_
    have hsame : ∀ name' carver', AllocatorRef.allocator name = .allocator name' →
        Allocator.carver carver = .carver carver' → ∃ old,
        s.handles.allocators.find? name' = some old ∧ old.segment = carver'.segment := by
      intro name' carver' hname hcarver
      cases hname
      cases hcarver
      exact ⟨old, named_eq_ok.mp hold, Carver.reset?_segment (named_eq_ok.mp hreset)⟩
    obtain ⟨handles, hrenaming, hupdate⟩ := updateSource_renaming [] hsame
    rw [hupdate]
    exact .renames .same (.intro handles [] hrenaming) (List.forall_mem_nil _)
  | openRecorder name failsForce => exact .openMapping (List.forall_mem_nil _)
  | openScripted name scripts failures loaded =>
    refine .bind fun load hload => .bind fun unload hunload => .bind fun isLoaded hisLoaded =>
      .bind fun force hforce => .openMapping fun x hx => ?_
    obtain ⟨request, hkept⟩ := Mapping.mem_segments_scripted.mp hx
    cases request with
    | load => exact findScript_kept hload x hkept
    | unload => exact findScript_kept hunload x hkept
    | isLoaded => exact findScript_kept hisLoaded x hkept
    | force => exact findScript_kept hforce x hkept
  | ask segment request =>
    simp only [Operation.perform]
    cases hx : s.segmentNamed segment with
    | error fault => exact .fails fault
    | ok x => exact .ask (segmentNamed_mem hx)
  | setPolicy text =>
    simp only [Operation.perform]
    refine .bind fun policy _ => ?_
    exact .renames (.beside ⟨_, _, _, _, rfl⟩) .same (List.forall_mem_nil _)
  | enableAccess caller name =>
    refine .bind fun granted htoken => ?_
    exact .renames (.beside (enableAccess_beside (access_eq_ok.mp htoken)))
      (bindToken_renames granted.2 t name granted.1) (List.forall_mem_nil _)
  | freshScope => exact .renames (.fresh .global) .same (List.forall_mem_nil _)
  | drop handle =>
    cases handle with
    | arena name => exact .drop fun arena harena => .dropArena harena
    | segment name =>
      exact .drop fun x hx => .renames .same (eraseSegment_renames t hx) (List.forall_mem_nil _)
    | allocator name =>
      exact .drop fun carver hc =>
        .renames .same (eraseAllocator_renames t hc) (List.forall_mem_nil _)
    | mapping name => exact .drop fun m hm => .dropMapping hm

end

end ScopedMemory
