import ScopedMemory.Proofs.Derivation
import ScopedMemory.Proofs.Keeping

/-! How memory is obtained.

An arena gets a new block from the system (`Allots`). An allocator does that or carves what it has,
and fills what it gives out (`Allocates`); these are all the ways there are, and memory changes
nowhere but in what was obtained. -/
namespace ScopedMemory

/-- The segment over a whole block. -/
def Block.segment (block : Block) (scope : ScopeId) : Segment :=
  ⟨block.address, block.size, .native, false, scope⟩

namespace State

/-! ### Blocks -/

/-- The scope gets a new block from the system, and memory changes only there. -/
structure Allots (s : State) (id : ScopeId) (block : Block) (s' : State) : Prop where
  alive : s.isAlive id = true
  placed : s.system.Places s.journal block
  made : ∃ memory events, s' = { s.gainBlock id block with memory, events } ∧
    ∀ space address, ¬ (block.segment id).Covers space address →
      memory.read space address = s.memory.read space address

section
variable {s s' s'' : State} {t : Thread} {id : ScopeId} {block : Block}

theorem Writes.refl (x : Segment) (s : State) : Writes x s s := ⟨s.memory, rfl, fun _ _ _ => rfl⟩

theorem Allots.write (h : Allots s id block s') (hw : Writes (block.segment id) s' s'') :
    Allots s id block s'' := by
  obtain ⟨memory, events, rfl, hsame⟩ := h.made
  obtain ⟨memory', rfl, hsame'⟩ := hw
  exact ⟨h.alive, h.placed, memory', events, rfl, fun space address hc =>
    (hsame' space address hc).trans (hsame space address hc)⟩

theorem checkAttach_ok {u : Unit} (h : s.checkAttach t id = .ok u) : s.isAlive id = true := by
  obtain ⟨⟨⟩, -, halive⟩ := bind_eq_ok.mp h
  exact checkAlive_eq_ok.mp halive

theorem checkOwner_eq_ok {u : Unit} :
    s.checkOwner t id = .ok u ↔ (s.scope id).discipline.accessibleBy t = true := by
  unfold checkOwner
  split
  · exact ⟨fun _ => ‹_›, fun _ => rfl⟩
  · exact ⟨nofun, fun h => absurd h ‹_›⟩

theorem checkAttach_accessible {u : Unit} (h : s.checkAttach t id = .ok u) :
    (s.scope id).discipline.accessibleBy t = true := by
  obtain ⟨⟨⟩, howner, -⟩ := bind_eq_ok.mp h
  exact checkOwner_eq_ok.mp howner

theorem checkEntry_accessible {u : Unit} (h : s.checkEntry t id = .ok u) :
    (s.scope id).discipline.accessibleBy t = true := by
  unfold checkEntry at h
  split at h
  · obtain ⟨⟨⟩, -, howner⟩ := bind_eq_ok.mp h
    exact checkOwner_eq_ok.mp howner
  · rw [‹(s.scope id).discipline = .shared›]
    rfl
  · rw [‹(s.scope id).discipline = .auto›]
    rfl
  · rw [‹(s.scope id).discipline = .global›]
    rfl

/-- What a block from the system costs. -/
theorem reserve_ok (id : ScopeId) {size : Word} {alignment : Alignment} {zeroed : Bool}
    (h : s.reserve size alignment zeroed = .ok (block, s')) :
    s.system.Places s.journal block ∧ block.size = size ∧ Writes (block.segment id) s s' := by
  unfold reserve at h
  split at h
  · cases h
  · split at h
    · rename_i hzero
      cases h
      exact ⟨.inl rfl, hzero.symm, .refl _ s⟩
    · cases hplace : s.system.place s.journal size alignment with
      | none => simp [hplace] at h
      | some start =>
        simp only [hplace, Except.ok.injEq, Prod.mk.injEq] at h
        obtain ⟨rfl, rfl⟩ := h
        refine ⟨.inr ⟨alignment, hplace⟩, rfl, ?_⟩
        have hfill : Writes (Block.segment ⟨start, size⟩ id) s { s with
            memory := s.memory.overlay .native (start + 0) size.toNat fun _ => 0 } :=
          (writesAt_overlay s (Block.segment ⟨start, size⟩ id) 0 size.toNat _).writes
            (by simp [Block.segment])
        split
        · rwa [UInt64.add_zero] at hfill
        · exact .refl _ s

/-- The system gives no block too large to be described. -/
theorem reserve_describable {size : Word} {alignment : Alignment} {zeroed : Bool}
    (h : s.reserve size alignment zeroed = .ok (block, s')) :
    size.toNat + alignment.bytes.toNat ≤ 1 <<< 63 := by
  unfold reserve at h
  split at h
  · cases h
  · exact Nat.le_of_not_lt ‹_›

/-- All that an arena does before it hands out a segment. -/
theorem allocate_steps {arena : Arena} {size alignment : Word} {x : Segment}
    (h : arena.allocate t s size alignment = .ok (x, s')) :
    ∃ a block s₁, Alignment.ofBytes? alignment = some a ∧ s.checkEntry t arena.scope = .ok () ∧
      s.reserve size a arena.config.zeroed = .ok (block, s₁) ∧
      s₁.checkAttach t arena.scope = .ok () ∧
      x = ⟨block.address, size, .native, false, arena.scope⟩ ∧
      s' = (s₁.gainBlock arena.scope block).log
        (.allocated arena.scope block.address size alignment) := by
  unfold Arena.allocate at h
  split at h
  · cases h
  · rename_i a ha
    split at h
    · cases h
    · obtain ⟨⟨⟩, hentry, h⟩ := bind_eq_ok.mp h
      obtain ⟨⟨block, s₁⟩, hreserve, h⟩ := bind_eq_ok.mp h
      obtain ⟨s₂, hattach, h⟩ := bind_eq_ok.mp h
      obtain ⟨rfl, rfl⟩ := Prod.mk.inj (pure_eq_ok.mp h)
      obtain ⟨⟨⟩, hcheck, hs₂⟩ := bind_eq_ok.mp (liftAccess_eq_ok.mp hattach)
      obtain rfl := pure_eq_ok.mp hs₂
      exact ⟨a, block, s₁, ha, liftAccess_eq_ok.mp hentry, hreserve, hcheck, rfl, rfl⟩

/-- What an arena hands out is the segment over a new block of its scope. -/
theorem allocate_allots {arena : Arena} {size alignment : Word} {x : Segment}
    (h : arena.allocate t s size alignment = .ok (x, s')) :
    ∃ block, x = block.segment arena.scope ∧ Allots s arena.scope block s' := by
  obtain ⟨a, block, s₁, -, -, hreserve, hcheck, rfl, rfl⟩ := allocate_steps h
  obtain ⟨hplaced, rfl, memory, rfl, hsame⟩ := reserve_ok arena.scope hreserve
  exact ⟨block, rfl, checkAttach_ok hcheck, hplaced, memory, _, rfl, hsame⟩

theorem allocate_accessible {arena : Arena} {size alignment : Word} {made : Segment × State}
    (h : arena.allocate t s size alignment = .ok made) :
    (s.scope arena.scope).discipline.accessibleBy t = true := by
  obtain ⟨-, -, -, -, hentry, -⟩ := allocate_steps h
  exact checkEntry_accessible hentry

/-- Setting values one after the other writes the segment alone. -/
theorem setEach_writes {c : Carrier} {x : Segment} {layout : ValueLayout c} {offset : Word}
    {values : List c.Value} (h : s.setEach t x layout offset values = .ok s') : Writes x s s' := by
  unfold setEach at h
  generalize values.zipIdx = entries at h
  induction entries generalizing s with
  | nil =>
    cases h
    exact .refl x s'
  | cons entry rest ih =>
    rw [List.foldlM_cons] at h
    obtain ⟨s₁, hset, h⟩ := bind_eq_ok.mp h
    exact (set_wroteAt hset).wrote.writes.trans (ih h)

theorem filled_allots {arena : Arena} {size alignment : Word} {x : Segment}
    {fill : State → Segment → Except AccessError State}
    (h : s.filled t arena size alignment fill = .ok (x, s'))
    (writes : ∀ {s x s'}, fill s x = .ok s' → Writes x s s') :
    ∃ block, x = block.segment arena.scope ∧ Allots s arena.scope block s' := by
  obtain ⟨⟨y, s₁⟩, hallocate, h⟩ := bind_eq_ok.mp h
  obtain ⟨s₂, hwrite, h⟩ := bind_eq_ok.mp h
  obtain ⟨rfl, rfl⟩ := Prod.mk.inj (pure_eq_ok.mp h)
  obtain ⟨block, rfl, hallots⟩ := allocate_allots hallocate
  exact ⟨block, rfl, hallots.write (writes (liftAccess_eq_ok.mp hwrite))⟩

end

/-! ### What is named and what is stored -/

section
variable {s s' : State} {t : Thread} {x : Segment} {name : String}

theorem arenaNamed_mem {arena : Arena} (h : s.arenaNamed name = .ok arena) :
    arena ∈ s.handles.arenas.values :=
  Table.mem_values_of_find? (named_eq_ok.mp h)

theorem segmentNamed_mem (h : s.segmentNamed name = .ok x) : x ∈ s.keptSegments :=
  kept_of_segment (Table.mem_values_of_find? (segmentNamed_ok h))

/-- A stored address is answered by a new segment, as large as the layout's target. -/
theorem getAddress_ok {made : Segment × State} {layout : AddressLayout} {offset : Word}
    (h : s.getAddress t x layout offset = .ok made) :
    ∃ address, made = s.atAddress address ((layout.target.map Shape.size).getD 0) := by
  obtain ⟨⟨⟩, -, h⟩ := bind_eq_ok.mp h
  cases htarget : layout.target with
  | none =>
    simp only [htarget, pure_eq_ok] at h
    exact ⟨_, h.symm⟩
  | some target =>
    simp only [htarget] at h
    split at h
    · simp [bind, Except.bind] at h
    · exact ⟨_, (pure_eq_ok.mp h).symm⟩

theorem getAddressAt_ok {made : Segment × State} {layout : AddressLayout} {index : Word}
    (h : s.getAddressAt t x layout index = .ok made) :
    ∃ address, made = s.atAddress address ((layout.target.map Shape.size).getD 0) := by
  obtain ⟨offset, -, h⟩ := bind_eq_ok.mp h
  exact getAddress_ok h

end

end State

open State

/-! ### Allocations -/

/-- Carving leaves the carved segment what it is. -/
theorem Carver.carve_segment (c : Carver) (s : State) (size alignment : Word) :
    (c.carve s size alignment).2.segment = c.segment := by
  cases c with
  | slicing x used =>
    simp only [carve]
    split <;> rfl
  | front x => rfl

/-- A carver that carves nothing stays as it is. -/
theorem Carver.carve_error {c : Carver} {s : State} {size alignment : Word} {e : ArenaError}
    (h : (c.carve s size alignment).1 = .error e) : (c.carve s size alignment).2 = c := by
  cases c with
  | slicing x used =>
    simp only [carve] at h ⊢
    split at h
    · cases h
    · rfl
  | front x => rfl

/-- Nothing is written, or something through the segment. -/
def Fills (t : Thread) (x : Segment) (s s' : State) : Prop := s' = s ∨ Wrote t x s s'

section
variable {t : Thread} {x : Segment} {s s' s'' : State}

theorem Fills.writes (h : Fills t x s s') : Writes x s s' := by
  rcases h with rfl | h
  · exact .refl x s'
  · exact h.writes

theorem Fills.trans (h : Fills t x s s') (h' : Fills t x s' s'') : Fills t x s s'' := by
  rcases h with rfl | h
  · exact h'
  · rcases h' with rfl | h'
    · exact .inr h
    · exact .inr ⟨h.entered, h.writable, h.writes.trans h'.writes⟩

end

/-- What an allocation comes to. It may fail after all, when what was allotted or carved cannot be
filled. -/
inductive Allocates (t : Thread) (s : State) : Allocator → Allocation → Prop where
  | refused {a : Allocator} {e : ArenaError} : Allocates t s a ⟨.error e, a, s⟩
  | allotted {arena : Arena} {block : Block} {s' : State} {result : Except ArenaError Segment}
      (accessible : (s.scope arena.scope).discipline.accessibleBy t = true)
      (allots : Allots s arena.scope block s')
      (given : ∀ x, result = .ok x → x = block.segment arena.scope) :
      Allocates t s (.arena arena) ⟨result, .arena arena, s'⟩
  | carved {c c' : Carver} {z : Segment} {s' : State} {result : Except ArenaError Segment}
      (same : c'.segment = c.segment) (alive : s.isAlive c.segment.scope = true)
      (derived : c.segment.Derived z) (fills : Fills t z s s')
      (given : ∀ x, result = .ok x → x = z) :
      Allocates t s (.carver c) ⟨result, .carver c', s'⟩

theorem Allocator.allocate_allocates (a : Allocator) (t : Thread) (s : State)
    (size alignment : Word) : Allocates t s a (a.allocate t s size alignment) := by
  cases a with
  | arena owner =>
    simp only [Allocator.allocate]
    split
    · rename_i x s' h
      obtain ⟨block, rfl, hallots⟩ := allocate_allots h
      exact .allotted (allocate_accessible h) hallots fun _ h => (Except.ok.inj h).symm
    · exact .refused
  | carver c =>
    have hsame := c.carve_segment s size alignment
    simp only [Allocator.allocate]
    cases hresult : (c.carve s size alignment).1 with
    | error e =>
      rw [Carver.carve_error hresult]
      exact .refused
    | ok z =>
      exact .carved hsame (Segment.partOf_of_carve hresult).1 (.carved .refl hresult) (.inl rfl)
        fun _ h => (Except.ok.inj h).symm

theorem Allocator.allocateArray_allocates (a : Allocator) (t : Thread) (s : State) (element : Shape)
    (count : Word) : Allocates t s a (a.allocateArray t s element count) := by
  unfold Allocator.allocateArray
  split
  · exact a.allocate_allocates t s _ _
  · exact .refused

/-- Filling writes nowhere but in what was allocated. -/
theorem Allocates.fill {t : Thread} {s : State} {a : Allocator} {allocation : Allocation}
    {fill : State → Segment → Except AccessError State} (h : Allocates t s a allocation)
    (fills : ∀ s₁ x s₂, fill s₁ x = .ok s₂ → Fills t x s₁ s₂) :
    Allocates t s a (allocation.fillWith fill) := by
  unfold Allocation.fillWith
  cases h with
  | refused => exact .refused
  | allotted accessible allots given =>
    split
    · exact .allotted accessible allots given
    · rename_i x hx
      obtain rfl := given x hx
      split
      · exact .allotted accessible (allots.write (fills _ _ _ ‹_›).writes) given
      · exact .allotted accessible allots nofun
  | carved same alive derived filled given =>
    split
    · exact .carved same alive derived filled given
    · rename_i x hx
      obtain rfl := given x hx
      split
      · exact .carved same alive derived (filled.trans (fills _ _ _ ‹_›)) given
      · exact .carved same alive derived filled nofun

/-- **Allocations** are of these kinds. -/
theorem Contents.allocate_allocates {t : Thread} {s : State} {a : Allocator} {contents : Contents}
    {allocation : Allocation} (h : contents.allocate t s a = .ok allocation) :
    Allocates t s a allocation := by
  cases contents with
  | bytes size alignment =>
    cases h
    exact a.allocate_allocates t s _ _
  | shape layout =>
    obtain ⟨layout, -, h⟩ := bind_eq_ok.mp h
    cases h
    exact a.allocate_allocates t s _ _
  | array layout count =>
    obtain ⟨layout, -, h⟩ := bind_eq_ok.mp h
    cases h
    exact a.allocateArray_allocates t s _ _
  | value layout v =>
    obtain ⟨layout, -, h⟩ := bind_eq_ok.mp h
    cases h
    exact (a.allocate_allocates t s _ _).fill fun _ _ _ h => .inr (set_wroteAt h).wrote
  | values layout vs =>
    obtain ⟨layout, -, h⟩ := bind_eq_ok.mp h
    cases h
    exact (a.allocateArray_allocates t s _ _).fill fun _ _ _ h => .inr (writeRun_wroteAt h).wrote
  | text content =>
    cases h
    exact (a.allocate_allocates t s _ _).fill fun _ _ _ h => .inr (writeTerminated_wroteAt h).wrote

end ScopedMemory
