import ScopedMemory.Proofs.Obtaining

/-! Allocations, and what is derived from them.

An allocation is a block that some entry of the journal attached, or an array. If the system gives
out memory that is free (`System.Sound`), the blocks of scopes that are alive share no byte, and so
neither do segments that are derived from different allocations (`Derives.disjoint`). A segment that
is derived from an allocation lies inside of it as long as its scope is alive (`Derives.backed`). -/
namespace ScopedMemory

/-! ### Ranges -/

/-- A range that does not wrap around is an interval. -/
theorem Memory.within_iff {start address : Word} {count : Nat}
    (fits : start.toNat + count ≤ Word.limit) :
    within start count address = true ↔
      start.toNat ≤ address.toNat ∧ address.toNat < start.toNat + count := by
  have hstart := Word.toNat_lt start
  have haddress := Word.toNat_lt address
  rw [within, decide_eq_true_eq]
  by_cases hle : start ≤ address
  · have hle' := UInt64.le_iff_toNat_le.mp hle
    rw [UInt64.toNat_sub_of_le _ _ hle]
    omega
  · have hlt : ¬ start.toNat ≤ address.toNat := fun h => hle (UInt64.le_iff_toNat_le.mpr h)
    rw [UInt64.toNat_sub]
    unfold Word.limit at *
    omega

/-- The byte at that address of native memory is one of the block's. -/
def Block.Covers (block : Block) (address : Word) : Prop :=
  Memory.within block.address block.size.toNat address = true

theorem Block.Covers.size_ne {block : Block} {address : Word} (h : block.Covers address) :
    block.size ≠ 0 := by
  intro hzero
  simp [Block.Covers, Memory.within, hzero] at h

/-- What is assumed of the system: a block that it gives out does not wrap around the end of memory,
and shares no byte with a block that was attached and has not been freed. -/
structure System.Sound (system : System) : Prop where
  fits : ∀ journal size alignment start, system.place journal size alignment = some start →
    start.toNat + size.toNat ≤ Word.limit
  disjoint : ∀ journal size alignment start, system.place journal size alignment = some start →
    ∀ id block, ⟨id, .attached block⟩ ∈ journal → ⟨id, .freed block⟩ ∉ journal →
      ∀ address, Block.Covers ⟨start, size⟩ address → ¬ block.Covers address

theorem System.Sound.places_fits {system : System} (h : system.Sound) {journal : List Entry}
    {block : Block} (placed : system.Places journal block) :
    block.address.toNat + block.size.toNat ≤ Word.limit := by
  rcases placed with hzero | ⟨alignment, hplace⟩
  · rw [hzero]
    exact Nat.le_of_lt (Word.toNat_lt block.address)
  · exact h.fits _ _ _ _ hplace

theorem System.Sound.places_disjoint {system : System} (h : system.Sound) {journal : List Entry}
    {block other : Block} {id : ScopeId} (placed : system.Places journal block)
    (attached : ⟨id, .attached other⟩ ∈ journal) (unfreed : ⟨id, .freed other⟩ ∉ journal)
    {address : Word} (hc : block.Covers address) : ¬ other.Covers address := by
  rcases placed with hzero | ⟨alignment, hplace⟩
  · exact absurd hzero hc.size_ne
  · exact h.disjoint _ _ _ _ hplace id other attached unfreed address hc

/-! ### The small native memory -/

namespace System

theorem le_foldl_past (blocks : List Block) (stop : Nat) :
    stop ≤ blocks.foldl past stop ∧ ∀ block ∈ blocks, block.size ≠ 0 →
      block.address.toNat + block.size.toNat ≤ blocks.foldl past stop := by
  induction blocks generalizing stop with
  | nil => exact ⟨Nat.le_refl _, nofun⟩
  | cons first rest ih =>
    obtain ⟨hstop, hrest⟩ := ih (past stop first)
    rw [List.foldl_cons]
    refine ⟨Nat.le_trans ?_ hstop, fun block hblock hsize => ?_⟩
    · rw [past]
      split
      · exact Nat.le_refl _
      · exact Nat.le_max_left _ _
    · rcases List.mem_cons.mp hblock with rfl | hmem
      · rw [past, if_neg hsize] at hstop
        rw [past, if_neg hsize]
        exact Nat.le_trans (Nat.le_max_right _ _) hstop
      · exact hrest block hmem hsize

theorem le_frontier {journal : List Entry} {id : ScopeId} {block : Block}
    (h : ⟨id, .attached block⟩ ∈ journal) (hsize : block.size ≠ 0) :
    block.address.toNat + block.size.toNat ≤ frontier journal :=
  (le_foldl_past _ _).2 block (List.mem_filterMap.mpr ⟨_, h, rfl⟩) hsize

theorem bump_place {journal : List Entry} {size : Word} {alignment : Alignment} {start : Word}
    (h : bump.place journal size alignment = some start) :
    frontier journal ≤ start.toNat ∧ start.toNat + size.toNat ≤ regionStop := by
  simp only [bump] at h
  split at h
  · cases h
  · rename_i hroom
    split at h
    · cases h
    · rename_i found hround
      split at h
      · cases h
      · rename_i hfits
        cases h
        have hword : frontier journal < 2 ^ 64 := by
          have hstop : regionStop < 2 ^ 64 := by decide
          omega
        have hle := Alignment.le_of_roundUp? hround
        rw [UInt64.toNat_ofNat_of_lt' hword] at hle
        exact ⟨hle, by omega⟩

/-- Memory that is never used again is free. -/
theorem bump_sound : bump.Sound where
  fits journal size alignment start h := by
    have hstop : regionStop ≤ Word.limit := by decide
    exact Nat.le_trans (bump_place h).2 hstop
  disjoint journal size alignment start h id block attached _ address hc hc' := by
    have hstop : regionStop ≤ Word.limit := by decide
    obtain ⟨hfrontier, hfits⟩ := bump_place h
    have hblock := le_frontier attached hc'.size_ne
    have hnew := (Memory.within_iff (Nat.le_trans hfits hstop)).mp hc
    have hold := (Memory.within_iff (by omega)).mp hc'
    omega

end System

/-! ### Origins -/

/-- An allocation: the block that this entry of the journal attached, or the array of that
number. -/
inductive Origin where
  | block (entry : Nat)
  | array (number : Nat)
deriving DecidableEq

namespace State

/-- The segment over all of an allocation. -/
inductive Hands (s : State) : Origin → Segment → Prop where
  | block {entry : Nat} {id : ScopeId} {block : Block} :
      s.journal[entry]? = some ⟨id, .attached block⟩ → Hands s (.block entry) (block.segment id)
  | array {number : Nat} {array : HeapArray} (id : ScopeId) : s.arrays[number]? = some array →
      Hands s (.array number) ⟨0, UInt64.ofNat array.byteLength, .heap array, false, id⟩

/-- The segment is derived from the allocation. -/
def Derives (s : State) (origin : Origin) (x : Segment) : Prop :=
  ∃ whole, s.Hands origin whole ∧ whole.Derived x

/-- The segment is derived from an allocation, or it is empty and at any native address. -/
def Rooted (s : State) (x : Segment) : Prop :=
  x.backing = .native ∧ x.size = 0 ∨ ∃ origin, s.Derives origin x

/-- The whole range of the segment lies in one block that is attached to its scope and has not been
freed, or in its array. -/
def Backed (s : State) (x : Segment) : Prop :=
  match x.backing with
  | .native => ∃ block ∈ (s.scope x.scope).blocks, ⟨x.scope, .freed block⟩ ∉ s.journal ∧
      block.address.toNat ≤ x.address.toNat ∧
      x.address.toNat + x.size.toNat ≤ block.address.toNat + block.size.toNat ∧
      block.address.toNat + block.size.toNat ≤ Word.limit
  | .heap array => array ∈ s.arrays ∧ x.address.toNat + x.size.toNat ≤ array.byteLength
  | .mapped _ => False

/-- The journal and the arrays of the one state go on in the other. -/
structure Extends (s s' : State) : Prop where
  journal : s.journal <+: s'.journal
  arrays : ∀ (number : Nat) (array : HeapArray), s.arrays[number]? = some array →
    s'.arrays[number]? = some array

section
variable {s s' s'' : State} {origin : Origin} {x : Segment}

theorem Extends.refl (s : State) : Extends s s := ⟨List.prefix_rfl, fun _ _ h => h⟩

theorem Extends.trans (h : Extends s s') (h' : Extends s' s'') : Extends s s'' :=
  ⟨h.journal.trans h'.journal, fun number array ha =>
    h'.arrays number array (h.arrays number array ha)⟩

theorem Extends.getElem?_journal (h : Extends s s') {index : Nat} {entry : Entry}
    (hentry : s.journal[index]? = some entry) : s'.journal[index]? = some entry := by
  obtain ⟨hlt, rfl⟩ := List.getElem?_eq_some_iff.mp hentry
  exact List.prefix_iff_getElem?.mp h.journal index hlt

theorem Derives.extend (h : s.Derives origin x) (he : Extends s s') : s'.Derives origin x := by
  obtain ⟨whole, hhands, hderived⟩ := h
  refine ⟨whole, ?_, hderived⟩
  cases hhands with
  | block hentry => exact .block (he.getElem?_journal hentry)
  | array id harray => exact .array id (he.arrays _ _ harray)

theorem Rooted.extend (h : s.Rooted x) (he : Extends s s') : s'.Rooted x :=
  h.imp_right fun ⟨origin, hd⟩ => ⟨origin, hd.extend he⟩

/-- An allocation is a block of the segment's scope, or the array behind the segment. -/
theorem Derives.cases (h : s.Derives origin x) :
    (∃ entry block, origin = .block entry ∧ s.journal[entry]? = some ⟨x.scope, .attached block⟩ ∧
      x.PartOf (block.segment x.scope)) ∨
    ∃ number array, origin = .array number ∧ s.arrays[number]? = some array ∧
      x.PartOf ⟨0, UInt64.ofNat array.byteLength, .heap array, false, x.scope⟩ := by
  obtain ⟨whole, hhands, hderived⟩ := h
  have hpart := hderived.partOf
  cases hhands with
  | @block entry id block hentry =>
    have hscope : x.scope = id := hpart.scope
    exact .inl ⟨entry, block, rfl, hscope ▸ hentry, hscope ▸ hpart⟩
  | @array number array id harray =>
    have hscope : x.scope = id := hpart.scope
    exact .inr ⟨number, array, rfl, harray, hscope ▸ hpart⟩

/-- A segment that is derived from an allocation is never mapped. -/
theorem Rooted.unmapped (h : s.Rooted x) : x.backing.isMapped = false := by
  rcases h with ⟨hb, -⟩ | ⟨origin, hd⟩
  · rw [hb]
    rfl
  · rcases hd.cases with ⟨_, _, -, -, hpart⟩ | ⟨_, _, -, -, hpart⟩
    · rw [hpart.backing]
      rfl
    · rw [hpart.backing]
      rfl

/-- What is made from a segment has the segment's origin. -/
theorem Rooted.derive {y : Segment} (h : s.Rooted x) (hd : x.Derived y) : s.Rooted y := by
  rcases h with ⟨hb, hsize⟩ | ⟨origin, whole, hhands, hx⟩
  · have hpart := hd.partOf
    obtain ⟨offset, -, hfits⟩ := hpart.inside
    refine .inl ⟨hpart.backing.trans hb, UInt64.toNat_inj.mp ?_⟩
    rw [hsize] at hfits
    exact Nat.eq_zero_of_le_zero (Nat.le_trans (Nat.le_add_left _ _) hfits)
  · exact .inr ⟨origin, whole, hhands, hx.trans hd⟩

end

/-! ### Blocks of scopes that are alive -/

section
variable {s : State} {id : ScopeId} {block : Block}

theorem mem_history {deed : Deed} : deed ∈ s.history id ↔ ⟨id, deed⟩ ∈ s.journal := by
  rw [history, List.mem_map]
  constructor
  · rintro ⟨⟨scope, deed⟩, hmem, rfl⟩
    obtain ⟨hentry, hscope⟩ := List.mem_filter.mp hmem
    obtain rfl : scope = id := by simpa using hscope
    exact hentry
  · intro hentry
    exact ⟨_, List.mem_filter.mpr ⟨hentry, by simp⟩, rfl⟩

theorem Sound.open_of_alive (hs : Sound s) (h : s.isAlive id = true) : s.Open id := by
  refine (hs.phases id).resolve_left fun hclosed => ?_
  simp [isAlive, Scope.isAlive, hclosed] at h

/-- Whatever was attached to an open scope is attached to it still. -/
theorem Open.mem_blocks (h : s.Open id) (attached : ⟨id, .attached block⟩ ∈ s.journal) :
    block ∈ (s.scope id).blocks := by
  obtain ⟨-, gains, hg⟩ := h
  have hmem := mem_history.mpr attached
  rw [hg.history, List.mem_cons] at hmem
  rw [hg.blocks, List.mem_filterMap]
  exact ⟨_, hmem.resolve_left nofun, rfl⟩

theorem Open.attached (h : s.Open id) (hb : block ∈ (s.scope id).blocks) :
    ⟨id, .attached block⟩ ∈ s.journal := by
  obtain ⟨-, gains, hg⟩ := h
  rw [hg.blocks, List.mem_filterMap] at hb
  obtain ⟨deed, hdeed, hblock⟩ := hb
  apply mem_history.mp
  rw [hg.history, List.mem_cons]
  cases deed with
  | attached b =>
    cases hblock
    exact .inr hdeed
  | _ => cases hblock

/-- Nothing of an open scope has been freed. -/
theorem Open.not_freed (h : s.Open id) : ⟨id, .freed block⟩ ∉ s.journal := by
  intro hfreed
  obtain ⟨-, gains, hg⟩ := h
  have hmem := mem_history.mpr hfreed
  rw [hg.history, List.mem_cons] at hmem
  exact absurd (hg.accepted _ (hmem.resolve_left nofun)) nofun

theorem Sound.places (hs : Sound s) {entry : Nat}
    (h : s.journal[entry]? = some ⟨id, .attached block⟩) :
    s.system.Places (s.journal.take entry) block := by
  obtain ⟨hlt, hentry⟩ := List.getElem?_eq_some_iff.mp h
  refine hs.lawful (s.journal.take entry) id (.attached block) (s.journal.drop (entry + 1)) ?_
  rw [← hentry, List.getElem_cons_drop, List.take_append_drop]

/-- A block shares no byte with one that was attached before, whose scope is alive still. -/
theorem Sound.disjoint_of_lt (hs : Sound s) (system : s.system.Sound) {entry entry' : Nat}
    {id' : ScopeId} {block' : Block} (hlt : entry < entry')
    (h : s.journal[entry]? = some ⟨id, .attached block⟩)
    (h' : s.journal[entry']? = some ⟨id', .attached block'⟩) (alive : s.isAlive id = true)
    {address : Word} (hc : block'.Covers address) : ¬ block.Covers address := by
  obtain ⟨hentry, heq⟩ := List.getElem?_eq_some_iff.mp h
  have hentry' := (List.getElem?_eq_some_iff.mp h').1
  have hattached : ⟨id, .attached block⟩ ∈ s.journal.take entry' :=
    List.mem_take_iff_getElem.mpr ⟨entry, by omega, heq⟩
  exact system.places_disjoint (hs.places h') hattached
    (fun hfreed => (hs.open_of_alive alive).not_freed (List.mem_of_mem_take hfreed)) hc

/-- **Blocks of scopes that are alive share no byte.** -/
theorem Sound.disjoint (hs : Sound s) (system : s.system.Sound) {entry entry' : Nat}
    {id' : ScopeId} {block' : Block} (hne : entry ≠ entry')
    (h : s.journal[entry]? = some ⟨id, .attached block⟩)
    (h' : s.journal[entry']? = some ⟨id', .attached block'⟩) (alive : s.isAlive id = true)
    (alive' : s.isAlive id' = true) {address : Word} (hc : block.Covers address) :
    ¬ block'.Covers address := by
  rcases Nat.lt_or_gt_of_ne hne with hlt | hgt
  · exact fun hc' => hs.disjoint_of_lt system hlt h h' alive hc' hc
  · exact hs.disjoint_of_lt system hgt h' h alive' hc

end

/-! ### Segments of scopes that are alive -/

/-- Every array has its own number. -/
def Numbered (s : State) : Prop :=
  ∀ (number : Nat) (array : HeapArray), s.arrays[number]? = some array → array.id = number

section
variable {s : State} {origin origin' : Origin} {x y : Segment}

/-- **Segments that are derived from different allocations share no byte.** -/
theorem Derives.disjoint (hs : Sound s) (system : s.system.Sound) (numbered : Numbered s)
    (hx : s.Derives origin x) (hy : s.Derives origin' y) (hne : origin ≠ origin')
    (alive : s.isAlive x.scope = true) (alive' : s.isAlive y.scope = true) {space : Space}
    {address : Word} (hc : x.Covers space address) : ¬ y.Covers space address := by
  intro hc'
  rcases hx.cases with ⟨entry, block, rfl, hentry, hpart⟩ | ⟨number, array, rfl, harray, hpart⟩
  · have hcovers := hpart.covers hc
    rcases hy.cases with ⟨entry', block', rfl, hentry', hpart'⟩ | ⟨number', array', rfl, -, hpart'⟩
    · have hcovers' := hpart'.covers hc'
      have hentries : entry ≠ entry' := fun h => hne (by rw [h])
      exact hs.disjoint system hentries hentry hentry' alive alive' hcovers.2 hcovers'.2
    · exact absurd (hcovers.1.symm.trans (hpart'.covers hc').1) nofun
  · have hspace := (hpart.covers hc).1
    rcases hy.cases with ⟨entry', block', rfl, -, hpart'⟩ | ⟨number', array', rfl, harray', hpart'⟩
    · exact absurd (hspace.symm.trans (hpart'.covers hc').1) nofun
    · have hsame := Space.array.inj (hspace.symm.trans (hpart'.covers hc').1)
      rw [numbered _ _ harray, numbered _ _ harray'] at hsame
      exact hne (by rw [hsame])

/-- **A segment lies inside of its allocation** as long as its scope is alive. -/
theorem Derives.backed (hs : Sound s) (system : s.system.Sound) (hx : s.Derives origin x)
    (alive : s.isAlive x.scope = true) (hsize : x.size ≠ 0) : s.Backed x := by
  have hpositive : 0 < x.size.toNat :=
    Nat.pos_of_ne_zero fun hzero => hsize (UInt64.toNat_inj.mp hzero)
  rcases hx.cases with ⟨entry, block, -, hentry, hpart⟩ | ⟨number, array, -, harray, hpart⟩
  · have hopen := hs.open_of_alive alive
    have hfits := system.places_fits (hs.places hentry)
    obtain ⟨offset, haddress, hinside⟩ := hpart.inside
    have hx : x.address.toNat = block.address.toNat + offset.toNat := by
      rw [haddress]
      show (block.address + offset).toNat = _
      have hinside' : offset.toNat + x.size.toNat ≤ block.size.toNat := hinside
      rw [UInt64.toNat_add, Nat.mod_eq_of_lt]
      unfold Word.limit at hfits
      omega
    have hinside' : offset.toNat + x.size.toNat ≤ block.size.toNat := hinside
    have hnative : x.backing = .native := hpart.backing
    simp only [Backed, hnative]
    exact ⟨block, hopen.mem_blocks (List.mem_of_getElem? hentry), hopen.not_freed, by omega,
      by omega, hfits⟩
  · obtain ⟨offset, haddress, hinside⟩ := hpart.inside
    have hheap : x.backing = .heap array := hpart.backing
    have hzero : x.address = offset := haddress.trans (UInt64.zero_add offset)
    have hlength : (UInt64.ofNat array.byteLength).toNat ≤ array.byteLength := by
      rw [UInt64.toNat_ofNat']
      exact Nat.mod_le _ _
    simp only [Backed, hheap]
    refine ⟨Array.mem_of_getElem? harray, ?_⟩
    rw [hzero]
    exact Nat.le_trans hinside hlength

end

end State

end ScopedMemory
