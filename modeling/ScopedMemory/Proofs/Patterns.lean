import ScopedMemory.Proofs.Comparison

/-! Known contents, in native memory and in arrays.

A rule gives a byte for each index (`Bytes.upTo`). Native memory is filled with these bytes; an
array gets them as bytes, or as words that are put together from eight of them each. Both show the
bytes of the rule (`State.Shows`), and making the one leaves the other as it is. So a comparison of
the two finds nothing before one of them ends. -/
namespace ScopedMemory

/-! ### Bytes by index -/

namespace Bytes
variable {byteAt : Word → UInt8} {fewer count : Nat} {xs ys : List UInt8}

/-- The first `count` bytes of a rule. -/
def upTo (byteAt : Word → UInt8) (count : Nat) : List UInt8 :=
  (List.range count).map fun i => byteAt (UInt64.ofNat i)

@[simp] theorem length_upTo (byteAt : Word → UInt8) (count : Nat) :
    (upTo byteAt count).length = count := by
  simp [upTo]

theorem getElem?_upTo {i : Word} (h : i.toNat < count) :
    (upTo byteAt count)[i.toNat]? = some (byteAt i) := by
  simp [upTo, h]

theorem upTo_isPrefix (byteAt : Word → UInt8) (h : fewer ≤ count) :
    upTo byteAt fewer <+: upTo byteAt count := by
  apply List.IsPrefix.map
  rw [← Nat.add_sub_cancel' h, List.range_add]
  exact List.prefix_append _ _

/-- Bytes can be listed in groups of one size. -/
theorem flatMap_upTo (byteAt : Word → UInt8) (groups size : Nat) :
    ((List.range groups).flatMap fun group =>
      (List.range size).map fun i => byteAt (UInt64.ofNat (group * size + i))) =
        upTo byteAt (groups * size) := by
  induction groups with
  | zero => simp [upTo]
  | succ groups ih =>
    rw [List.range_succ, List.flatMap_append, ih, List.flatMap_singleton, Nat.succ_mul, upTo, upTo,
      List.range_add, List.map_append, List.map_map]
    rfl

/-- A list differs from a longer one that begins with it where it ends. -/
theorem mismatch?_of_isPrefix (h : ys <+: xs) :
    mismatch? xs ys = if ys.length = xs.length then none else some ys.length := by
  by_cases hlength : ys.length = xs.length
  · rw [if_pos hlength, mismatch?_eq_none]
    exact (h.eq_of_length hlength).symm
  · have hne : xs ≠ ys := fun heq => hlength (congrArg List.length heq).symm
    have hfront := (longestFront_take xs ys).longest ys h List.prefix_rfl
    have hle := hfront.length_le
    rw [List.length_take] at hle
    have hmost := (commonLength_le xs ys).2
    rw [if_neg hlength, mismatch?, if_neg hne]
    exact congrArg some (by omega)

end Bytes

theorem length_countingBytes (count : Nat) : (countingBytes count).length = count := by
  simp [countingBytes]

theorem countingBytes_eq : countingBytes = Bytes.upTo UInt64.toUInt8 := by
  funext count
  apply List.map_congr_left
  intro i _
  apply UInt8.toNat_inj.mp
  simp only [UInt64.toNat_toUInt8, UInt64.toNat_ofNat', UInt8.toNat_ofNat']
  omega

/-! ### What a segment shows -/

namespace State
variable {s s' : State} {t : Thread} {x y : Segment} {bytes bytes' : List UInt8}

/-- The thread is let in and finds these bytes, which are all that the segment has. -/
structure Shows (s : State) (t : Thread) (x : Segment) (bytes : List UInt8) : Prop where
  entered : s.checkEntry t x.scope = .ok ()
  whole : x.size.toNat = bytes.length
  held : s.bytesAt x 0 x.size.toNat = bytes

/-- Each byte of the segment can be read, and is what the rule gives for its index. -/
def Spells (s : State) (t : Thread) (x : Segment) (byteAt : Word → UInt8) : Prop :=
  ∀ i < x.size, s.get t x byteLayout i = .ok (byteAt i)

theorem Shows.get (h : s.Shows t x bytes) {i : Word} {byte : UInt8}
    (found : bytes[i.toNat]? = some byte) : s.get t x byteLayout i = .ok byte := by
  obtain ⟨hi, -⟩ := List.getElem?_eq_some_iff.mp found
  have hfits : i.toNat + Carrier.ubyte.width.toNat ≤ x.size.toNat := by
    rw [h.whole]
    exact hi
  have hread : s.bytesAt x i Carrier.ubyte.size = [byte] := by
    rw [← h.held, bytesAt, Memory.bytes, List.getElem?_map,
      List.getElem?_range (h.whole ▸ hi), Option.map_some, UInt64.ofNat_toNat, UInt64.add_zero] at found
    show [s.memory.read x.space (x.address + i + UInt64.ofNat 0)] = [byte]
    rw [← Option.some.inj found]
    exact congrArg (fun place => [s.memory.read x.space place]) (UInt64.add_zero _)
  refine bind_eq_ok.mpr ⟨(), check_bytes h.entered hfits rfl, ?_⟩
  have hdecode := Carrier.decode_encode (c := .ubyte) byteLayout.order byte
  rw [Carrier.encode_ubyte] at hdecode
  rw [hread]
  exact congrArg Except.ok hdecode

theorem Shows.spells {byteAt : Word → UInt8} {count : Nat}
    (h : s.Shows t x (Bytes.upTo byteAt count)) : s.Spells t x byteAt := by
  intro i hi
  have hcount : i.toNat < count := by
    rw [← Bytes.length_upTo byteAt count, ← h.whole]
    exact UInt64.lt_iff_toNat_lt.mp hi
  exact h.get (Bytes.getElem?_upTo hcount)

/-- Segments are compared by what they show. -/
theorem Shows.mismatch (hx : s.Shows t x bytes) (hy : s.Shows t y bytes') :
    s.mismatch t x y = .ok ((Bytes.mismatch? bytes bytes').map UInt64.ofNat) := by
  have hall : ∀ z : Segment, rangeLength z 0 z.size = .ok z.size := by
    intro z
    have hrest : z.size.sub? 0 = some z.size := Word.sub?_eq_some_iff.mpr (Nat.zero_add _)
    rw [rangeLength, hrest]
  have hfits : ∀ z : Segment, (0 : Word).toNat + z.size.toNat ≤ z.size.toNat :=
    fun z => Nat.le_of_eq (Nat.zero_add _)
  rw [State.mismatch, mismatchRange_checked (hall x) (hall y) (check_bytes hx.entered (hfits x) rfl)
    (check_bytes hy.entered (hfits y) rfl), hx.held, hy.held]

/-- What was shown is still shown as long as its part of memory is the same. -/
theorem Shows.frame (h : s.Shows t x bytes)
    (entry : s'.checkEntry t x.scope = s.checkEntry t x.scope)
    (same : ∀ address, s'.memory.read x.space address = s.memory.read x.space address) :
    s'.Shows t x bytes := by
  refine ⟨entry.trans h.entered, h.whole, ?_⟩
  rw [← h.held]
  apply List.map_congr_left
  intro i _
  exact same _

/-! ### Arrays -/

section
variable {c : Carrier} {values : List c.Value}

/-- The scope of a new array lets everyone in, and the others let in whom they did. -/
theorem checkEntry_newArray (values : List c.Value) (id : ScopeId) :
    (s.newArray c values).2.checkEntry t id = s.checkEntry t id := by
  by_cases hid : id = s.scopes.size
  · have hbefore : s.scope id = { discipline := .global, phase := .closed } :=
      scope_of_size_le (Nat.le_of_eq hid.symm)
    have hafter : (s.newArray c values).2.scope id = { discipline := .global } := by
      rw [hid]
      exact scope_push_self s _
    simp only [checkEntry, hbefore, hafter]
  · have hscope : (s.newArray c values).2.scope id = s.scope id := scope_push_other s _ hid
    exact checkEntry_congr (by rw [hscope]) (by rw [hscope])

/-- A new array shows the bytes of its values. -/
theorem shows_newArray (short : values.length * c.size < Word.limit) :
    (s.newArray c values).2.Shows t (s.newArray c values).1 (c.encodeAll .native values) := by
  have hsize : (s.newArray c values).1.size.toNat = (c.encodeAll .native values).length := by
    rw [length_encodeAll]
    exact UInt64.toNat_ofNat_of_lt' short
  refine ⟨?_, hsize, ?_⟩
  · have hscope : s.scope s.scopes.size = { discipline := .global, phase := .closed } :=
      scope_of_size_le (Nat.le_refl _)
    rw [checkEntry_newArray]
    show s.checkEntry t s.scopes.size = .ok ()
    simp only [checkEntry, hscope]
  · rw [hsize]
    apply Memory.bytes_write
    rw [length_encodeAll]
    exact Nat.le_of_lt short

theorem Shows.newArray (h : s.Shows t x bytes) (values : List c.Value)
    (native : x.space = .native) : (s.newArray c values).2.Shows t x bytes := by
  have hother : x.space ≠ .array s.arrays.size := by simp [native]
  apply h.frame (checkEntry_newArray values x.scope)
  intro address
  exact (Memory.read_write ..).trans (if_neg hother)

end

/-- Words put together from eight bytes each. -/
def packed (byteAt : Word → UInt8) (count : Nat) : List (Carrier.Value .ulong) :=
  (List.range count).map fun w => Carrier.decode .ulong .native
    ((List.range 8).map fun j => byteAt (UInt64.ofNat (w * 8 + j)))

theorem length_packed (byteAt : Word → UInt8) (count : Nat) : (packed byteAt count).length = count := by
  simp [packed]

/-- The words are stored as the bytes that they were put together from. -/
theorem encodeAll_packed (byteAt : Word → UInt8) (count : Nat) :
    Carrier.encodeAll .ulong .native (packed byteAt count) = Bytes.upTo byteAt (count * 8) := by
  have hword : ∀ bytes : List UInt8, bytes.length = 8 →
      Carrier.encode .ulong .native (Carrier.decode .ulong .native bytes) = bytes :=
    fun bytes whole => Carrier.encode_decode (by decide) .native whole
  rw [← Bytes.flatMap_upTo, Carrier.encodeAll, packed, List.flatMap_map]
  apply List.flatMap_congr
  intro w _
  apply hword
  simp

theorem patternedArray_eq (s : State) (length seed : Word) : s.patternedArray length seed =
    s.newArray .ulong (packed (patternByte · seed) (length / 8).toNat) := rfl

theorem shows_patternedArray (s : State) (t : Thread) (length seed : Word) :
    (s.patternedArray length seed).2.Shows t (s.patternedArray length seed).1
      (Bytes.upTo (patternByte · seed) (8 * (length.toNat / 8))) := by
  have hcount : (length / 8).toNat = length.toNat / 8 := UInt64.toNat_div length 8
  have hshort : (length / 8).toNat * Carrier.ulong.size < Word.limit := by
    rw [hcount]
    exact Nat.lt_of_le_of_lt (Nat.div_mul_le_self _ 8) (Word.toNat_lt length)
  rw [patternedArray_eq, Nat.mul_comm, ← hcount, ← encodeAll_packed]
  apply shows_newArray
  rw [length_packed]
  exact hshort

theorem shows_countingArray (s : State) (t : Thread) (length : Word) :
    (s.countingArray length.toNat).2.Shows t (s.countingArray length.toNat).1
      (Bytes.upTo UInt64.toUInt8 length.toNat) := by
  rw [← countingBytes_eq, ← Carrier.encodeAll_ubyte .native (countingBytes length.toNat)]
  apply shows_newArray
  show (countingBytes length.toNat).length * 1 < Word.limit
  rw [length_countingBytes, Nat.mul_one]
  exact Word.toNat_lt length

/-! ### Native memory -/

/-- A scope that gets a block lets in whom it did. -/
theorem Allots.checkEntry_eq {id : ScopeId} {block : Block} (h : Allots s id block s')
    (other : ScopeId) : s'.checkEntry t other = s.checkEntry t other := by
  obtain ⟨memory, events, rfl, -⟩ := h.made
  have hkept : ((s.gainBlock id block).scope other).discipline = (s.scope other).discipline ∧
      ((s.gainBlock id block).scope other).phase = (s.scope other).phase := by
    by_cases hid : other = id
    · have halive : (s.scope id).phase ≠ .closed := by
        intro hclosed
        have hopen := h.alive
        simp [isAlive, Scope.isAlive, hclosed] at hopen
      have hscope : (s.gainBlock id block).scope id = _ :=
        scope_modifyScope_self _ (lt_size_of_phase halive)
      rw [hid, hscope]
      exact ⟨rfl, rfl⟩
    · have hscope : (s.gainBlock id block).scope other = s.scope other :=
        scope_modifyScope_other _ hid
      rw [hscope]
      exact ⟨rfl, rfl⟩
  exact checkEntry_congr hkept.1 hkept.2

/-- A run of bytes that fills a segment is shown. -/
theorem shows_of_writeRun (h : s.writeRun t x byteLayout 0 bytes = .ok s')
    (whole : bytes.length = x.size.toNat) : s'.Shows t x bytes := by
  have hentry := (writeBytes_wroteAt h).entered
  obtain ⟨run, -, h⟩ := bind_eq_ok.mp h
  obtain ⟨⟨⟩, -, h⟩ := bind_eq_ok.mp h
  obtain rfl := pure_eq_ok.mp h
  refine ⟨hentry, whole.symm, ?_⟩
  rw [Carrier.encodeAll_ubyte, ← whole]
  apply bytesAt_store
  rw [whole]
  exact Nat.le_of_lt (Word.toNat_lt x.size)

section
variable {arena : Arena} {length alignment : Word}

/-- What an arena has just handed out can be written. -/
theorem writeRun_of_allocate (h : arena.allocate t s length alignment = .ok (x, s'))
    (whole : bytes.length = length.toNat) :
    ∃ s'', s'.writeRun t x byteLayout 0 bytes = .ok s'' := by
  obtain ⟨_, -, hallots⟩ := allocate_allots h
  obtain ⟨a, block, s₀, -, hentry, -, -, rfl, -⟩ := allocate_steps h
  have hentered : s'.checkEntry t arena.scope = .ok () :=
    (hallots.checkEntry_eq arena.scope).trans hentry
  have hlength : runLength .ubyte ⟨block.address, length, .native, false, arena.scope⟩ 0
      bytes.length = .ok length := by
    show (if bytes.length * 1 < Word.limit then Except.ok (UInt64.ofNat (bytes.length * 1))
      else .error _) = .ok length
    rw [whole, Nat.mul_one, if_pos (Word.toNat_lt length), UInt64.ofNat_toNat]
  refine ⟨_, bind_eq_ok.mpr ⟨length, hlength, bind_eq_ok.mpr ⟨(), ?_, rfl⟩⟩⟩
  exact check_bytes hentered (Nat.le_of_eq (Nat.zero_add _)) rfl

/-- **Bytes that count up** may as well be written all at once. -/
theorem counting_eq (s : State) (t : Thread) (arena : Arena) (length : Word) :
    s.counting t arena length = s.filled t arena length 8 fun s x =>
      s.writeRun t x byteLayout 0 (countingBytes length.toNat) := by
  unfold counting filled
  cases hallocate : arena.allocate t s length 8 with
  | error e => rfl
  | ok made =>
    obtain ⟨s', hwrite⟩ := writeRun_of_allocate hallocate (length_countingBytes length.toNat)
    have hset := setEach_of_writeRun (by decide) hwrite
    exact congrArg (fun written => liftAccess written >>= fun s => pure (made.1, s))
      (hset.trans hwrite.symm)

/-- **What an arena was asked to hold is shown**, and is never too much for an array. -/
theorem filled_shows (h : s.filled t arena length alignment
      (fun s x => s.writeRun t x byteLayout 0 bytes) = .ok (x, s'))
    (whole : bytes.length = length.toNat) :
    s'.Shows t x bytes ∧ x.size = length ∧ x.space = .native ∧ length.toNat < 1 <<< 63 := by
  obtain ⟨⟨y, s₁⟩, hallocate, h⟩ := bind_eq_ok.mp h
  obtain ⟨s₂, hwrite, h⟩ := bind_eq_ok.mp h
  obtain ⟨rfl, rfl⟩ := Prod.mk.inj (pure_eq_ok.mp h)
  obtain ⟨a, block, s₀, -, -, hreserve, -, rfl, rfl⟩ := allocate_steps hallocate
  have hpositive : 0 < a.bytes.toNat := by
    rw [a.toNat_bytes, Nat.one_shiftLeft]
    exact Nat.two_pow_pos _
  have hdescribable := reserve_describable hreserve
  exact ⟨shows_of_writeRun (liftAccess_eq_ok.mp hwrite) whole, rfl, rfl, by omega⟩

theorem patterned_shows {seed : Word} (h : s.patterned t arena length seed = .ok (x, s')) :
    s'.Shows t x (Bytes.upTo (patternByte · seed) length.toNat) ∧ x.size = length ∧
      x.space = .native ∧ length.toNat < 1 <<< 63 :=
  filled_shows h (Bytes.length_upTo _ _)

theorem counting_shows (h : s.counting t arena length = .ok (x, s')) :
    s'.Shows t x (Bytes.upTo UInt64.toUInt8 length.toNat) ∧ x.size = length ∧
      x.space = .native ∧ length.toNat < 1 <<< 63 := by
  rw [counting_eq, countingBytes_eq] at h
  exact filled_shows h (Bytes.length_upTo _ _)

/-- Nothing is written to an array when an arena is asked for memory. -/
theorem Shows.filled (h : s.Shows t x bytes) {id : Nat} (array : x.space = .array id)
    {fill : State → Segment → Except AccessError State}
    (made : s.filled t arena length alignment fill = .ok (y, s'))
    (writes : ∀ {s x s'}, fill s x = .ok s' → Writes x s s') : s'.Shows t x bytes := by
  obtain ⟨block, rfl, hallots⟩ := filled_allots made writes
  apply h.frame (hallots.checkEntry_eq x.scope)
  obtain ⟨memory, events, rfl, hsame⟩ := hallots.made
  intro address
  apply hsame
  intro hcovers
  have hnative : x.space = .native := hcovers.1
  simp [array] at hnative

/-- To count up is to set byte after byte. -/
theorem counting_setEach (h : s.counting t arena length = .ok (x, s')) :
    ∃ s₁, arena.allocate t s length 8 = .ok (x, s₁) ∧
      s₁.setEach t x byteLayout 0 (countingBytes length.toNat) = .ok s' := by
  obtain ⟨⟨y, s₁⟩, hallocate, h⟩ := bind_eq_ok.mp h
  obtain ⟨s₂, hwrite, h⟩ := bind_eq_ok.mp h
  obtain ⟨rfl, rfl⟩ := Prod.mk.inj (pure_eq_ok.mp h)
  exact ⟨s₁, hallocate, liftAccess_eq_ok.mp hwrite⟩

end

/-! ### Both -/

/-- Native memory and an array follow one rule, and this is what their comparison answers, whichever
of them comes first. -/
structure Matched (s : State) (t : Thread) (x y : Segment) (byteAt : Word → UInt8)
    (answer : Option Word) : Prop where
  native : s.Spells t x byteAt
  array : s.Spells t y byteAt
  compared : s.mismatch t x y = .ok answer
  swapped : s.mismatch t y x = .ok answer

theorem Shows.matched {byteAt : Word → UInt8} {fewer count : Nat}
    (hx : s.Shows t x (Bytes.upTo byteAt count)) (hy : s.Shows t y (Bytes.upTo byteAt fewer))
    (h : fewer ≤ count) :
    s.Matched t x y byteAt (if fewer = count then none else some y.size) := by
  have hsize : UInt64.ofNat fewer = y.size := by
    rw [← UInt64.ofNat_toNat (x := y.size), hy.whole, Bytes.length_upTo]
  have hdiffer := Bytes.mismatch?_of_isPrefix (Bytes.upTo_isPrefix byteAt h)
  rw [Bytes.length_upTo, Bytes.length_upTo] at hdiffer
  have hanswer : (Bytes.mismatch? (Bytes.upTo byteAt count) (Bytes.upTo byteAt fewer)).map
      UInt64.ofNat = if fewer = count then none else some y.size := by
    rw [hdiffer, ← hsize]
    split <;> rfl
  refine ⟨hx.spells, hy.spells, ?_, ?_⟩
  · rw [hx.mismatch hy, hanswer]
  · rw [hy.mismatch hx, Bytes.mismatch?_comm, hanswer]

theorem Shows.size_eq {byteAt : Word → UInt8} {length : Word}
    (h : s.Shows t x (Bytes.upTo byteAt length.toNat)) : x.size = length :=
  UInt64.toNat_inj.mp (h.whole.trans (Bytes.length_upTo byteAt _))

theorem Shows.matched_whole {byteAt : Word → UInt8} {length : Word}
    (hx : s.Shows t x (Bytes.upTo byteAt length.toNat))
    (hy : s.Shows t y (Bytes.upTo byteAt length.toNat)) :
    y.size = length ∧ s.Matched t x y byteAt none := by
  have hmatched := hx.matched hy (Nat.le_refl _)
  rw [if_pos rfl] at hmatched
  exact ⟨hy.size_eq, hmatched⟩

/-- As much of a rule as there are whole words. -/
theorem Shows.matched_words {byteAt : Word → UInt8} {length : Word}
    (hx : s.Shows t x (Bytes.upTo byteAt length.toNat))
    (hy : s.Shows t y (Bytes.upTo byteAt (8 * (length.toNat / 8)))) :
    y.size.toNat = 8 * (length.toNat / 8) ∧
      s.Matched t x y byteAt (if 8 ∣ length.toNat then none else some y.size) := by
  refine ⟨hy.whole.trans (Bytes.length_upTo byteAt _), ?_⟩
  have hwhole : 8 * (length.toNat / 8) = length.toNat ↔ 8 ∣ length.toNat := by omega
  have hmatched := hx.matched hy (Nat.mul_div_le length.toNat 8)
  simp only [hwhole] at hmatched
  exact hmatched

/-- **Known contents agree across backings**, whichever is made first. Comparing an arena's bytes
with the array of words finds no difference, or the end of the words if they do not make up the
whole length. Bytes that count up are set one after the other, and never differ. -/
theorem patterns_agree (s : State) (t : Thread) (arena : Arena) (length seed : Word) :
    (∀ n s₁, s.patterned t arena length seed = .ok (n, s₁) →
      n.size = length ∧ s₁.Spells t n (patternByte · seed) ∧
      ∃ heap s₂, (Making.patternedArray length seed).make t s₁ = .ok (heap, s₂) ∧
        heap.size.toNat = 8 * (length.toNat / 8) ∧
        s₂.Matched t n heap (patternByte · seed)
          (if 8 ∣ length.toNat then none else some heap.size)) ∧
    (∀ heap s₁, (Making.patternedArray length seed).make t s = .ok (heap, s₁) →
      heap.size.toNat = 8 * (length.toNat / 8) ∧ s₁.Spells t heap (patternByte · seed) ∧
      ∀ n s₂, s₁.patterned t arena length seed = .ok (n, s₂) → n.size = length ∧
        s₂.Matched t n heap (patternByte · seed)
          (if 8 ∣ length.toNat then none else some heap.size)) ∧
    (∀ n s₁, s.counting t arena length = .ok (n, s₁) →
      (∃ s₀, arena.allocate t s length 8 = .ok (n, s₀) ∧
        s₀.setEach t n byteLayout 0 (countingBytes length.toNat) = .ok s₁) ∧
      n.size = length ∧
      ∃ heap s₂, (Making.countingArray length).make t s₁ = .ok (heap, s₂) ∧ heap.size = length ∧
        s₂.Matched t n heap UInt64.toUInt8 none) ∧
    ∀ heap s₁, (Making.countingArray length).make t s = .ok (heap, s₁) → heap.size = length ∧
      ∀ n s₂, s₁.counting t arena length = .ok (n, s₂) → n.size = length ∧
        s₂.Matched t n heap UInt64.toUInt8 none := by
  refine ⟨?_, ?_, ?_, ?_⟩
  · intro n s₁ hn
    obtain ⟨hshows, hsize, hspace, hbound⟩ := patterned_shows hn
    have hfits : (length / 8).toNat * 8 < 1 <<< 63 := by
      rw [UInt64.toNat_div]
      exact Nat.lt_of_le_of_lt (Nat.div_mul_le_self _ 8) hbound
    have hframe := hshows.newArray (packed (patternByte · seed) (length / 8).toNat) hspace
    refine ⟨hsize, hshows.spells, _, _, bind_eq_ok.mpr ⟨(), if_pos hfits, rfl⟩, ?_⟩
    exact hframe.matched_words (shows_patternedArray s₁ t length seed)
  · intro heap s₁ hheap
    obtain ⟨⟨⟩, -, hheap⟩ := bind_eq_ok.mp hheap
    cases pure_eq_ok.mp hheap
    have hshows := shows_patternedArray s t length seed
    refine ⟨hshows.whole.trans (Bytes.length_upTo _ _), hshows.spells, ?_⟩
    intro n s₂ hn
    obtain ⟨hn', hsize, -⟩ := patterned_shows hn
    exact ⟨hsize, (hn'.matched_words (hshows.filled rfl hn fun h =>
      (writeRun_wroteAt h).wrote.writes)).2⟩
  · intro n s₁ hn
    obtain ⟨hshows, hsize, hspace, hbound⟩ := counting_shows hn
    have hframe := hshows.newArray (c := .ubyte) (countingBytes length.toNat) hspace
    refine ⟨counting_setEach hn, hsize, _, _, bind_eq_ok.mpr ⟨(), if_pos hbound, rfl⟩, ?_⟩
    exact hframe.matched_whole (shows_countingArray s₁ t length)
  · intro heap s₁ hheap
    obtain ⟨⟨⟩, -, hheap⟩ := bind_eq_ok.mp hheap
    cases pure_eq_ok.mp hheap
    have hshows := shows_countingArray s t length
    refine ⟨hshows.size_eq, ?_⟩
    intro n s₂ hn
    obtain ⟨hn', hsize, -⟩ := counting_shows hn
    exact ⟨hsize, (hn'.matched_whole (hshows.filled rfl hn setEach_writes)).2⟩

/-- Thirteen bytes of an arena differ from the one word that fits into them where it ends. -/
theorem patterns_agree_lent :
    ∃ n heap s₁ s₂, lent.patterned 0 ⟨0, 1, {}, false⟩ 13 7 = .ok (n, s₁) ∧
      (Making.patternedArray 13 7).make 0 s₁ = .ok (heap, s₂) ∧ heap.size.toNat = 8 ∧
      s₂.Matched 0 n heap (patternByte · 7) (some heap.size) := by
  have hmade : (lent.patterned 0 ⟨0, 1, {}, false⟩ 13 7).isOk = true := by decide +kernel
  cases hn : lent.patterned 0 ⟨0, 1, {}, false⟩ 13 7 with
  | error e =>
    rw [hn] at hmade
    cases hmade
  | ok made =>
    obtain ⟨-, -, heap, s₂, hheap, hsize, hmatched⟩ :=
      (patterns_agree lent 0 ⟨0, 1, {}, false⟩ 13 7).1 made.1 made.2 hn
    exact ⟨made.1, heap, made.2, s₂, rfl, hheap, hsize, hmatched⟩

end State

end ScopedMemory
