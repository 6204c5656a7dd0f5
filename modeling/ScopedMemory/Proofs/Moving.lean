import ScopedMemory.Bulk

/-! Moving bytes one at a time.

A byte that is stored where another one is still to be read would be lost. Bytes can be moved in any
order in which none is (`Memory.read_moveEach`). Forwards is such an order when the target lies
lower, backwards is one when it does not (`Memory.read_move`). -/
namespace ScopedMemory.Memory

section
variable {m : Memory} {space : Space} {start : Word} {buffer : Array UInt8}

theorem eq_of_read {m m' : Memory} (h : ∀ place address, m.read place address = m'.read place address) :
    m = m' :=
  congrArg Memory.mk (funext fun place => funext fun address => h place address)

theorem read_splice (m : Memory) (space : Space) (start : Word) (buffer : Array UInt8)
    (place : Space) (address : Word) :
    (m.splice space start buffer).read place address =
      if place = space then (buffer[(address - start).toNat]?).getD (m.read place address)
      else m.read place address := by
  rw [splice, read_overlay]
  by_cases hplace : place = space
  · by_cases hin : (address - start).toNat < buffer.size
    · simp [within, hplace, hin]
    · simp [within, hplace, hin]
  · simp [hplace]

/-- A byte of the buffer is one byte of the memory. -/
theorem read_splice_set (i : Nat) (byte : UInt8) (place : Space) (address : Word) :
    (m.splice space start (buffer.setIfInBounds i byte)).read place address =
      if place = space ∧ i < buffer.size ∧ (address - start).toNat = i then byte
      else (m.splice space start buffer).read place address := by
  rw [read_splice, read_splice, Array.getElem?_setIfInBounds]
  by_cases hplace : place = space
  · by_cases hi : i = (address - start).toNat
    · subst hi
      by_cases hin : (address - start).toNat < buffer.size
      · simp [hplace, hin]
      · simp [hplace, hin]
    · simp [hplace, hi, Ne.symm hi]
  · simp [hplace]

/-- A buffer of what a range holds changes nothing. -/
theorem splice_bytes (m : Memory) (space : Space) (start : Word) (count : Nat) :
    m.splice space start (m.bytes space start count).toArray = m := by
  refine eq_of_read fun place address => ?_
  rw [read_splice]
  by_cases hplace : place = space
  · by_cases hin : (address - start).toNat < count
    · have hback : start + (address - start) = address := by grind
      simp [hplace, bytes, hin, hback]
    · simp [hplace, bytes, hin]
  · simp [hplace]

end

section
variable {m : Memory} {source target : Space} {sourceStart targetStart : Word}

@[simp] theorem size_moveEach (order : List Nat) (buffer : Array UInt8) :
    (m.moveEach source sourceStart target targetStart order buffer).size = buffer.size := by
  induction order generalizing buffer with
  | nil => rfl
  | cons i rest ih => rw [moveEach, ih, Array.size_setIfInBounds]

/-- A move overlays its target, as any change of memory does. -/
theorem exists_move_eq_overlay (m : Memory) (source : Space) (sourceStart : Word) (target : Space)
    (targetStart : Word) (count : Nat) :
    ∃ content, m.move source sourceStart target targetStart count =
      m.overlay target targetStart count content := by
  have hsize : (m.bytes target targetStart count).toArray.size = count := by simp [bytes]
  rw [move]
  split
  · have hself := m.splice_bytes target targetStart count
    rw [splice, hsize] at hself
    exact ⟨_, hself.symm⟩
  · dsimp only
    rw [splice, size_moveEach, hsize]
    exact ⟨_, rfl⟩

theorem reversedElements_succ (size count : Nat) (buffer : Array UInt8) :
    State.reversedElements size (count + 1) buffer = State.reversedElements size count buffer ++
      (buffer.extract (count * size) (count * size + size)).toList.reverse := by
  rw [State.reversedElements, State.reversedElements, List.range_succ, List.flatMap_append,
    List.flatMap_singleton]

theorem length_reversedElements {size count : Nat} {buffer : Array UInt8}
    (room : count * size ≤ buffer.size) :
    (State.reversedElements size count buffer).length = count * size := by
  induction count with
  | zero => simp [State.reversedElements]
  | succ count ih =>
    rw [Nat.succ_mul] at room ⊢
    rw [reversedElements_succ, List.length_append, ih (by omega), List.length_reverse,
      Array.length_toList, Array.size_extract]
    omega

theorem exists_movedElements_eq_overlay (m : Memory) {size : Nat} (turns : Bool) (source : Space)
    (sourceStart : Word) (target : Space) (targetStart : Word) {length : Nat}
    (whole : size ∣ length) :
    ∃ content, State.movedElements m size turns source sourceStart target targetStart length =
      m.overlay target targetStart length content := by
  cases turns with
  | true =>
    have hsize : (m.bytes source sourceStart length).toArray.size = length := by simp [bytes]
    have hlength : (State.reversedElements size (length / size)
        (m.bytes source sourceStart length).toArray).length = length := by
      rw [length_reversedElements (hsize.symm ▸ Nat.div_mul_le_self length size),
        Nat.div_mul_cancel whole]
    rw [State.movedElements, if_pos rfl, write, splice, List.size_toArray, hlength]
    exact ⟨_, rfl⟩
  | false => exact m.exists_move_eq_overlay source sourceStart target targetStart length

/-! ### No byte is lost -/

theorem sub_toNat_eq_iff {start address : Word} {i : Nat} (hi : i < Word.limit) :
    (address - start).toNat = i ↔ address = start + UInt64.ofNat i := by
  constructor
  · rintro rfl
    rw [UInt64.ofNat_toNat]
    grind
  · rintro rfl
    have hback : start + UInt64.ofNat i - start = UInt64.ofNat i := by grind
    rw [hback, UInt64.toNat_ofNat_of_lt' hi]

/-- **In an order in which nothing is stored where something is still to be read**, every byte that
is moved arrives, and no other changes. -/
theorem read_moveEach {order : List Nat} {buffer : Array UInt8} (word : buffer.size ≤ Word.limit)
    (inside : ∀ i ∈ order, i < buffer.size)
    (unread : order.Pairwise fun i j => source = target →
      sourceStart + UInt64.ofNat j ≠ targetStart + UInt64.ofNat i)
    (intact : ∀ i ∈ order, (m.splice target targetStart buffer).read source
      (sourceStart + UInt64.ofNat i) = m.read source (sourceStart + UInt64.ofNat i)) :
    (∀ i ∈ order, (m.splice target targetStart
        (m.moveEach source sourceStart target targetStart order buffer)).read target
          (targetStart + UInt64.ofNat i) = m.read source (sourceStart + UInt64.ofNat i)) ∧
      ∀ place address, (∀ i ∈ order, place = target → address ≠ targetStart + UInt64.ofNat i) →
        (m.splice target targetStart
          (m.moveEach source sourceStart target targetStart order buffer)).read place address =
            (m.splice target targetStart buffer).read place address := by
  induction order generalizing buffer with
  | nil => exact ⟨by simp, fun _ _ _ => rfl⟩
  | cons i rest ih =>
    obtain ⟨hfirst, hrest⟩ := List.pairwise_cons.mp unread
    have hword : ∀ j ∈ i :: rest, j < Word.limit := fun j hj =>
      Nat.lt_of_lt_of_le (inside j hj) word
    have hlater : ∀ j ∈ rest, j ∈ i :: rest := fun j hj => List.mem_cons_of_mem i hj
    rw [moveEach]
    -- What is stored first is the byte that the source held at the start.
    generalize hnext : buffer.setIfInBounds i ((m.splice target targetStart buffer).read source
      (sourceStart + UInt64.ofNat i)) = next
    have hsize : next.size = buffer.size := by rw [← hnext, Array.size_setIfInBounds]
    have hset : ∀ place address, (m.splice target targetStart next).read place address =
        if place = target ∧ address = targetStart + UInt64.ofNat i then
          m.read source (sourceStart + UInt64.ofNat i)
        else (m.splice target targetStart buffer).read place address := by
      intro place address
      rw [← hnext, read_splice_set, intact i List.mem_cons_self]
      simp only [sub_toNat_eq_iff (hword i List.mem_cons_self), inside i List.mem_cons_self, true_and]
    have hintact : ∀ j ∈ rest, (m.splice target targetStart next).read source
        (sourceStart + UInt64.ofNat j) = m.read source (sourceStart + UInt64.ofNat j) := by
      intro j hj
      rw [hset, if_neg]
      · exact intact j (hlater j hj)
      · rintro ⟨hspace, haddress⟩
        exact hfirst j hj hspace haddress
    obtain ⟨hmoved, hother⟩ := ih (hsize.symm ▸ word)
      (fun j hj => hsize.symm ▸ inside j (hlater j hj)) hrest hintact
    constructor
    · intro j hj
      by_cases hagain : j ∈ rest
      · exact hmoved j hagain
      · obtain rfl : j = i := (List.mem_cons.mp hj).resolve_right hagain
        rw [hother target _ fun k hk _ haddress => ?_, hset, if_pos ⟨rfl, rfl⟩]
        have hindex := (sub_toNat_eq_iff (hword k (hlater k hk))).mpr haddress
        rw [(sub_toNat_eq_iff (hword j hj)).mpr rfl] at hindex
        exact hagain (hindex ▸ hk)
    · intro place address houtside
      rw [hother place address fun j hj => houtside j (hlater j hj), hset, if_neg]
      rintro ⟨hplace, haddress⟩
      exact houtside i List.mem_cons_self hplace haddress

theorem toNat_offset {start : Word} {count i : Nat} (unwrapped : start.toNat + count ≤ Word.limit)
    (hi : i < count) : (start + UInt64.ofNat i).toNat = start.toNat + i := by
  have hword : i < Word.limit := by omega
  rw [UInt64.toNat_add, UInt64.toNat_ofNat_of_lt' hword]
  exact Nat.mod_eq_of_lt (Nat.lt_of_lt_of_le (Nat.add_lt_add_left hi _) unwrapped)

/-- Away from where the ranges meet, nothing is stored where something is still to be read. -/
theorem order_unread {count : Nat} (hsource : sourceStart.toNat + count ≤ Word.limit)
    (htarget : targetStart.toNat + count ≤ Word.limit) :
    (if targetStart < sourceStart then List.range count else (List.range count).reverse).Pairwise
      fun i j => sourceStart + UInt64.ofNat j ≠ targetStart + UInt64.ofNat i := by
  have hne : ∀ {i j}, i ∈ List.range count → j ∈ List.range count →
      targetStart.toNat + i ≠ sourceStart.toNat + j →
      sourceStart + UInt64.ofNat j ≠ targetStart + UInt64.ofNat i := by
    intro i j hi hj hne haddress
    have hnumber := congrArg UInt64.toNat haddress
    rw [toNat_offset hsource (List.mem_range.mp hj), toNat_offset htarget (List.mem_range.mp hi)]
      at hnumber
    exact hne hnumber.symm
  split
  · rename_i hlower
    have hlt : targetStart.toNat < sourceStart.toNat := UInt64.lt_iff_toNat_lt.mp hlower
    exact List.pairwise_lt_range.imp_of_mem fun hi hj hij => hne hi hj (by omega)
  · rename_i hupper
    have hle : sourceStart.toNat ≤ targetStart.toNat :=
      UInt64.le_iff_toNat_le.mp (UInt64.not_lt.mp hupper)
    rw [List.pairwise_reverse]
    exact List.pairwise_lt_range.imp_of_mem fun hj hi hji => hne hi hj (by omega)

/-- **A move moves what was there at the start**, however the ranges meet, as long as ranges of one
space that meet do not go round it. -/
theorem read_move {count : Nat} (word : count ≤ Word.limit)
    (unwrapped : source = target →
      (∃ i < count, ∃ j < count, sourceStart + UInt64.ofNat j = targetStart + UInt64.ofNat i) →
      sourceStart.toNat + count ≤ Word.limit ∧ targetStart.toNat + count ≤ Word.limit) :
    (∀ i < count, (m.move source sourceStart target targetStart count).read target
        (targetStart + UInt64.ofNat i) = m.read source (sourceStart + UInt64.ofNat i)) ∧
      ∀ place address, (∀ i < count, place = target → address ≠ targetStart + UInt64.ofNat i) →
        (m.move source sourceStart target targetStart count).read place address =
          m.read place address := by
  rw [move]
  split
  · rename_i hsame
    obtain ⟨rfl, rfl⟩ := hsame
    exact ⟨fun _ _ => rfl, fun _ _ _ => rfl⟩
  · have hmem : ∀ i, i ∈ (if targetStart < sourceStart then List.range count
        else (List.range count).reverse) ↔ i < count := by
      intro i
      split <;> simp
    have hunread : (if targetStart < sourceStart then List.range count
        else (List.range count).reverse).Pairwise fun i j => source = target →
          sourceStart + UInt64.ofNat j ≠ targetStart + UInt64.ofNat i := by
      by_cases hmeet : source = target ∧
          ∃ i < count, ∃ j < count, sourceStart + UInt64.ofNat j = targetStart + UInt64.ofNat i
      · obtain ⟨hsource, htarget⟩ := unwrapped hmeet.1 hmeet.2
        exact (order_unread hsource htarget).imp fun h _ => h
      · refine List.Pairwise.imp_of_mem ?_ (List.pairwise_of_forall (R := fun _ _ => True) (by simp))
        intro i j hi hj _ hspace haddress
        exact hmeet ⟨hspace, i, (hmem i).mp hi, j, (hmem j).mp hj, haddress⟩
    dsimp only
    generalize (if targetStart < sourceStart then List.range count
      else (List.range count).reverse) = order at hunread hmem ⊢
    have hsize : (m.bytes target targetStart count).toArray.size = count := by simp [bytes]
    have hmove := read_moveEach (hsize.symm ▸ word) (fun i hi => hsize.symm ▸ (hmem i).mp hi)
      hunread fun i _ => by rw [splice_bytes]
    rw [splice_bytes] at hmove
    exact ⟨fun i hi => hmove.1 i ((hmem i).mpr hi), fun place address h =>
      hmove.2 place address fun i hi => h i ((hmem i).mp hi)⟩

end

end ScopedMemory.Memory
