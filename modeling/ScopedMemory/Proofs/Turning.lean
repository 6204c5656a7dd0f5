import ScopedMemory.Proofs.Copying
import ScopedMemory.Proofs.RoundTrip

/-! Copies of elements.

Elements whose byte orders agree are moved as bytes are; others are gathered in a buffer, turned
around there and stored. Either way the bytes of every element arrive, in their order or reversed
(`Memory.bytes_movedElements`), and what the target's order makes of them is what the source's order
made of them before. -/
namespace ScopedMemory

/-! ### Byte orders -/

namespace ByteOrder

/-- Reversed bytes say in the one order what they said in the other. -/
theorem arrange_reverse {order other : ByteOrder} (h : order ≠ other) (bytes : List UInt8) :
    other.arrange bytes.reverse = order.arrange bytes := by
  cases order <;> cases other
  · exact absurd rfl h
  · exact List.reverse_reverse bytes
  · rfl
  · exact absurd rfl h

/-- One byte has no order. -/
theorem arrange_of_length_one {bytes : List UInt8} (h : bytes.length = 1) (order : ByteOrder) :
    order.arrange bytes = bytes := by
  obtain ⟨byte, rfl⟩ := List.length_eq_one_iff.mp h
  cases order <;> rfl

end ByteOrder

/-! ### Bytes of the elements -/

namespace Memory

/-- Every element is reversed where it stands. -/
theorem window_reversedElements {size count i : Nat} {buffer : List UInt8}
    (room : count * size ≤ buffer.length) (inside : i < count) :
    ((State.reversedElements size count buffer.toArray).drop (i * size)).take size =
      ((buffer.drop (i * size)).take size).reverse := by
  induction count with
  | zero => cases inside
  | succ count ih =>
    rw [Nat.succ_mul] at room
    have hfront : (State.reversedElements size count buffer.toArray).length = count * size :=
      length_reversedElements (by rw [List.size_toArray]; omega)
    rw [reversedElements_succ]
    by_cases hlast : i = count
    · subst hlast
      have hpiece : (buffer.toArray.extract (i * size) (i * size + size)).toList =
          (buffer.drop (i * size)).take size := by
        rw [Array.toList_extract, List.extract_eq_take_drop, Nat.add_sub_cancel_left]
      rw [List.drop_left' hfront, hpiece, List.take_of_length_le]
      rw [List.length_reverse]
      exact List.length_take_le _ _
    · have hbefore : i + 1 ≤ count := by omega
      have hinside := Nat.mul_le_mul_right size hbefore
      rw [Nat.succ_mul] at hinside
      rw [List.drop_append_of_le_length (by omega), List.take_append_of_le_length
        (by rw [List.length_drop]; omega), ih (by omega) hbefore]

section
variable {m : Memory} {source target : Space} {sourceStart targetStart : Word} {size count i : Nat}

/-- What was there at the start arrives, element by element. Bytes that keep their order are moved
one at a time, so ranges of one space that meet must not go round it. -/
theorem bytes_movedElements (turns : Bool) (positive : 0 < size) (word : count * size ≤ Word.limit)
    (unwrapped : turns = false → source = target →
      (∃ i < count * size, ∃ j < count * size,
        sourceStart + UInt64.ofNat j = targetStart + UInt64.ofNat i) →
      sourceStart.toNat + count * size ≤ Word.limit ∧ targetStart.toNat + count * size ≤ Word.limit)
    (inside : i < count) :
    (State.movedElements m size turns source sourceStart target targetStart (count * size)).bytes
        target (targetStart + UInt64.ofNat (i * size)) size =
      if turns then (m.bytes source (sourceStart + UInt64.ofNat (i * size)) size).reverse
      else m.bytes source (sourceStart + UInt64.ofNat (i * size)) size := by
  have hinside : i * size + size ≤ count * size := by
    rw [← Nat.succ_mul]
    exact Nat.mul_le_mul_right size inside
  rw [← bytes_window hinside, ← bytes_window hinside]
  cases turns with
  | true =>
    have hgathered : (m.bytes source sourceStart (count * size)).length = count * size := by
      simp [bytes]
    have hlength : (State.reversedElements size count
        (m.bytes source sourceStart (count * size)).toArray).length = count * size :=
      length_reversedElements (Nat.le_of_eq (by rw [List.size_toArray, hgathered]))
    have hstored := m.bytes_write target targetStart (hlength.symm ▸ word)
    rw [hlength] at hstored
    rw [State.movedElements, if_pos rfl, if_pos rfl, Nat.mul_div_cancel count positive, hstored,
      window_reversedElements (Nat.le_of_eq hgathered.symm) inside]
  | false =>
    have hmoved : (m.move source sourceStart target targetStart (count * size)).bytes target
        targetStart (count * size) = m.bytes source sourceStart (count * size) :=
      List.map_congr_left fun j hj =>
        (read_move word (unwrapped rfl)).1 j (List.mem_range.mp hj)
    rw [State.movedElements, if_neg Bool.false_ne_true, if_neg Bool.false_ne_true, hmoved]

end

end Memory

/-- Two ranges of native memory that meet lie straight: neither goes on at address zero, where no
memory is. -/
def Segment.MeetsStraight (x : Segment) (offset : Word) (y : Segment) (offset' : Word)
    (length : Nat) : Prop :=
  x.space = .native → y.space = .native →
    ¬ x.Apart offset.toNat length y offset'.toNat length →
      (x.address + offset).toNat + length ≤ Word.limit ∧
        (y.address + offset').toNat + length ≤ Word.limit

theorem Segment.not_apart {x y : Segment} {offset offset' : Word} {length i j : Nat}
    (space : x.space = y.space) (hj : j < length) (hi : i < length)
    (same : x.address + offset + UInt64.ofNat j = y.address + offset' + UInt64.ofNat i) :
    ¬ x.Apart offset.toNat length y offset'.toNat length := by
  intro hapart
  refine hapart x.space (x.address + offset + UInt64.ofNat j) ⟨rfl, j, hj, ?_⟩ ⟨space, i, hi, ?_⟩
  · rw [UInt64.ofNat_add, UInt64.ofNat_toNat, UInt64.add_assoc]
  · rw [same, UInt64.ofNat_add, UInt64.ofNat_toNat, UInt64.add_assoc]

namespace State

/-- The number that the bytes at `offset` stand for in that order. -/
def patternAt (s : State) (x : Segment) (order : ByteOrder) (offset : Word) (size : Nat) : Nat :=
  natOfBytes (order.arrange (s.bytesAt x offset size))

section
variable {c d : Carrier} {s s' : State} {t : Thread} {source target : Segment}
  {sourceLayout : ValueLayout c} {targetLayout : ValueLayout d}
  {sourceOffset targetOffset count length : Word}

/-- Elements that are copied are equally wide, and aligned no more strictly than they are wide. -/
theorem checkElements_fits (h : s.checkElements t source sourceLayout sourceOffset target
    targetLayout targetOffset count = .ok length) :
    c.size = d.size ∧ sourceLayout.alignment.bytes ≤ c.width ∧
      targetLayout.alignment.bytes ≤ d.width := by
  simp only [checkElements] at h
  split at h
  · simp [bind, Except.bind] at h
  · rename_i hwidth
    split at h
    · simp [bind, Except.bind] at h
    · rename_i hsource
      split at h
      · simp [bind, Except.bind] at h
      · rename_i htarget
        have hsame : c.width = d.width := not_not.mp hwidth
        refine ⟨?_, UInt64.not_lt.mp hsource, hsame ▸ UInt64.not_lt.mp htarget⟩
        rw [← Carrier.toNat_width, ← Carrier.toNat_width, hsame]

/-- An element is turned around exactly if it would say something else in the target's order. -/
theorem arrange_element (sourceLayout : ValueLayout c) (targetLayout : ValueLayout d)
    {bytes : List UInt8} (element : bytes.length = c.size) :
    targetLayout.order.arrange
        (if turnsElements sourceLayout targetLayout then bytes.reverse else bytes) =
      sourceLayout.order.arrange bytes := by
  unfold turnsElements
  by_cases hone : c.size = 1
  · have hbyte := ByteOrder.arrange_of_length_one (element.trans hone)
    simp [hone, hbyte]
  · by_cases horder : sourceLayout.order = targetLayout.order
    · simp [horder]
    · simp [hone, horder, ByteOrder.arrange_reverse horder]

/-- **What an element says is copied with it.** -/
theorem patternAt_copyElements (genuine : source.Genuine ∧ target.Genuine)
    (straight : turnsElements sourceLayout targetLayout = false →
      source.MeetsStraight sourceOffset target targetOffset (count.toNat * c.size))
    (h : s.copyElements t source sourceLayout sourceOffset target targetLayout targetOffset count =
      .ok s') {i : Nat} (inside : i < count.toNat) :
    s'.patternAt target targetLayout.order (targetOffset + UInt64.ofNat (i * c.size)) c.size =
      s.patternAt source sourceLayout.order (sourceOffset + UInt64.ofNat (i * c.size)) c.size := by
  obtain ⟨length, hcheck, h⟩ := bind_eq_ok.mp h
  obtain rfl := pure_eq_ok.mp h
  obtain ⟨hlength, hread, hwrite⟩ := checkElements_ok hcheck
  have hsource := (check_ok hread).2.1
  have htarget := (check_ok hwrite).2.1
  -- native ranges are straight where they meet, those of an array are straight everywhere
  have hunwrapped : turnsElements sourceLayout targetLayout = false → source.space = target.space →
      (∃ i < count.toNat * c.size, ∃ j < count.toNat * c.size,
        source.address + sourceOffset + UInt64.ofNat j =
          target.address + targetOffset + UInt64.ofNat i) →
      (source.address + sourceOffset).toNat + count.toNat * c.size ≤ Word.limit ∧
        (target.address + targetOffset).toNat + count.toNat * c.size ≤ Word.limit := by
    rintro hkept hspace ⟨i, hi, j, hj, hmeet⟩
    by_cases hnative : source.space = .native
    · exact straight hkept hnative (hspace ▸ hnative) (Segment.not_apart hspace hj hi hmeet)
    · rw [← hlength]
      exact ⟨genuine.1.unwrapped hnative hsource, genuine.2.unwrapped (hspace ▸ hnative) htarget⟩
  have hmoved := Memory.bytes_movedElements (m := s.memory) (turnsElements sourceLayout targetLayout)
    c.size_pos (hlength ▸ Nat.le_of_lt (Word.toNat_lt length)) hunwrapped inside
  have hbytes : (s.memory.bytes source.space
      (source.address + sourceOffset + UInt64.ofNat (i * c.size)) c.size).length = c.size := by
    simp [Memory.bytes]
  simp only [patternAt, bytesAt, hlength, ← UInt64.add_assoc, hmoved]
  rw [arrange_element sourceLayout targetLayout hbytes]

/-- **A copy of elements preserves values.** Element by element, the target reads afterwards as the
bit pattern that the source read as before, each in its own byte order. Where elements are moved as
bytes, ranges of native memory that meet must not go round the address space. -/
theorem elements_keep_their_values (genuine : source.Genuine ∧ target.Genuine)
    (straight : turnsElements sourceLayout targetLayout = false →
      source.MeetsStraight sourceOffset target targetOffset (count.toNat * c.size))
    (h : s.copyElements t source sourceLayout sourceOffset target targetLayout targetOffset count =
      .ok s') :
    ∀ i < count.toNat, ∃ pattern,
      (s.patternAt source sourceLayout.order (sourceOffset + UInt64.ofNat (i * c.size)) c.size =
          pattern ∧
        s.get t source sourceLayout (sourceOffset + UInt64.ofNat (i * c.size)) =
          .ok (c.ofBits pattern)) ∧
      s'.patternAt target targetLayout.order (targetOffset + UInt64.ofNat (i * d.size)) d.size =
          pattern ∧
        s'.get t target targetLayout (targetOffset + UInt64.ofNat (i * d.size)) =
          .ok (d.ofBits pattern) := by
  intro i inside
  have hpattern := patternAt_copyElements genuine straight h inside
  obtain ⟨length, hcheck, h⟩ := bind_eq_ok.mp h
  obtain ⟨hlength, hread, hwrite⟩ := checkElements_ok hcheck
  obtain ⟨hsize, hsourceFits, htargetFits⟩ := checkElements_fits hcheck
  have hinside : (i + 1) * c.size ≤ length.toNat := hlength ▸ Nat.mul_le_mul_right c.size inside
  have hsource := check_element hsourceFits hread hinside
  -- bytes are all that was changed, so the target passes its check afterwards too
  have htarget : s'.check t target (targetOffset + UInt64.ofNat (i * d.size)) d.width
      targetLayout.alignment.bytes .read = .ok () := by
    obtain rfl := pure_eq_ok.mp h
    exact check_read (check_element htargetFits hwrite (hsize ▸ hinside))
  generalize hbefore : s.patternAt source sourceLayout.order
    (sourceOffset + UInt64.ofNat (i * c.size)) c.size = pattern at hpattern
  rw [hsize] at hpattern
  refine ⟨pattern, ⟨rfl, ?_⟩, hpattern, ?_⟩
  · rw [← hbefore]
    exact get_of_check hsource
  · rw [← hpattern]
    exact get_of_check htarget

end

/-- Two numbers of two bytes each, copied one byte up and onto themselves: turned around, and taken
over by another carrier as they are. -/
theorem elements_keep_their_values_across :
    let x : Segment := ⟨0, 6, .heap ⟨0, .ubyte, 6⟩, false, 1⟩
    let low : ValueLayout .char := ⟨.one, .little, none⟩
    let high : ValueLayout .char := ⟨.one, .big, none⟩
    let signed : ValueLayout .short := ⟨.one, .little, none⟩
    (∃ s', sixBytes.copyElements 1 x low 0 x high 1 2 = .ok s' ∧
      sixBytes.get 1 x low 2 = .ok (0x0403 : UInt16) ∧ s'.get 1 x high 3 = .ok (0x0403 : UInt16)) ∧
    ∃ s', sixBytes.copyElements 1 x low 0 x signed 1 2 = .ok s' ∧
      s'.get 1 x signed 3 = .ok (0x0403 : Int16) := by
  have hgenuine : (⟨0, 6, .heap ⟨0, .ubyte, 6⟩, false, 1⟩ : Segment).Genuine := by
    intro array harray
    cases harray
    exact ⟨.initial .bump, .refl⟩
  constructor
  · obtain ⟨s', hturned⟩ : ∃ s', sixBytes.copyElements 1 ⟨0, 6, .heap ⟨0, .ubyte, 6⟩, false, 1⟩
        (⟨.one, .little, none⟩ : ValueLayout .char) 0 ⟨0, 6, .heap ⟨0, .ubyte, 6⟩, false, 1⟩
        (⟨.one, .big, none⟩ : ValueLayout .char) 1 2 = .ok s' := ⟨_, rfl⟩
    have hread : sixBytes.get 1 ⟨0, 6, .heap ⟨0, .ubyte, 6⟩, false, 1⟩
        (⟨.one, .little, none⟩ : ValueLayout .char) 2 = .ok (0x0403 : UInt16) := rfl
    obtain ⟨pattern, ⟨-, hbefore⟩, -, hafter⟩ := elements_keep_their_values ⟨hgenuine, hgenuine⟩
      (fun hkept => absurd hkept (by decide)) hturned 1 (by decide)
    exact ⟨s', hturned, hread, hafter.trans (hbefore.symm.trans hread)⟩
  · obtain ⟨s', hmoved⟩ : ∃ s', sixBytes.copyElements 1 ⟨0, 6, .heap ⟨0, .ubyte, 6⟩, false, 1⟩
        (⟨.one, .little, none⟩ : ValueLayout .char) 0 ⟨0, 6, .heap ⟨0, .ubyte, 6⟩, false, 1⟩
        (⟨.one, .little, none⟩ : ValueLayout .short) 1 2 = .ok s' := ⟨_, rfl⟩
    obtain ⟨pattern, ⟨hbefore, -⟩, -, hafter⟩ := elements_keep_their_values ⟨hgenuine, hgenuine⟩
      (fun _ hnative => by cases hnative) hmoved 1 (by decide)
    subst hbefore
    exact ⟨s', hmoved, hafter⟩

/-- Three bytes, the first at the last address and the others from the first address on. -/
def roundTheEnd : State :=
  { initial .bump with memory := (initial .bump).memory.write .native Word.last [1, 2, 3] }

/-- A range that goes round the end is moved as though it lay above the range after it: its first
byte is stored over the second before that is read. -/
theorem elements_overtaken_round_the_end :
    let x : Segment := ⟨Word.last, 3, .native, false, processScope⟩
    let y : Segment := ⟨0, 3, .native, false, processScope⟩
    x.Genuine ∧ y.Genuine ∧
      ∃ s', roundTheEnd.copyElements 0 x byteLayout 0 y byteLayout 0 3 = .ok s' ∧
        roundTheEnd.get 0 x byteLayout 1 = .ok (2 : UInt8) ∧
        s'.get 0 y byteLayout 1 = .ok (1 : UInt8) := by
  have hgenuine : ∀ address, (⟨address, 3, .native, false, processScope⟩ : Segment).Genuine := by
    intro address array harray
    cases harray
  exact ⟨hgenuine _, hgenuine _, _, rfl, rfl, rfl⟩

end State

end ScopedMemory
