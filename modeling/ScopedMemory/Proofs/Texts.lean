import ScopedMemory.Proofs.Filling
import ScopedMemory.Proofs.Reading

/-! Texts in memory.

A text is stored with a zero byte behind it, and read up to the first zero byte. A zero character of
the text is such a byte, so what is read back is the longest beginning without one
(`Text.Readable`). The search stops at the zero byte: whatever lies behind it, and however much, is
not looked at (`Memory.Agree.find?_of_found`). -/
namespace ScopedMemory

namespace Text

/-- What can be read back of a text: its longest beginning without the zero character. -/
structure Readable (text read : String) : Prop where
  front : read.toList <+: text.toList
  clean : Char.ofNat 0 ∉ read.toList
  longest : ∀ chars, chars <+: text.toList → Char.ofNat 0 ∉ chars → chars <+: read.toList

theorem Readable.eq_of_clean {text read : String} (h : Readable text read)
    (clean : Char.ofNat 0 ∉ text.toList) : read = text := by
  have hwhole := h.longest text.toList List.prefix_rfl clean
  exact String.toList_inj.mp (h.front.eq_of_length_le hwhole.length_le)

/-- The characters of a text before its first zero character. -/
def beforeZero (text : String) : String :=
  .ofList (text.toList.takeWhile (· ≠ Char.ofNat 0))

theorem toList_beforeZero (text : String) :
    (beforeZero text).toList = text.toList.takeWhile (· ≠ Char.ofNat 0) := String.toList_ofList

theorem readable_beforeZero (text : String) : Readable text (beforeZero text) where
  front := by
    rw [toList_beforeZero]
    exact List.takeWhile_prefix _
  clean := by
    rw [toList_beforeZero]
    intro hzero
    have hne := List.all_eq_true.mp List.all_takeWhile _ hzero
    simp at hne
  longest chars hfront clean := by
    obtain ⟨rest, hrest⟩ := hfront
    have hall : ∀ c ∈ chars, decide (c ≠ Char.ofNat 0) = true := fun c hc =>
      decide_eq_true fun heq => clean (heq ▸ hc)
    rw [toList_beforeZero, ← hrest, List.takeWhile_append_of_pos hall]
    exact List.prefix_append _ _

namespace Utf8

/-- Characters and a zero byte behind them begin with those before the first zero character and a
zero byte. -/
theorem flatMap_terminated (chars : List Char) :
    ∃ rest, chars.flatMap String.utf8EncodeChar ++ [0] =
      (chars.takeWhile (· ≠ Char.ofNat 0)).flatMap String.utf8EncodeChar ++ [0] ++ rest := by
  induction chars with
  | nil => exact ⟨[], rfl⟩
  | cons c chars ih =>
    by_cases hzero : c = Char.ofNat 0
    · -- The zero character is stored as a zero byte.
      subst hzero
      refine ⟨chars.flatMap String.utf8EncodeChar ++ [0], ?_⟩
      rw [List.takeWhile_cons_of_neg (by simp)]
      rfl
    · obtain ⟨rest, hrest⟩ := ih
      refine ⟨rest, ?_⟩
      rw [List.takeWhile_cons_of_pos (by simpa using hzero), List.flatMap_cons, List.flatMap_cons,
        List.append_assoc, hrest, List.append_assoc, List.append_assoc, List.append_assoc]

theorem encode_terminated (text : String) :
    ∃ rest, encode text ++ [0] = encode (beforeZero text) ++ [0] ++ rest := by
  rw [encode, encode, toList_beforeZero]
  exact flatMap_terminated text.toList

/-- **Valid UTF-8 is decoded as it is.** -/
theorem toByteArray_decode {bytes : List UInt8} (valid : bytes.toByteArray.IsValidUTF8) :
    (decode bytes).toByteArray = bytes.toByteArray := by
  obtain ⟨chars, hchars⟩ := valid
  have hbytes : bytes = encode (String.ofList chars) := by
    rw [encode, String.toList_ofList]
    exact List.toByteArray_inj.mp hchars
  rw [hbytes, decode_encode, String.toByteArray_ofList, encode, String.toList_ofList]
  rfl

end Utf8

end Text

/-! ### Reading up to a byte -/

namespace Memory
variable {m m' : Memory} {space : Space} {start : Word} {n count : Nat} {byte : UInt8}

/-- **The search stops where the byte is found**, in every memory that agrees so far. -/
theorem Agree.findFrom_of_found (h : Agree m m' space start (n + 1))
    (held : m.read space (start + UInt64.ofNat n) = byte) (room : n < count) (seen : Nat) :
    ∃ found ≤ seen + n, m.findFrom space byte seen start count = some found ∧
      m'.findFrom space byte seen start count = some found := by
  induction n generalizing start count seen with
  | zero =>
    obtain ⟨count, rfl⟩ := Nat.exists_eq_succ_of_ne_zero (Nat.ne_of_gt room)
    have hhere : m.read space start = byte := by
      rwa [show UInt64.ofNat 0 = 0 from rfl, UInt64.add_zero] at held
    refine ⟨seen, Nat.le_refl seen, ?_, ?_⟩
    · rw [findFrom, if_pos hhere]
    · rw [findFrom, h.head, if_pos hhere]
  | succ n ih =>
    obtain ⟨count, rfl⟩ := Nat.exists_eq_succ_of_ne_zero (Nat.ne_of_gt (Nat.zero_lt_of_lt room))
    rw [findFrom, findFrom, h.head]
    split
    · exact ⟨seen, Nat.le_add_right _ _, rfl, rfl⟩
    · have hnext : m.read space (start + 1 + UInt64.ofNat n) = byte := by
        rwa [UInt64.ofNat_add, UInt64.add_comm (UInt64.ofNat n), ← UInt64.add_assoc] at held
      obtain ⟨found, hle, hfound⟩ := ih h.tail hnext (Nat.lt_of_succ_lt_succ room) (seen + 1)
      exact ⟨found, by omega, hfound⟩

theorem Agree.find?_of_found (h : Agree m m' space start (n + 1))
    (held : m.read space (start + UInt64.ofNat n) = byte) (room : n < count) :
    ∃ found ≤ n, m.find? space start count byte = some found ∧
      m'.find? space start count byte = some found := by
  obtain ⟨found, hle, hfound⟩ := h.findFrom_of_found held room 0
  exact ⟨found, by omega, hfound⟩

end Memory

namespace State
variable {s s' : State} {t : Thread} {x : Segment} {offset : Word} {text : String}

/-- What is behind a zero byte does not matter, nor how much of it there is. -/
theorem getText_of_agree {memory : Memory} {n : Nat} (room : offset.toNat + n < x.size.toNat)
    (zero : s.memory.read x.space (x.address + offset + UInt64.ofNat n) = 0)
    (h : s.memory.Agree memory x.space (x.address + offset) (n + 1)) :
    ({ s with memory } : State).getText t x offset = s.getText t x offset := by
  unfold getText
  split
  · rfl
  · rename_i remaining hremaining
    have hrest := Word.sub?_eq_some_iff.mp hremaining
    have hinside : n < remaining.toNat := by omega
    obtain ⟨found, hle, hfound, hfound'⟩ := h.find?_of_found zero hinside
    refine bind_congr_ok fun _ _ => ?_
    dsimp only
    rw [hfound, hfound']
    exact congrArg (fun bytes => Except.ok (Text.Utf8.decode bytes))
      (h.mono (Nat.le_succ_of_le hle)).bytes

/-- A text is stored as one run of bytes that ends with a zero byte. -/
theorem setText_ok (h : s.setText t x offset text = .ok s') :
    s' = s.store x offset (Text.Utf8.encode text ++ [0]) := by
  obtain ⟨target, hslice, h⟩ := bind_eq_ok.mp h
  obtain ⟨-, -, rfl⟩ := slice_ok hslice
  obtain ⟨rfl, -⟩ := writeTerminated_ok h
  rw [store_part, UInt64.add_zero]

/-- **A text is read back** up to its first zero character. -/
theorem getText_of_setText (h : s.setText t x offset text = .ok s') :
    s'.getText t x offset = .ok (Text.beforeZero text) := by
  have hwrote := setText_wroteAt h
  obtain rfl := setText_ok h
  obtain ⟨rest, hrest⟩ := Text.Utf8.encode_terminated text
  have hfits := hwrote.fits
  have hlength := congrArg List.length hrest
  simp only [List.length_append, List.length_singleton] at hlength
  have hinside : offset.toNat + (Text.Utf8.encode (Text.beforeZero text)).length <
      x.size.toNat := by omega
  have hstored : (Text.Utf8.encode text ++ [0]).length ≤ x.size.toNat := by
    rw [List.length_append, List.length_singleton]
    omega
  have hroom : (Text.Utf8.encode text ++ [0]).length ≤ Word.limit :=
    Nat.le_of_lt (Nat.lt_of_le_of_lt hstored (Word.toNat_lt x.size))
  -- What is read are the first of the bytes that were stored.
  have hheld : (s.store x offset (Text.Utf8.encode text ++ [0])).bytesAt x offset
      (Text.Utf8.encode (Text.beforeZero text) ++ [0]).length =
      Text.Utf8.encode (Text.beforeZero text) ++ [0] := by
    refine Memory.bytes_front rest ?_
    rw [← hrest]
    exact bytesAt_store offset hroom
  rw [List.length_append] at hheld
  have habsent := Text.Utf8.zero_not_mem_encode (Text.readable_beforeZero text).clean
  rw [← Text.Utf8.decode_encode (Text.beforeZero text)]
  exact getText_of_held hwrote.entered hheld habsent hinside

/-- **Texts.** What is stored is read back up to its first zero character, and no byte changes but
those of the text and the zero byte behind it. What is read depends on the bytes up to a zero byte
only. Bytes that are UTF-8 are read as they are. -/
theorem texts_read_back (s : State) (t : Thread) (x : Segment) (offset : Word) :
    (∀ text s', s.setText t x offset text = .ok s' →
      (∃ read, s'.getText t x offset = .ok read ∧ Text.Readable text read ∧
        (Char.ofNat 0 ∉ text.toList → read = text)) ∧
      WritesAt x offset.toNat (text.utf8ByteSize + 1) s s') ∧
    (∀ (memory : Memory) (n : Nat), offset.toNat + n < x.size.toNat →
      s.memory.read x.space (x.address + offset + UInt64.ofNat n) = 0 →
      s.memory.Agree memory x.space (x.address + offset) (n + 1) →
      ({ s with memory } : State).getText t x offset = s.getText t x offset) ∧
    ∀ bytes : List UInt8, bytes.toByteArray.IsValidUTF8 →
      (Text.Utf8.decode bytes).toByteArray = bytes.toByteArray := by
  refine ⟨fun text s' h => ⟨?_, ?_⟩, fun memory n => getText_of_agree,
    fun bytes => Text.Utf8.toByteArray_decode⟩
  · have hreadable := Text.readable_beforeZero text
    exact ⟨_, getText_of_setText h, hreadable, hreadable.eq_of_clean⟩
  · rw [← Text.Utf8.length_encode]
    exact (setText_wroteAt h).writes

/-- A text with a zero character inside, a segment without bounds, and the bytes of a character. -/
theorem texts_read_back_interior :
    let x : Segment := ⟨0, 6, .heap ⟨0, .ubyte, 6⟩, false, 1⟩
    let y : Segment := ⟨16, Word.last, .native, false, processScope⟩
    let s := (initial .bump).store y 0 [0x68, 0x69, 0]
    (∃ s', sixBytes.setText 1 x 1 "é\x00b" = .ok s' ∧
      (∃ read, s'.getText 1 x 1 = .ok read ∧ Text.Readable "é\x00b" read) ∧
      WritesAt x 1 5 sixBytes s') ∧
    ({ s with memory := s.memory.fill .native 19 100 7 } : State).getText 1 y 0 = s.getText 1 y 0 ∧
    s.getText 1 y 0 = .ok "hi" ∧
    (Text.Utf8.decode [0xC3, 0xA9]).toByteArray = [0xC3, 0xA9].toByteArray := by
  intro x y s
  obtain ⟨hset, -, hvalid⟩ := texts_read_back sixBytes 1 x 1
  obtain ⟨-, hlazy, -⟩ := texts_read_back s 1 y 0
  have hok : (sixBytes.setText 1 x 1 "é\x00b").isOk = true := by decide +kernel
  refine ⟨?_, ?_, by decide +kernel, ?_⟩
  · cases hstored : sixBytes.setText 1 x 1 "é\x00b" with
    | error e =>
      rw [hstored] at hok
      cases hok
    | ok s' =>
      obtain ⟨⟨read, hread, hreadable, -⟩, hwrites⟩ := hset _ s' hstored
      exact ⟨s', rfl, ⟨read, hread, hreadable⟩, hwrites⟩
  · exact hlazy _ 2 (by decide +kernel) (by decide +kernel) (by unfold Memory.Agree; decide +kernel)
  · exact hvalid [0xC3, 0xA9] ⟨['é'], by decide +kernel⟩

end State

end ScopedMemory
