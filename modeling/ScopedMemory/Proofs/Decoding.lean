import ScopedMemory.Text.Utf8
import Mathlib.Data.List.Forall2

/-! Reading texts back.

A character's bytes are a first byte, which says how many follow and in which ranges they lie, and
those that follow, each with six more bits (`Utf8.decodeFrom_follows`). The encoding of a character
keeps to the ranges, so decoding finds it again and goes on behind it
(`Utf8.decodeFrom_encodeChar`). Of the bytes of a text only those of zero characters are zero, so
the end of a text is where its first zero byte stands. -/
namespace ScopedMemory.Text.Utf8

/-- The byte lies in the range. -/
def InRange (range : Nat × Nat) (byte : UInt8) : Prop :=
  range.1 ≤ byte.toNat ∧ byte.toNat ≤ range.2

theorem InRange.test {range : Nat × Nat} {byte : UInt8} (h : InRange range byte) :
    (decide (range.1 ≤ byte.toNat) && decide (byte.toNat ≤ range.2)) = true := by
  simp [h.1, h.2]

/-- The bits with the six that a byte adds. -/
def addBits (bits : Nat) (byte : UInt8) : Nat := 64 * bits + (byte.toNat - 0x80)

theorem addBits_eq (bits : Nat) (byte : UInt8) : addBits bits byte = 64 * bits + (byte.toNat - 0x80) :=
  rfl

theorem advance_last {bits : Nat} {range : Nat × Nat} {byte : UInt8} (h : InRange range byte) :
    advance (.inside bits range []) byte = ([Char.ofNat (addBits bits byte)], .between) := by
  simp only [advance, if_pos h.test]
  rfl

theorem advance_further {bits : Nat} {range next : Nat × Nat} {tail : List (Nat × Nat)} {byte : UInt8}
    (h : InRange range byte) : advance (.inside bits range (next :: tail)) byte =
      ([], .inside (addBits bits byte) next tail) := by
  simp only [advance, if_pos h.test]
  rfl

/-- **Bytes that lie in their ranges become one character.** -/
theorem decodeFrom_follows {bits : Nat} {first : Nat × Nat} {tail : List (Nat × Nat)}
    {bytes : List UInt8} (h : List.Forall₂ InRange (first :: tail) bytes) (rest : List UInt8) :
    decodeFrom (.inside bits first tail) (bytes ++ rest) =
      Char.ofNat (bytes.foldl addBits bits) :: decodeFrom .between rest := by
  induction tail generalizing bits first bytes with
  | nil =>
    cases h with
    | cons hbyte hnone =>
      cases hnone
      rw [List.cons_append, decodeFrom, advance_last hbyte]
      rfl
  | cons next tail ih =>
    cases h with
    | cons hbyte hrest =>
      rw [List.cons_append, decodeFrom, advance_further hbyte, List.foldl_cons, ← ih hrest]
      rfl

/-- What is read after a first byte that announces others. -/
theorem decodeFrom_lead {byte : UInt8} {bits : Nat} {first : Nat × Nat} {tail : List (Nat × Nat)}
    {bytes : List UInt8} (high : 0x80 ≤ byte.toNat) (lead : lead? byte = some ⟨bits, first :: tail⟩)
    (h : List.Forall₂ InRange (first :: tail) bytes) (rest : List UInt8) :
    decodeFrom .between (byte :: bytes ++ rest) =
      Char.ofNat (bytes.foldl addBits bits) :: decodeFrom .between rest := by
  have hstart : advance .between byte = ([], .inside bits first tail) := by
    simp [advance, start, Nat.not_lt.mpr high, lead]
  rw [List.cons_append, decodeFrom, hstart]
  exact decodeFrom_follows h rest

/-! ### First bytes -/

section
variable {byte : UInt8}

theorem lead?_two (low : 0xC2 ≤ byte.toNat) (high : byte.toNat ≤ 0xDF) :
    lead? byte = some ⟨byte.toNat - 0xC0, [(0x80, 0xBF)]⟩ := by
  simp [lead?, low, high]

/-- The second of three bytes leaves out overlong forms and surrogates. -/
theorem lead?_three (low : 0xE0 ≤ byte.toNat) (high : byte.toNat ≤ 0xEF) :
    lead? byte = some ⟨byte.toNat - 0xE0, [(if byte.toNat = 0xE0 then 0xA0 else 0x80,
      if byte.toNat = 0xED then 0x9F else 0xBF), (0x80, 0xBF)]⟩ := by
  unfold lead?
  by_cases hfirst : byte.toNat = 0xE0
  · simp [hfirst]
  · by_cases hsurrogate : byte.toNat = 0xED
    · simp [hsurrogate]
    · have hshort : ¬ byte.toNat ≤ 0xDF := by omega
      have hbehind : 0xE1 ≤ byte.toNat := by omega
      simp [hfirst, hsurrogate, hshort, hbehind, high]

/-- The second of four bytes leaves out overlong forms and what lies beyond the last code point. -/
theorem lead?_four (low : 0xF0 ≤ byte.toNat) (high : byte.toNat ≤ 0xF4) :
    lead? byte = some ⟨byte.toNat - 0xF0, [(if byte.toNat = 0xF0 then 0x90 else 0x80,
      if byte.toNat = 0xF4 then 0x8F else 0xBF), (0x80, 0xBF), (0x80, 0xBF)]⟩ := by
  unfold lead?
  by_cases hfirst : byte.toNat = 0xF0
  · simp [hfirst]
  · by_cases hlast : byte.toNat = 0xF4
    · simp [hlast]
    · have hshort : ¬ byte.toNat ≤ 0xDF ∧ ¬ byte.toNat ≤ 0xEF ∧ byte.toNat ≠ 0xE0 ∧
          byte.toNat ≠ 0xED := by omega
      have hbetween : 0xF1 ≤ byte.toNat ∧ byte.toNat ≤ 0xF3 := by omega
      simp [hfirst, hlast, hshort, hbetween]

end

/-! ### Characters -/

/-- A code point of one byte is the byte. -/
theorem decodeFrom_one {n : Nat} (h : n ≤ 127) (rest : List UInt8) :
    decodeFrom .between (UInt8.ofNat n :: rest) = Char.ofNat n :: decodeFrom .between rest := by
  have hbyte := UInt8.toNat_ofNat_of_lt' (show n < 256 by omega)
  have hstart : advance .between (UInt8.ofNat n) = ([Char.ofNat n], .between) := by
    simp only [advance, start, hbyte, if_pos (show n < 0x80 by omega)]
  rw [decodeFrom, hstart]
  rfl

section
variable {n : Nat}

theorem decodeFrom_two (low : ¬ n ≤ 127) (high : n ≤ 2047) (rest : List UInt8) :
    decodeFrom .between ([UInt8.ofNat (n / 64 % 32 + 192), UInt8.ofNat (n % 64 + 128)] ++ rest) =
      Char.ofNat n :: decodeFrom .between rest := by
  have hfirst := UInt8.toNat_ofNat_of_lt' (show n / 64 % 32 + 192 < 256 by omega)
  have hlast := UInt8.toNat_ofNat_of_lt' (show n % 64 + 128 < 256 by omega)
  have hlead : lead? (UInt8.ofNat (n / 64 % 32 + 192)) = _ := lead?_two (by omega) (by omega)
  have hbits : [UInt8.ofNat (n % 64 + 128)].foldl addBits (n / 64 % 32 + 192 - 0xC0) = n := by
    simp only [List.foldl_cons, List.foldl_nil, addBits_eq, hlast]
    omega
  rw [hfirst] at hlead
  refine (decodeFrom_lead (by omega) hlead (.cons ⟨?_, ?_⟩ .nil) rest).trans (by rw [hbits])
  · omega
  · omega

theorem decodeFrom_three (low : ¬ n ≤ 2047) (high : n ≤ 65535) (valid : n < 0xD800 ∨ 0xDFFF < n)
    (rest : List UInt8) :
    decodeFrom .between ([UInt8.ofNat (n / 4096 % 16 + 224), UInt8.ofNat (n / 64 % 64 + 128),
        UInt8.ofNat (n % 64 + 128)] ++ rest) =
      Char.ofNat n :: decodeFrom .between rest := by
  have hfirst := UInt8.toNat_ofNat_of_lt' (show n / 4096 % 16 + 224 < 256 by omega)
  have hsecond := UInt8.toNat_ofNat_of_lt' (show n / 64 % 64 + 128 < 256 by omega)
  have hlast := UInt8.toNat_ofNat_of_lt' (show n % 64 + 128 < 256 by omega)
  have hlead : lead? (UInt8.ofNat (n / 4096 % 16 + 224)) = _ := lead?_three (by omega) (by omega)
  have hbits : [UInt8.ofNat (n / 64 % 64 + 128), UInt8.ofNat (n % 64 + 128)].foldl addBits
      (n / 4096 % 16 + 224 - 0xE0) = n := by
    simp only [List.foldl_cons, List.foldl_nil, addBits_eq, hsecond, hlast]
    omega
  rw [hfirst] at hlead
  refine (decodeFrom_lead (by omega) hlead (.cons ⟨?_, ?_⟩ (.cons ⟨?_, ?_⟩ .nil)) rest).trans
    (by rw [hbits])
  · -- what is below this would have fit into two bytes
    dsimp only
    split <;> omega
  · -- what is above this would be a surrogate
    dsimp only
    split <;> omega
  · omega
  · omega

theorem decodeFrom_four (low : ¬ n ≤ 65535) (high : n < 0x110000) (rest : List UInt8) :
    decodeFrom .between ([UInt8.ofNat (n / 262144 % 8 + 240), UInt8.ofNat (n / 4096 % 64 + 128),
        UInt8.ofNat (n / 64 % 64 + 128), UInt8.ofNat (n % 64 + 128)] ++ rest) =
      Char.ofNat n :: decodeFrom .between rest := by
  have hfirst := UInt8.toNat_ofNat_of_lt' (show n / 262144 % 8 + 240 < 256 by omega)
  have hsecond := UInt8.toNat_ofNat_of_lt' (show n / 4096 % 64 + 128 < 256 by omega)
  have hthird := UInt8.toNat_ofNat_of_lt' (show n / 64 % 64 + 128 < 256 by omega)
  have hlast := UInt8.toNat_ofNat_of_lt' (show n % 64 + 128 < 256 by omega)
  have hlead : lead? (UInt8.ofNat (n / 262144 % 8 + 240)) = _ := lead?_four (by omega) (by omega)
  have hbits : [UInt8.ofNat (n / 4096 % 64 + 128), UInt8.ofNat (n / 64 % 64 + 128),
      UInt8.ofNat (n % 64 + 128)].foldl addBits (n / 262144 % 8 + 240 - 0xF0) = n := by
    simp only [List.foldl_cons, List.foldl_nil, addBits_eq, hsecond, hthird, hlast]
    omega
  rw [hfirst] at hlead
  refine (decodeFrom_lead (by omega) hlead
    (.cons ⟨?_, ?_⟩ (.cons ⟨?_, ?_⟩ (.cons ⟨?_, ?_⟩ .nil))) rest).trans (by rw [hbits])
  · -- what is below this would have fit into three bytes
    dsimp only
    split <;> omega
  · -- what is above this would lie beyond the last code point
    dsimp only
    split <;> omega
  · omega
  · omega
  · omega
  · omega

end

/-- **A character is read back**, and reading goes on behind its bytes. -/
theorem decodeFrom_encodeChar (c : Char) (rest : List UInt8) :
    decodeFrom .between (String.utf8EncodeChar c ++ rest) = c :: decodeFrom .between rest := by
  have hvalid : c.val.toNat < 0xD800 ∨ 0xDFFF < c.val.toNat ∧ c.val.toNat < 0x110000 := c.valid
  have hchar : Char.ofNat c.val.toNat = c := c.ofNat_toNat
  unfold String.utf8EncodeChar
  generalize c.val.toNat = n at hvalid hchar
  rw [← hchar]
  dsimp only
  split
  · exact decodeFrom_one ‹_› rest
  · split
    · exact decodeFrom_two ‹_› ‹_› rest
    · split
      · exact decodeFrom_three ‹_› ‹_› (hvalid.imp_right And.left) rest
      · exact decodeFrom_four ‹_› (by omega) rest

theorem decodeFrom_encode (chars : List Char) (rest : List UInt8) :
    decodeFrom .between (chars.flatMap String.utf8EncodeChar ++ rest) =
      chars ++ decodeFrom .between rest := by
  induction chars with
  | nil => rfl
  | cons c chars ih =>
    rw [List.flatMap_cons, List.append_assoc, decodeFrom_encodeChar, ih]
    rfl

/-- **A text is read back.** -/
theorem decode_encode (text : String) : decode (encode text) = text := by
  have hchars := decodeFrom_encode text.toList []
  rw [List.append_nil] at hchars
  rw [decode, encode, hchars]
  exact (congrArg String.ofList (List.append_nil _)).trans (String.ofList_toList)

theorem length_encode (text : String) : (encode text).length = text.utf8ByteSize := by
  rw [String.utf8ByteSize, ← String.utf8Encode_toList, List.utf8Encode, List.size_toByteArray]
  rfl

/-! ### Zero bytes -/

theorem zero_ne_byte {n : Nat} (pos : 0 < n) (h : n < 256) : 0 ≠ UInt8.ofNat n := by
  intro heq
  have hbyte := UInt8.toNat_ofNat_of_lt' h
  rw [← heq] at hbyte
  exact Nat.ne_of_lt pos hbyte

/-- Only the zero character has a zero byte. -/
theorem zero_not_mem_encodeChar {c : Char} (h : c ≠ Char.ofNat 0) : 0 ∉ String.utf8EncodeChar c := by
  have hpos : 0 < c.val.toNat := by
    rw [Nat.pos_iff_ne_zero]
    intro hzero
    exact h (hzero ▸ c.ofNat_toNat.symm)
  unfold String.utf8EncodeChar
  generalize c.val.toNat = n at hpos
  dsimp only
  split
  · simpa using zero_ne_byte hpos (by omega)
  · -- the bytes of a longer character all have their highest bit set
    have hhigh : ∀ m < 128, 0 ≠ UInt8.ofNat (m + 128) := fun m hm => zero_ne_byte (by omega) (by omega)
    have hlead : ∀ m < 64, 0 ≠ UInt8.ofNat (m + 192) := fun m hm => hhigh (m + 64) (by omega)
    split
    · simp only [List.mem_cons, List.not_mem_nil, or_false, not_or]
      exact ⟨hlead _ (by omega), hhigh _ (by omega)⟩
    · split
      · simp only [List.mem_cons, List.not_mem_nil, or_false, not_or]
        exact ⟨hlead (n / 4096 % 16 + 32) (by omega), hhigh _ (by omega), hhigh _ (by omega)⟩
      · simp only [List.mem_cons, List.not_mem_nil, or_false, not_or]
        exact ⟨hlead (n / 262144 % 8 + 48) (by omega), hhigh _ (by omega), hhigh _ (by omega),
          hhigh _ (by omega)⟩

/-- A text without the zero character has no zero byte. -/
theorem zero_not_mem_encode {text : String} (h : Char.ofNat 0 ∉ text.toList) : 0 ∉ encode text := by
  intro hmem
  obtain ⟨c, hc, hzero⟩ := List.mem_flatMap.mp hmem
  exact zero_not_mem_encodeChar (fun heq => h (heq ▸ hc)) hzero

end ScopedMemory.Text.Utf8
