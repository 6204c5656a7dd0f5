import ScopedMemory.Proofs.Filling
import ScopedMemory.Proofs.Reading

/-! Comparing ranges.

Two lists of bytes that differ have a longest common front (`Bytes.LongestFront`); its length is
where they differ first, or where the shorter one ends. The comparison of two ranges scans them side
by side up to there. It answers what the lists of their bytes say (`State.mismatchRange_checked`),
and has looked at no byte behind the first difference. -/
namespace ScopedMemory

namespace Bytes
variable {xs ys : List UInt8}

/-- What two lists have in common at their front. -/
structure LongestFront (xs ys front : List UInt8) : Prop where
  left : front <+: xs
  right : front <+: ys
  longest : ∀ other, other <+: xs → other <+: ys → other <+: front

/-- The length of the longest common front. -/
def commonLength : List UInt8 → List UInt8 → Nat
  | x :: xs, y :: ys => if x = y then commonLength xs ys + 1 else 0
  | _, _ => 0

/-- Where two lists differ; where one is the front of the other, they differ at its end. -/
def mismatch? (xs ys : List UInt8) : Option Nat :=
  if xs = ys then none else some (commonLength xs ys)

theorem commonLength_le (xs ys : List UInt8) :
    commonLength xs ys ≤ xs.length ∧ commonLength xs ys ≤ ys.length := by
  fun_induction commonLength xs ys with
  | case1 x xs ys ih => exact ih.imp Nat.succ_le_succ Nat.succ_le_succ
  | case2 x xs y ys hne => exact ⟨Nat.zero_le _, Nat.zero_le _⟩
  | case3 xs ys hnot => exact ⟨Nat.zero_le _, Nat.zero_le _⟩

theorem longestFront_take (xs ys : List UInt8) :
    LongestFront xs ys (xs.take (commonLength xs ys)) := by
  fun_induction commonLength xs ys with
  | case1 x xs ys ih =>
    refine ⟨List.take_prefix _ _, List.cons_prefix_cons.mpr ⟨rfl, ih.right⟩, ?_⟩
    intro other hother hother'
    cases other with
    | nil => exact List.nil_prefix
    | cons first rest =>
      obtain ⟨rfl, hrest⟩ := List.cons_prefix_cons.mp hother
      obtain ⟨-, hrest'⟩ := List.cons_prefix_cons.mp hother'
      exact List.cons_prefix_cons.mpr ⟨rfl, ih.longest rest hrest hrest'⟩
  | case2 x xs y ys hne =>
    refine ⟨List.nil_prefix, List.nil_prefix, ?_⟩
    intro other hother hother'
    cases other with
    | nil => exact List.nil_prefix
    | cons first rest =>
      obtain ⟨rfl, -⟩ := List.cons_prefix_cons.mp hother
      obtain ⟨rfl, -⟩ := List.cons_prefix_cons.mp hother'
      exact absurd rfl hne
  | case3 xs ys hnot =>
    refine ⟨List.nil_prefix, List.nil_prefix, ?_⟩
    intro other hother hother'
    cases other with
    | nil => exact List.nil_prefix
    | cons first rest =>
      -- One of the two is empty, and has no front but itself.
      obtain ⟨more, rfl⟩ := hother
      obtain ⟨more', rfl⟩ := hother'
      exact (hnot _ _ _ _ rfl rfl).elim

theorem commonLength_self (xs : List UInt8) : commonLength xs xs = xs.length := by
  induction xs with
  | nil => rfl
  | cons x xs ih => rw [commonLength, if_pos rfl, ih, List.length_cons]

theorem commonLength_comm (xs ys : List UInt8) : commonLength xs ys = commonLength ys xs := by
  fun_induction commonLength xs ys with
  | case1 x xs ys ih => rw [commonLength, if_pos rfl, ih]
  | case2 x xs y ys hne => rw [commonLength, if_neg (Ne.symm hne)]
  | case3 xs ys hnot =>
    unfold commonLength
    split
    · exact (hnot _ _ _ _ rfl rfl).elim
    · rfl

/-- Cut to one length, lists have the less in common. -/
theorem commonLength_take (n : Nat) (xs ys : List UInt8) :
    commonLength (xs.take n) (ys.take n) = min n (commonLength xs ys) := by
  induction n generalizing xs ys with
  | zero => rw [List.take_zero, List.take_zero, Nat.zero_min, commonLength_self, List.length_nil]
  | succ n ih =>
    match xs, ys with
    | [], _ => rfl
    | x :: xs, [] => rfl
    | x :: xs, y :: ys =>
      rw [List.take_succ_cons, List.take_succ_cons, commonLength, commonLength, ih]
      split
      · exact (Nat.succ_min_succ n _).symm
      · rfl

/-- Lists of one length that have all of it in common are equal. -/
theorem eq_iff_commonLength (xs ys : List UInt8) :
    xs = ys ↔ xs.length = ys.length ∧ commonLength xs ys = xs.length := by
  constructor
  · rintro rfl
    exact ⟨rfl, commonLength_self xs⟩
  · rintro ⟨hlength, hall⟩
    have hfront := (longestFront_take xs ys).right
    rw [hall, List.take_length] at hfront
    exact hfront.eq_of_length hlength

theorem mismatch?_comm (xs ys : List UInt8) : mismatch? xs ys = mismatch? ys xs := by
  unfold mismatch?
  rw [commonLength_comm]
  by_cases h : xs = ys
  · rw [if_pos h, if_pos h.symm]
  · rw [if_neg h, if_neg (Ne.symm h)]

theorem mismatch?_eq_none : mismatch? xs ys = none ↔ xs = ys := by
  simp [mismatch?]

theorem mismatch?_eq_some {k : Nat} (h : mismatch? xs ys = some k) :
    xs ≠ ys ∧ commonLength xs ys = k := by
  unfold mismatch? at h
  split at h
  · cases h
  · exact ⟨‹_›, Option.some.inj h⟩

/-- Lists differ behind all that they have in common. -/
theorem longestFront_of_mismatch? {k : Nat} (h : mismatch? xs ys = some k) :
    ∃ front, LongestFront xs ys front ∧ front.length = k := by
  obtain ⟨-, rfl⟩ := mismatch?_eq_some h
  refine ⟨_, longestFront_take xs ys, ?_⟩
  rw [List.length_take, Nat.min_eq_left (commonLength_le xs ys).1]

/-- Where lists differ that are not too long, a word can say it. -/
theorem mismatch?_toNat {k : Word} (short : xs.length < Word.limit)
    (h : (mismatch? xs ys).map UInt64.ofNat = some k) : mismatch? xs ys = some k.toNat := by
  obtain ⟨common, hcommon, rfl⟩ := Option.map_eq_some_iff.mp h
  have hle := (commonLength_le xs ys).1
  rw [(mismatch?_eq_some hcommon).2] at hle
  rw [hcommon, UInt64.toNat_ofNat_of_lt' (Nat.lt_of_le_of_lt hle short)]

/-- **A difference is found in all lists that begin as these do**, up to and with the place where
these differ. -/
theorem mismatch?_of_take {xs' ys' : List UInt8} {k : Nat} (h : mismatch? xs ys = some k)
    (hxs : xs'.take (k + 1) = xs.take (k + 1)) (hys : ys'.take (k + 1) = ys.take (k + 1)) :
    mismatch? xs' ys' = some k := by
  obtain ⟨hne, hcommon⟩ := mismatch?_eq_some h
  have hcut := commonLength_take (k + 1) xs' ys'
  rw [hxs, hys, commonLength_take, hcommon] at hcut
  have hcommon' : commonLength xs' ys' = k := by omega
  have hne' : xs' ≠ ys' := by
    intro heq
    have hall := ((eq_iff_commonLength xs' ys').mp heq).2
    -- Then these would have ended here, too, and would be equal.
    rw [← heq, hxs] at hys
    have hleft := congrArg List.length hxs
    have hright := congrArg List.length hys
    simp only [List.length_take] at hleft hright
    exact hne ((eq_iff_commonLength xs ys).mpr ⟨by omega, by omega⟩)
  rw [mismatch?, if_neg hne', hcommon']

end Bytes

namespace Memory

/-- The scan finds the end of what the ranges have in common, unless that is all. -/
theorem differFrom_eq (m : Memory) (space : Space) (here : Word) (space' : Space) (there : Word)
    (seen count : Nat) :
    m.differFrom space here space' there seen count =
      let common := Bytes.commonLength (m.bytes space here count) (m.bytes space' there count)
      if common = count then none else some (seen + common) := by
  induction count generalizing here there seen with
  | zero => rfl
  | succ count ih =>
    rw [differFrom, bytes_succ, bytes_succ, Bytes.commonLength]
    by_cases hsame : m.read space here = m.read space' there
    · rw [if_neg (not_not.mpr hsame), if_pos hsame, ih]
      simp only [Nat.add_right_cancel_iff]
      split
      · rfl
      · rw [Nat.add_right_comm, Nat.add_assoc]
    · rw [if_pos hsame, if_neg hsame, if_neg (Nat.zero_ne_add_one count), Nat.add_zero]

end Memory

namespace State
variable {s : State} {t : Thread} {x y : Segment} {xStart xStop yStart yStop xLength yLength : Word}

theorem rangeLength_ok (h : rangeLength x xStart xStop = .ok xLength) :
    xStart.toNat + xLength.toNat = xStop.toNat := by
  unfold rangeLength at h
  split at h
  · rename_i length hlength
    obtain rfl := Except.ok.inj h
    exact Word.sub?_eq_some_iff.mp hlength
  · cases h

theorem bytesAt_take (s : State) (x : Segment) (offset : Word) {fewer count : Nat}
    (h : fewer ≤ count) : (s.bytesAt x offset count).take fewer = s.bytesAt x offset fewer :=
  Memory.bytes_take s.memory x.space (x.address + offset) h

/-- The scan of two ranges up to the end of the shorter one. -/
theorem firstDifference?_ranges (s : State) (x y : Segment) (xStart yStart : Word)
    (xLength yLength : Nat) :
    s.memory.firstDifference? x.space (x.address + xStart) y.space (y.address + yStart)
        (min xLength yLength) =
      let common := Bytes.commonLength (s.bytesAt x xStart xLength) (s.bytesAt y yStart yLength)
      if common = min xLength yLength then none else some common := by
  obtain ⟨hx, hy⟩ := Bytes.commonLength_le (s.bytesAt x xStart xLength) (s.bytesAt y yStart yLength)
  rw [length_bytesAt] at hx hy
  have hcommon := Bytes.commonLength_take (min xLength yLength) (s.bytesAt x xStart xLength)
    (s.bytesAt y yStart yLength)
  rw [bytesAt_take s x xStart (Nat.min_le_left xLength yLength),
    bytesAt_take s y yStart (Nat.min_le_right xLength yLength),
    Nat.min_eq_right (Nat.le_min.mpr ⟨hx, hy⟩)] at hcommon
  rw [Memory.firstDifference?, Memory.differFrom_eq]
  dsimp only
  rw [← hcommon, Nat.zero_add]
  rfl

/-- **The answer** for two ranges that can be read. -/
theorem mismatchRange_checked (hx : rangeLength x xStart xStop = .ok xLength)
    (hy : rangeLength y yStart yStop = .ok yLength)
    (cx : s.check t x xStart xLength 1 .read = .ok ())
    (cy : s.check t y yStart yLength 1 .read = .ok ()) :
    s.mismatchRange t x xStart xStop y yStart yStop =
      .ok ((Bytes.mismatch? (s.bytesAt x xStart xLength.toNat)
        (s.bytesAt y yStart yLength.toNat)).map UInt64.ofNat) := by
  have hscan := firstDifference?_ranges s x y xStart yStart xLength.toNat yLength.toNat
  have hequal := Bytes.eq_iff_commonLength (s.bytesAt x xStart xLength.toNat)
    (s.bytesAt y yStart yLength.toNat)
  rw [length_bytesAt, length_bytesAt] at hequal
  simp only [mismatchRange, hx, hy, cx, cy, Word.toNat_min, hscan, bind, Except.bind, Bytes.mismatch?]
  generalize Bytes.commonLength (s.bytesAt x xStart xLength.toNat)
    (s.bytesAt y yStart yLength.toNat) = common at *
  by_cases hall : common = min xLength.toNat yLength.toNat
  · rw [if_pos hall]
    by_cases hlength : xLength = yLength
    · rw [if_pos (hequal.mpr ⟨congrArg _ hlength, by rw [hall, hlength, Nat.min_self]⟩)]
      simp [hlength, pure, Except.pure]
    · have hne : xLength.toNat ≠ yLength.toNat := fun heq => hlength (UInt64.toNat_inj.mp heq)
      rw [if_neg (fun heq => hne (hequal.mp heq).1), hall, ← Word.toNat_min]
      simp [hlength, pure, Except.pure]
  · have hne : common = xLength.toNat → xLength.toNat ≠ yLength.toNat := by omega
    rw [if_neg hall, if_neg (fun heq => hne (hequal.mp heq).2 (hequal.mp heq).1)]
    rfl

/-- A comparison that answers has found both ranges in order. -/
theorem checked_of_mismatchRange {result : Option Word}
    (h : s.mismatchRange t x xStart xStop y yStart yStop = .ok result) :
    ∃ xLength yLength, rangeLength x xStart xStop = .ok xLength ∧
      rangeLength y yStart yStop = .ok yLength ∧ s.check t x xStart xLength 1 .read = .ok () ∧
      s.check t y yStart yLength 1 .read = .ok () := by
  obtain ⟨xLength, hx, h⟩ := bind_eq_ok.mp h
  obtain ⟨yLength, hy, h⟩ := bind_eq_ok.mp h
  obtain ⟨⟨⟩, cx, h⟩ := bind_eq_ok.mp h
  obtain ⟨⟨⟩, cy, -⟩ := bind_eq_ok.mp h
  exact ⟨xLength, yLength, hx, hy, cx, cy⟩

/-- The first bytes of a range, in a memory that agrees on them. -/
theorem bytesAt_of_agree {memory : Memory} {offset : Word} {n count : Nat}
    (h : s.memory.Agree memory x.space (x.address + offset)
      (min n (s.bytesAt x offset count).length)) :
    (({ s with memory } : State).bytesAt x offset count).take n =
      (s.bytesAt x offset count).take n := by
  rw [length_bytesAt] at h
  rw [List.take_eq_take_min, length_bytesAt, bytesAt_take _ x offset (Nat.min_le_right n count),
    List.take_eq_take_min, length_bytesAt, bytesAt_take s x offset (Nat.min_le_right n count)]
  exact h.bytes

/-- **Two ranges are compared.** The answer is nothing exactly if they hold the same bytes, and else
the length of what they have in common at their front. It depends on no byte behind that place, and
not on which range comes first. -/
theorem mismatch_meets_reference {result : Option Word}
    (h : s.mismatchRange t x xStart xStop y yStart yStop = .ok result) :
    let xs := s.bytesAt x xStart (xStop.toNat - xStart.toNat)
    let ys := s.bytesAt y yStart (yStop.toNat - yStart.toNat)
    (result = none ↔ xs = ys) ∧
    (∀ k, result = some k → ∃ front, Bytes.LongestFront xs ys front ∧ front.length = k.toNat) ∧
    s.mismatchRange t y yStart yStop x xStart xStop = .ok result ∧
    s.mismatchRange t x xStart xStop x xStart xStop = .ok none ∧
    ∀ k memory, result = some k →
      s.memory.Agree memory x.space (x.address + xStart) (min (k.toNat + 1) xs.length) →
      s.memory.Agree memory y.space (y.address + yStart) (min (k.toNat + 1) ys.length) →
      ({ s with memory } : State).mismatchRange t x xStart xStop y yStart yStop =
        .ok (some k) := by
  obtain ⟨xLength, yLength, hx, hy, cx, cy⟩ := checked_of_mismatchRange h
  have hxLength : xStop.toNat - xStart.toNat = xLength.toNat := by
    rw [← rangeLength_ok hx, Nat.add_sub_cancel_left]
  have hyLength : yStop.toNat - yStart.toNat = yLength.toNat := by
    rw [← rangeLength_ok hy, Nat.add_sub_cancel_left]
  rw [mismatchRange_checked hx hy cx cy] at h
  obtain rfl := Except.ok.inj h
  rw [hxLength, hyLength]
  intro xs ys
  have hshort : xs.length < Word.limit :=
    Nat.lt_of_le_of_lt (Nat.le_of_eq (length_bytesAt s x xStart _)) (Word.toNat_lt xLength)
  refine ⟨?_, ?_, ?_, ?_, ?_⟩
  · rw [Option.map_eq_none_iff, Bytes.mismatch?_eq_none]
  · exact fun k hk => Bytes.longestFront_of_mismatch? (Bytes.mismatch?_toNat hshort hk)
  · rw [mismatchRange_checked hy hx cy cx, Bytes.mismatch?_comm]
  · rw [mismatchRange_checked hx hx cx cx, Bytes.mismatch?_eq_none.mpr rfl]
    rfl
  · intro k memory hk hxs hys
    have cx' : ({ s with memory } : State).check t x xStart xLength 1 .read = .ok () := cx
    have cy' : ({ s with memory } : State).check t y yStart yLength 1 .read = .ok () := cy
    have hfound := Bytes.mismatch?_of_take (Bytes.mismatch?_toNat hshort hk) (bytesAt_of_agree hxs)
      (bytesAt_of_agree hys)
    rw [mismatchRange_checked hx hy cx' cy', hfound, Option.map_some, UInt64.ofNat_toNat]

/-- Two segments without bounds differ in their third byte, whatever lies behind it. -/
theorem mismatch_meets_reference_unbounded :
    let x : Segment := ⟨16, Word.last, .native, false, processScope⟩
    let y : Segment := ⟨32, Word.last, .native, false, processScope⟩
    let s := (initial .bump).store x 0 [1, 2, 3]
    let s := s.store y 0 [1, 2, 4]
    s.mismatchRange 1 x 0 Word.last y 0 Word.last = .ok (some 2) ∧
    s.mismatchRange 1 y 0 Word.last x 0 Word.last = .ok (some 2) ∧
    ({ s with memory := s.memory.fill .native 35 1000 7 } : State).mismatchRange 1 x 0 Word.last
      y 0 Word.last = .ok (some 2) := by
  intro x y s₁ s
  have h : s.mismatchRange 1 x 0 Word.last y 0 Word.last = .ok (some 2) := by decide +kernel
  obtain ⟨-, -, hswapped, -, hlazy⟩ := mismatch_meets_reference h
  have hx : s.memory.Agree (s.memory.fill .native 35 1000 7) .native (16 + 0) 3 := by
    unfold Memory.Agree
    decide +kernel
  have hy : s.memory.Agree (s.memory.fill .native 35 1000 7) .native (32 + 0) 3 := by
    unfold Memory.Agree
    decide +kernel
  exact ⟨h, hswapped,
    hlazy 2 _ rfl (hx.mono (Nat.min_le_left _ _)) (hy.mono (Nat.min_le_left _ _))⟩

end State

end ScopedMemory
