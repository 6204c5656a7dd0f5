import ScopedMemory.Proofs.Atomicity
import ScopedMemory.Proofs.Derivation

/-! Copies.

A copy goes byte by byte through memory that it changes as it goes. What arrives is what the source
held before the copy, however the two ranges lie to each other. -/
namespace ScopedMemory

/-- A segment over an array was made from one over the whole array. -/
def Segment.Genuine (x : Segment) : Prop :=
  ∀ array, x.backing = .heap array → ∃ s : State, (s.overArray array).1.Derived x

/-- Offsets into an array do not go round. -/
theorem Segment.Genuine.unwrapped {x : Segment} (h : x.Genuine) {offset length : Word}
    (array : x.space ≠ .native) (fits : offset.toNat + length.toNat ≤ x.size.toNat) :
    (x.address + offset).toNat + length.toNat ≤ Word.limit := by
  cases hb : x.backing with
  | heap whole =>
    obtain ⟨s, hderived⟩ := h whole hb
    obtain ⟨start, hstart, hinside⟩ := hderived.partOf.inside
    rw [show x.address = start from hstart.trans (UInt64.zero_add start)]
    have hend := Word.toNat_lt (s.overArray whole).1.size
    have hsum : (start + offset).toNat ≤ start.toNat + offset.toNat := by
      rw [UInt64.toNat_add]
      exact Nat.mod_le _ _
    omega
  | native => exact absurd (by rw [Segment.space, hb]; rfl) array
  | mapped m => exact absurd (by rw [Segment.space, hb]; rfl) array

namespace State

section
variable {s s' : State} {t : Thread} {source target : Segment}
  {sourceOffset targetOffset length : Word}

theorem copy_ok (h : s.copy t source sourceOffset target targetOffset length = .ok s') :
    (sourceOffset.toNat + length.toNat ≤ source.size.toNat ∧
      targetOffset.toNat + length.toNat ≤ target.size.toNat) ∧
    s' = { s with
      memory := s.memory.move source.space (source.address + sourceOffset) target.space
        (target.address + targetOffset) length.toNat } := by
  obtain ⟨⟨⟩, hsource, h⟩ := bind_eq_ok.mp h
  obtain ⟨⟨⟩, htarget, h⟩ := bind_eq_ok.mp h
  exact ⟨⟨(check_ok hsource).2.1, (check_ok htarget).2.1⟩, (pure_eq_ok.mp h).symm⟩

/-- **A copy is made as if through a buffer.** Every byte of the target's range is the byte that the
source's range held at the start, in whatever direction and by however much the ranges meet, and no
other byte of memory changes. Ranges of native memory must not go round the address space. -/
theorem copy_moves_initial_bytes (genuine : source.Genuine ∧ target.Genuine)
    (unwrapped : source.space = .native → target.space = .native →
      (source.address + sourceOffset).toNat + length.toNat ≤ Word.limit ∧
        (target.address + targetOffset).toNat + length.toNat ≤ Word.limit)
    (h : s.copy t source sourceOffset target targetOffset length = .ok s') :
    ∃ memory, s' = { s with memory } ∧
      (∀ i < length.toNat,
        memory.read target.space (target.address + targetOffset + UInt64.ofNat i) =
          s.memory.read source.space (source.address + sourceOffset + UInt64.ofNat i)) ∧
      ∀ space address, ¬ target.Spans targetOffset.toNat length.toNat space address →
        memory.read space address = s.memory.read space address := by
  obtain ⟨⟨hsource, htarget⟩, hmemory⟩ := copy_ok h
  have hranges : source.space = target.space →
      (source.address + sourceOffset).toNat + length.toNat ≤ Word.limit ∧
        (target.address + targetOffset).toNat + length.toNat ≤ Word.limit := by
    intro hspace
    by_cases hnative : source.space = .native
    · exact unwrapped hnative (hspace ▸ hnative)
    · exact ⟨genuine.1.unwrapped hnative hsource, genuine.2.unwrapped (hspace ▸ hnative) htarget⟩
  obtain ⟨hmoved, hother⟩ :=
    Memory.read_move (m := s.memory) (Nat.le_of_lt (Word.toNat_lt length)) fun hspace _ =>
      hranges hspace
  refine ⟨_, hmemory, hmoved, fun space address houtside => ?_⟩
  refine hother space address fun i hi hspace haddress => houtside ⟨hspace, i, hi, ?_⟩
  rw [haddress, UInt64.ofNat_add, UInt64.ofNat_toNat, UInt64.add_assoc]

end

/-- The segment over the four bytes. -/
def fourBytesSegment : Segment := ⟨0, 4, .heap ⟨0, .ubyte, 4⟩, false, 1⟩

theorem fourBytesSegment_genuine : fourBytesSegment.Genuine := by
  intro array harray
  cases harray
  exact ⟨.initial .bump, .refl⟩

/-- Three bytes of four, moved up by one and moved down by one. -/
theorem copy_moves_initial_bytes_overlapping :
    (∃ up, fourBytes.copy 1 fourBytesSegment 0 fourBytesSegment 1 3 = .ok up ∧
      up.memory.bytes (.array 0) 0 4 = [1, 1, 2, 3]) ∧
    ∃ down, fourBytes.copy 1 fourBytesSegment 1 fourBytesSegment 0 3 = .ok down ∧
      down.memory.bytes (.array 0) 0 4 = [2, 3, 4, 4] := by
  have hfour : ∀ m : Memory, m.bytes (.array 0) 0 4 = [m.read (.array 0) 0, m.read (.array 0) 1,
    m.read (.array 0) 2, m.read (.array 0) 3] := fun _ => rfl
  have hgenuine : fourBytesSegment.Genuine ∧ fourBytesSegment.Genuine :=
    ⟨fourBytesSegment_genuine, fourBytesSegment_genuine⟩
  constructor
  · have hoff : ∀ i < 3, (0 : Word) ≠ fourBytesSegment.address + UInt64.ofNat (1 + i) := by decide
    obtain ⟨up, hup⟩ : ∃ up, fourBytes.copy 1 fourBytesSegment 0 fourBytesSegment 1 3 = .ok up :=
      ⟨_, rfl⟩
    obtain ⟨memory, rfl, hmoved, hother⟩ := copy_moves_initial_bytes hgenuine (fun h => by cases h) hup
    have hkept : memory.read (.array 0) 0 = 1 := by
      refine hother (.array 0) 0 ?_
      rintro ⟨-, i, hi, haddress⟩
      exact hoff i hi haddress
    have hone : memory.read (.array 0) 1 = 1 := hmoved 0 (by decide)
    have htwo : memory.read (.array 0) 2 = 2 := hmoved 1 (by decide)
    have hthree : memory.read (.array 0) 3 = 3 := hmoved 2 (by decide)
    refine ⟨_, hup, ?_⟩
    rw [hfour, hkept, hone, htwo, hthree]
  · have hoff : ∀ i < 3, (3 : Word) ≠ fourBytesSegment.address + UInt64.ofNat (0 + i) := by decide
    obtain ⟨down, hdown⟩ : ∃ down, fourBytes.copy 1 fourBytesSegment 1 fourBytesSegment 0 3 = .ok down :=
      ⟨_, rfl⟩
    obtain ⟨memory, rfl, hmoved, hother⟩ := copy_moves_initial_bytes hgenuine (fun h => by cases h) hdown
    have hkept : memory.read (.array 0) 3 = 4 := by
      refine hother (.array 0) 3 ?_
      rintro ⟨-, i, hi, haddress⟩
      exact hoff i hi haddress
    have hzero : memory.read (.array 0) 0 = 2 := hmoved 0 (by decide)
    have hone : memory.read (.array 0) 1 = 3 := hmoved 1 (by decide)
    have htwo : memory.read (.array 0) 2 = 4 := hmoved 2 (by decide)
    refine ⟨_, hdown, ?_⟩
    rw [hfour, hzero, hone, htwo, hkept]

end State

end ScopedMemory
