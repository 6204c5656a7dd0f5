import ScopedMemory.Allocation
import ScopedMemory.Program.Query
import ScopedMemory.Proofs.Obtaining
import ScopedMemory.Proofs.Rounding

/-! The slicing allocator.

One allocation rounds the address after what is used up and takes a slice there
(`Carver.bump_eq_ok_iff`). Over any calls, the slices given out since the allocator last started
over lie one behind the other below what is used. Addresses are rounded and not offsets, but over a
base that is aligned for a struct that makes no difference, and the members of the struct come to
lie where the struct has them. -/
namespace ScopedMemory

theorem Alignment.ofBytes_bytes (a : Alignment) : Alignment.ofBytes a.bytes = .ok a := by
  rw [Alignment.ofBytes, Alignment.ofBytes?_bytes]

namespace State
variable {s : State} {x y : Segment} {offset size : Word} {a : Alignment}

theorem slice_eq_ok_iff : s.slice x offset size a.bytes = .ok y ↔
    s.isAlive x.scope = true ∧ offset.toNat + size.toNat ≤ x.size.toNat ∧
      x.checkAlignment offset a.bytes = .ok () ∧ y = x.part offset size := by
  rw [slice, Alignment.ofBytes_bytes]
  constructor
  · intro h
    obtain ⟨-, -, h⟩ := bind_eq_ok.mp h
    obtain ⟨⟨⟩, halive, h⟩ := bind_eq_ok.mp h
    obtain ⟨⟨⟩, hbounds, h⟩ := bind_eq_ok.mp h
    obtain ⟨⟨⟩, haligned, h⟩ := bind_eq_ok.mp h
    exact ⟨checkAlive_eq_ok.mp halive, Segment.checkBounds_eq_ok.mp hbounds, haligned,
      (pure_eq_ok.mp h).symm⟩
  · rintro ⟨halive, hbounds, haligned, rfl⟩
    refine bind_eq_ok.mpr ⟨a, rfl, bind_eq_ok.mpr ⟨(), checkAlive_eq_ok.mpr halive, ?_⟩⟩
    refine bind_eq_ok.mpr ⟨(), Segment.checkBounds_eq_ok.mpr hbounds, ?_⟩
    exact bind_eq_ok.mpr ⟨(), haligned, rfl⟩

end State

/-- The elements under the segment are wide enough for the alignment. Native memory always is. -/
def Segment.Admits (x : Segment) (a : Alignment) : Prop :=
  ∀ array, x.backing = .heap array → a.bytes ≤ array.element.width

namespace Carver
variable {s : State} {x y : Segment} {used used' size alignment : Word} {a : Alignment}

/-- The address after what is used is rounded up exactly, where the outcome is an address. -/
theorem roundUp?_used_eq_some_iff {address : Word} :
    (x.address.add? used).bind a.roundUp? = some address ↔
      a.ceil (x.address.toNat + used.toNat) = address.toNat := by
  rw [Option.bind_eq_some_iff]
  constructor
  · rintro ⟨sum, hsum, haddress⟩
    rw [Word.add?_eq_some_iff.mp hsum]
    exact Alignment.roundUp?_eq_some_iff.mp haddress
  · intro haddress
    have hle := a.le_ceil (x.address.toNat + used.toNat)
    have hsum : (x.address + used).toNat = x.address.toNat + used.toNat :=
      (UInt64.toNat_add _ _).trans
        (Nat.mod_eq_of_lt (Nat.lt_of_le_of_lt (haddress ▸ hle) (Word.toNat_lt address)))
    refine ⟨x.address + used, Word.add?_eq_some_iff.mpr hsum.symm, ?_⟩
    exact Alignment.roundUp?_eq_some_iff.mpr (by rw [hsum]; exact haddress)

theorem bytes_of_bump {r : Segment × Word} (h : bump s x used size alignment = .ok r) :
    ∃ a : Alignment, a.bytes = alignment := by
  unfold bump at h
  split at h
  · exact ⟨_, Alignment.bytes_of_ofBytes? ‹_›⟩
  · exact absurd h throw_ne_ok

/-- **What an allocation gives**: the bytes at the first aligned address after those used, counted
from the start of the base, when the base has them. -/
theorem bump_eq_ok_iff : bump s x used size a.bytes = .ok (y, used') ↔
    s.isAlive x.scope = true ∧ x.Admits a ∧ ∃ start : Word,
      a.ceil (x.address.toNat + used.toNat) = x.address.toNat + start.toNat ∧
      x.address.toNat + start.toNat < Word.limit ∧ start.toNat + size.toNat ≤ x.size.toNat ∧
      y = x.part start size ∧ used'.toNat = start.toNat + size.toNat := by
  unfold bump
  rw [Alignment.ofBytes?_bytes]
  constructor
  · intro h
    dsimp only at h
    split at h
    · rename_i address haddress
      obtain ⟨slice, hslice, h⟩ := bind_eq_ok.mp h
      obtain ⟨rfl, rfl⟩ := Prod.mk.inj (pure_eq_ok.mp h)
      obtain ⟨halive, hbounds, haligned, rfl⟩ := State.slice_eq_ok_iff.mp (liftAccess_eq_ok.mp hslice)
      have hceil := roundUp?_used_eq_some_iff.mp haddress
      have hle := a.le_ceil (x.address.toNat + used.toNat)
      have hback : x.address ≤ address := UInt64.le_iff_toNat_le.mpr (by omega)
      have hstart : (address - x.address).toNat = address.toNat - x.address.toNat :=
        UInt64.toNat_sub_of_le _ _ hback
      have hword := Word.toNat_lt address
      have hsize := Word.toNat_lt x.size
      refine ⟨halive, fun array harray => ?_, address - x.address, by omega, by omega, hbounds, rfl, ?_⟩
      · exact UInt64.not_lt.mp ((Segment.checkAlignment_eq_ok.mp haligned).1 array harray)
      · exact (UInt64.toNat_add _ _).trans (Nat.mod_eq_of_lt (Nat.lt_of_le_of_lt hbounds hsize))
    · exact absurd h throw_ne_ok
  · rintro ⟨halive, hwide, start, hceil, hword, hbounds, rfl, hused⟩
    have haddress : (x.address + start).toNat = x.address.toNat + start.toNat :=
      (UInt64.toNat_add _ _).trans (Nat.mod_eq_of_lt hword)
    have hback : x.address + start - x.address = start := by grind
    have haligned : x.checkAlignment start a.bytes = .ok () := by
      refine Segment.checkAlignment_eq_ok.mpr ⟨fun array harray => ?_, ?_⟩
      · exact UInt64.not_lt.mpr (hwide array harray)
      · rw [Word.offAlignment_eq_false_iff, haddress, ← hceil, ← Alignment.toNat_bytes]
        exact a.dvd_ceil _
    have hend : used' = start + size := UInt64.toNat_inj.mp <| hused.trans
      ((UInt64.toNat_add _ _).trans
        (Nat.mod_eq_of_lt (Nat.lt_of_le_of_lt hbounds (Word.toNat_lt x.size)))).symm
    dsimp only
    rw [roundUp?_used_eq_some_iff.mpr (hceil.trans haddress.symm)]
    dsimp only
    rw [hback, hend]
    refine bind_eq_ok.mpr ⟨x.part start size, liftAccess_eq_ok.mpr ?_, rfl⟩
    exact State.slice_eq_ok_iff.mpr ⟨halive, hbounds, haligned, rfl⟩

/-! ### Calls -/

/-- A call to an allocator. An allocation finds the session in the state it is in by then. -/
inductive Call where
  | allocate (state : State) (size alignment : Word)
  | reset

/-- What was asked for and what was given. -/
structure Piece where
  size : Word
  alignment : Word
  segment : Segment

/-- An allocator, and what it gave since it last started over, the earliest first. -/
structure Tally where
  carver : Carver
  given : List Piece

namespace Tally

/-- Nothing is given yet. -/
def fresh (x : Segment) : Tally := ⟨.slicing x 0, []⟩

def call (tally : Tally) : Call → Tally
  | .allocate s size alignment => match tally.carver.carve s size alignment with
    | (.ok segment, carver) => ⟨carver, tally.given ++ [⟨size, alignment, segment⟩]⟩
    | (.error _, carver) => ⟨carver, tally.given⟩
  | .reset => match tally.carver.reset? with
    | some carver => ⟨carver, []⟩
    | none => tally

def run (tally : Tally) (calls : List Call) : Tally := calls.foldl call tally

end Tally

/-! ### What is given lies in order -/

/-- Where a piece lies in the base: as large and as aligned as asked for, and below what is used.
Neither its offset nor its address goes round. -/
def Piece.Lies (x : Segment) (used : Word) (piece : Piece) : Prop :=
  ∃ start : Word, piece.segment = x.part start piece.size ∧
    start.toNat + piece.size.toNat ≤ used.toNat ∧
    piece.segment.address.toNat = x.address.toNat + start.toNat ∧
    piece.alignment.toNat ∣ piece.segment.address.toNat

/-- One piece ends before the other starts. -/
def Piece.Before (p q : Piece) : Prop :=
  p.segment.address.toNat + p.segment.size.toNat ≤ q.segment.address.toNat

theorem Piece.Lies.mono {piece : Piece} (h : piece.Lies x used) (le : used.toNat ≤ used'.toNat) :
    piece.Lies x used' := by
  obtain ⟨start, hpart, hbelow, hexact⟩ := h
  exact ⟨start, hpart, Nat.le_trans hbelow le, hexact⟩

/-- A piece ends where what is used ends, or before. -/
theorem Piece.Lies.end_le {piece : Piece} (h : piece.Lies x used) :
    piece.segment.address.toNat + piece.segment.size.toNat ≤ x.address.toNat + used.toNat := by
  obtain ⟨start, hpart, hbelow, haddress, -⟩ := h
  have hsize : piece.segment.size = piece.size := by rw [hpart]; rfl
  rw [haddress, hsize]
  omega

/-- The invariant of a slicing allocator. -/
structure Tally.Orderly (x : Segment) (used : Word) (tally : Tally) : Prop where
  carver : tally.carver = .slicing x used
  room : used.toNat ≤ x.size.toNat
  lies : ∀ piece ∈ tally.given, piece.Lies x used
  before : tally.given.Pairwise Piece.Before

/-- A slice goes behind all that were given. -/
theorem Tally.Orderly.gain {tally : Tally} (h : tally.Orderly x used)
    (hbump : bump s x used size alignment = .ok (y, used')) :
    Tally.Orderly x used' ⟨.slicing x used', tally.given ++ [⟨size, alignment, y⟩]⟩ := by
  obtain ⟨a, rfl⟩ := bytes_of_bump hbump
  obtain ⟨-, -, start, hceil, hword, hbounds, rfl, hused⟩ := bump_eq_ok_iff.mp hbump
  have hle := a.le_ceil (x.address.toNat + used.toNat)
  have haddress : (x.address + start).toNat = x.address.toNat + start.toNat :=
    (UInt64.toNat_add _ _).trans (Nat.mod_eq_of_lt hword)
  have hnew : Piece.Lies x used' ⟨size, a.bytes, x.part start size⟩ := by
    refine ⟨start, rfl, Nat.le_of_eq hused.symm, haddress, ?_⟩
    show a.bytes.toNat ∣ (x.address + start).toNat
    rw [haddress, ← hceil]
    exact a.dvd_ceil _
  refine ⟨rfl, by omega, fun piece hpiece => ?_, ?_⟩
  · obtain hpiece | hpiece := List.mem_append.mp hpiece
    · exact (h.lies piece hpiece).mono (by omega)
    · rw [List.mem_singleton.mp hpiece]
      exact hnew
  · refine List.pairwise_append.mpr ⟨h.before, List.pairwise_singleton _ _, fun p hp q hq => ?_⟩
    rw [List.mem_singleton.mp hq]
    show p.segment.address.toNat + p.segment.size.toNat ≤ (x.address + start).toNat
    have hend := (h.lies p hp).end_le
    omega

theorem Tally.Orderly.call {tally : Tally} (h : tally.Orderly x used) (call : Call) :
    ∃ used', (tally.call call).Orderly x used' := by
  obtain ⟨carver, given⟩ := tally
  obtain rfl : carver = .slicing x used := h.carver
  cases call with
  | allocate s size alignment =>
    cases hbump : bump s x used size alignment with
    | ok r =>
      obtain ⟨y, used'⟩ := r
      refine ⟨used', ?_⟩
      simp only [Tally.call, carve, hbump]
      exact h.gain hbump
    | error e =>
      refine ⟨used, ?_⟩
      simp only [Tally.call, carve, hbump]
      exact h
  | reset => exact ⟨0, rfl, Nat.zero_le _, by simp [Tally.call, reset?], .nil⟩

theorem Tally.Orderly.run {tally : Tally} (h : tally.Orderly x used) (calls : List Call) :
    ∃ used', (tally.run calls).Orderly x used' := by
  induction calls generalizing tally used with
  | nil => exact ⟨used, h⟩
  | cons call rest ih =>
    obtain ⟨used', hcall⟩ := h.call call
    exact ih hcall

theorem Tally.orderly_fresh (x : Segment) : (Tally.fresh x).Orderly x 0 :=
  ⟨rfl, Nat.zero_le _, by simp [Tally.fresh], .nil⟩

/-- **The slices of a segment never meet.** After any calls to a slicing allocator, what is used and
what remains make up the base exactly, an allocation that fails changes nothing, and the slices
given since it last started over lie below what is used, aligned as was asked, each behind those
before. -/
theorem slices_lie_in_order (x : Segment) (calls : List Call) :
    ∃ used remaining : Word, ((Tally.fresh x).run calls).carver = .slicing x used ∧
      Query.usage? (.slicing x used) = some ⟨used, remaining⟩ ∧
      used.toNat + remaining.toNat = x.size.toNat ∧
      (∀ s size alignment e, ((Carver.slicing x used).carve s size alignment).1 = .error e →
        ((Carver.slicing x used).carve s size alignment).2 = .slicing x used) ∧
      (∀ piece ∈ ((Tally.fresh x).run calls).given, piece.Lies x used) ∧
      ((Tally.fresh x).run calls).given.Pairwise Piece.Before := by
  obtain ⟨used, h⟩ := (Tally.orderly_fresh x).run calls
  have hremaining : (x.size - used).toNat = x.size.toNat - used.toNat :=
    UInt64.toNat_sub_of_le _ _ (UInt64.le_iff_toNat_le.mpr h.room)
  have hroom := h.room
  refine ⟨used, x.size - used, h.carver, rfl, by omega, fun s size alignment e he => ?_, h.lies,
    h.before⟩
  exact carve_error he

/-! ### Structs -/

/-- The piece of a member that stands at an offset. -/
def Piece.member (x : Segment) (member : Shape) (offset : Nat) : Piece :=
  ⟨member.size, member.alignment.bytes, x.part (UInt64.ofNat offset) member.size⟩

/-- The allocation of a member. -/
def Call.member (s : State) (member : Shape) : Call :=
  .allocate s member.size member.alignment.bytes

/-- Over an aligned base, rounding the address finds the offset that rounding the offset finds. -/
theorem call_member {member : Shape} (given : List Piece) (alive : s.isAlive x.scope = true)
    (admits : x.Admits member.alignment) (aligned : member.alignment.bytes.toNat ∣ x.address.toNat)
    (unwrapped : x.address.toNat + x.size.toNat < Word.limit)
    (room : member.alignment.ceil used.toNat + member.size.toNat ≤ x.size.toNat) :
    Tally.call ⟨.slicing x used, given⟩ (Call.member s member) =
      ⟨.slicing x (UInt64.ofNat (member.alignment.ceil used.toNat + member.size.toNat)),
        given ++ [Piece.member x member (member.alignment.ceil used.toNat)]⟩ := by
  have hsize := Word.toNat_lt x.size
  have hstart : (UInt64.ofNat (member.alignment.ceil used.toNat)).toNat =
      member.alignment.ceil used.toNat :=
    UInt64.toNat_ofNat_of_lt' (Nat.lt_of_le_of_lt (by omega) hsize)
  have hend : (UInt64.ofNat (member.alignment.ceil used.toNat + member.size.toNat)).toNat =
      member.alignment.ceil used.toNat + member.size.toNat :=
    UInt64.toNat_ofNat_of_lt' (Nat.lt_of_le_of_lt room hsize)
  have hbump : bump s x used member.size member.alignment.bytes =
      .ok (x.part (UInt64.ofNat (member.alignment.ceil used.toNat)) member.size,
        UInt64.ofNat (member.alignment.ceil used.toNat + member.size.toNat)) := by
    refine bump_eq_ok_iff.mpr ⟨alive, admits, _, ?_, ?_, ?_, rfl, ?_⟩
    · rw [hstart, Alignment.ceil_add aligned]
    · omega
    · omega
    · rw [hstart, hend]
  simp only [Call.member, Tally.call, carve, hbump, Piece.member]

theorem run_members {uses : List (State × Shape)} (given : List Piece)
    (alive : ∀ use ∈ uses, use.1.isAlive x.scope = true)
    (admits : ∀ use ∈ uses, x.Admits use.2.alignment)
    (aligned : ∀ use ∈ uses, use.2.alignment.bytes.toNat ∣ x.address.toNat)
    (unwrapped : x.address.toNat + x.size.toNat < Word.limit)
    (room : Shape.finish used.toNat (uses.map Prod.snd) ≤ x.size.toNat) :
    Tally.run ⟨.slicing x used, given⟩ (uses.map fun use => Call.member use.1 use.2) =
      ⟨.slicing x (UInt64.ofNat (Shape.finish used.toNat (uses.map Prod.snd))), given ++
        List.zipWith (Piece.member x) (uses.map Prod.snd)
          (Shape.offsets used.toNat (uses.map Prod.snd))⟩ := by
  induction uses generalizing used given with
  | nil => simp [Tally.run, Shape.finish, Shape.offsets]
  | cons use rest ih =>
    obtain ⟨s, member⟩ := use
    rw [List.map_cons, Shape.finish] at room
    have hfirst : member.alignment.ceil used.toNat + member.size.toNat ≤ x.size.toNat :=
      Nat.le_trans (Shape.le_finish _ _) room
    have hend : (UInt64.ofNat (member.alignment.ceil used.toNat + member.size.toNat)).toNat =
        member.alignment.ceil used.toNat + member.size.toNat :=
      UInt64.toNat_ofNat_of_lt' (Nat.lt_of_le_of_lt hfirst (Word.toNat_lt x.size))
    have hcall := call_member given (alive _ List.mem_cons_self) (admits _ List.mem_cons_self)
      (aligned _ List.mem_cons_self) unwrapped hfirst
    rw [← hend] at room
    have hrest := ih (given ++ [Piece.member x member (member.alignment.ceil used.toNat)])
      (fun use huse => alive use (List.mem_cons_of_mem _ huse))
      (fun use huse => admits use (List.mem_cons_of_mem _ huse))
      (fun use huse => aligned use (List.mem_cons_of_mem _ huse)) room
    rw [hend, List.append_assoc, List.singleton_append] at hrest
    rw [Tally.run, List.map_cons, List.foldl_cons, hcall]
    exact hrest

/-- **A slicing allocator lays a struct out.** Over a base that is alive, aligned and large enough,
the members, allocated in their order, lie where the struct has them, and what is used, rounded up,
is its size. Anything may happen in between that leaves the base alive. -/
theorem members_lie_as_in_struct {uses : List (State × Shape)} {shape : Shape} {x : Segment}
    (built : Shape.struct (uses.map Prod.snd) = .ok shape)
    (alive : ∀ use ∈ uses, use.1.isAlive x.scope = true)
    (aligned : shape.alignment.bytes.toNat ∣ x.address.toNat) (room : shape.size ≤ x.size)
    (unwrapped : x.address.toNat + x.size.toNat < Word.limit) (admits : x.Admits shape.alignment) :
    ∃ used : Word, (Tally.fresh x).run (uses.map fun use => Call.member use.1 use.2) =
        ⟨.slicing x used, List.zipWith (Piece.member x) (uses.map Prod.snd)
          (Shape.offsets 0 (uses.map Prod.snd))⟩ ∧
      (∀ offset ∈ Shape.offsets 0 (uses.map Prod.snd), x.address.toNat + offset < Word.limit) ∧
      shape.alignment.ceil used.toNat = shape.size.toNat := by
  obtain ⟨halignment, hsize⟩ := Shape.struct_eq_ok_iff.mp built
  have hfits : Shape.finish 0 (uses.map Prod.snd) ≤ x.size.toNat :=
    Nat.le_trans (hsize ▸ Alignment.le_ceil _ _) (UInt64.le_iff_toNat_le.mp room)
  have hdvd : ∀ use ∈ uses, use.2.alignment.bytes.toNat ∣ shape.alignment.bytes.toNat := by
    intro use huse
    rw [halignment]
    exact Shape.dvd_strictest (List.mem_map_of_mem huse)
  have hadmits : ∀ use ∈ uses, x.Admits use.2.alignment := by
    intro use huse array harray
    have hle := Nat.le_of_dvd shape.alignment.toNat_bytes_pos (hdvd use huse)
    exact UInt64.le_trans (UInt64.le_iff_toNat_le.mpr hle) (admits array harray)
  have hfresh : Shape.finish (0 : Word).toNat (uses.map Prod.snd) ≤ x.size.toNat := hfits
  have hrun := run_members [] alive hadmits
    (fun use huse => Nat.dvd_trans (hdvd use huse) aligned) unwrapped hfresh
  refine ⟨_, hrun, fun offset hoffset => ?_, ?_⟩
  · have hle := Shape.offset_le_finish hoffset
    omega
  · rw [show (UInt64.ofNat (Shape.finish (0 : Word).toNat (uses.map Prod.snd))).toNat =
        Shape.finish 0 (uses.map Prod.snd) from
      UInt64.toNat_ofNat_of_lt' (Nat.lt_of_le_of_lt hfits (Word.toNat_lt x.size)), halignment]
    exact hsize

/-- A struct with padding inside and at its end. -/
def record : List Shape :=
  [(ValueLayout.natural .byte).shape, (ValueLayout.natural .int).shape, .padding 0,
    (ValueLayout.natural .short).shape]

/-- The record in the last bytes of the address space but four. -/
theorem members_lie_as_in_struct_last :
    Shape.struct record = .ok ⟨12, Carrier.int.alignment⟩ ∧
    ∃ used : Word, (Tally.fresh (.writable 0xFFFFFFFFFFFFFFF0 12)).run
        (record.map fun member => Call.member (.initial .bump) member) =
      ⟨.slicing (.writable 0xFFFFFFFFFFFFFFF0 12) used,
        [⟨1, 1, .writable 0xFFFFFFFFFFFFFFF0 1⟩, ⟨4, 4, .writable 0xFFFFFFFFFFFFFFF4 4⟩,
          ⟨0, 1, .writable 0xFFFFFFFFFFFFFFF8 0⟩, ⟨2, 2, .writable 0xFFFFFFFFFFFFFFF8 2⟩]⟩ ∧
      Carrier.int.alignment.ceil used.toNat = 12 := by
  have hbuilt : Shape.struct record = .ok ⟨12, Carrier.int.alignment⟩ := rfl
  obtain ⟨used, hrun, -, hceil⟩ := @members_lie_as_in_struct
    (record.map fun member => (State.initial .bump, member)) _ (.writable 0xFFFFFFFFFFFFFFF0 12) hbuilt
    (by decide) (by decide) (by decide) (by decide) (fun array harray => by cases harray)
  exact ⟨hbuilt, used, hrun, hceil⟩

end Carver

end ScopedMemory
