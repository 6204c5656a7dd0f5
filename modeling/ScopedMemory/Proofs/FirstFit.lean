import ScopedMemory.Proofs.Bumping

/-! The first place that fits.

A slicing allocator looks at one place only, the first aligned one behind what is used. Nothing is
lost by that: every other aligned place lies behind it, so if some place has room, this one has
(`Carver.exists_fits_iff`). Over a base that ends before the address space does, an address that
cannot be rounded up lies behind the base, and the allocation is refused for want of room as it is
where the rounded address lies inside. -/
namespace ScopedMemory

/-- Bytes that do not lie inside are refused as such, whatever their alignment. -/
theorem State.slice_outside {s : State} {x : Segment} {offset size : Word} {a : Alignment}
    (alive : s.isAlive x.scope = true) (outside : ¬ offset.toNat + size.toNat ≤ x.size.toNat) :
    s.slice x offset size a.bytes = .error (.outOfBounds offset size x.size) := by
  have halive : s.checkAlive x.scope = .ok () := checkAlive_eq_ok.mpr alive
  have hbounds : x.checkBounds offset size = .error (.outOfBounds offset size x.size) :=
    if_neg (mt Segment.add?_any_le.mp outside)
  rw [slice, Alignment.ofBytes_bytes, halive, hbounds]
  rfl

namespace Carver

/-- Bytes can be taken at an offset from the base's start: behind those used, aligned, and inside.
-/
structure Fits (x : Segment) (used size : Word) (a : Alignment) (offset : Nat) : Prop where
  behind : used.toNat ≤ offset
  aligned : a.bytes.toNat ∣ x.address.toNat + offset
  inside : offset + size.toNat ≤ x.size.toNat

/-- The first aligned offset behind what is used, with or without room. -/
def firstAligned (x : Segment) (used : Word) (a : Alignment) : Nat :=
  a.ceil (x.address.toNat + used.toNat) - x.address.toNat

section
variable {s : State} {x y : Segment} {used used' size : Word} {a : Alignment} {offset : Nat}

theorem add_firstAligned (x : Segment) (used : Word) (a : Alignment) :
    x.address.toNat + firstAligned x used a = a.ceil (x.address.toNat + used.toNat) := by
  have hle := a.le_ceil (x.address.toNat + used.toNat)
  unfold firstAligned
  omega

theorem used_le_firstAligned (x : Segment) (used : Word) (a : Alignment) :
    used.toNat ≤ firstAligned x used a := by
  have hle := a.le_ceil (x.address.toNat + used.toNat)
  unfold firstAligned
  omega

/-- No place that fits lies before the first aligned one. -/
theorem Fits.firstAligned_le (h : Fits x used size a offset) : firstAligned x used a ≤ offset := by
  have hceil : a.ceil (x.address.toNat + used.toNat) ≤ x.address.toNat + offset :=
    Alignment.ceil_le (Nat.add_le_add_left h.behind _) h.aligned
  have hadd := add_firstAligned x used a
  omega

theorem fits_firstAligned (room : firstAligned x used a + size.toNat ≤ x.size.toNat) :
    Fits x used size a (firstAligned x used a) where
  behind := used_le_firstAligned x used a
  aligned := add_firstAligned x used a ▸ a.dvd_ceil _
  inside := room

/-- Some place fits if the first aligned one has room. -/
theorem exists_fits_iff : (∃ offset, Fits x used size a offset) ↔
    firstAligned x used a + size.toNat ≤ x.size.toNat := by
  constructor
  · rintro ⟨offset, hfits⟩
    have hle := hfits.firstAligned_le
    have hinside := hfits.inside
    omega
  · intro room
    exact ⟨_, fits_firstAligned room⟩

theorem allocate_of_bump {t : Thread} {alignment : Word}
    (h : bump s x used size alignment = .ok (y, used')) :
    (Allocator.carver (.slicing x used)).allocate t s size alignment =
      ⟨.ok y, .carver (.slicing x used'), s⟩ := by
  simp only [Allocator.allocate, carve, h]

theorem allocate_of_refused {t : Thread} {alignment : Word} {e : ArenaError}
    (h : bump s x used size alignment = .error e) :
    (Allocator.carver (.slicing x used)).allocate t s size alignment =
      ⟨.error e, .carver (.slicing x used), s⟩ := by
  simp only [Allocator.allocate, carve, h]

/-- An allocation takes the first aligned place if it has room. -/
theorem bump_of_room (alive : s.isAlive x.scope = true) (admits : x.Admits a)
    (unwrapped : x.address.toNat + x.size.toNat < Word.limit)
    (room : firstAligned x used a + size.toNat ≤ x.size.toNat) :
    ∃ start stop : Word, start.toNat = firstAligned x used a ∧
      stop.toNat = start.toNat + size.toNat ∧
      bump s x used size a.bytes = .ok (x.part start size, stop) := by
  obtain ⟨stop, hstop⟩ := Word.exists_toNat_eq room
  obtain ⟨start, hstart⟩ := Word.exists_toNat_eq (Nat.le_trans (Nat.le_add_right _ _) room)
  rw [← hstart] at hstop room
  refine ⟨start, stop, hstart, hstop, ?_⟩
  refine bump_eq_ok_iff.mpr ⟨alive, admits, start, ?_, ?_, room, rfl, hstop⟩
  · rw [hstart, add_firstAligned]
  · omega

/-- Without room it is refused, whether or not the rounded address is an address. -/
theorem bump_of_no_room (alive : s.isAlive x.scope = true)
    (full : ¬ firstAligned x used a + size.toNat ≤ x.size.toNat) :
    ∃ offset, bump s x used size a.bytes = .error (.access (.outOfBounds offset size x.size)) := by
  unfold bump
  rw [Alignment.ofBytes?_bytes]
  dsimp only
  cases hround : (x.address.add? used).bind a.roundUp? with
  | none =>
    -- there is no aligned address, and the offset that is reported is where the search started
    exact ⟨used, rfl⟩
  | some address =>
    have hexact := roundUp?_used_eq_some_iff.mp hround
    have hle := a.le_ceil (x.address.toNat + used.toNat)
    have hstart : (address - x.address).toNat = firstAligned x used a := by
      rw [UInt64.toNat_sub_of_le _ _ (UInt64.le_iff_toNat_le.mpr (by omega)), firstAligned, hexact]
    refine ⟨address - x.address, ?_⟩
    dsimp only
    rw [State.slice_outside alive (hstart ▸ full)]
    rfl

end

/-- **The slicing allocator takes the first place that fits.** An allocation succeeds exactly if
some aligned offset behind the bytes used leaves room. The slice is at the least such offset, and
its end is the end of what is used. Otherwise it is out of bounds, and what is used stays. -/
theorem allocate_first_fit {s : State} {x : Segment} {a : Alignment} (t : Thread) (used size : Word)
    (alive : s.isAlive x.scope = true) (admits : x.Admits a)
    (unwrapped : x.address.toNat + x.size.toNat < Word.limit) :
    let allocation := (Allocator.carver (.slicing x used)).allocate t s size a.bytes
    ((∃ slice, allocation.result = .ok slice) ↔ ∃ offset, Fits x used size a offset) ∧
    (∀ slice, allocation.result = .ok slice → ∃ offset after : Word,
      Fits x used size a offset.toNat ∧
      (∀ other, Fits x used size a other → offset.toNat ≤ other) ∧
      slice = x.part offset size ∧ slice.address.toNat = x.address.toNat + offset.toNat ∧
      allocation.allocator = .carver (.slicing x after) ∧
      after.toNat = offset.toNat + size.toNat) ∧
    ((¬ ∃ offset, Fits x used size a offset) → ∃ offset : Word,
      allocation.result = .error (.access (.outOfBounds offset size x.size)) ∧
      allocation.allocator = .carver (.slicing x used)) := by
  dsimp only
  rw [exists_fits_iff]
  by_cases room : firstAligned x used a + size.toNat ≤ x.size.toNat
  · obtain ⟨start, stop, hstart, hstop, hbump⟩ := bump_of_room alive admits unwrapped room
    rw [allocate_of_bump hbump]
    refine ⟨iff_of_true ⟨_, rfl⟩ room, fun slice hslice => ?_, fun hfull => absurd room hfull⟩
    obtain rfl := Except.ok.inj hslice
    refine ⟨start, stop, ?_, fun other hother => ?_, rfl, ?_, rfl, hstop⟩
    · rw [hstart]
      exact fits_firstAligned room
    · rw [hstart]
      exact hother.firstAligned_le
    · exact (UInt64.toNat_add _ _).trans (Nat.mod_eq_of_lt (Nat.lt_of_le_of_lt (by omega) unwrapped))
  · obtain ⟨offset, hbump⟩ := bump_of_no_room alive room
    rw [allocate_of_refused hbump]
    refine ⟨iff_of_false (fun hok => ?_) room, fun slice hslice => ?_, fun _ => ⟨offset, rfl, rfl⟩⟩
    · obtain ⟨slice, hslice⟩ := hok
      cases hslice
    · cases hslice

/-- The last bytes of the address space but four. -/
def lastBytes : Segment := .writable 0xFFFFFFFFFFFFFFF0 12

/-- Four of them, behind one that is used. -/
def lastFour (a : Alignment) : Allocation :=
  (Allocator.carver (.slicing lastBytes 1)).allocate 0 (.initial .bump) 4 a.bytes

/-- They find room at a multiple of eight. At a multiple of sixteen they do not, since the next one
is no address. -/
theorem allocate_first_fit_last :
    (State.initial .bump).isAlive lastBytes.scope = true ∧
    (∃ slice after, (lastFour Carrier.long.alignment).result = .ok slice ∧
      (lastFour Carrier.long.alignment).allocator = .carver (.slicing lastBytes after) ∧
      slice.address.toNat = 0xFFFFFFFFFFFFFFF8 ∧ after.toNat = 12) ∧
    ∃ offset, (lastFour ⟨⟨4, by decide⟩⟩).result = .error (.access (.outOfBounds offset 4 12)) := by
  have halive : (State.initial .bump).isAlive lastBytes.scope = true := rfl
  have hadmits : ∀ a, lastBytes.Admits a := fun a array harray => by cases harray
  have hunwrapped : lastBytes.address.toNat + lastBytes.size.toNat < Word.limit := by decide
  have haddress : lastBytes.address.toNat = 0xFFFFFFFFFFFFFFF0 := rfl
  have hsize : lastBytes.size.toNat = 12 := rfl
  have hused : (1 : Word).toNat = 1 := rfl
  have hfour : (4 : Word).toNat = 4 := rfl
  refine ⟨halive, ?_, ?_⟩
  · obtain ⟨hok, hplace, -⟩ :=
      allocate_first_fit 0 1 4 halive (hadmits Carrier.long.alignment) hunwrapped
    obtain ⟨slice, hslice⟩ := hok.mpr ⟨8, by decide, by decide, by decide⟩
    obtain ⟨offset, after, ⟨hbehind, haligned, hinside⟩, -, -, hstart, hafter, hend⟩ :=
      hplace slice hslice
    rw [show Carrier.long.alignment.bytes.toNat = 8 by decide] at haligned
    exact ⟨slice, after, hslice, hafter, by omega, by omega⟩
  · obtain ⟨-, -, hnone⟩ := allocate_first_fit 0 1 4 halive (hadmits ⟨⟨4, by decide⟩⟩) hunwrapped
    obtain ⟨offset, hrefused, -⟩ := hnone (by
      rintro ⟨offset, hbehind, haligned, hinside⟩
      rw [show (Alignment.mk ⟨4, by decide⟩).bytes.toNat = 16 by decide] at haligned
      omega)
    exact ⟨offset, hrefused⟩

end Carver

end ScopedMemory
