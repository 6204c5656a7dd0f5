import ScopedMemory.Proofs.Cutting

/-! Structs and sequences.

A struct is laid out as with numbers of any size: each member stands at the least multiple of its
alignment behind the one ahead of it (`Shape.Placed`), and the whole is refused exactly if its size
is no word, however early the words overflow on the way. A sequence is the struct of its copies:
where an element's size is a multiple of its alignment, no copy is moved by rounding, and the
product overflows where the sum of the copies does. -/
namespace ScopedMemory

namespace Alignment
variable {a b : Alignment} {n : Nat}

/-- The least multiple of the alignment that is not below a number. -/
structure Ceiling (a : Alignment) (n multiple : Nat) : Prop where
  dvd : a.bytes.toNat ∣ multiple
  notBelow : n ≤ multiple
  least : ∀ other, a.bytes.toNat ∣ other → n ≤ other → multiple ≤ other

theorem ceiling_ceil (a : Alignment) (n : Nat) : a.Ceiling n (a.ceil n) :=
  ⟨a.dvd_ceil n, a.le_ceil n, fun _ hdvd hle => ceil_le hle hdvd⟩

/-- A multiple is its own. -/
theorem ceil_of_dvd (h : a.bytes.toNat ∣ n) : a.ceil n = n :=
  Nat.le_antisymm (ceil_le (Nat.le_refl n) h) (a.le_ceil n)

theorem bytes_inj : a.bytes = b.bytes ↔ a = b := by
  constructor
  · intro h
    have hsame := congrArg ofBytes? h
    rw [ofBytes?_bytes, ofBytes?_bytes] at hsame
    exact Option.some.inj hsame
  · rintro rfl
    rfl

theorem strictest_eq (a b : Alignment) : a.strictest b = a ∨ a.strictest b = b := by
  unfold strictest
  split
  · exact .inr rfl
  · exact .inl rfl

end Alignment

namespace Shape

/-! ### Structs -/

/-- Members stand one behind the other from a start on, in exact numbers: each at the least multiple
of its alignment that is not below the end of the one before. The last one ends at the stop. -/
inductive Placed : Nat → List Shape → List Nat → Nat → Prop where
  | nil (stop : Nat) : Placed stop [] [] stop
  | cons {start offset stop : Nat} {member : Shape} {members : List Shape} {offsets : List Nat} :
      member.alignment.Ceiling start offset →
      Placed (offset + member.size.toNat) members offsets stop →
      Placed start (member :: members) (offset :: offsets) stop

theorem placed_offsets (start : Nat) (members : List Shape) :
    Placed start members (offsets start members) (finish start members) := by
  induction members generalizing start with
  | nil => exact .nil start
  | cons member rest ih => exact .cons (member.alignment.ceiling_ceil start) (ih _)

/-- From an aligned base, every member stands at a multiple of its alignment. -/
theorem Placed.aligned {start stop base : Nat} {members : List Shape} {offsets : List Nat}
    (h : Placed start members offsets stop)
    (fits : ∀ member ∈ members, member.alignment.bytes.toNat ∣ base) :
    ∀ place ∈ members.zip offsets, place.1.alignment.bytes.toNat ∣ base + place.2 := by
  induction h with
  | nil => simp
  | cons hceiling _ ih =>
    intro place hplace
    obtain rfl | hplace := List.mem_cons.mp hplace
    · exact Nat.dvd_add (fits _ List.mem_cons_self) hceiling.dvd
    · exact ih (fun member hmember => fits member (List.mem_cons_of_mem _ hmember)) place hplace

/-- The largest alignment of the members, and one if there are none. -/
structure Largest (members : List Shape) (a : Alignment) : Prop where
  bound : ∀ member ∈ members, member.alignment.bytes ≤ a.bytes
  attained : (∃ member ∈ members, member.alignment = a) ∨ members = [] ∧ a = .one

theorem foldl_strictest_eq (members : List Shape) (a : Alignment) :
    members.foldl (fun a member => a.strictest member.alignment) a = a ∨ ∃ member ∈ members,
      member.alignment = members.foldl (fun a member => a.strictest member.alignment) a := by
  induction members generalizing a with
  | nil => exact .inl rfl
  | cons first rest ih =>
    rw [List.foldl_cons]
    obtain hfirst | ⟨member, hmember, hlast⟩ := ih (a.strictest first.alignment)
    · rw [hfirst]
      obtain hsame | hnew := a.strictest_eq first.alignment
      · exact .inl hsame
      · exact .inr ⟨first, List.mem_cons_self, hnew.symm⟩
    · exact .inr ⟨member, List.mem_cons_of_mem _ hmember, hlast⟩

theorem largest_strictest (members : List Shape) : Largest members (strictest members) := by
  have hbound : ∀ member ∈ members, member.alignment.bytes.toNat ≤ (strictest members).bytes.toNat :=
    fun member hmember => Nat.le_of_dvd (Alignment.toNat_bytes_pos _) (dvd_strictest hmember)
  refine ⟨fun member hmember => UInt64.le_iff_toNat_le.mpr (hbound member hmember), ?_⟩
  obtain hone | hattained := foldl_strictest_eq members .one
  · -- no member is stricter than one, so any member attains it
    cases members with
    | nil => exact .inr ⟨rfl, rfl⟩
    | cons first rest =>
      have hfirst := hbound first List.mem_cons_self
      rw [show strictest (first :: rest) = .one from hone] at hfirst ⊢
      refine .inl ⟨first, List.mem_cons_self, Alignment.bytes_inj.mp (UInt64.toNat_inj.mp ?_)⟩
      exact Nat.le_antisymm hfirst first.alignment.toNat_bytes_pos
  · exact .inl hattained

/-- What a struct comes to, in exact numbers. -/
theorem struct_eq (members : List Shape) :
    struct members = if (strictest members).ceil (finish 0 members) < Word.limit then
        .ok ⟨UInt64.ofNat ((strictest members).ceil (finish 0 members)), strictest members⟩
      else .error (.illegalArgument .structOverflow) := by
  split
  · rename_i hword
    exact struct_eq_ok_iff.mpr ⟨rfl, (UInt64.toNat_ofNat_of_lt' hword).symm⟩
  · rename_i hlarge
    cases hstruct : struct members with
    | ok shape =>
      have hsize := (struct_eq_ok_iff.mp hstruct).2
      exact absurd (hsize ▸ Word.toNat_lt shape.size) hlarge
    | error e =>
      unfold struct at hstruct
      dsimp only at hstruct
      split at hstruct
      · cases hstruct
      · exact hstruct.symm

/-- **A struct is laid out exactly.** Each member stands at the least multiple of its alignment that
is not below the end of the one before, and the size is the least such multiple of the largest
alignment behind the last. The struct is built exactly if that size is a word. -/
theorem struct_lays_out_exactly (members : List Shape) :
    let stop := finish 0 members
    let alignment := strictest members
    let size := alignment.ceil stop
    Placed 0 members (offsets 0 members) stop ∧ Largest members alignment ∧
    alignment.Ceiling stop size ∧
    ((∃ shape, struct members = .ok shape) ↔ size < Word.limit) ∧
    (∀ shape, struct members = .ok shape →
      shape.size.toNat = size ∧ shape.alignment = alignment ∧
      ∀ base, shape.alignment.bytes.toNat ∣ base → ∀ place ∈ members.zip (offsets 0 members),
        place.1.alignment.bytes.toNat ∣ base + place.2) ∧
    (¬ size < Word.limit → struct members = .error (.illegalArgument .structOverflow)) := by
  intro stop alignment size
  have hplaced := placed_offsets 0 members
  refine ⟨hplaced, largest_strictest members, alignment.ceiling_ceil stop, ⟨?_, fun hword => ?_⟩,
    fun shape hshape => ?_, fun hlarge => (struct_eq members).trans (if_neg hlarge)⟩
  · rintro ⟨shape, hshape⟩
    exact Nat.lt_of_le_of_lt (Nat.le_of_eq (struct_eq_ok_iff.mp hshape).2) (Word.toNat_lt shape.size)
  · exact ⟨_, (struct_eq members).trans (if_pos hword)⟩
  · obtain ⟨halignment, hsize⟩ := struct_eq_ok_iff.mp hshape
    refine ⟨hsize.symm, halignment, fun base hbase => hplaced.aligned fun member hmember => ?_⟩
    exact Nat.dvd_trans (halignment ▸ dvd_strictest hmember) hbase

/-- Filler, and an aligned member of no size behind it. -/
def capped (filler : Word) : List Shape := [.padding filler, ⟨0, Carrier.long.alignment⟩]

/-- The last multiple of eight is a size. One byte more, and the member behind is rounded up to the
first number that is no word. -/
theorem struct_lays_out_exactly_last :
    (∃ shape, struct (capped 0xFFFFFFFFFFFFFFF8) = .ok shape ∧ shape.size = 0xFFFFFFFFFFFFFFF8 ∧
      shape.alignment = Carrier.long.alignment) ∧
    Placed 0 (capped 0xFFFFFFFFFFFFFFF9) [0, Word.limit] Word.limit ∧
    struct (capped 0xFFFFFFFFFFFFFFF9) = .error (.illegalArgument .structOverflow) := by
  obtain ⟨-, -, -, hbuilt, hshape, -⟩ := struct_lays_out_exactly (capped 0xFFFFFFFFFFFFFFF8)
  obtain ⟨hplaced, -, -, -, -, hrefused⟩ := struct_lays_out_exactly (capped 0xFFFFFFFFFFFFFFF9)
  refine ⟨?_, hplaced, hrefused (by decide)⟩
  obtain ⟨shape, hstruct⟩ := hbuilt.mpr (by decide)
  obtain ⟨hsize, halignment, -⟩ := hshape shape hstruct
  exact ⟨shape, hstruct, UInt64.toNat_inj.mp hsize, halignment⟩

/-! ### Sequences -/

section
variable {element : Shape} {start : Nat}

/-- Copies without gaps between them end where their sizes add up. -/
theorem finish_replicate (even : element.alignment.bytes.toNat ∣ element.size.toNat)
    (aligned : element.alignment.bytes.toNat ∣ start) (count : Nat) :
    finish start (List.replicate count element) = start + count * element.size.toNat := by
  induction count generalizing start with
  | zero => rw [List.replicate_zero, finish, Nat.zero_mul, Nat.add_zero]
  | succ count ih =>
    rw [List.replicate_succ, finish, Alignment.ceil_of_dvd aligned, ih (Nat.dvd_add aligned even),
      Nat.succ_mul]
    omega

theorem strictest_replicate {count : Nat} (nonzero : count ≠ 0) :
    strictest (List.replicate count element) = element.alignment := by
  obtain ⟨member, hmember, halignment⟩ | ⟨hnone, -⟩ :=
    (largest_strictest (List.replicate count element)).attained
  · rw [← halignment, List.eq_of_mem_replicate hmember]
  · exact absurd ((List.replicate_eq_nil_iff element).mp hnone) nonzero

/-- The struct of copies is their sequence, or neither is built. -/
theorem sequence_eq_ok_iff_struct {count : Word} {whole : Shape} (nonzero : count ≠ 0)
    (even : element.alignment.bytes.toNat ∣ element.size.toNat) :
    sequence count element = .ok whole ↔
      struct (List.replicate count.toNat element) = .ok whole := by
  have hcount : count.toNat ≠ 0 := fun hzero => nonzero (UInt64.toNat_inj.mp hzero)
  have hend : finish 0 (List.replicate count.toNat element) = count.toNat * element.size.toNat := by
    rw [finish_replicate even (Nat.dvd_zero _), Nat.zero_add]
  have hround : element.alignment.ceil (count.toNat * element.size.toNat) =
      count.toNat * element.size.toNat := Alignment.ceil_of_dvd (Nat.dvd_mul_left_of_dvd even _)
  rw [sequence_eq_ok_iff, struct_eq_ok_iff, strictest_replicate hcount, hend, hround]
  constructor
  · rintro ⟨-, hsize, halignment⟩
    exact ⟨halignment.symm, hsize⟩
  · rintro ⟨halignment, hsize⟩
    exact ⟨even, hsize, halignment.symm⟩

/-- A shape can be the element of sequences: those are built that have a size. -/
def Repeats (element : Shape) : Prop :=
  ∀ count : Word, count.toNat * element.size.toNat < Word.limit →
    ∃ whole, sequence count element = .ok whole

theorem repeats_of_dvd (h : element.alignment.bytes.toNat ∣ element.size.toNat) :
    element.Repeats := by
  intro count hword
  refine ⟨⟨count * element.size, element.alignment⟩, sequence_eq_ok_iff.mpr ⟨h, ?_, rfl⟩⟩
  exact ((UInt64.toNat_mul _ _).trans (Nat.mod_eq_of_lt hword)).symm

end

/-- **A sequence is the struct of its copies.** For an element whose size is a multiple of its
alignment the one is built exactly if the other is, and they are the same. No sequence is built of
any other element. What is built can be an element again. -/
theorem sequence_agrees_with_struct (element : Shape) (count : Word) :
    (count ≠ 0 → element.alignment.bytes.toNat ∣ element.size.toNat → ∀ whole,
      sequence count element = .ok whole ↔
        struct (List.replicate count.toNat element) = .ok whole) ∧
    (¬ element.alignment.bytes.toNat ∣ element.size.toNat → sequence count element =
      .error (.illegalArgument (.ragged element.size element.alignment.bytes))) ∧
    (∀ whole, sequence count element = .ok whole → whole.Repeats) ∧
    (∀ members whole, struct members = .ok whole → whole.Repeats) := by
  refine ⟨fun nonzero even whole => sequence_eq_ok_iff_struct nonzero even, fun ragged => ?_,
    fun whole hwhole => ?_, fun members whole hwhole => ?_⟩
  · exact if_pos (mt size_mod_eq_zero_iff.mp ragged)
  · obtain ⟨heven, hsize, halignment⟩ := sequence_eq_ok_iff.mp hwhole
    apply repeats_of_dvd
    rw [← hsize, ← halignment]
    exact Nat.dvd_mul_left_of_dvd heven _
  · obtain ⟨halignment, hsize⟩ := struct_eq_ok_iff.mp hwhole
    apply repeats_of_dvd
    rw [← hsize, halignment]
    exact Alignment.dvd_ceil _ _

/-- A quarter of all addresses, aligned to its size. -/
def quarter : Shape := ⟨0x4000000000000000, ⟨⟨62, by decide⟩⟩⟩

/-- Three quarters are a sequence and a struct, and four are neither. -/
theorem sequence_agrees_with_struct_quarters :
    struct [quarter, quarter, quarter] = .ok ⟨0xC000000000000000, quarter.alignment⟩ ∧
    ∀ whole, struct [quarter, quarter, quarter, quarter] ≠ .ok whole := by
  have heven : quarter.alignment.bytes.toNat ∣ quarter.size.toNat := by decide
  constructor
  · exact ((sequence_agrees_with_struct quarter 3).1 (by decide) heven _).mp rfl
  · intro whole hstruct
    have hsequence := ((sequence_agrees_with_struct quarter 4).1 (by decide) heven whole).mpr hstruct
    cases hsequence

end Shape

end ScopedMemory
