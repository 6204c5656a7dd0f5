import ScopedMemory.Layout
import ScopedMemory.Proofs.Elementwise

/-! Rounding up, in exact numbers.

Words are rounded up by adding the mask and clearing the bits below the alignment, and the addition
may not be exact. It is not exactly when the multiple that is looked for is no word
(`Alignment.roundUp?_eq_some_iff`), because every alignment divides the number of words. So a struct
is laid out as it would be with numbers of any size, or not at all. -/
namespace ScopedMemory

/-- What is no larger than a word is a word. -/
theorem Word.exists_toNat_eq {w : Word} {n : Nat} (h : n ≤ w.toNat) : ∃ v : Word, v.toNat = n :=
  ⟨UInt64.ofNat n, UInt64.toNat_ofNat_of_lt' (Nat.lt_of_le_of_lt h (Word.toNat_lt w))⟩

namespace Alignment
variable {a b : Alignment} {n m : Nat}

/-- The least multiple of the alignment from `n` on, as an exact number. -/
def ceil (a : Alignment) (n : Nat) : Nat := (n + a.mask.toNat) / a.bytes.toNat * a.bytes.toNat

theorem toNat_bytes_pos (a : Alignment) : 0 < a.bytes.toNat := a.toNat_bytes ▸ a.pow_pos

theorem toNat_mask_succ (a : Alignment) : a.mask.toNat + 1 = a.bytes.toNat := by
  have hpos := a.pow_pos
  rw [toNat_mask, toNat_bytes]
  omega

theorem dvd_ceil (a : Alignment) (n : Nat) : a.bytes.toNat ∣ a.ceil n :=
  Nat.dvd_mul_left _ _

theorem le_ceil (a : Alignment) (n : Nat) : n ≤ a.ceil n := by
  have hmask := a.toNat_mask_succ
  have hdiv := Nat.div_add_mod' (n + a.mask.toNat) a.bytes.toNat
  have hmod := Nat.mod_lt (n + a.mask.toNat) a.toNat_bytes_pos
  unfold ceil
  omega

/-- No multiple from `n` on is smaller. -/
theorem ceil_le (h : n ≤ m) (hm : a.bytes.toNat ∣ m) : a.ceil n ≤ m := by
  obtain ⟨k, rfl⟩ := hm
  have hmask := a.toNat_mask_succ
  have hlt : n + a.mask.toNat < (k + 1) * a.bytes.toNat := by
    rw [Nat.succ_mul, Nat.mul_comm]
    omega
  have hk : (n + a.mask.toNat) / a.bytes.toNat ≤ k :=
    Nat.le_of_lt_succ ((Nat.div_lt_iff_lt_mul a.toNat_bytes_pos).mpr hlt)
  rw [Nat.mul_comm]
  exact Nat.mul_le_mul_right _ hk

/-- From a multiple on, multiples are found as they are from zero on. -/
theorem ceil_add {base : Nat} (h : a.bytes.toNat ∣ base) : a.ceil (base + n) = base + a.ceil n := by
  apply Nat.le_antisymm
  · exact ceil_le (Nat.add_le_add_left (a.le_ceil n) base) (Nat.dvd_add h (a.dvd_ceil n))
  · have hback : a.ceil n ≤ a.ceil (base + n) - base := by
      have hle := a.le_ceil (base + n)
      exact ceil_le (by omega) (Nat.dvd_sub (a.dvd_ceil _) h)
    have hle := a.le_ceil (base + n)
    omega

/-- **Rounding words is exact**: the rounded word is the least multiple, and there is none when the
least multiple is no word. -/
theorem roundUp?_eq_some_iff {w v : Word} : a.roundUp? w = some v ↔ a.ceil w.toNat = v.toNat := by
  unfold roundUp? Word.add? ceil
  by_cases hfits : w.toNat + a.mask.toNat < Word.limit
  · have hsum : (w + a.mask).toNat = w.toNat + a.mask.toNat :=
      (UInt64.toNat_add w a.mask).trans (Nat.mod_eq_of_lt hfits)
    rw [if_pos hfits, Option.map_some, Option.some_inj, ← UInt64.toNat_inj, toNat_clear, hsum,
      toNat_bytes]
  · -- The number of words is a multiple itself, so the sum is not rounded down below it.
    have hlimit : Word.limit ≤ (w.toNat + a.mask.toNat) / a.bytes.toNat * a.bytes.toNat := by
      have hdvd : a.bytes.toNat ∣ Word.limit := a.toNat_bytes ▸ a.dvd_limit
      calc Word.limit = Word.limit / a.bytes.toNat * a.bytes.toNat := (Nat.div_mul_cancel hdvd).symm
        _ ≤ _ := Nat.mul_le_mul_right _ (Nat.div_le_div_right (Nat.le_of_not_lt hfits))
    have hword := Word.toNat_lt v
    rw [if_neg hfits]
    simp only [Option.map_none, reduceCtorEq, false_iff]
    omega

theorem dvd_of_le_exponent (h : a.exponent ≤ b.exponent) : a.bytes.toNat ∣ b.bytes.toNat := by
  rw [toNat_bytes, toNat_bytes, Nat.one_shiftLeft, Nat.one_shiftLeft]
  exact Nat.pow_dvd_pow 2 h

theorem dvd_strictest_left (a b : Alignment) : a.bytes.toNat ∣ (a.strictest b).bytes.toNat := by
  unfold strictest
  split
  · exact dvd_of_le_exponent (Fin.le_of_lt ‹_›)
  · exact Nat.dvd_refl _

theorem dvd_strictest_right (a b : Alignment) : b.bytes.toNat ∣ (a.strictest b).bytes.toNat := by
  unfold strictest
  split
  · exact Nat.dvd_refl _
  · exact dvd_of_le_exponent (Fin.not_lt.mp ‹_›)

end Alignment

/-! ### Members of a struct -/

namespace Shape

/-- Where the members of a struct stand: each at the least multiple of its alignment that does not
lie before the end of the one ahead of it. -/
def offsets (start : Nat) : List Shape → List Nat
  | [] => []
  | member :: rest =>
    member.alignment.ceil start :: offsets (member.alignment.ceil start + member.size.toNat) rest

/-- Where the last member ends. -/
def finish (start : Nat) : List Shape → Nat
  | [] => start
  | member :: rest => finish (member.alignment.ceil start + member.size.toNat) rest

theorem le_finish (start : Nat) (members : List Shape) : start ≤ finish start members := by
  induction members generalizing start with
  | nil => exact Nat.le_refl start
  | cons member rest ih =>
    have hceil := member.alignment.le_ceil start
    have hrest := ih (member.alignment.ceil start + member.size.toNat)
    rw [finish]
    omega

theorem offset_le_finish {start offset : Nat} {members : List Shape}
    (h : offset ∈ offsets start members) : offset ≤ finish start members := by
  induction members generalizing start with
  | nil => simp [offsets] at h
  | cons member rest ih =>
    rw [finish]
    obtain rfl | h := List.mem_cons.mp h
    · exact Nat.le_trans (Nat.le_add_right _ _) (le_finish _ rest)
    · exact ih h

theorem memberEnd?_eq_some_iff {offset stop : Word} {member : Shape} :
    memberEnd? offset member = some stop ↔
      member.alignment.ceil offset.toNat + member.size.toNat = stop.toNat := by
  unfold memberEnd?
  constructor
  · intro h
    obtain ⟨start, hstart, hstop⟩ := Option.bind_eq_some_iff.mp h
    rw [Alignment.roundUp?_eq_some_iff.mp hstart]
    exact Word.add?_eq_some_iff.mp hstop
  · intro h
    obtain ⟨start, hstart⟩ := Word.exists_toNat_eq (Nat.le.intro h)
    refine Option.bind_eq_some_iff.mpr ⟨start, Alignment.roundUp?_eq_some_iff.mpr hstart.symm, ?_⟩
    exact Word.add?_eq_some_iff.mpr (by rw [hstart]; exact h)

/-- The end of the members is found when it is a word. -/
theorem membersEnd?_eq_some_iff {offset stop : Word} {members : List Shape} :
    membersEnd? offset members = some stop ↔ finish offset.toNat members = stop.toNat := by
  induction members generalizing offset with
  | nil =>
    rw [membersEnd?, finish, Option.some_inj]
    exact UInt64.toNat_inj.symm
  | cons member rest ih =>
    rw [membersEnd?, finish]
    constructor
    · intro h
      obtain ⟨next, hnext, hrest⟩ := Option.bind_eq_some_iff.mp h
      rw [memberEnd?_eq_some_iff.mp hnext]
      exact ih.mp hrest
    · intro h
      have hle := le_finish (member.alignment.ceil offset.toNat + member.size.toNat) rest
      obtain ⟨next, hnext⟩ := Word.exists_toNat_eq (h ▸ hle)
      refine Option.bind_eq_some_iff.mpr ⟨next, memberEnd?_eq_some_iff.mpr hnext.symm, ih.mpr ?_⟩
      rw [hnext]
      exact h

theorem dvd_foldl_strictest (members : List Shape) (a : Alignment) :
    a.bytes.toNat ∣ (members.foldl (fun a member => a.strictest member.alignment) a).bytes.toNat ∧
      ∀ member ∈ members, member.alignment.bytes.toNat ∣
        (members.foldl (fun a member => a.strictest member.alignment) a).bytes.toNat := by
  induction members generalizing a with
  | nil => exact ⟨Nat.dvd_refl _, by simp⟩
  | cons first rest ih =>
    obtain ⟨hfirst, hrest⟩ := ih (a.strictest first.alignment)
    refine ⟨Nat.dvd_trans (a.dvd_strictest_left _) hfirst, fun member hmember => ?_⟩
    obtain rfl | hmember := List.mem_cons.mp hmember
    · exact Nat.dvd_trans (a.dvd_strictest_right _) hfirst
    · exact hrest member hmember

/-- What is aligned for the struct is aligned for every member. -/
theorem dvd_strictest {members : List Shape} {member : Shape} (h : member ∈ members) :
    member.alignment.bytes.toNat ∣ (strictest members).bytes.toNat :=
  (dvd_foldl_strictest members .one).2 member h

/-- **A struct in exact numbers**: its size is the end of the last member, rounded up. -/
theorem struct_eq_ok_iff {members : List Shape} {shape : Shape} :
    struct members = .ok shape ↔ shape.alignment = strictest members ∧
      (strictest members).ceil (finish 0 members) = shape.size.toNat := by
  have hround : ∀ size, (membersEnd? 0 members).bind (strictest members).roundUp? = some size ↔
      (strictest members).ceil (finish 0 members) = size.toNat := by
    intro size
    rw [Option.bind_eq_some_iff]
    constructor
    · rintro ⟨stop, hstop, hsize⟩
      rw [show finish 0 members = stop.toNat from membersEnd?_eq_some_iff.mp hstop]
      exact Alignment.roundUp?_eq_some_iff.mp hsize
    · intro hsize
      have hle := (strictest members).le_ceil (finish 0 members)
      obtain ⟨stop, hstop⟩ := Word.exists_toNat_eq (hsize ▸ hle)
      refine ⟨stop, membersEnd?_eq_some_iff.mpr hstop.symm, Alignment.roundUp?_eq_some_iff.mpr ?_⟩
      rw [hstop]
      exact hsize
  unfold struct
  dsimp only
  cases hsize : (membersEnd? 0 members).bind (strictest members).roundUp? with
  | none =>
    simp only [reduceCtorEq, false_iff, not_and]
    intro _ hexact
    rw [(hround shape.size).mpr hexact] at hsize
    cases hsize
  | some size =>
    have hexact := (hround size).mp hsize
    obtain ⟨given, alignment⟩ := shape
    simp only [Except.ok.injEq, Shape.mk.injEq, hexact, UInt64.toNat_inj]
    constructor
    · rintro ⟨hs, ha⟩
      exact ⟨ha.symm, hs⟩
    · rintro ⟨ha, hs⟩
      exact ⟨hs, ha.symm⟩

end Shape

end ScopedMemory
