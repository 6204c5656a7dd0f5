/-! Machine words.

Addresses, sizes and offsets are words of 64 bits. `Word.add?` and its relatives give the exact
result or nothing; plain `+` and `-` wrap. -/
namespace ScopedMemory

/-- An address, a size or an offset. -/
abbrev Word := UInt64

namespace Word

/-- One more than the largest word. -/
def limit : Nat := 1 <<< 64

/-- The largest word. -/
def last : Word := UInt64.ofNat (limit - 1)

/-- The exact sum, if it is a word. -/
def add? (a b : Word) : Option Word :=
  if a.toNat + b.toNat < limit then some (a + b) else none

/-- The exact difference, if it is a word. -/
def sub? (a b : Word) : Option Word :=
  if b ≤ a then some (a - b) else none

/-- The exact product, if it is a word. -/
def mul? (a b : Word) : Option Word :=
  if a.toNat * b.toNat < limit then some (a * b) else none

/-- The sum, or the largest word when the sum is no word. -/
def addCapped (a b : Word) : Word :=
  (add? a b).getD last

/-- The distance from `a` to `b` as a signed word. -/
def distance (a b : Word) : Int64 :=
  (b - a).toInt64

/-- Lower case hexadecimal digits after `0x`. -/
def hex (a : Word) : String :=
  "0x" ++ String.ofList (Nat.toDigits 16 a.toNat)

theorem toNat_lt (a : Word) : a.toNat < limit := UInt64.toNat_lt a

theorem add?_eq_some_iff {a b c : Word} :
    add? a b = some c ↔ a.toNat + b.toNat = c.toNat := by
  have hc := toNat_lt c
  by_cases h : a.toNat + b.toNat < limit
  · have hs : (a + b).toNat = a.toNat + b.toNat := (UInt64.toNat_add a b).trans (Nat.mod_eq_of_lt h)
    simp only [add?, h, if_true, Option.some.injEq, ← UInt64.toNat_inj, hs]
  · simp only [add?, h, if_false, reduceCtorEq, false_iff]
    omega

theorem sub?_eq_some_iff {a b c : Word} :
    sub? a b = some c ↔ b.toNat + c.toNat = a.toNat := by
  by_cases h : b ≤ a
  · have hs : (a - b).toNat = a.toNat - b.toNat := UInt64.toNat_sub_of_le a b h
    have hle : b.toNat ≤ a.toNat := h
    simp only [sub?, h, if_true, Option.some.injEq, ← UInt64.toNat_inj, hs]
    omega
  · have hlt : ¬ b.toNat ≤ a.toNat := h
    simp only [sub?, h, if_false, reduceCtorEq, false_iff]
    omega

theorem mul?_eq_some_iff {a b c : Word} :
    mul? a b = some c ↔ a.toNat * b.toNat = c.toNat := by
  have hc := toNat_lt c
  by_cases h : a.toNat * b.toNat < limit
  · have hs : (a * b).toNat = a.toNat * b.toNat := (UInt64.toNat_mul a b).trans (Nat.mod_eq_of_lt h)
    simp only [mul?, h, if_true, Option.some.injEq, ← UInt64.toNat_inj, hs]
  · simp only [mul?, h, if_false, reduceCtorEq, false_iff]
    omega

theorem toNat_min (a b : Word) : (min a b).toNat = min a.toNat b.toNat := by
  have hmin : min a b = if a ≤ b then a else b := rfl
  by_cases h : a ≤ b
  · rw [hmin, if_pos h, Nat.min_eq_left (UInt64.le_iff_toNat_le.mp h)]
  · have hle : b.toNat ≤ a.toNat := Nat.le_of_not_le fun hle => h (UInt64.le_iff_toNat_le.mpr hle)
    rw [hmin, if_neg h, Nat.min_eq_right hle]

theorem toNat_max (a b : Word) : (max a b).toNat = max a.toNat b.toNat := by
  have hmax : max a b = if a ≤ b then b else a := rfl
  by_cases h : a ≤ b
  · rw [hmax, if_pos h, Nat.max_eq_right (UInt64.le_iff_toNat_le.mp h)]
  · have hle : b.toNat ≤ a.toNat := Nat.le_of_not_le fun hle => h (UInt64.le_iff_toNat_le.mpr hle)
    rw [hmax, if_neg h, Nat.max_eq_left hle]

end Word

end ScopedMemory
