/-! The two orders in which the bytes of a scalar are stored. -/
namespace ScopedMemory

inductive ByteOrder where
  /-- Least significant byte first. -/
  | little
  /-- Most significant byte first. -/
  | big
deriving DecidableEq, Repr

namespace ByteOrder

/-- The order of the machine. -/
def native : ByteOrder := .little

def title : ByteOrder → String
  | .little => "little-endian"
  | .big => "big-endian"

/-- The constructor as it appears in descriptions of layouts. -/
def label : ByteOrder → String
  | .little => "Little"
  | .big => "Big"

/-- Turns bytes between this order and little-endian; its own inverse. -/
def arrange (order : ByteOrder) (bytes : List UInt8) : List UInt8 :=
  match order with
  | .little => bytes
  | .big => bytes.reverse

@[simp] theorem arrange_arrange (order : ByteOrder) (bytes : List UInt8) :
    order.arrange (order.arrange bytes) = bytes := by
  cases order <;> simp [arrange]

@[simp] theorem length_arrange (order : ByteOrder) (bytes : List UInt8) :
    (order.arrange bytes).length = bytes.length := by
  cases order <;> simp [arrange]

end ByteOrder

/-! ### Numbers as bytes -/

/-- The `count` least significant bytes of `n`, least significant first. -/
def bytesOfNat : (count : Nat) → (n : Nat) → List UInt8
  | 0, _ => []
  | count + 1, n => UInt8.ofNat (n % 256) :: bytesOfNat count (n / 256)

/-- The number whose bytes these are, least significant first. -/
def natOfBytes : List UInt8 → Nat
  | [] => 0
  | byte :: rest => byte.toNat + 256 * natOfBytes rest

@[simp] theorem length_bytesOfNat (count n : Nat) : (bytesOfNat count n).length = count := by
  induction count generalizing n with
  | zero => rfl
  | succ count ih => simp [bytesOfNat, ih]

theorem natOfBytes_bytesOfNat (count n : Nat) :
    natOfBytes (bytesOfNat count n) = n % (1 <<< (8 * count)) := by
  induction count generalizing n with
  | zero => simp [bytesOfNat, natOfBytes, Nat.mod_one]
  | succ count ih =>
    have hb : (UInt8.ofNat (n % 256)).toNat = n % 256 := by
      simp only [UInt8.toNat_ofNat']
      omega
    have hnext : 1 <<< (8 * (count + 1)) = 256 * 1 <<< (8 * count) := by
      rw [Nat.mul_succ, Nat.shiftLeft_add, Nat.shiftLeft_eq _ 8, Nat.mul_comm]
    rw [bytesOfNat, natOfBytes, ih, hb, hnext, Nat.mod_mul]

theorem bytesOfNat_natOfBytes (bytes : List UInt8) :
    bytesOfNat bytes.length (natOfBytes bytes) = bytes := by
  induction bytes with
  | nil => rfl
  | cons byte rest ih =>
    have hb := byte.toNat_lt
    have hm : (byte.toNat + 256 * natOfBytes rest) % 256 = byte.toNat := by omega
    have hd : (byte.toNat + 256 * natOfBytes rest) / 256 = natOfBytes rest := by omega
    simp [bytesOfNat, natOfBytes, hm, hd, ih]

theorem natOfBytes_lt (bytes : List UInt8) : natOfBytes bytes < 1 <<< (8 * bytes.length) := by
  have hback := natOfBytes_bytesOfNat bytes.length (natOfBytes bytes)
  rw [bytesOfNat_natOfBytes] at hback
  rw [hback]
  exact Nat.mod_lt _ (by rw [Nat.one_shiftLeft]; exact Nat.two_pow_pos _)

end ScopedMemory
