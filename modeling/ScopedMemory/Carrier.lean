import ScopedMemory.Alignment
import ScopedMemory.ByteOrder

/-! Carriers: the kinds of scalar that memory can hold.

Each carrier has a type of values and a width. A value has one bit pattern, a number below
`256 ^ size`, and is stored as the bytes of that number in the order asked for. Floating point
values are carried as their bits, so that every payload survives. -/
namespace ScopedMemory

inductive Carrier where
  | bool | byte | ubyte | char | short | int | uint | float | long | ulong | double
deriving DecidableEq, Repr

namespace Carrier

def all : List Carrier :=
  [.bool, .byte, .ubyte, .char, .short, .int, .uint, .float, .long, .ulong, .double]

def name : Carrier → String
  | .bool => "bool"
  | .byte => "byte"
  | .ubyte => "ubyte"
  | .char => "char"
  | .short => "short"
  | .int => "int"
  | .uint => "uint"
  | .float => "float"
  | .long => "long"
  | .ulong => "ulong"
  | .double => "double"

def ofName? (text : String) : Option Carrier :=
  all.find? (·.name == text)

/-- The natural alignment: as wide as the value. -/
def alignment : Carrier → Alignment
  | .bool | .byte | .ubyte => .one
  | .char | .short => ⟨⟨1, by decide⟩⟩
  | .int | .uint | .float => ⟨⟨2, by decide⟩⟩
  | .long | .ulong | .double => ⟨⟨3, by decide⟩⟩

/-- Width in bytes. -/
def size (c : Carrier) : Nat := 1 <<< c.alignment.exponent.val

/-- Width in bytes, as a word. -/
def width (c : Carrier) : Word := c.alignment.bytes

theorem toNat_width (c : Carrier) : c.width.toNat = c.size := c.alignment.toNat_bytes

/-- The values of a carrier. -/
def Value : Carrier → Type
  | .bool => Bool
  | .byte => Int8
  | .ubyte => UInt8
  | .char => UInt16
  | .short => Int16
  | .int => Int32
  | .uint => UInt32
  | .float => UInt32
  | .long => Int64
  | .ulong => UInt64
  | .double => UInt64

instance (c : Carrier) : DecidableEq c.Value := by
  cases c <;> simp only [Value] <;> infer_instance

/-- The bit pattern of a value, as a number. -/
def bits : (c : Carrier) → c.Value → Nat
  | .bool, v => Bool.toNat v
  | .byte, v => (Int8.toUInt8 v).toNat
  | .ubyte, v => UInt8.toNat v
  | .char, v => UInt16.toNat v
  | .short, v => (Int16.toUInt16 v).toNat
  | .int, v => (Int32.toUInt32 v).toNat
  | .uint, v => UInt32.toNat v
  | .float, v => UInt32.toNat v
  | .long, v => (Int64.toUInt64 v).toNat
  | .ulong, v => UInt64.toNat v
  | .double, v => UInt64.toNat v

/-- The value with that bit pattern; every pattern but zero is `true` for `bool`. -/
def ofBits : (c : Carrier) → Nat → c.Value
  | .bool, n => (n != 0 : Bool)
  | .byte, n => (UInt8.ofNat n).toInt8
  | .ubyte, n => UInt8.ofNat n
  | .char, n => UInt16.ofNat n
  | .short, n => (UInt16.ofNat n).toInt16
  | .int, n => (UInt32.ofNat n).toInt32
  | .uint, n => UInt32.ofNat n
  | .float, n => UInt32.ofNat n
  | .long, n => (UInt64.ofNat n).toInt64
  | .ulong, n => UInt64.ofNat n
  | .double, n => UInt64.ofNat n

/-! ### Codec -/

/-- The bytes of a value. -/
def encode (c : Carrier) (order : ByteOrder) (v : c.Value) : List UInt8 :=
  order.arrange (bytesOfNat c.size (c.bits v))

/-- The value that as many bytes as the carrier is wide hold. -/
def decode (c : Carrier) (order : ByteOrder) (bytes : List UInt8) : c.Value :=
  c.ofBits (natOfBytes (order.arrange bytes))

@[simp] theorem length_encode (c : Carrier) (order : ByteOrder) (v : c.Value) :
    (c.encode order v).length = c.size := by
  simp [encode]

/-- Decodes the front of a buffer; nothing if the buffer is too short. -/
def decodeFront? (c : Carrier) (order : ByteOrder) (buffer : List UInt8) : Option c.Value :=
  if buffer.length < c.size then none else some (c.decode order (buffer.take c.size))

/-- Encodes into the front of a buffer; nothing if the buffer is too short. -/
def encodeFront? (c : Carrier) (order : ByteOrder) (v : c.Value) (buffer : List UInt8) :
    Option (List UInt8) :=
  if buffer.length < c.size then none else some (c.encode order v ++ buffer.drop c.size)

theorem decodeFront?_of_room {c : Carrier} {buffer : List UInt8} (room : c.size ≤ buffer.length)
    (order : ByteOrder) : c.decodeFront? order buffer = some (c.decode order (buffer.take c.size)) :=
  if_neg (Nat.not_lt.mpr room)

theorem encodeFront?_of_room {c : Carrier} {buffer : List UInt8} (room : c.size ≤ buffer.length)
    (order : ByteOrder) (v : c.Value) :
    c.encodeFront? order v buffer = some (c.encode order v ++ buffer.drop c.size) :=
  if_neg (Nat.not_lt.mpr room)

/-- The values of consecutive elements. -/
def decodeAll (c : Carrier) (order : ByteOrder) : (count : Nat) → List UInt8 → List c.Value
  | 0, _ => []
  | count + 1, bytes =>
    c.decode order (bytes.take c.size) :: c.decodeAll order count (bytes.drop c.size)

/-- The bytes of consecutive elements. -/
def encodeAll (c : Carrier) (order : ByteOrder) (values : List c.Value) : List UInt8 :=
  values.flatMap (c.encode order)

end Carrier

/-! ### Literals -/

/-- How a scalar is written down: a truth value, an integer, or a bit pattern. -/
inductive Literal where
  | truth (b : Bool)
  | number (n : Int)
  | pattern (bits : Nat)
deriving DecidableEq, Repr

namespace Carrier

/-- The literal of a value. -/
def literal : (c : Carrier) → c.Value → Literal
  | .bool, v => .truth v
  | .byte, v => .number (Int8.toInt v)
  | .ubyte, v => .number (UInt8.toNat v)
  | .char, v => .number (UInt16.toNat v)
  | .short, v => .number (Int16.toInt v)
  | .int, v => .number (Int32.toInt v)
  | .uint, v => .number (UInt32.toNat v)
  | .float, v => .pattern (UInt32.toNat v)
  | .long, v => .number (Int64.toInt v)
  | .ulong, v => .number (UInt64.toNat v)
  | .double, v => .pattern (UInt64.toNat v)

/-- The value that a literal denotes, if the carrier has it. -/
def ofLiteral? (c : Carrier) : Literal → Option c.Value
  | .truth b => if c = .bool then some (c.ofBits b.toNat) else none
  | .number n =>
    let v := c.ofBits (n % (1 <<< (8 * c.size) : Nat)).toNat
    if c.literal v = .number n then some v else none
  | .pattern p =>
    let v := c.ofBits p
    if c.literal v = .pattern p then some v else none

end Carrier

end ScopedMemory
