import ScopedMemory.Carrier
import ScopedMemory.Error
import ScopedMemory.Text.Quoted

/-! Layouts.

A layout says how many bytes an access touches, to what its address must be aligned and, for
scalars and addresses, in which order the bytes stand. A `Shape` is a bare size and alignment;
sequences and structs of shapes are shapes again. -/
namespace ScopedMemory

/-- A size and an alignment. -/
structure Shape where
  size : Word
  alignment : Alignment
deriving DecidableEq

/-- How a scalar of carrier `c` is stored. -/
structure ValueLayout (c : Carrier) where
  alignment : Alignment
  order : ByteOrder
  name : Option String
deriving DecidableEq

/-- How an address is stored, and the shape of what it points to, if declared. -/
structure AddressLayout where
  alignment : Alignment
  order : ByteOrder
  target : Option Shape
deriving DecidableEq

/-- The alignment of that many bytes, or a complaint. -/
def Alignment.ofBytes (bytes : Word) : Except AccessError Alignment :=
  match Alignment.ofBytes? bytes with
  | some alignment => .ok alignment
  | none => .error (.illegalArgument (.notPowerOfTwo bytes))

namespace ValueLayout
variable {c : Carrier}

/-- Native order, aligned to its own width. -/
def natural (c : Carrier) : ValueLayout c := ⟨c.alignment, .native, none⟩

def unaligned (l : ValueLayout c) : ValueLayout c := { l with alignment := .one }

def withAlignment (l : ValueLayout c) (bytes : Word) : Except AccessError (ValueLayout c) := do
  let alignment ← Alignment.ofBytes bytes
  return { l with alignment }

def withOrder (l : ValueLayout c) (order : ByteOrder) : ValueLayout c := { l with order }

def withName (l : ValueLayout c) (name : String) : ValueLayout c := { l with name := some name }

def shape (l : ValueLayout c) : Shape := ⟨c.width, l.alignment⟩

def describe (l : ValueLayout c) : String :=
  let name := match l.name with
    | none => "None"
    | some name => s!"Some({Text.quoted name})"
  s!"ValueLayout \x7b carrier: {Text.quoted c.name}, byte_size: {c.size}, " ++
    s!"byte_alignment: {l.alignment.bytes}, order: {l.order.label}, name: {name} \x7d"

end ValueLayout

namespace Shape

/-- A shape of that size and alignment, or a complaint. -/
def ofBytes (size alignment : Word) : Except AccessError Shape := do
  let alignment ← Alignment.ofBytes alignment
  return ⟨size, alignment⟩

/-- Filler without alignment. -/
def padding (size : Word) : Shape := ⟨size, .one⟩

/-- `count` copies of `element`, one after the other. -/
def sequence (count : Word) (element : Shape) : Except AccessError Shape :=
  if element.size % element.alignment.bytes ≠ 0 then
    .error (.illegalArgument (.ragged element.size element.alignment.bytes))
  else match count.mul? element.size with
    | some size => .ok ⟨size, element.alignment⟩
    | none => .error (.illegalArgument (.sequenceOverflow count element.size))

/-- The end of a member that is placed at its alignment from `offset` on. -/
def memberEnd? (offset : Word) (member : Shape) : Option Word := do
  let start ← member.alignment.roundUp? offset
  start.add? member.size

/-- The end of the last of the members, placed from `offset` on. -/
def membersEnd? (offset : Word) : List Shape → Option Word
  | [] => some offset
  | member :: rest => do
    let next ← memberEnd? offset member
    membersEnd? next rest

/-- The strictest alignment of the members. -/
def strictest (members : List Shape) : Alignment :=
  members.foldl (fun a member => a.strictest member.alignment) .one

/-- The members in order, each at its own alignment; the whole takes the strictest alignment, to
which its size is rounded up. -/
def struct (members : List Shape) : Except AccessError Shape :=
  let alignment := strictest members
  match (membersEnd? 0 members).bind alignment.roundUp? with
  | some size => .ok ⟨size, alignment⟩
  | none => .error (.illegalArgument .structOverflow)

def describe (s : Shape) : String :=
  s!"MemoryLayout \x7b byte_size: {s.size}, byte_alignment: {s.alignment.bytes} \x7d"

end Shape

namespace AddressLayout

/-- The width of an address in bytes. -/
def width : Word := 8

/-- Native order, aligned to the width of an address. -/
def natural : AddressLayout := ⟨Carrier.ulong.alignment, .native, none⟩

def unaligned (l : AddressLayout) : AddressLayout := { l with alignment := .one }

def withOrder (l : AddressLayout) (order : ByteOrder) : AddressLayout := { l with order }

def withTarget (l : AddressLayout) (target : Option Shape) : AddressLayout := { l with target }

def shape (l : AddressLayout) : Shape := ⟨width, l.alignment⟩

def describe (l : AddressLayout) : String :=
  let target := match l.target with
    | none => "None"
    | some target => s!"Some({target.describe})"
  s!"AddressLayout \x7b byte_alignment: {l.alignment.bytes}, order: {l.order.label}, " ++
    s!"target: {target} \x7d"

end AddressLayout

/-- Any layout. -/
inductive Layout where
  | value (c : Carrier) (layout : ValueLayout c)
  | address (layout : AddressLayout)
  | shape (s : Shape)

namespace Layout

def toShape : Layout → Shape
  | .value _ layout => layout.shape
  | .address layout => layout.shape
  | .shape s => s

def describe : Layout → String
  | .value _ layout => layout.describe
  | .address layout => layout.describe
  | .shape s => s.describe

/-- Whether two layouts of one kind are equal; layouts of different kinds do not compare. -/
def same? : Layout → Layout → Option Bool
  | .value c l, .value d m => if h : c = d then some (decide (h ▸ l = m)) else none
  | .address l, .address m => some (decide (l = m))
  | .shape l, .shape m => some (decide (l = m))
  | _, _ => none

end Layout

end ScopedMemory
