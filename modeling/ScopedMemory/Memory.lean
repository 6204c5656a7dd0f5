import ScopedMemory.Word

/-! Memory.

A byte lives at an address of one space: the native address space or one of the arrays. Memory is
what every place holds. Its one change is the overlay of a range with new contents; a range may
wrap around the end of the address space. -/
namespace ScopedMemory

/-- Where addresses count: native memory, or an array of its own. -/
inductive Space where
  | native
  | array (id : Nat)
deriving DecidableEq, Repr

/-- The byte at every address of every space. -/
structure Memory where
  read : Space → Word → UInt8

namespace Memory

/-- The address lies among the `count` addresses from `start` on. -/
def within (start : Word) (count : Nat) (address : Word) : Bool :=
  (address - start).toNat < count

/-- The `count` bytes from `start` on replaced by `content 0`, `content 1`, and so on. -/
def overlay (m : Memory) (space : Space) (start : Word) (count : Nat) (content : Nat → UInt8) :
    Memory :=
  ⟨fun s a => if s = space ∧ within start count a then content (a - start).toNat else m.read s a⟩

/-- The bytes of a range. -/
def bytes (m : Memory) (space : Space) (start : Word) (count : Nat) : List UInt8 :=
  (List.range count).map fun i => m.read space (start + UInt64.ofNat i)

/-- The bytes from `start` on replaced by those of a buffer. -/
def splice (m : Memory) (space : Space) (start : Word) (buffer : Array UInt8) : Memory :=
  m.overlay space start buffer.size fun i => buffer.getD i 0

/-- Stores bytes from `start` on. -/
def write (m : Memory) (space : Space) (start : Word) (bytes : List UInt8) : Memory :=
  m.splice space start bytes.toArray

/-- Sets `count` bytes from `start` on to one value. -/
def fill (m : Memory) (space : Space) (start : Word) (count : Nat) (byte : UInt8) : Memory :=
  m.overlay space start count fun _ => byte

/-- Moves bytes one at a time, in the given order of their indices. The buffer is what the target
holds meanwhile, so where the ranges meet, what is read may have been stored just before. -/
def moveEach (m : Memory) (source : Space) (sourceStart : Word) (target : Space)
    (targetStart : Word) : List Nat → Array UInt8 → Array UInt8
  | [], buffer => buffer
  | i :: rest, buffer =>
    let byte := (m.splice target targetStart buffer).read source (sourceStart + UInt64.ofNat i)
    m.moveEach source sourceStart target targetStart rest (buffer.setIfInBounds i byte)

/-- Moves bytes to a range that may meet their own: forwards to lower addresses, and backwards
otherwise. Bytes that are in their place are left there. -/
def move (m : Memory) (source : Space) (sourceStart : Word) (target : Space) (targetStart : Word)
    (count : Nat) : Memory :=
  if source = target ∧ sourceStart = targetStart then m
  else
    let order := if targetStart < sourceStart then List.range count else (List.range count).reverse
    let buffer := (m.bytes target targetStart count).toArray
    m.splice target targetStart (m.moveEach source sourceStart target targetStart order buffer)

/-- How many bytes stand before the first `byte` among the next `count`, after `seen` others. -/
def findFrom (m : Memory) (space : Space) (byte : UInt8) (seen : Nat) (here : Word) :
    (count : Nat) → Option Nat
  | 0 => none
  | count + 1 =>
    if m.read space here = byte then some seen
    else m.findFrom space byte (seen + 1) (here + 1) count

/-- The index of the first `byte` in a range; nothing after it is looked at. -/
def find? (m : Memory) (space : Space) (start : Word) (count : Nat) (byte : UInt8) : Option Nat :=
  m.findFrom space byte 0 start count

/-- How many bytes agree before the first difference among the next `count`, after `seen` others. -/
def differFrom (m : Memory) (space : Space) (here : Word) (space' : Space) (there : Word)
    (seen : Nat) : (count : Nat) → Option Nat
  | 0 => none
  | count + 1 =>
    if m.read space here ≠ m.read space' there then some seen
    else m.differFrom space (here + 1) space' (there + 1) (seen + 1) count

/-- The index of the first difference of two ranges; nothing after it is looked at. -/
def firstDifference? (m : Memory) (space : Space) (start : Word) (space' : Space) (start' : Word)
    (count : Nat) : Option Nat :=
  m.differFrom space start space' start' 0 count

@[simp] theorem read_overlay (m : Memory) (space : Space) (start : Word) (count : Nat)
    (content : Nat → UInt8) (s : Space) (a : Word) :
    (m.overlay space start count content).read s a =
      if s = space ∧ within start count a then content (a - start).toNat else m.read s a := rfl

end Memory

end ScopedMemory
