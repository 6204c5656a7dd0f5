import ScopedMemory.Layout

/-! Layout expressions.

An expression says how a layout is put together. Building it stops at the first part that cannot
be built, depth first and from left to right. -/
namespace ScopedMemory

inductive ValueModifier where
  | unaligned
  | align (bytes : Word)
  | order (o : ByteOrder)
  | name (text : String)

/-- A change of an address layout; `α` describes the target. -/
inductive AddressModifier (α : Type) where
  | unaligned
  | order (o : ByteOrder)
  | target (e : α)
  | noTarget

/-- The natural layout of a carrier with modifiers, applied in order. -/
structure ValueExpr where
  carrier : Carrier
  modifiers : List ValueModifier

inductive LayoutExpr where
  | value (e : ValueExpr)
  | address (modifiers : List (AddressModifier LayoutExpr))
  | shape (size alignment : Word)
  | padding (size : Word)
  | of (e : LayoutExpr)
  | sequence (count : Word) (element : LayoutExpr)
  | struct (members : List LayoutExpr)

/-- The natural address layout with modifiers, applied in order. -/
abbrev AddressExpr := List (AddressModifier LayoutExpr)

def ValueModifier.apply {c : Carrier} (layout : ValueLayout c) :
    ValueModifier → Except AccessError (ValueLayout c)
  | .unaligned => .ok layout.unaligned
  | .align bytes => layout.withAlignment bytes
  | .order o => .ok (layout.withOrder o)
  | .name text => .ok (layout.withName text)

def ValueExpr.build (e : ValueExpr) : Except AccessError (ValueLayout e.carrier) :=
  e.modifiers.foldlM ValueModifier.apply (.natural e.carrier)

mutual

def LayoutExpr.build : LayoutExpr → Except AccessError Layout
  | .value e => do return .value e.carrier (← e.build)
  | .address modifiers => do return .address (← LayoutExpr.buildAddress .natural modifiers)
  | .shape size alignment => do return .shape (← Shape.ofBytes size alignment)
  | .padding size => .ok (.shape (.padding size))
  | .of e => do return .shape (← e.build).toShape
  | .sequence count element => do return .shape (← Shape.sequence count (← element.build).toShape)
  | .struct members => do return .shape (← Shape.struct (← LayoutExpr.buildShapes members))

/-- Applies the modifiers in order. -/
def LayoutExpr.buildAddress (layout : AddressLayout) :
    List (AddressModifier LayoutExpr) → Except AccessError AddressLayout
  | [] => .ok layout
  | modifier :: rest => do
    let next ← LayoutExpr.modifyAddress layout modifier
    LayoutExpr.buildAddress next rest

def LayoutExpr.modifyAddress (layout : AddressLayout) :
    AddressModifier LayoutExpr → Except AccessError AddressLayout
  | .unaligned => .ok layout.unaligned
  | .order o => .ok (layout.withOrder o)
  | .target e => do return layout.withTarget (some (← e.build).toShape)
  | .noTarget => .ok (layout.withTarget none)

def LayoutExpr.buildShapes : List LayoutExpr → Except AccessError (List Shape)
  | [] => .ok []
  | e :: rest => do
    let shape := (← e.build).toShape
    let shapes ← LayoutExpr.buildShapes rest
    return shape :: shapes

end

def AddressExpr.build (e : AddressExpr) : Except AccessError AddressLayout :=
  LayoutExpr.buildAddress .natural e

/-! ### Names -/

/-- A natural layout by the name of its carrier, or a constant by its capital name; the constants
of more than one byte have an unaligned twin. -/
def ValueExpr.ofName? (name : String) : Option ValueExpr :=
  match Carrier.ofName? name with
  | some c => some ⟨c, []⟩
  | none => match name with
    | "BOOL" => some ⟨.bool, []⟩
    | "BYTE" => some ⟨.byte, []⟩
    | "U8" => some ⟨.ubyte, []⟩
    | "CHAR" => some ⟨.char, []⟩
    | "SHORT" => some ⟨.short, []⟩
    | "INT" => some ⟨.int, []⟩
    | "FLOAT" => some ⟨.float, []⟩
    | "LONG" => some ⟨.long, []⟩
    | "DOUBLE" => some ⟨.double, []⟩
    | "CHAR_UNALIGNED" => some ⟨.char, [.unaligned]⟩
    | "SHORT_UNALIGNED" => some ⟨.short, [.unaligned]⟩
    | "INT_UNALIGNED" => some ⟨.int, [.unaligned]⟩
    | "FLOAT_UNALIGNED" => some ⟨.float, [.unaligned]⟩
    | "LONG_UNALIGNED" => some ⟨.long, [.unaligned]⟩
    | "DOUBLE_UNALIGNED" => some ⟨.double, [.unaligned]⟩
    | _ => none

def AddressExpr.ofName? : String → Option AddressExpr
  | "address" | "ADDRESS" => some []
  | "ADDRESS_UNALIGNED" => some [.unaligned]
  | _ => none

end ScopedMemory
