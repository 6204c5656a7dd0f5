/-! Decimal numerals.

A numeral is an optional plus sign and one or more ASCII digits, leading zeros allowed. Its digits
are read one after the other, and no further once the number is too large. -/
namespace ScopedMemory.Text

def digitValue (c : Char) : Nat := c.toNat - '0'.toNat

/-- The number that digits denote, after the number `front` of the digits before them, as long as it
stays below `bound`. -/
def readDigits? (bound front : Nat) : List Char → Option Nat
  | [] => some front
  | c :: rest =>
    if c.isDigit then
      let next := 10 * front + digitValue c
      if next < bound then readDigits? bound next rest else none
    else none

/-- What stands after the sign, if there is one. -/
def unsigned : List Char → List Char
  | '+' :: digits => digits
  | digits => digits

/-- The number that a numeral denotes, if it is below `bound`. -/
def numeral? (bound : Nat) (text : String) : Option Nat :=
  let digits := unsigned text.toList
  if digits.isEmpty then none else readDigits? bound 0 digits

end ScopedMemory.Text
