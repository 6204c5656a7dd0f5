/-! UTF-8.

`decode` reads any bytes. Where they are not UTF-8 it puts one replacement character for each
longest piece that could still have become a character. -/
namespace ScopedMemory.Text.Utf8

/-- The bytes of a text. -/
def encode (text : String) : List UInt8 :=
  text.toList.flatMap String.utf8EncodeChar

/-- Stands for what cannot be read. -/
def replacement : Char := Char.ofNat 0xFFFD

/-- The bits that a first byte carries and the ranges of the bytes that must follow it. -/
structure Lead where
  bits : Nat
  tail : List (Nat × Nat)

/-- What a first byte of a longer character announces; nothing for all other bytes. The ranges
leave out overlong forms, surrogates and what lies beyond the last code point. -/
def lead? (byte : UInt8) : Option Lead :=
  let n := byte.toNat
  if 0xC2 ≤ n && n ≤ 0xDF then some ⟨n - 0xC0, [(0x80, 0xBF)]⟩
  else if n = 0xE0 then some ⟨0, [(0xA0, 0xBF), (0x80, 0xBF)]⟩
  else if n = 0xED then some ⟨0xD, [(0x80, 0x9F), (0x80, 0xBF)]⟩
  else if 0xE1 ≤ n && n ≤ 0xEF then some ⟨n - 0xE0, [(0x80, 0xBF), (0x80, 0xBF)]⟩
  else if n = 0xF0 then some ⟨0, [(0x90, 0xBF), (0x80, 0xBF), (0x80, 0xBF)]⟩
  else if 0xF1 ≤ n && n ≤ 0xF3 then
    some ⟨n - 0xF0, [(0x80, 0xBF), (0x80, 0xBF), (0x80, 0xBF)]⟩
  else if n = 0xF4 then some ⟨4, [(0x80, 0x8F), (0x80, 0xBF), (0x80, 0xBF)]⟩
  else none

/-- Between characters, or inside one that has begun. -/
inductive Progress where
  | between
  | inside (bits : Nat) (first : Nat × Nat) (tail : List (Nat × Nat))

/-- A byte read between characters. -/
def start (byte : UInt8) : List Char × Progress :=
  if byte.toNat < 0x80 then ([Char.ofNat byte.toNat], .between)
  else match lead? byte with
    | some ⟨bits, first :: tail⟩ => ([], .inside bits first tail)
    | _ => ([replacement], .between)

/-- The characters that become certain with one more byte. -/
def advance (p : Progress) (byte : UInt8) : List Char × Progress :=
  match p with
  | .between => start byte
  | .inside bits first tail =>
    if first.1 ≤ byte.toNat && byte.toNat ≤ first.2 then
      let bits := 64 * bits + (byte.toNat - 0x80)
      match tail with
      | [] => ([Char.ofNat bits], .between)
      | next :: rest => ([], .inside bits next rest)
    else
      let (chars, q) := start byte
      (replacement :: chars, q)

/-- The characters of the bytes, read from `p` on. -/
def decodeFrom (p : Progress) : List UInt8 → List Char
  | [] => match p with
    | .between => []
    | .inside .. => [replacement]
  | byte :: rest =>
    let (chars, q) := advance p byte
    chars ++ decodeFrom q rest

/-- The text that the bytes hold. -/
def decode (bytes : List UInt8) : String :=
  String.ofList (decodeFrom .between bytes)

end ScopedMemory.Text.Utf8
