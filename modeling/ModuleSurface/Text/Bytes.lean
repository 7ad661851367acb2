import ModuleSurface.Text.Quoted

/-! # Bytes as text

Bytes are exchanged in base 64, four characters of 64 for three bytes, and shown in messages like
texts of ASCII characters. Reading leaves out every character that is none of the 64 until the
padding is complete; writing breaks lines after 76 characters. -/

namespace ModuleSurface

/-- A sequence of bytes. -/
abbrev Bytes := List UInt8

namespace Bytes

/-! ## In messages -/

/-- The characters with the codes of the bytes. -/
def toChars (bytes : Bytes) : List Char := bytes.map fun byte => Char.ofNat byte.toNat

/-- How one byte is shown between quotes; only ASCII is shown as it is. -/
def escape (quote : Char) (byte : UInt8) : List Char :=
  if byte < 0x80 then Quoted.escape quote (Char.ofNat byte.toNat)
  else '\\' :: 'x' :: hexPadded 2 byte.toNat

/-- **How bytes are shown in a message.** -/
def display (bytes : Bytes) : String :=
  let quote := Quoted.quoteOf bytes.toChars
  String.ofList ('b' :: quote :: (bytes.flatMap (escape quote) ++ [quote]))

/-! ## Base 64 -/

/-- The characters of the base, in the order of their values. -/
def alphabet : List Char :=
  "ABCDEFGHIJKLMNOPQRSTUVWXYZabcdefghijklmnopqrstuvwxyz0123456789+/".toList

/-- The value of a character of the base. -/
def sextet? (c : Char) : Option Nat :=
  if 'A' ≤ c ∧ c ≤ 'Z' then some (c.toNat - 'A'.toNat)
  else if 'a' ≤ c ∧ c ≤ 'z' then some (c.toNat - 'a'.toNat + 26)
  else if '0' ≤ c ∧ c ≤ '9' then some (c.toNat - '0'.toNat + 52)
  else if c = '+' then some 62
  else if c = '/' then some 63
  else none

/-- The character of a value. -/
def sextetChar (value : Nat) : Char := alphabet.getD value '='

/-- The bytes of some values, six bits each; bits that fill no byte are left out. `held` are the
bits that are left from before, `width` is how many. -/
def ofSextets (held width : Nat) : List Nat → Bytes
  | [] => []
  | value :: rest =>
    let bits := held * 64 + value
    if 2 ≤ width then
      let left := Nat.pow 2 (width - 2)
      (bits / left).toUInt8 :: ofSextets (bits % left) (width - 2) rest
    else ofSextets bits (width + 6) rest

/-- The values up to the end of the text or of the padding. `count` values stand before it and
`pads` signs of padding since the last of them; padding starts no sooner than behind the second
value of a group, and it must complete the last group. -/
def sextets? (count pads : Nat) : List Char → Option (List Nat)
  | [] => if count % 4 = 0 then some [] else none
  | c :: rest =>
    if c = '=' then
      if count % 4 < 2 then sextets? count pads rest
      else if 4 ≤ count % 4 + pads + 1 then some []
      else sextets? count (pads + 1) rest
    else
      match sextet? c with
      | some value => (sextets? (count + 1) 0 rest).map (value :: ·)
      | none => sextets? count pads rest

/-- **Reading base 64**; none if the last group of values is not complete. -/
def ofBase64? (text : List Char) : Option Bytes := (sextets? 0 0 text).map (ofSextets 0 0)

/-- Bytes in base 64 on one line. -/
def toBase64 : Bytes → List Char
  | [] => []
  | [a] => [sextetChar (a.toNat / 4), sextetChar (a.toNat % 4 * 16), '=', '=']
  | [a, b] =>
    [sextetChar (a.toNat / 4), sextetChar (a.toNat % 4 * 16 + b.toNat / 16),
      sextetChar (b.toNat % 16 * 4), '=']
  | a :: b :: c :: rest =>
    sextetChar (a.toNat / 4) :: sextetChar (a.toNat % 4 * 16 + b.toNat / 16)
      :: sextetChar (b.toNat % 16 * 4 + c.toNat / 64) :: sextetChar (c.toNat % 64)
      :: toBase64 rest

/-- **Bytes in base 64**, on lines of 57 bytes each; no bytes have no line. -/
def toBase64Lines (bytes : Bytes) : List String :=
  (List.range ((bytes.length + 56) / 57)).map fun line =>
    String.ofList (toBase64 ((bytes.drop (57 * line)).take 57))

end Bytes

end ModuleSurface
