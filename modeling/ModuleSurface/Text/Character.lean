/-! # Characters

What a character is taken for depends on its code point alone. Some properties are tables: a list of
closed ranges of code points in ascending order, or of the first ones of runs of equal length. An
escape names a character by its code, in hexadecimal digits, and may name half of one. -/

namespace ModuleSurface

/-! ## Ranges of code points -/

/-- **Ranges of code points.** Each pair is the first and the last code point of one range. -/
abbrev Ranges := List (Nat × Nat)

namespace Ranges

/-- A code point belongs to a table when one of the ranges holds it. -/
def holds (ranges : Ranges) (code : Nat) : Bool :=
  ranges.any fun range => range.1 ≤ code && code ≤ range.2

/-- An empty table holds no code point: `holds [] code = false`. -/
@[simp] theorem holds_nil (code : Nat) : holds [] code = false := rfl

/-- A table holds a code point when its first range or the rest of it does. -/
@[simp] theorem holds_cons (range : Nat × Nat) (ranges : Ranges) (code : Nat) :
    holds (range :: ranges) code = ((range.1 ≤ code && code ≤ range.2) || holds ranges code) := rfl

end Ranges

/-! ## Blanks

A number written as text may stand between blanks of any script. The blanks are the white space
characters of Unicode 14; a few control characters that some tables add to them do not count. -/

/-- **The blanks**: the code points with the Unicode property White_Space. -/
def blankRanges : Ranges :=
  [(0x09, 0x0D), (0x20, 0x20), (0x85, 0x85), (0xA0, 0xA0), (0x1680, 0x1680), (0x2000, 0x200A),
    (0x2028, 0x2029), (0x202F, 0x202F), (0x205F, 0x205F), (0x3000, 0x3000)]

/-- A character is blank when the table holds it. -/
def isBlank (c : Char) : Bool := blankRanges.holds c.toNat

/-- The text without the blanks at both of its ends. -/
def stripBlanks (text : List Char) : List Char :=
  (((text.dropWhile isBlank).reverse).dropWhile isBlank).reverse

/-- An empty text has no blanks to strip: `stripBlanks [] = []`. -/
@[simp] theorem stripBlanks_nil : stripBlanks [] = [] := rfl

/-! ## Decimal digits

A decimal digit is a character with the Unicode property Nd. Unicode keeps the ten digits of a
script next to each other, so the property is given by the code points of the zeros. -/

/-- **The zeros** of the scripts of Unicode 14 that have decimal digits. -/
def digitZeros : List Nat :=
  [0x30, 0x660, 0x6F0, 0x7C0, 0x966, 0x9E6, 0xA66, 0xAE6, 0xB66, 0xBE6, 0xC66, 0xCE6, 0xD66,
    0xDE6, 0xE50, 0xED0, 0xF20, 0x1040, 0x1090, 0x17E0, 0x1810, 0x1946, 0x19D0, 0x1A80, 0x1A90,
    0x1B50, 0x1BB0, 0x1C40, 0x1C50, 0xA620, 0xA8D0, 0xA900, 0xA9D0, 0xA9F0, 0xAA50, 0xABF0,
    0xFF10, 0x104A0, 0x10D30, 0x11066, 0x110F0, 0x11136, 0x111D0, 0x112F0, 0x11450, 0x114D0,
    0x11650, 0x116C0, 0x11730, 0x118E0, 0x11950, 0x11C50, 0x11D50, 0x11DA0, 0x16A60, 0x16AC0,
    0x16B50, 0x1D7CE, 0x1D7D8, 0x1D7E2, 0x1D7EC, 0x1D7F6, 0x1E140, 0x1E2F0, 0x1E950, 0x1FBF0]

/-- The value of a decimal digit of any script, or `none` for every other character. -/
def digitValue? (c : Char) : Option Nat :=
  (digitZeros.find? fun first => first ≤ c.toNat && c.toNat < first + 10).map (c.toNat - ·)

/-! ## Hexadecimal digits

Both cases of a hexadecimal digit are read, and the lower one is written. -/

/-- A code in lower-case hexadecimal, padded with zeros to a width. -/
def hexPadded (width code : Nat) : List Char :=
  let digits := Nat.toDigits 16 code
  List.replicate (width - digits.length) '0' ++ digits

/-- The value of a hexadecimal digit. -/
def hexValue? (c : Char) : Option Nat :=
  if '0' ≤ c ∧ c ≤ '9' then some (c.toNat - '0'.toNat)
  else if 'a' ≤ c ∧ c ≤ 'f' then some (c.toNat - 'a'.toNat + 10)
  else if 'A' ≤ c ∧ c ≤ 'F' then some (c.toNat - 'A'.toNat + 10)
  else none

/-- The value of hexadecimal digits, the leading one first; none if one of them is no such digit. -/
def hexNumber? (digits : List Char) : Option Nat :=
  digits.foldlM (fun acc c => (hexValue? c).map (16 * acc + ·)) 0

/-! ## Halves of surrogate pairs

A character beyond U+FFFF has two 16-bit units, the halves of a surrogate pair, and escapes may name
it by them. A half that stands alone is no character, yet escapes can put it into a text: the
private character that lies 0xF0000 further on holds its place there, and is written as the half
wherever a text is written. -/

/-- Whether a 16-bit unit is the first of a pair. -/
def isHighUnit (unit : Nat) : Bool := 0xD800 ≤ unit && unit < 0xDC00

/-- Whether a 16-bit unit is the second of a pair. -/
def isLowUnit (unit : Nat) : Bool := 0xDC00 ≤ unit && unit < 0xE000

/-- The character of a pair of units. -/
def joinUnits (high low : Nat) : Char :=
  Char.ofNat (0x10000 + (high - 0xD800) * 0x400 + (low - 0xDC00))

/-- How far the character that holds the place of a half lies behind its code. -/
def halfDistance : Nat := 0xF0000

/-- Whether a character holds the place of a half. -/
def isHalf (c : Char) : Bool :=
  0xD800 + halfDistance ≤ c.toNat && c.toNat < 0xE000 + halfDistance

/-- The character of a code, which may be that of a half. -/
def charOfCode (code : Nat) : Char :=
  if 0xD800 ≤ code ∧ code < 0xE000 then Char.ofNat (code + halfDistance) else Char.ofNat code

/-- **The code of a character** as it is written: where it holds the place of a half, that of the
half. -/
def codeOf (c : Char) : Nat := if isHalf c then c.toNat - halfDistance else c.toNat

/-- Whether a text holds a half, so that it has no UTF-8 form. -/
def hasHalf (text : String) : Bool := text.toList.any isHalf

/-- A plain character keeps its code: `codeOf c = c.toNat` unless `isHalf c`. -/
theorem codeOf_of_not_isHalf {c : Char} (h : isHalf c = false) : codeOf c = c.toNat := by
  simp [codeOf, h]

end ModuleSurface
