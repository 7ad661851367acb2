import ModuleSurface.Document.Tree
import ModuleSurface.Text.Numeral

/-! # Reading JSON

The reader takes the text of one value and answers its tree, or the first offence with its
place. Besides strict JSON it takes the names of the infinities and of what is not a number. A key
that is written twice keeps its first place and its last value. -/

namespace ModuleSurface.Json

/-- **What is wrong** with a JSON text at a place of it. -/
inductive Offence
  | expectingValue
  | expectingName
  | expectingColon
  | expectingComma
  | unterminatedText
  | controlCharacter
  | invalidEscape
  | invalidUnitEscape
  | extraData
  | byteOrderMark
deriving DecidableEq, Repr

/-- The words of an offence. -/
def Offence.words : Offence → String
  | .expectingValue => "Expecting value"
  | .expectingName => "Expecting property name enclosed in double quotes"
  | .expectingColon => "Expecting ':' delimiter"
  | .expectingComma => "Expecting ',' delimiter"
  | .unterminatedText => "Unterminated string starting at"
  | .controlCharacter => "Invalid control character at"
  | .invalidEscape => "Invalid \\escape"
  | .invalidUnitEscape => "Invalid \\uXXXX escape"
  | .extraData => "Extra data"
  | .byteOrderMark => "Unexpected UTF-8 BOM (decode using utf-8-sig)"

/-- **Why a text was not read**: an offence at a place, counted in characters, or an integer that
is too long to be read. -/
inductive ReadError
  | offence (what : Offence) (place : Nat)
  | integerTooLong (digits : Nat)
deriving DecidableEq, Repr

/-- The line of a place, counted from one; a line feed ends a line. -/
def lineOf (text : List Char) (place : Nat) : Nat := (text.take place).count '\n' + 1

/-- The column of a place, counted from one. -/
def columnOf (text : List Char) (place : Nat) : Nat :=
  ((text.take place).reverse.takeWhile (· ≠ '\n')).length + 1

/-- The sentence about an offence in a text. -/
def Offence.message (what : Offence) (text : String) (place : Nat) : String :=
  let chars := text.toList
  s!"{what.words}: line {lineOf chars place} column {columnOf chars place} (char {place})"

/-- **The rest of a text** and how many characters stand before it. -/
structure Cursor where
  place : Nat
  rest : List Char

namespace Cursor

/-- The cursor behind `count` characters. -/
def skip (cursor : Cursor) (count : Nat) : Cursor :=
  ⟨cursor.place + count, cursor.rest.drop count⟩

/-- White space between the parts of a value. -/
def isSpace (c : Char) : Bool := c == ' ' || c == '\t' || c == '\n' || c == '\r'

/-- The cursor behind the white space at it. -/
def skipSpace (cursor : Cursor) : Cursor :=
  cursor.skip (cursor.rest.takeWhile isSpace).length

/-- An offence at the cursor. -/
def fail {α : Type} (cursor : Cursor) (what : Offence) : Except ReadError α :=
  .error (.offence what cursor.place)

end Cursor

/-! ## Texts -/

/-- The four hexadecimal digits of a unit escape. At least one character must follow them. -/
def unitDigits? : List Char → Option (Nat × List Char)
  | a :: b :: c :: d :: next :: rest => (hexNumber? [a, b, c, d]).map (·, next :: rest)
  | _ => none

/-- A unit escape that may be the second of a pair: another escape follows, and at least one
character behind it. -/
def startsSecond : List Char → Bool
  | '\\' :: 'u' :: rest => 4 < rest.length
  | _ => false

/-- The character that a letter stands for behind a backslash. -/
def unescape? : Char → Option Char
  | '"' => some '"'
  | '\\' => some '\\'
  | '/' => some '/'
  | 'b' => some '\x08'
  | 'f' => some '\x0c'
  | 'n' => some '\n'
  | 'r' => some '\r'
  | 't' => some '\t'
  | _ => none

/-- The characters of a text up to its closing quote. `opening` is the place of the opening quote
and `fuel` bounds the number of characters. -/
def readText (opening : Nat) : Nat → Cursor → Except ReadError (List Char × Cursor)
  | 0, _ => .error (.offence .unterminatedText opening)
  | fuel + 1, cursor =>
    match cursor.rest with
    | [] => .error (.offence .unterminatedText opening)
    | '"' :: _ => .ok ([], cursor.skip 1)
    -- a backslash at the very end leaves the text open; it is not an escape of its own
    | ['\\'] => .error (.offence .unterminatedText opening)
    | '\\' :: 'u' :: rest =>
      match unitDigits? rest with
      | none => (cursor.skip 1).fail .invalidUnitEscape
      | some (unit, after) =>
        -- a first half is kept as it is unless the second half of a pair follows at once
        if isHighUnit unit && startsSecond after then
          match unitDigits? (after.drop 2) with
          | none => (cursor.skip 7).fail .invalidUnitEscape
          | some (second, _) =>
            if isLowUnit second then do
              let (chars, cursor) ← readText opening fuel (cursor.skip 12)
              return (joinUnits unit second :: chars, cursor)
            else do
              let (chars, cursor) ← readText opening fuel (cursor.skip 6)
              return (charOfCode unit :: chars, cursor)
        else do
          let (chars, cursor) ← readText opening fuel (cursor.skip 6)
          return (charOfCode unit :: chars, cursor)
    | '\\' :: letter :: _ =>
      match unescape? letter with
      | none => cursor.fail .invalidEscape
      | some c => do
        let (chars, cursor) ← readText opening fuel (cursor.skip 2)
        return (c :: chars, cursor)
    | c :: _ =>
      if c.toNat < 0x20 then cursor.fail .controlCharacter
      else do
        let (chars, cursor) ← readText opening fuel (cursor.skip 1)
        return (c :: chars, cursor)

/-- The text whose opening quote the cursor is at. -/
def readTextAt (cursor : Cursor) : Except ReadError (String × Cursor) := do
  let (chars, after) ← readText cursor.place (cursor.rest.length + 1) (cursor.skip 1)
  return (String.ofList chars, after)

/-! ## Numbers -/

/-- The value of an ASCII digit character. -/
def digitOf (c : Char) : Nat := c.toNat - '0'.toNat

/-- The digits of the whole part of a number: a lone zero, or digits that do not start with one. -/
def wholeDigits : List Char → List Char
  | '0' :: _ => ['0']
  | rest => rest.takeWhile Char.isDigit

/-- The digits of a fraction, if a point and a digit follow. -/
def fractionDigits : List Char → List Char
  | '.' :: rest => rest.takeWhile Char.isDigit
  | _ => []

/-- The exponent that follows, if an `e`, an optional sign and a digit do: how many characters it
takes, and its value. -/
def exponentPart : List Char → Option (Nat × Int)
  | c :: rest =>
    if c = 'e' ∨ c = 'E' then
      let signed := match rest with
        | '+' :: _ | '-' :: _ => true
        | _ => false
      let digits := (if signed then rest.drop 1 else rest).takeWhile Char.isDigit
      -- an `e` without digits is no exponent and ends the number in front of it
      if digits = [] then none
      else
        let value := Numeral.ofDigits (digits.map digitOf)
        let negative := rest.head? = some '-'
        some (digits.length + (if signed then 2 else 1), if negative then -(value : Int) else value)
    else none
  | [] => none

/-- The number at the cursor. Without a fraction and an exponent it is an integer. -/
def readNumber (cursor : Cursor) : Except ReadError (Tree × Cursor) :=
  let negative := cursor.rest.head? = some '-'
  let start := if negative then cursor.skip 1 else cursor
  let whole := wholeDigits start.rest
  if whole = [] then cursor.fail .expectingValue
  else
    let afterWhole := start.skip whole.length
    let fraction := fractionDigits afterWhole.rest
    let afterFraction := if fraction = [] then afterWhole else afterWhole.skip (fraction.length + 1)
    let exponent := exponentPart afterFraction.rest
    if fraction = [] ∧ exponent = none then
      -- only integers have a limit: a float may have any number of digits
      if integerDigitLimit < whole.length then .error (.integerTooLong whole.length)
      else
        let magnitude := Numeral.ofDigits (whole.map digitOf)
        .ok (.scalar (.int (if negative then -(magnitude : Int) else magnitude)), afterWhole)
    else
      let digits := Numeral.ofDigits ((whole ++ fraction).map digitOf)
      let (length, power) := exponent.getD (0, 0)
      .ok (.scalar (.float (Double.ofDecimal negative digits (power - fraction.length))),
        afterFraction.skip length)

/-! ## Values -/

/-- The words that stand for a value, and their values. -/
def words : List (String × Scalar) :=
  [("null", .null), ("true", .bool true), ("false", .bool false), ("NaN", .float .nan),
    ("Infinity", .float (.infinity false)), ("-Infinity", .float (.infinity true))]

/-- The word at the cursor, if there is one. -/
def readWord (cursor : Cursor) : Option (Tree × Cursor) :=
  (words.find? fun word => word.1.toList.isPrefixOf cursor.rest).map fun word =>
    (.scalar word.2, cursor.skip word.1.length)

mutual

/-- The value at the cursor. Every nested call stands at least one character further on, so the
length of the text bounds the depth. -/
def readValue : Nat → Cursor → Except ReadError (Tree × Cursor)
  | 0, cursor => cursor.fail .expectingValue
  | fuel + 1, cursor =>
    match cursor.rest with
    | '"' :: _ => do
      let (s, after) ← readTextAt cursor
      return (.scalar (.text s), after)
    | '\x7b' :: _ =>
      let inside := (cursor.skip 1).skipSpace
      if inside.rest.head? = some '\x7d' then .ok (.map [], inside.skip 1)
      else do
        let (pairs, after) ← readPairs fuel inside
        return (.map (Entries.ofPairs pairs), after)
    | '[' :: _ =>
      let inside := (cursor.skip 1).skipSpace
      if inside.rest.head? = some ']' then .ok (.list [], inside.skip 1)
      else do
        let (items, after) ← readItems fuel inside
        return (.list items, after)
    -- a minus may begin an infinity, so words are tried before numbers
    | _ =>
      match readWord cursor with
      | some found => .ok found
      | none => readNumber cursor

/-- The items of a list from the cursor on, up to and with the closing bracket. -/
def readItems : Nat → Cursor → Except ReadError (List Tree × Cursor)
  | 0, cursor => cursor.fail .expectingValue
  | fuel + 1, cursor => do
    let (item, after) ← readValue fuel cursor
    let after := after.skipSpace
    match after.rest with
    | ']' :: _ => return ([item], after.skip 1)
    | ',' :: _ =>
      let (items, last) ← readItems fuel (after.skip 1).skipSpace
      return (item :: items, last)
    | _ => after.fail .expectingComma

/-- The names and values of a map from the cursor on, up to and with the closing brace. -/
def readPairs : Nat → Cursor → Except ReadError (List (Scalar × Tree) × Cursor)
  | 0, cursor => cursor.fail .expectingName
  | fuel + 1, cursor =>
    if cursor.rest.head? ≠ some '"' then cursor.fail .expectingName
    else do
      let (name, after) ← readTextAt cursor
      let after := after.skipSpace
      if after.rest.head? ≠ some ':' then after.fail .expectingColon
      else
        -- a name may be written twice; what counts is decided when the map is complete
        let (value, after) ← readValue fuel (after.skip 1).skipSpace
        let after := after.skipSpace
        match after.rest with
        | '\x7d' :: _ => return ([(.text name, value)], after.skip 1)
        | ',' :: _ =>
          let (pairs, last) ← readPairs fuel (after.skip 1).skipSpace
          return ((.text name, value) :: pairs, last)
        | _ => after.fail .expectingComma

end

/-- **Reading a JSON text**: one value, with white space around it. -/
def read (text : String) : Except ReadError Tree := do
  let chars := text.toList
  if chars.head? = some '\ufeff' then .error (.offence .byteOrderMark 0)
  else
    let (tree, after) ← readValue (2 * chars.length + 2) (Cursor.skipSpace ⟨0, chars⟩)
    let last := after.skipSpace
    if last.rest = [] then .ok tree else last.fail .extraData

end ModuleSurface.Json
