import ModuleSurface.Document.Tree
import ModuleSurface.Double.Layout

/-! # Writing JSON

A tree is written on one line, with a blank behind every comma and colon and the entries of a map
in their order. Keys that are no texts are written as the text of their value. -/

namespace ModuleSurface.Json

/-! ## Texts

A text in JSON is written in ASCII: the quote, the backslash and five controls have an escape of
their own, and every other character outside the printable ASCII range is written by its 16-bit
units, two of them beyond U+FFFF. -/

/-- One 16-bit unit as an escape. -/
def unitEscape (unit : Nat) : List Char := '\\' :: 'u' :: hexPadded 4 unit

/-- How one character is written between quotes. -/
def escape (c : Char) : List Char :=
  match c with
  | '"' => ['\\', '"']
  | '\\' => ['\\', '\\']
  | '\n' => ['\\', 'n']
  | '\r' => ['\\', 'r']
  | '\t' => ['\\', 't']
  | '\x08' => ['\\', 'b']
  | '\x0c' => ['\\', 'f']
  | c =>
    let code := codeOf c
    if 0x20 ≤ code ∧ code < 0x7F then [c]
    else if code < 0x10000 then unitEscape code
    else unitEscape (0xD800 + (code - 0x10000) / 0x400)
      ++ unitEscape (0xDC00 + (code - 0x10000) % 0x400)

/-- **A text in JSON.** -/
def text (s : String) : String :=
  String.ofList ('"' :: (s.toList.flatMap escape ++ ['"']))

/-! ## Trees -/

/-- Doubles are written as they are displayed, but for the names of the infinities and of what is
not a number. -/
def numberLayout : NumberLayout :=
  { NumberLayout.display with
    nanText := "NaN"
    infinityText := "Infinity"
    negativeInfinityText := "-Infinity" }

/-- The text of a scalar other than a text. Moments and bytes, which no tree that is written holds,
are named by their display. -/
def scalarWord : Scalar → String
  | .null => "null"
  | .bool true => "true"
  | .bool false => "false"
  | .int n => toString n
  | .float x => numberLayout.render x
  | .text s => s
  | .moment m _ => m.display
  | .bytes b => b.display

/-- A scalar as a value. -/
def writeScalar : Scalar → String
  | .text s => text s
  | s => scalarWord s

/-- A scalar as a key. -/
def writeKey (key : Scalar) : String := text (scalarWord key)

mutual

/-- **The JSON text of a tree.** -/
def write : Tree → String
  | .scalar s => writeScalar s
  | .list items => "[" ++ String.intercalate ", " (writeItems items) ++ "]"
  | .map entries => "\x7b" ++ String.intercalate ", " (writeEntries entries) ++ "\x7d"

/-- The texts of the items of a list. -/
def writeItems : List Tree → List String
  | [] => []
  | tree :: rest => write tree :: writeItems rest

/-- The texts of the entries of a map. -/
def writeEntries : List (Scalar × Tree) → List String
  | [] => []
  | (key, tree) :: rest => (writeKey key ++ ": " ++ write tree) :: writeEntries rest

end

end ModuleSurface.Json
