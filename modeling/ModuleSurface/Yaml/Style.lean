import ModuleSurface.Document
import ModuleSurface.Yaml.Plain

/-! # How scalars are written

A text is written plain where it would be read as the same text, between single quotes where only
its beginning, its end or its looks forbid that, and between double quotes, with escapes, where it
holds a character that is not printable ASCII. -/

namespace ModuleSurface.Yaml

/-- **The way a text is written.** -/
inductive Style
  | plain | single | double
deriving DecidableEq, Repr

/-! ## The choice of a style -/

/-- Whether a character ends a line of the text that it stands in. -/
def endsTextLine (c : Char) : Bool := c == '\n' || c == '\x85' || c == '\u2028' || c == '\u2029'

/-- Whether a character is written as it is; a line feed is written as a break. -/
def isPrintableAscii (c : Char) : Bool := 0x20 ≤ c.toNat && c.toNat ≤ 0x7E

/-- Whether a character stands in front of a blank or of the end. -/
def endsWord : List Char → Bool
  | [] => true
  | c :: _ => c == ' '

/-- Whether a colon in front of a blank or the end, or a blank in front of a hash, stands in a
text. -/
def hasInnerMark : List Char → Bool
  | [] => false
  | c :: rest =>
    (c == ':' && endsWord rest) || (c == ' ' && rest.head? == some '#') || hasInnerMark rest

/-- Whether a text starts like something else than a plain scalar. -/
def startsLikeMark (text : List Char) : Bool :=
  text.take 3 == "---".toList || text.take 3 == "...".toList
    || match text with
      | [] => false
      | c :: rest =>
        "#,[]\x7b\x7d&*!|>'\"%@`".toList.contains c || ("?:-".toList.contains c && endsWord rest)

/-- Whether a text can stand without quotes, apart from what it would be taken for. -/
def isPlainShape (text : List Char) : Bool :=
  text.all isPrintableAscii && text.head? != some ' ' && text.getLast? != some ' '
    && !startsLikeMark text && !hasInnerMark text

/-- Whether a character follows another one somewhere in a text. -/
def hasPair (first second : Char) : List Char → Bool
  | [] => false
  | c :: rest => (c == first && rest.head? == some second) || hasPair first second rest

/-- Whether a text can stand between single quotes: all characters are printable, and no blank
touches a break, where it would be lost. -/
def isSingleShape (text : List Char) : Bool :=
  text.all (fun c => c == '\n' || isPrintableAscii c) && !hasPair '\n' ' ' text
    && !hasPair ' ' '\n' text

/-- **The style of a text.** -/
def styleOf (text : String) : Style :=
  let chars := text.toList
  -- plain only where the text would be read back as a text and not as a number or a word
  if isPlainShape chars && plainTag text == .text then .plain
  else if isSingleShape chars then .single
  else .double

/-! ## The styles -/

/-- The width that lines are kept to where blanks allow it. -/
def lineWidth : Nat := 80

/-- **Where a scalar is written**: the column of its first character, the column at which its
further lines start, and whether it may have further lines. -/
structure Site where
  column : Nat := 0
  indent : Nat := 0
  mayFold : Bool := false

/-- The end of a line and the indentation of the next one. -/
def Site.newLine (site : Site) : List Char := '\n' :: List.replicate site.indent ' '

/-- Whether a line that reaches a column is folded. -/
def Site.folds (site : Site) (column : Nat) : Bool := site.mayFold && lineWidth < column

/-- A text in plain style. Long lines are folded at lone blanks, which their ends stand for.
`column` is how far the line has come. -/
def plainChars (site : Site) : (column : Nat) → (behindBlank : Bool) → List Char → List Char
  | _, _, [] => []
  | column, behindBlank, c :: rest =>
    if c = ' ' ∧ !behindBlank ∧ rest.head? ≠ some ' ' ∧ site.folds column then
      site.newLine ++ plainChars site site.indent true rest
    else c :: plainChars site (column + 1) (c == ' ') rest

/-- A text between single quotes: a quote is written twice, and a run of breaks with one more break
and the indentation of the next line. Long lines are folded at lone blanks inside the text. `last`
is the character before, if there is one. -/
def singleChars (site : Site) : (column : Nat) → (last : Option Char) → List Char → List Char
  | _, _, [] => []
  | column, last, c :: rest =>
    if c = '\n' then
      -- one break alone would be read as a blank, so a run of breaks gets one more
      (if last = some '\n' then ['\n'] else ['\n', '\n'])
        ++ (if rest.head? = some '\n' then [] else List.replicate site.indent ' ')
        ++ singleChars site site.indent (some c) rest
    else if c = ' ' ∧ last ≠ some ' ' ∧ last ≠ none ∧ rest ≠ [] ∧ rest.head? ≠ some ' '
        ∧ site.folds column then
      site.newLine ++ singleChars site site.indent (some c) rest
    else if c = '\'' then '\'' :: '\'' :: singleChars site (column + 2) (some c) rest
    else c :: singleChars site (column + 1) (some c) rest

/-- The letter behind a backslash that stands for a character. -/
def escapeLetter? : Char → Option Char
  | '\x00' => some '0'
  | '\x07' => some 'a'
  | '\x08' => some 'b'
  | '\t' => some 't'
  | '\n' => some 'n'
  | '\x0b' => some 'v'
  | '\x0c' => some 'f'
  | '\r' => some 'r'
  | '\x1b' => some 'e'
  | '"' => some '"'
  | '\\' => some '\\'
  | '\x85' => some 'N'
  | '\xa0' => some '_'
  | '\u2028' => some 'L'
  | '\u2029' => some 'P'
  | _ => none

/-- A code in hexadecimal capitals. -/
def hexCapitals (width code : Nat) : List Char := (hexPadded width code).map Char.toUpper

/-- A character between double quotes. -/
def escape (c : Char) : List Char :=
  match escapeLetter? c with
  | some letter => ['\\', letter]
  | none =>
    let code := codeOf c
    if isPrintableAscii c then [c]
    else if code ≤ 0xFF then '\\' :: 'x' :: hexCapitals 2 code
    else if code ≤ 0xFFFF then '\\' :: 'u' :: hexCapitals 4 code
    else '\\' :: 'U' :: hexCapitals 8 code

/-- The fold of a line between double quotes: its end is escaped, and so is a blank that starts the
next line. -/
def doubleFold (site : Site) (next : Option Char) : List Char :=
  '\\' :: site.newLine ++ (if next = some ' ' then ['\\'] else [])

/-- The column behind the fold of a line. -/
def columnBehindFold (site : Site) (next : Option Char) : Nat :=
  site.indent + (if next = some ' ' then 1 else 0)

/-- A text between double quotes. Long lines are folded in front of blanks and next to escapes, but
neither at the first nor at the last character. `column` is how far the line has come, and `run` how
many characters stand between it and the last escape or fold. -/
def doubleChars (site : Site) : (column run : Nat) → (isFirst : Bool) → List Char → List Char
  | _, _, _, [] => []
  | column, run, isFirst, c :: rest =>
    let inside := !isFirst && !rest.isEmpty
    let written := escape c
    -- lines are folded in front of a blank, or where an escape has ended
    if written = [c] then
      if inside && (c == ' ' || run == 0) && site.folds column then
        doubleFold site (some c) ++ c ::
          doubleChars site (columnBehindFold site (some c) + 1) 1 false rest
      else c :: doubleChars site (column + 1) (run + 1) false rest
    else
      let column := column + written.length
      if inside && site.folds (column - 1) then
        written ++ doubleFold site rest.head?
          ++ doubleChars site (columnBehindFold site rest.head?) 0 false rest
      else written ++ doubleChars site column 0 false rest

/-- **A text in a style** at a site. -/
def Style.write (style : Style) (site : Site) (text : String) : String :=
  match style with
  | .plain => String.ofList (plainChars site site.column false text.toList)
  | .single => "'" ++ String.ofList (singleChars site (site.column + 1) none text.toList) ++ "'"
  | .double => "\"" ++ String.ofList (doubleChars site (site.column + 1) 0 true text.toList) ++ "\""

/-- An empty text has no plain characters: `plainChars site column behindBlank [] = []`. -/
@[simp] theorem plainChars_nil (site : Site) (column : Nat) (behindBlank : Bool) :
    plainChars site column behindBlank [] = [] := rfl

/-- An empty text has no characters between single quotes:
`singleChars site column last [] = []`. -/
@[simp] theorem singleChars_nil (site : Site) (column : Nat) (last : Option Char) :
    singleChars site column last [] = [] := rfl

/-! ## Scalars -/

/-- Doubles are written as they are displayed, but with a point in front of every exponent and other
names for the infinities and for what is not a number. -/
def numberLayout : NumberLayout :=
  { NumberLayout.display with
    mantissaPointZero := true
    nanText := ".nan"
    infinityText := ".inf"
    negativeInfinityText := "-.inf" }

/-- Bytes as a block of lines in base 64; no bytes are an empty text. -/
def bytesText (site : Site) (bytes : Bytes) : String :=
  let lines := bytes.toBase64Lines
  "!!binary " ++ (if lines = [] then "\"\""
    else "|" ++ String.join (lines.map fun line => String.ofList site.newLine ++ line))

/-- **The text of a scalar** at a site; none if it is an integer that is too long to be written. -/
def scalarText? (site : Site) : Scalar → Option String
  | .null => some "null"
  | .bool true => some "true"
  | .bool false => some "false"
  | .int n => Numeral.intText? n
  | .float x => some (numberLayout.render x)
  | .text s => some ((styleOf s).write site s)
  | .moment m _ => some (Style.plain.write site m.text)
  | .bytes b => some (bytesText site b)

/-- How much the name of a scalar's tag adds to the length of a key. -/
def tagLength : Scalar → Nat
  | .null | .bool _ => 6
  | .float _ => 7
  | .int _ | .text _ => 5
  | .moment .. => 11
  | .bytes _ => 8

/-- Whether a scalar that is written in some way can stand in front of a colon: it is not empty, has
one line and, with its tag and the `extra` characters of an anchor, less than 128 characters.
Otherwise a question mark announces it. -/
def isSimpleKey (key : Scalar) (extra : Nat) (written : String) : Bool :=
  match key with
  | .text s => s != "" && !s.toList.any endsTextLine && extra + tagLength key + s.length < 128
  | .bytes _ => false
  | _ => extra + tagLength key + written.length < 128

end ModuleSurface.Yaml
