import ModuleSurface.Text.Character

/-! # Places in a YAML text, and the scalars that stand there

A cursor is the rest of a text with its line and column. The functions here read one scalar each,
from the cursor on: plain ones, quoted ones with their escapes, and blocks of lines. A text that
does not hold such a scalar is refused. -/

namespace ModuleSurface.Yaml

/-! ## Why a text is not read

A text may be no YAML at all, or hold what is no value: a number or a day that does not exist, or
an escape for a character beyond the last one. -/

/-- **Why a text is not read** as a document. -/
inductive ReadError
  /-- The text is no YAML, or not such as a document is made of. -/
  | malformed
  /-- An escape names a character by a code of more than 31 bits. -/
  | escapeTooLarge
  /-- An escape names a character beyond the last one. -/
  | noCharacter
  /-- What is tagged as a number does not read as one, or has too many digits. -/
  | unreadableNumber
  /-- What is tagged as a number is empty. -/
  | emptyNumber
  /-- A part of a number weighs more than the largest double. -/
  | weightTooLarge
  /-- What is tagged as a truth value is no word for one. -/
  | unknownTruthValue
  /-- What is tagged as a moment does not read as one. -/
  | unreadableMoment
  /-- The moment does not exist. -/
  | noMoment
  /-- A mapping is tagged as a moment. -/
  | momentOfMapping
  /-- A mapping that stands for a scalar stands for itself. -/
  | endlessScalar
deriving DecidableEq, Repr

/-- What is there, or the text is no YAML. -/
def orMalformed {α : Type} : Option α → Except ReadError α
  | some a => .ok a
  | none => .error .malformed

/-- What is there is passed on: `orMalformed (some a) = .ok a`. -/
@[simp] theorem orMalformed_some {α : Type} (a : α) : orMalformed (some a) = .ok a := rfl

/-- What is not there is refused as `malformed`. -/
@[simp] theorem orMalformed_none {α : Type} :
    orMalformed (none : Option α) = .error .malformed := rfl

/-! ## Cursors -/

/-- **The rest of a text**: how many characters, lines and columns stand before it. -/
structure Cursor where
  rest : List Char
  index : Nat := 0
  line : Nat := 0
  column : Nat := 0

/-- The character that stands for the end of the text; no text may hold it. -/
def endMark : Char := '\x00'

/-- The characters that end a line. -/
def isBreak (c : Char) : Bool :=
  c == '\n' || c == '\r' || c == '\x85' || c == '\u2028' || c == '\u2029'

/-- The end of a line, or of the text. -/
def isLineEnd (c : Char) : Bool := c == endMark || isBreak c

/-- A blank, or the end of a line. -/
def isGap (c : Char) : Bool := c == ' ' || c == '\t' || isLineEnd c

/-- A letter or digit, a bar or a dash: what names are made of. -/
def isNameChar (c : Char) : Bool := c.isAlphanum || c == '-' || c == '_'

namespace Cursor

/-- The character some places further on. -/
def peekAt (cursor : Cursor) (offset : Nat) : Char := cursor.rest.getD offset endMark

/-- The character at the cursor. -/
def peek (cursor : Cursor) : Char := cursor.peekAt 0

/-- The cursor one character further on. The two characters of a break count as one line. -/
def next (cursor : Cursor) : Cursor :=
  match cursor.rest with
  | [] => cursor
  | c :: rest =>
    -- a carriage return in front of a line feed does not end the line by itself
    if c = '\n' ∨ c = '\x85' ∨ c = '\u2028' ∨ c = '\u2029'
        ∨ (c = '\r' ∧ rest.head? ≠ some '\n') then
      ⟨rest, cursor.index + 1, cursor.line + 1, 0⟩
    -- a byte order mark takes no column
    else if c = '\ufeff' then ⟨rest, cursor.index + 1, cursor.line, cursor.column⟩
    else ⟨rest, cursor.index + 1, cursor.line, cursor.column + 1⟩

/-- The cursor some characters further on. -/
def skip : Nat → Cursor → Cursor
  | 0, cursor => cursor
  | count + 1, cursor => skip count cursor.next

/-- How many characters from the cursor on satisfy a condition. -/
def countWhile (cursor : Cursor) (p : Char → Bool) : Nat := (cursor.rest.takeWhile p).length

/-- The cursor behind the characters that satisfy a condition. -/
def skipWhile (cursor : Cursor) (p : Char → Bool) : Cursor := cursor.skip (cursor.countWhile p)

/-- The characters between two cursors of which the second is `count` further on. -/
def take (cursor : Cursor) (count : Nat) : List Char := cursor.rest.take count

/-- The break at the cursor: what it counts as, and the cursor behind it. -/
def takeBreak (cursor : Cursor) : Option (Char × Cursor) :=
  match cursor.rest with
  | '\r' :: '\n' :: _ => some ('\n', cursor.skip 2)
  | c :: _ =>
    if c = '\r' ∨ c = '\n' ∨ c = '\x85' then some ('\n', cursor.next)
    else if isBreak c then some (c, cursor.next)
    else none
  | [] => none

/-- Whether a line at the cursor starts or ends a document. -/
def atMarker (cursor : Cursor) : Bool :=
  (cursor.take 3 == "---".toList || cursor.take 3 == "...".toList) && isGap (cursor.peekAt 3)

/-- The cursor behind blanks and a comment; what follows must be the end of the line. -/
def skipLineRest (cursor : Cursor) : Option Cursor :=
  let cursor := cursor.skipWhile (· == ' ')
  let cursor := if cursor.peek = '#' then cursor.skipWhile (!isLineEnd ·) else cursor
  if isLineEnd cursor.peek then some ((cursor.takeBreak.map (·.2)).getD cursor) else none

end Cursor

/-! ## Plain scalars -/

/-- How many characters of a plain scalar follow without a blank. Inside brackets it ends at their
punctuation as well. -/
def plainLength (inFlow : Bool) : List Char → Nat
  | [] => 0
  | c :: rest =>
    let follower := rest.headD endMark
    if isGap c then 0
    -- a colon ends the scalar only where it could stand behind a key
    else if c = ':'
        ∧ (isGap follower ∨ (inFlow ∧ follower ∈ [',', '[', ']', '\x7b', '\x7d'])) then 0
    else if inFlow ∧ c ∈ [',', '?', '[', ']', '\x7b', '\x7d'] then 0
    else plainLength inFlow rest + 1

/-- The blank lines behind the first break of a scalar, and the cursor behind the blanks that follow
them; none where a document starts or ends. -/
def plainBreaks : Nat → Cursor → Option (List Char × Cursor)
  | 0, cursor => some ([], cursor)
  | fuel + 1, cursor =>
    if cursor.peek = ' ' then plainBreaks fuel cursor.next
    else
      match cursor.takeBreak with
      | none => some ([], cursor)
      | some (c, after) =>
        if after.atMarker then none
        else (plainBreaks fuel after).map fun (breaks, last) => (c :: breaks, last)

/-- How breaks between two lines of a scalar are read: a lone line feed as a blank, and one line
feed less than there are otherwise. -/
def foldBreaks (first : Char) (others : List Char) : List Char :=
  if first ≠ '\n' then first :: others else if others = [] then [' '] else others

/-- What stands between two parts of a plain scalar, the cursor behind it, and whether a line ended
there. An empty gap ends the scalar. -/
def plainGap (cursor : Cursor) : List Char × Cursor × Bool :=
  let blanks := cursor.countWhile (· == ' ')
  let after := cursor.skip blanks
  match after.takeBreak with
  | none => (cursor.take blanks, after, false)
  | some (first, behind) =>
    if behind.atMarker then ([], behind, true)
    else
      match plainBreaks (behind.rest.length + 1) behind with
      | none => ([], (behind.skipWhile fun c => c == ' ' || isBreak c), true)
      | some (others, last) => (foldBreaks first others, last, true)

/-- **A plain scalar.** `gap` stands between what was read and the cursor, `least` is the column
that its further lines have to reach, and `ended` says whether a line ended behind the last part. -/
def readPlain (inFlow : Bool) (least : Int) : Nat → (gap : List Char) → Cursor → (ended : Bool) →
    List Char × Cursor × Bool
  | 0, _, cursor, ended => ([], cursor, ended)
  | fuel + 1, gap, cursor, ended =>
    let count := plainLength inFlow cursor.rest
    if cursor.peek = '#' ∨ count = 0 then ([], cursor, ended)
    else
      let (between, after, ended) := plainGap (cursor.skip count)
      let part := gap ++ cursor.take count
      -- a comment, a lack of indentation or the end of what can follow ends the scalar
      if between = [] ∨ after.peek = '#' ∨ (!inFlow ∧ (after.column : Int) < least) then
        (part, after, ended)
      else
        let (others, last, ended) := readPlain inFlow least fuel between after ended
        (part ++ others, last, ended)

/-! ## Quoted scalars -/

/-- The character that a letter stands for behind a backslash. -/
def unescape? : Char → Option Char
  | '0' => some '\x00'
  | 'a' => some '\x07'
  | 'b' => some '\x08'
  | 't' | '\t' => some '\t'
  | 'n' => some '\n'
  | 'v' => some '\x0b'
  | 'f' => some '\x0c'
  | 'r' => some '\r'
  | 'e' => some '\x1b'
  | ' ' => some ' '
  | '"' => some '"'
  | '\\' => some '\\'
  | '/' => some '/'
  | 'N' => some '\x85'
  | '_' => some '\xa0'
  | 'L' => some '\u2028'
  | 'P' => some '\u2029'
  | _ => none

/-- How many hexadecimal digits follow a letter behind a backslash. -/
def escapeWidth? : Char → Option Nat
  | 'x' => some 2
  | 'u' => some 4
  | 'U' => some 8
  | _ => none

/-- The character that an escape names by its code. -/
def charOfEscape (code : Nat) : Except ReadError Char :=
  if 0x80000000 ≤ code then .error .escapeTooLarge
  else if 0x110000 ≤ code then .error .noCharacter
  else .ok (charOfCode code)

/-- The breaks between two lines of a quoted scalar, blanks around them left out; none where a
document starts or ends. -/
def quotedBreaks : Nat → Cursor → Option (List Char × Cursor)
  | 0, cursor => some ([], cursor)
  | fuel + 1, cursor =>
    if cursor.atMarker then none
    else
      let after := cursor.skipWhile fun c => c == ' ' || c == '\t'
      match after.takeBreak with
      | none => some ([], after)
      | some (c, behind) =>
        (quotedBreaks fuel behind).map fun (breaks, last) => (c :: breaks, last)

/-- **A quoted scalar** behind its opening quote, up to and with the closing one. Escapes of the
halves of a surrogate pair are not joined. -/
def readQuoted (double : Bool) : Nat → Cursor → Except ReadError (List Char × Cursor)
  | 0, _ => .error .malformed
  | fuel + 1, cursor =>
    let continueWith (chars : List Char) (after : Cursor) :
        Except ReadError (List Char × Cursor) :=
      (readQuoted double fuel after).map fun (others, last) => (chars ++ others, last)
    match cursor.rest with
    | [] => .error .malformed
    | '\'' :: rest =>
      if double then continueWith ['\''] cursor.next
      else if rest.head? = some '\'' then continueWith ['\''] (cursor.skip 2)
      else .ok ([], cursor.next)
    | '"' :: _ => if double then .ok ([], cursor.next) else continueWith ['"'] cursor.next
    | '\\' :: rest =>
      if !double then continueWith ['\\'] cursor.next
      else
        match rest with
        | [] => .error .malformed
        | letter :: digits =>
          match unescape? letter, escapeWidth? letter with
          | some c, _ => continueWith [c] (cursor.skip 2)
          | none, some width =>
            if (digits.take width).length < width then .error .malformed
            else do
              let code ← orMalformed (hexNumber? (digits.take width))
              continueWith [← charOfEscape code] (cursor.skip (2 + width))
          -- an escaped break joins two lines: only the breaks behind it stay
          | none, none => do
            let (_, behind) ← orMalformed cursor.next.takeBreak
            let (breaks, after) ← orMalformed (quotedBreaks (behind.rest.length + 1) behind)
            continueWith breaks after
    | c :: _ =>
      if isGap c then
        let after := cursor.skipWhile fun c => c == ' ' || c == '\t'
        match after.takeBreak with
        | some (first, behind) => do
          let (others, last) ← orMalformed (quotedBreaks (behind.rest.length + 1) behind)
          continueWith (foldBreaks first others) last
        | none =>
          continueWith (cursor.take (cursor.countWhile fun c => c == ' ' || c == '\t')) after
      else continueWith [c] cursor.next

/-! ## Block scalars -/

/-- What becomes of the breaks at the end of a block scalar. -/
inductive Chomping
  | strip | clip | keep
deriving DecidableEq, Repr

/-- The chomping of an indicator. -/
def chomping? : Char → Option Chomping
  | '-' => some .strip
  | '+' => some .keep
  | _ => none

/-- The indentation of an indicator; zero is none. -/
def increment? (c : Char) : Option Nat := if c.isDigit then some (c.toNat - '0'.toNat) else none

/-- The indicators in the header of a block scalar, in either order. -/
def blockIndicators (cursor : Cursor) : Option (Chomping × Option Nat × Cursor) :=
  let found := match chomping? cursor.peek, increment? cursor.peek with
    | some chomping, _ =>
      match increment? cursor.next.peek with
      | some increment => (chomping, some increment, cursor.skip 2)
      | none => (chomping, none, cursor.next)
    | none, some increment =>
      match chomping? cursor.next.peek with
      | some chomping => (chomping, some increment, cursor.skip 2)
      | none => (.clip, some increment, cursor.next)
    | none, none => (.clip, none, cursor)
  if found.2.1 = some 0 then none else some found

/-- The blank lines in front of a block scalar whose indentation is not given: the breaks, the
greatest column that blanks reach, and the cursor behind them. -/
def blockStart : Nat → Nat → Cursor → List Char × Nat × Cursor
  | 0, widest, cursor => ([], widest, cursor)
  | fuel + 1, widest, cursor =>
    if cursor.peek = ' ' then blockStart fuel (max widest cursor.next.column) cursor.next
    else
      match cursor.takeBreak with
      | none => ([], widest, cursor)
      | some (c, after) =>
        let (breaks, widest, last) := blockStart fuel widest after
        (c :: breaks, widest, last)

/-- The cursor behind the indentation of a line, as far as there is one. -/
def skipIndent (indent : Nat) : Nat → Cursor → Cursor
  | 0, cursor => cursor
  | fuel + 1, cursor =>
    if cursor.column < indent ∧ cursor.peek = ' ' then skipIndent indent fuel cursor.next
    else cursor

/-- The blank lines between two lines of a block scalar. -/
def blockBreaks (indent : Nat) : Nat → Cursor → List Char × Cursor
  | 0, cursor => ([], cursor)
  | fuel + 1, cursor =>
    let cursor := skipIndent indent indent cursor
    match cursor.takeBreak with
    | none => ([], cursor)
    | some (c, after) =>
      let (breaks, last) := blockBreaks indent fuel after
      (c :: breaks, last)

/-- The lines of a block scalar from the cursor on. `before` are the blank lines in front of the
next line. The lines come with the last break and the blank lines behind it. -/
def blockLines (folded : Bool) (indent : Nat) : Nat → (before : List Char) → Cursor →
    List Char × List Char × List Char × Cursor
  | 0, before, cursor => ([], [], before, cursor)
  | fuel + 1, before, cursor =>
    if cursor.column ≠ indent ∨ cursor.rest = [] then ([], [], before, cursor)
    else
      let count := cursor.countWhile (!isLineEnd ·)
      let solid := cursor.peek ≠ ' ' ∧ cursor.peek ≠ '\t'
      let line := before ++ cursor.take count
      let after := cursor.skip count
      let (lineBreak, behind) := match after.takeBreak with
        | some (c, behind) => ([c], behind)
        | none => ([], after)
      let (breaks, last) := blockBreaks indent (behind.rest.length + 1) behind
      if last.column = indent ∧ last.rest ≠ [] then
        -- folding joins two lines that both start without a blank
        let joint :=
          if folded ∧ lineBreak = ['\n'] ∧ solid ∧ last.peek ≠ ' ' ∧ last.peek ≠ '\t' then
            (if breaks = [] then [' '] else [])
          else lineBreak
        let (others, lastBreak, tail, final) := blockLines folded indent fuel breaks last
        (line ++ joint ++ others, lastBreak, tail, final)
      else (line, lineBreak, breaks, last)

/-- **A block scalar** behind its first character, with the indentation of what it stands in. -/
def readBlock (folded : Bool) (indent : Int) (cursor : Cursor) : Option (List Char × Cursor) := do
  let (chomping, increment, after) ← blockIndicators cursor
  let start ← if isLineEnd after.peek ∨ after.peek = ' ' then after.skipLineRest else none
  let least := (max (indent + 1) 1).toNat
  -- without an indicator the widest of the leading blanks give the indentation
  let (before, width, first) := match increment with
    | none =>
      let (breaks, widest, first) := blockStart (start.rest.length + 1) 0 start
      (breaks, max least widest, first)
    | some increment =>
      let width := least + increment - 1
      let (breaks, first) := blockBreaks width (start.rest.length + 1) start
      (breaks, width, first)
  let (lines, lastBreak, tail, last) := blockLines folded width (first.rest.length + 1) before first
  let ending := match chomping with
    | .strip => []
    | .clip => lastBreak
    | .keep => lastBreak ++ tail
  return (lines ++ ending, last)

end ModuleSurface.Yaml
