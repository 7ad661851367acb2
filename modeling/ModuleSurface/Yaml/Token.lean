import ModuleSurface.Text.Numeral
import ModuleSurface.Yaml.Cursor

/-! # Tokens of a YAML text

The text is cut into tokens from left to right. Indentation is turned into tokens too: a block
starts where a line is indented further than the one it belongs to, and ends where the indentation
falls back. What starts a key is known only when the colon behind it is met, so the places where a
key may have started are kept, one for each depth of brackets, and the token that announces the key
is put in afterwards. -/

namespace ModuleSurface.Yaml

/-- **A token.** -/
inductive Token
  | version (major : Nat)
  | tagDirective (handle start : String)
  | unknownDirective
  | documentStart
  | documentEnd
  | blockSequenceStart
  | blockMappingStart
  | blockEnd
  | flowSequenceStart
  | flowSequenceEnd
  | flowMappingStart
  | flowMappingEnd
  | entry
  | flowEntry
  | key
  | value
  | alias (name : String)
  | anchor (name : String)
  | tag (handle : Option String) (suffix : String)
  | scalar (text : String) (plain : Bool)
deriving DecidableEq, Repr, Inhabited

/-- **Where a key may have started**: how many tokens stand before it, and its place in the text. A
key that starts a line of a block must turn out to be one. -/
structure PossibleKey where
  tokens : Nat
  required : Bool
  index : Nat
  line : Nat
  column : Nat

/-- **The state of cutting a text into tokens.** -/
structure Lexer where
  cursor : Cursor
  tokens : Array Token := #[]
  /-- How many brackets are open. -/
  flowLevel : Nat := 0
  /-- The indentation of the block that is open, and those of the blocks around it. -/
  indent : Int := -1
  outerIndents : List Int := []
  /-- Whether a key may start at the cursor. -/
  keyAllowed : Bool := true
  /-- The places where keys may have started, by the depth of brackets. -/
  keys : List (Nat × PossibleKey) := []

namespace Lexer

/-- Adds a token. -/
def emit (lexer : Lexer) (token : Token) : Lexer :=
  { lexer with tokens := lexer.tokens.push token }

/-- Moves the cursor. -/
def moveTo (lexer : Lexer) (cursor : Cursor) : Lexer := { lexer with cursor }

/-- Says whether a key may start next. -/
def allowKey (lexer : Lexer) (keyAllowed : Bool) : Lexer := { lexer with keyAllowed }

/-- The place where a key may have started inside the present brackets. -/
def possibleKey? (lexer : Lexer) : Option PossibleKey := lexer.keys.lookup lexer.flowLevel

/-- Forgets that place; a key that had to be one must not be forgotten. -/
def dropKey (lexer : Lexer) : Option Lexer :=
  if lexer.possibleKey?.any (·.required) then none
  else some { lexer with keys := lexer.keys.filter fun entry => entry.1 != lexer.flowLevel }

/-- Keeps the cursor as a place where a key may start, if one may. -/
def saveKey (lexer : Lexer) : Option Lexer :=
  if !lexer.keyAllowed then some lexer
  else
    (lexer.dropKey).map fun lexer =>
      let cursor := lexer.cursor
      -- a line that starts at the column of its block has to start with a key
      let required := lexer.flowLevel == 0 && lexer.indent == (cursor.column : Int)
      { lexer with
        keys := (lexer.flowLevel,
          ⟨lexer.tokens.size, required, cursor.index, cursor.line, cursor.column⟩) :: lexer.keys }

/-- Forgets the places that are too far back: a key stands on one line and is not longer than 1024
characters. -/
def dropStale (lexer : Lexer) : Option Lexer :=
  let stale (key : PossibleKey) : Bool :=
    key.line != lexer.cursor.line || 1024 < lexer.cursor.index - key.index
  if lexer.keys.any fun entry => stale entry.2 && entry.2.required then none
  else some { lexer with keys := lexer.keys.filter fun entry => !stale entry.2 }

/-- Closes the blocks that are indented further than a column. -/
def unwindTo (lexer : Lexer) (column : Int) : List Int → Lexer
  | [] => lexer
  | outer :: rest =>
    if column < lexer.indent then
      unwindTo { lexer.emit .blockEnd with indent := outer, outerIndents := rest } column rest
    else lexer

/-- Closes the blocks that end at a column. Inside brackets indentation means nothing. -/
def unwind (lexer : Lexer) (column : Int) : Lexer :=
  if lexer.flowLevel = 0 then lexer.unwindTo column lexer.outerIndents else lexer

/-- Opens a block at a column, if that is further than the open one. -/
def indentTo (lexer : Lexer) (column : Nat) : Option Lexer :=
  if lexer.indent < column then
    some { lexer with indent := column, outerIndents := lexer.indent :: lexer.outerIndents }
  else none

/-! ## Between tokens -/

/-- The cursor in front of the next token: behind blanks, comments and breaks. A new line outside
brackets may start with a key. -/
def skipGap : Nat → Lexer → Lexer
  | 0, lexer => lexer
  | fuel + 1, lexer =>
    let cursor := lexer.cursor.skipWhile (· == ' ')
    let cursor := if cursor.peek = '#' then cursor.skipWhile (!isLineEnd ·) else cursor
    match cursor.takeBreak with
    | none => lexer.moveTo cursor
    | some (_, after) =>
      skipGap fuel
        { lexer with cursor := after, keyAllowed := lexer.keyAllowed || lexer.flowLevel == 0 }

/-! ## Single tokens -/

/-- A directive, or a marker of a document: all blocks end before it. -/
def outermost (lexer : Lexer) : Option Lexer :=
  ((lexer.unwind (-1)).dropKey).map (·.allowKey false)

/-- A handle of tags: an exclamation mark, or two of them around a name. -/
def tagHandle (cursor : Cursor) : Option (String × Cursor) :=
  if cursor.peek ≠ '!' then none
  else
    let after := cursor.next
    if after.peek = ' ' then some ("!", after)
    else
      let count := after.countWhile isNameChar
      if (after.peekAt count) ≠ '!' then none
      else some (String.ofList (cursor.take (count + 2)), cursor.skip (count + 2))

/-- The characters of a tag besides letters, digits, bars and dashes. -/
def isTagChar (c : Char) : Bool := isNameChar c || "-;/?:@&=+$,_.!~*'()[]".toList.contains c

/-- The characters of a tag without its escapes, each a percent sign and two hexadecimal digits for
one byte; none if an escape is incomplete. -/
def tagBytes : List Char → Option ByteArray
  | [] => some .empty
  | '%' :: rest =>
    match rest with
    | high :: low :: rest => do
      let byte ← hexNumber? [high, low]
      return .append ⟨#[byte.toUInt8]⟩ (← tagBytes rest)
    | _ => none
  | c :: rest => (tagBytes rest).map (String.ofList [c]).toUTF8.append

/-- The text of a tag. -/
def tagText (cursor : Cursor) : Option (String × Cursor) := do
  let count := cursor.countWhile fun c => isTagChar c || c == '%'
  if count = 0 then none
  else return (← String.fromUTF8? (← tagBytes (cursor.take count)), cursor.skip count)

/-- The number of a version. -/
def versionNumber (cursor : Cursor) : Option (Nat × Cursor) :=
  let count := cursor.countWhile Char.isDigit
  if count = 0 then none
  else
    let digits := (cursor.take count).map fun c => c.toNat - '0'.toNat
    some (Numeral.ofDigits digits, cursor.skip count)

/-- A directive behind its percent sign. -/
def readDirective (cursor : Cursor) : Option (Token × Cursor) := do
  let count := cursor.countWhile isNameChar
  let after := cursor.skip count
  if count = 0 ∨ !(isLineEnd after.peek || after.peek == ' ') then none
  else
    let start := after.skipWhile (· == ' ')
    match String.ofList (cursor.take count) with
    | "YAML" =>
      let (major, after) ← versionNumber start
      if after.peek ≠ '.' then none
      else
        let (_, after) ← versionNumber after.next
        if isLineEnd after.peek || after.peek == ' ' then
          return (.version major, ← after.skipLineRest)
        else none
    | "TAG" =>
      let (handle, after) ← tagHandle start
      if after.peek ≠ ' ' then none
      else
        let (start, after) ← tagText (after.skipWhile (· == ' '))
        if isLineEnd after.peek || after.peek == ' ' then
          return (.tagDirective handle start, ← after.skipLineRest)
        else none
    | _ => return (.unknownDirective, ← (start.skipWhile (!isLineEnd ·)).skipLineRest)

/-- The name of an anchor or an alias. -/
def readName (cursor : Cursor) : Option (String × Cursor) :=
  let count := cursor.countWhile isNameChar
  let after := cursor.skip count
  if count = 0 ∨ !(isGap after.peek || "?:,]\x7d%@`".toList.contains after.peek) then none
  else some (String.ofList (cursor.take count), after)

/-- A tag from its exclamation mark on. -/
def readTag (cursor : Cursor) : Option (Token × Cursor) := do
  let second := cursor.peekAt 1
  let (token, after) ←
    if second = '<' then do
      let (suffix, after) ← tagText (cursor.skip 2)
      if after.peek = '>' then pure (Token.tag none suffix, after.next) else none
    else if isGap second then pure (Token.tag none "!", cursor.next)
    else do
      -- A second exclamation mark before the next blank ends the handle.
      let word := cursor.next.take (cursor.next.countWhile fun c => !(isLineEnd c || c == ' '))
      let (handle, after) ← if '!' ∈ word then tagHandle cursor else pure ("!", cursor.next)
      let (suffix, after) ← tagText after
      pure (Token.tag (some handle) suffix, after)
  if isLineEnd after.peek || after.peek == ' ' then return (token, after) else none

/-- An opening bracket. -/
def openFlow (lexer : Lexer) (token : Token) : Option Lexer :=
  (lexer.saveKey).map fun lexer =>
    { lexer.emit token with
      flowLevel := lexer.flowLevel + 1, keyAllowed := true, cursor := lexer.cursor.next }

/-- A closing bracket. -/
def closeFlow (lexer : Lexer) (token : Token) : Option Lexer :=
  (lexer.dropKey).map fun lexer =>
    -- one bracket too many leaves the level at the outermost one
    { lexer.emit token with
      flowLevel := lexer.flowLevel - 1, keyAllowed := false, cursor := lexer.cursor.next }

/-- Opens a block at the cursor with a token, where one may start. -/
def openBlock (lexer : Lexer) (token : Token) : Option Lexer :=
  if lexer.flowLevel ≠ 0 then some lexer
  else if !lexer.keyAllowed then none
  else
    match lexer.indentTo lexer.cursor.column with
    | some indented => some (indented.emit token)
    | none => some lexer

/-- The dash of a list. -/
def readEntry (lexer : Lexer) : Option Lexer := do
  let lexer ← (← lexer.openBlock .blockSequenceStart).dropKey
  return { lexer.emit .entry with keyAllowed := true, cursor := lexer.cursor.next }

/-- The question mark of a key. -/
def readKey (lexer : Lexer) : Option Lexer := do
  let lexer ← (← lexer.openBlock .blockMappingStart).dropKey
  return { lexer.emit .key with keyAllowed := lexer.flowLevel == 0, cursor := lexer.cursor.next }

/-- The colon behind a key. If a key may have started before it, the tokens that announce the key
are put in at its place. -/
def readValue (lexer : Lexer) : Option Lexer :=
  match lexer.possibleKey? with
  | some key =>
    let lexer := { lexer with keys := lexer.keys.filter fun entry => entry.1 != lexer.flowLevel }
    -- the key has been read as a plain node; what announces it goes in front of it
    let announced := lexer.tokens.insertIdxIfInBounds key.tokens .key
    let (lexer, tokens) :=
      match if lexer.flowLevel = 0 then lexer.indentTo key.column else none with
      | some opened => (opened, announced.insertIdxIfInBounds key.tokens .blockMappingStart)
      | none => (lexer, announced)
    some { lexer with
      tokens := tokens.push .value, keyAllowed := false, cursor := lexer.cursor.next }
  | none => do
    let lexer ← (← lexer.openBlock .blockMappingStart).dropKey
    return { lexer.emit .value with
      keyAllowed := lexer.flowLevel == 0, cursor := lexer.cursor.next }

/-- A token that may be the start of a key, behind its first character. -/
def readNamed (lexer : Lexer) (read : Cursor → Option (Token × Cursor)) : Option Lexer := do
  let lexer ← lexer.saveKey
  let (token, after) ← read lexer.cursor
  return (lexer.allowKey false).emit token |>.moveTo after

/-- Whether a plain scalar may start with the character at the cursor. -/
def startsPlain (lexer : Lexer) : Bool :=
  let c := lexer.cursor.peek
  !(isGap c || "-?:,[]\x7b\x7d#&*!|>'\"%@`".toList.contains c)
    || (!isGap (lexer.cursor.peekAt 1)
      && (c == '-' || (lexer.flowLevel == 0 && (c == '?' || c == ':'))))

/-- A plain scalar. -/
def readPlainScalar (lexer : Lexer) : Option Lexer := do
  let lexer ← lexer.saveKey
  let (chars, after, ended) := readPlain (lexer.flowLevel != 0) (lexer.indent + 1)
    (lexer.cursor.rest.length + 1) [] lexer.cursor false
  return (lexer.allowKey ended).emit (.scalar (String.ofList chars) true) |>.moveTo after

/-- A quoted scalar. -/
def readQuotedScalar (lexer : Lexer) (double : Bool) : Except ReadError Lexer := do
  let lexer ← orMalformed lexer.saveKey
  let cursor := lexer.cursor
  let (chars, after) ← readQuoted double (cursor.rest.length + 1) cursor.next
  return (lexer.allowKey false).emit (.scalar (String.ofList chars) false) |>.moveTo after

/-- A block scalar. -/
def readBlockScalar (lexer : Lexer) (folded : Bool) : Option Lexer := do
  let lexer ← lexer.dropKey
  let (chars, after) ← readBlock folded lexer.indent lexer.cursor.next
  return (lexer.allowKey true).emit (.scalar (String.ofList chars) false) |>.moveTo after

/-- The next token at the cursor, which is not at the end of the text, unless it is a quoted scalar.
-/
def readUnquoted (lexer : Lexer) : Option Lexer :=
  let cursor := lexer.cursor
  let c := cursor.peek
  let gapFollows := isGap (cursor.peekAt 1)
  let inFlow := lexer.flowLevel != 0
  if cursor.column = 0 ∧ c = '%' then do
    let lexer ← lexer.outermost
    let (token, after) ← readDirective cursor.next
    return (lexer.emit token).moveTo after
  else if cursor.column = 0 ∧ cursor.atMarker then
    (lexer.outermost).map fun lexer =>
      (lexer.emit (if c = '-' then .documentStart else .documentEnd)).moveTo (cursor.skip 3)
  else if c = '[' then lexer.openFlow .flowSequenceStart
  else if c = '\x7b' then lexer.openFlow .flowMappingStart
  else if c = ']' then lexer.closeFlow .flowSequenceEnd
  else if c = '\x7d' then lexer.closeFlow .flowMappingEnd
  else if c = ',' then
    ((lexer.allowKey true).dropKey).map fun lexer => (lexer.emit .flowEntry).moveTo cursor.next
  -- from here on the marks of blocks, which need a gap behind them
  else if c = '-' ∧ gapFollows then lexer.readEntry
  else if c = '?' ∧ (inFlow ∨ gapFollows) then lexer.readKey
  else if c = ':' ∧ (inFlow ∨ gapFollows) then lexer.readValue
  else if c = '*' then
    lexer.readNamed fun cursor =>
      (readName cursor.next).map fun (name, after) => (.alias name, after)
  else if c = '&' then
    lexer.readNamed fun cursor =>
      (readName cursor.next).map fun (name, after) => (.anchor name, after)
  else if c = '!' then lexer.readNamed readTag
  else if c = '|' ∧ !inFlow then lexer.readBlockScalar false
  else if c = '>' ∧ !inFlow then lexer.readBlockScalar true
  else if lexer.startsPlain then lexer.readPlainScalar
  else none

/-- **The next token** at the cursor, which is not at the end of the text. -/
def readToken (lexer : Lexer) : Except ReadError Lexer :=
  match lexer.cursor.peek with
  | '\'' => lexer.readQuotedScalar false
  | '"' => lexer.readQuotedScalar true
  | _ => orMalformed lexer.readUnquoted

/-- How many tokens are settled: those in front of the first place where a key may have started. -/
def settled (lexer : Lexer) : Nat :=
  let pending := ((lexer.dropStale).getD lexer).keys
  pending.foldl (fun count entry => min count entry.2.tokens) lexer.tokens.size

end Lexer

/-- **The tokens of a text**, as far as it could be cut into tokens, and what was at fault behind
them. -/
structure Tokens where
  tokens : List Token
  fault : Option ReadError

namespace Lexer

/-- The lexer in front of the next token, the blocks closed that end before it. -/
def nextToken (lexer : Lexer) : Option Lexer :=
  ((skipGap (lexer.cursor.rest.length + 1) lexer).dropStale).map fun lexer =>
    lexer.unwind lexer.cursor.column

/-- The tokens that are settled in front of a fault. -/
def stopAt (lexer : Lexer) (fault : ReadError) : Tokens :=
  ⟨lexer.tokens.toList.take lexer.settled, some fault⟩

/-- The tokens from the cursor on. Every token takes at least one character. -/
def run : Nat → Lexer → Tokens
  | 0, lexer => lexer.stopAt .malformed
  | fuel + 1, lexer =>
    match lexer.nextToken with
    | none => lexer.stopAt .malformed
    | some next =>
      if next.cursor.rest = [] then
        -- the end of the text closes all blocks
        match (next.unwind (-1)).dropKey with
        | some last => ⟨last.tokens.toList, none⟩
        | none => lexer.stopAt .malformed
      else
        match next.readToken with
        | .ok after => run fuel after
        | .error fault => lexer.stopAt fault

end Lexer

/-- Whether a character may stand in a text at all. -/
def isAllowed (c : Char) : Bool :=
  let code := c.toNat
  c == '\t' || c == '\n' || c == '\r' || c == '\x85' || (0x20 ≤ code && code ≤ 0x7E)
    || (0xA0 ≤ code && code ≤ 0xD7FF) || (0xE000 ≤ code && code ≤ 0xFFFD)
    || (0x10000 ≤ code && !isHalf c)

/-- **The tokens of a text.** A byte order mark in front of it is left out. -/
def Tokens.ofText (text : String) : Tokens :=
  let chars := text.toList
  if chars.any fun c => !isAllowed c then ⟨[], some .malformed⟩
  else
    let cursor : Cursor := ⟨chars, 0, 0, 0⟩
    let start := if cursor.peek = '\ufeff' then cursor.next else cursor
    Lexer.run (chars.length + 2) { cursor := start }

end ModuleSurface.Yaml
