import ModuleSurface.Yaml.Timestamp

/-! # What a plain scalar stands for

A scalar without quotes stands for nothing, a truth value, an integer, a double, a moment or a text,
by how it looks. The forms are those of YAML 1.1: integers in bases 2, 8, 10, 16 and 60, doubles
with a point, and texts for all that fits no form. -/

namespace ModuleSurface.Yaml

/-- **The tags** of nodes: those of scalars, those of sequences and mappings, those of keys with a
meaning of their own, and all others, for which there are no values. -/
inductive Tag
  | null | bool | int | float | moment | bytes | text
  | sequence | orderedMap | pairs | mapping | set
  | merge | value | other
deriving DecidableEq, Repr, Inhabited

/-! ## Forms -/

/-- A digit or an underscore. -/
def isDigitOrBar (c : Char) : Bool := c.isDigit || c == '_'

/-- The text without its sign, if it has one. -/
def dropSign : List Char → List Char
  | '-' :: rest | '+' :: rest => rest
  | rest => rest

/-- A digit, followed by digits and underscores. -/
def isDigits : List Char → Bool
  | c :: rest => c.isDigit && rest.all isDigitOrBar
  | [] => false

/-- An exponent with its sign, or nothing. -/
def isExponent : List Char → Bool
  | [] => true
  | e :: s :: rest =>
    (e == 'e' || e == 'E') && (s == '-' || s == '+') && !rest.isEmpty && rest.all Char.isDigit
  | _ => false

/-- The parts of a text between the colons. -/
def splitColons : List Char → List (List Char)
  | [] => [[]]
  | c :: rest =>
    if c = ':' then [] :: splitColons rest
    else
      match splitColons rest with
      | part :: parts => (c :: part) :: parts
      | [] => [[c]]

/-- A part in base 60: one digit, or two of which the first is at most five. -/
def isSixtieth : List Char → Bool
  | [c] => c.isDigit
  | [c, d] => '0' ≤ c && c ≤ '5' && d.isDigit
  | _ => false

/-- Digits, a point, digits or underscores, and an exponent. -/
def isPointed (text : List Char) : Bool :=
  let whole := text.takeWhile isDigitOrBar
  match text.dropWhile isDigitOrBar with
  | '.' :: rest => isDigits whole && isExponent (rest.dropWhile isDigitOrBar)
  | _ => false

/-- A point, digits, and an exponent. -/
def isLeadingPoint : List Char → Bool
  | '.' :: rest =>
    isDigits (rest.takeWhile isDigitOrBar) && isExponent (rest.dropWhile isDigitOrBar)
  | _ => false

/-- The whole part of a number in base 60 that ends in a fraction. -/
def isSixtiethFloat (text : List Char) : Bool :=
  match splitColons (text.takeWhile (· ≠ '.')) with
  | first :: second :: rest =>
    isDigits first && (second :: rest).all isSixtieth
      && (match text.dropWhile (· ≠ '.') with
        | _ :: fraction => fraction.all isDigitOrBar
        | [] => false)
  | _ => false

/-- Whether a plain scalar is a double. -/
def isFloat (text : List Char) : Bool :=
  let unsigned := dropSign text
  isPointed unsigned || isLeadingPoint text || isSixtiethFloat unsigned
    || unsigned ∈ [".inf".toList, ".Inf".toList, ".INF".toList]
    || text ∈ [".nan".toList, ".NaN".toList, ".NAN".toList]

/-- Whether a character is a hexadecimal digit or an underscore. -/
def isHexOrBar (c : Char) : Bool :=
  isDigitOrBar c || ('a' ≤ c && c ≤ 'f') || ('A' ≤ c && c ≤ 'F')

/-- Whether the unsigned text of a plain scalar is an integer. -/
def isUnsignedInt : List Char → Bool
  | '0' :: 'b' :: rest => !rest.isEmpty && rest.all fun c => c == '0' || c == '1' || c == '_'
  | '0' :: 'x' :: rest => !rest.isEmpty && rest.all isHexOrBar
  | '0' :: rest => rest.all fun c => ('0' ≤ c && c ≤ '7') || c == '_'
  | text =>
    match splitColons text with
    | first :: rest => isDigits first && rest.all isSixtieth
    | [] => false

/-- Whether a plain scalar is an integer. -/
def isInt (text : List Char) : Bool := isUnsignedInt (dropSign text)

/-- The words for truth values, in their three spellings. -/
def boolWords : List (String × Bool) :=
  [("yes", true), ("Yes", true), ("YES", true), ("no", false), ("No", false), ("NO", false),
    ("true", true), ("True", true), ("TRUE", true), ("false", false), ("False", false),
    ("FALSE", false), ("on", true), ("On", true), ("ON", true), ("off", false), ("Off", false),
    ("OFF", false)]

/-- The words for nothing; the empty scalar is one of them. -/
def nullWords : List String := ["~", "null", "Null", "NULL", ""]

/-- **The tag of a plain scalar.** -/
def plainTag (text : String) : Tag :=
  let chars := text.toList
  if boolWords.any (·.1 == text) then .bool
  else if isFloat chars then .float
  else if isInt chars then .int
  else if text = "<<" then .merge
  else if text ∈ nullWords then .null
  else if (Timestamp.ofText? chars).any (·.isPlain) then .moment
  else if text = "=" then .value
  else if text ∈ ["!", "&", "*"] then .other
  else .text

/-- A text without the break at its end, which does not count for what the text looks like. A lone
break is no such end. -/
def dropFinalBreak (text : String) : String :=
  if text.toList.getLast? = some '\n' ∧ 2 ≤ text.length then (text.dropEnd 1).toString else text

end ModuleSurface.Yaml
