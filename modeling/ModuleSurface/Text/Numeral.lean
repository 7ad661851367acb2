import ModuleSurface.Double
import ModuleSurface.Text.Character

/-! # Numbers written as text

An integer is an optional sign and decimal digits of any script, a decimal may also hold a point
and an exponent; single underscores may stand between digits and blanks around the whole. Texts of
integers are limited to 4300 digits in both directions, reading and writing. -/

namespace ModuleSurface

/-- **The longest integer** that is read from text or written as text, in digits. -/
def integerDigitLimit : Nat := 4300

/-- Why a text is not an integer. -/
inductive NumeralError
  /-- The text is not a sign and digits. -/
  | malformed
  /-- The text starts with more digits than are read. -/
  | tooManyDigits (count : Nat)
deriving DecidableEq, Repr

namespace Numeral

/-- The sign at the start of a text, and what follows it. -/
def takeSign : List Char → Bool × List Char
  | '-' :: rest => (true, rest)
  | '+' :: rest => (false, rest)
  | rest => (false, rest)

/-- A minus sign is taken as the sign: `takeSign ('-' :: rest) = (true, rest)`. -/
@[simp] theorem takeSign_minus (rest : List Char) : takeSign ('-' :: rest) = (true, rest) := rfl

/-- A plus sign is taken as well, and says nothing: `takeSign ('+' :: rest) = (false, rest)`. -/
@[simp] theorem takeSign_plus (rest : List Char) : takeSign ('+' :: rest) = (false, rest) := rfl

/-- A run of digits with single underscores between them, and what follows it. A run that is empty,
or has an underscore next to anything but two digits, is none. -/
def digitRun (afterDigit : Bool) : List Char → Option (List Nat × List Char)
  | [] => if afterDigit then some ([], []) else none
  | c :: rest =>
    match digitValue? c with
    | some d => (digitRun true rest).map fun (digits, after) => (d :: digits, after)
    | none =>
      if !afterDigit then none
      else if c = '_' then digitRun false rest
      else some ([], c :: rest)

/-- The number that a list of decimal digits denotes, the leading one first. -/
def ofDigits (digits : List Nat) : Nat := digits.foldl (fun acc d => 10 * acc + d) 0

/-- No digits stand for zero: `ofDigits [] = 0`. -/
@[simp] theorem ofDigits_nil : ofDigits [] = 0 := rfl

/-- **Reading an integer.** The digits are counted before what follows them is looked at. -/
def readInt (text : String) : Except NumeralError Int :=
  let (negative, body) := takeSign (stripBlanks text.toList)
  match digitRun false body with
  | none => .error .malformed
  | some (digits, after) =>
    if integerDigitLimit < digits.length then .error (.tooManyDigits digits.length)
    else if after ≠ [] then .error .malformed
    else .ok (if negative then -(ofDigits digits : Int) else ofDigits digits)

/-- The text without its underscores; each of them must stand between two digits. -/
def dropUnderscores (afterDigit : Bool) : List Char → Option (List Char)
  | [] => some []
  | c :: rest =>
    if c = '_' then
      if afterDigit && (rest.head?.bind digitValue?).isSome then dropUnderscores false rest
      else none
    else (dropUnderscores (digitValue? c).isSome rest).map (c :: ·)

/-- The leading digits of a text and what follows them. -/
def spanDigits : List Char → List Nat × List Char
  | [] => ([], [])
  | c :: rest =>
    match digitValue? c with
    | some d => (d :: (spanDigits rest).1, (spanDigits rest).2)
    | none => ([], c :: rest)

/-- The exponent at the end of a decimal; the end of the text is the exponent zero. -/
def readExponent : List Char → Option Int
  | [] => some 0
  | c :: rest =>
    if c = 'e' ∨ c = 'E' then
      let (negative, body) := takeSign rest
      match spanDigits body with
      | ([], _) => none
      | (digits, []) => some (if negative then -(ofDigits digits : Int) else ofDigits digits)
      | (_, _ :: _) => none
    else none

/-- The decimal of an unsigned text: digits, a point that at least one digit stands next to, and an
exponent. -/
def readDecimal (negative : Bool) (text : List Char) : Option Double :=
  let (whole, afterWhole) := spanDigits text
  let (fraction, afterFraction) := match afterWhole with
    | '.' :: rest => spanDigits rest
    | rest => ([], rest)
  if whole = [] ∧ fraction = [] then none
  else
    (readExponent afterFraction).map fun exponent =>
      Double.ofDecimal negative (ofDigits (whole ++ fraction)) (exponent - fraction.length)

/-- A text with its ASCII capital letters made small. -/
def lowerAscii (text : List Char) : List Char :=
  text.map Char.toLower

/-- **Reading a double.** Besides decimals there are the names of the infinities and of what is not
a number, in any case. -/
def readDouble (text : String) : Option Double :=
  match dropUnderscores false (stripBlanks text.toList) with
  | none => none
  | some body =>
    let (negative, unsigned) := takeSign body
    let name := lowerAscii unsigned
    if name = "inf".toList ∨ name = "infinity".toList then some (.infinity negative)
    else if name = "nan".toList then some .nan
    else readDecimal negative unsigned

/-- **Writing an integer**: its decimal text, unless it is too long to be written. -/
def intText? (n : Int) : Option String :=
  let text := toString n
  if integerDigitLimit < (toString n.natAbs).length then none else some text

end Numeral

end ModuleSurface
