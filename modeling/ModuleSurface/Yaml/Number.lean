import ModuleSurface.Document.Number
import ModuleSurface.Yaml.Cursor
import ModuleSurface.Yaml.Plain

/-! # Numbers in YAML

What is tagged as a number is read as one, whether or not it looks like one: integers in bases 2, 8,
10, 16 and 60, and doubles in bases 10 and 60. Underscores do not count. -/

namespace ModuleSurface.Yaml

/-- What was read as a number. -/
def orUnreadable {α : Type} : Option α → Except ReadError α
  | some a => .ok a
  | none => .error .unreadableNumber

/-- The value of a digit in a base up to 16: a decimal digit of any script, or a letter. -/
def digitIn? (base : Nat) (c : Char) : Option Nat :=
  (match digitValue? c with
    | some value => some value
    | none => hexValue? c).filter (· < base)

/-- The digits behind the mark of a base, which may stand in front of them. -/
def dropMark (mark : Char) (text : List Char) : List Char :=
  match text with
  | '0' :: c :: rest => if c.toLower = mark then rest else text
  | _ => text

/-- **The integer of a text in a base** that a letter marks: a sign, the mark of the base and
digits, with blanks around them. Such integers may have any number of digits. -/
def readIn (base : Nat) (mark : Char) (text : List Char) : Except ReadError Int :=
  let (negative, body) := Numeral.takeSign (stripBlanks text)
  let digits := dropMark mark body
  if digits = [] then .error .unreadableNumber
  else do
    let magnitude ← orUnreadable
      (digits.foldlM (fun acc c => (digitIn? base c).map (base * acc + ·)) 0)
    return if negative then -(magnitude : Int) else magnitude

/-- A decimal integer of bounded length. -/
def readDecimalInt (text : List Char) : Except ReadError Int :=
  orUnreadable (Numeral.readInt (String.ofList text)).toOption

/-- **The integer of an unsigned text** without underscores. -/
def readUnsigned (text : List Char) : Except ReadError Int :=
  match text with
  | [] => .error .emptyNumber
  | ['0'] => .ok 0
  | '0' :: 'b' :: rest => readIn 2 'b' rest
  | '0' :: 'x' :: rest => readIn 16 'x' rest
  | '0' :: _ => readIn 8 'o' text
  | _ =>
    if ':' ∈ text then do
      let parts ← (splitColons text).mapM readDecimalInt
      return parts.foldl (fun acc part => 60 * acc + part) 0
    else readDecimalInt text

/-- **Reading an integer.** -/
def readInt (text : String) : Except ReadError Int :=
  let chars := text.toList.filter (· ≠ '_')
  (readUnsigned (dropSign chars)).map fun n => if chars.head? = some '-' then -n else n

/-- The sum of the parts of a double in base 60, the last one first. Parts are weighted and added as
doubles, so every weight has to be one. -/
def weighParts : (weight : Nat) → List Double → (sum : Double) → Except ReadError Double
  | _, [], sum => .ok sum
  | weight, part :: rest, sum =>
    match Scalar.doubleOfInt weight with
    | .ok factor => weighParts (60 * weight) rest (sum.add (part.mul factor))
    | .error _ => .error .weightTooLarge

/-- A decimal double. -/
def readDecimalDouble (text : List Char) : Except ReadError Double :=
  orUnreadable (Numeral.readDouble (String.ofList text))

/-- **Reading a double.** -/
def readDouble (text : String) : Except ReadError Double :=
  let chars := (text.toList.filter (· ≠ '_')).map Char.toLower
  if chars = [] then .error .emptyNumber
  else do
    let unsigned := dropSign chars
    let magnitude ←
      if unsigned = ".inf".toList then pure (.infinity false)
      else if unsigned = ".nan".toList then pure .nan
      else if ':' ∈ unsigned then do
        weighParts 1 (← (splitColons unsigned).mapM readDecimalDouble).reverse Double.zero
      else readDecimalDouble unsigned
    return if chars.head? = some '-' then magnitude.neg else magnitude

end ModuleSurface.Yaml
