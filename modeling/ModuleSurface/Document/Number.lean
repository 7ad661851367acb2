import ModuleSurface.Document.Display
import ModuleSurface.Text.Numeral

/-! # Numbers from values

Payloads of constants and enum values are converted from whatever the document holds: truth
values count as one and zero, doubles are cut toward zero, texts and bytes are read. -/

namespace ModuleSurface

/-- **Why a value is not a number** of the wanted sort. -/
inductive NumberError
  /-- A text that is not an integer, as it is shown. -/
  | notAnInteger (shown : String)
  /-- A text that is not a decimal, as it is shown. -/
  | notADecimal (shown : String)
  /-- A text with more digits than are read. -/
  | tooManyDigits (count : Nat)
  /-- An integer from what is not a number. -/
  | integerOfNan
  /-- An integer from an infinity. -/
  | integerOfInfinity
  /-- An integer above the largest double. -/
  | doubleTooLarge
  /-- A value of a type that is never an integer. -/
  | noInteger (typeName : String)
  /-- A value of a type that is never a double. -/
  | noDouble (typeName : String)
deriving DecidableEq, Repr

namespace NumberError

/-- Conversions that leave the range of the target stand apart from those of unsuitable values. -/
def isOverflow : NumberError → Bool
  | .integerOfInfinity | .doubleTooLarge => true
  | _ => false

/-- The sentence that tells the cause. A text that is no integer is shown up to its 200th
character. -/
def message : NumberError → String
  | .notAnInteger shown =>
    "invalid literal for int() with base 10: " ++ String.ofList (shown.toList.take 200)
  | .notADecimal shown => "could not convert string to float: " ++ shown
  | .tooManyDigits count =>
    s!"Exceeds the limit ({integerDigitLimit} digits) for integer string conversion: value has "
      ++ s!"{count} digits; use sys.set_int_max_str_digits() to increase the limit"
  | .integerOfNan => "cannot convert float NaN to integer"
  | .integerOfInfinity => "cannot convert float infinity to integer"
  | .doubleTooLarge => "int too large to convert to float"
  | .noInteger typeName =>
    "int() argument must be a string, a bytes-like object or a real number, not '" ++ typeName
      ++ "'"
  | .noDouble typeName =>
    "float() argument must be a string or a real number, not '" ++ typeName ++ "'"

end NumberError

namespace Scalar

/-- The text that bytes are read as; bytes beyond ASCII are part of no number. -/
def asciiText? (b : Bytes) : Option String :=
  if b.all (· < 0x80) then some (String.ofList b.toChars) else none

/-- The integer of a text that is read, where `shown` is how it is shown. -/
def readInt (shown : String) (text : Option String) : Except NumberError Int :=
  match (text.map Numeral.readInt).getD (.error .malformed) with
  | .ok n => .ok n
  | .error .malformed => .error (.notAnInteger shown)
  | .error (.tooManyDigits count) => .error (.tooManyDigits count)

/-- **The integer of a scalar.** -/
def toInt : Scalar → Except NumberError Int
  | .bool b => .ok (if b then 1 else 0)
  | .int n => .ok n
  | .float .nan => .error .integerOfNan
  | .float x =>
    match x.truncate? with
    | some n => .ok n
    | none => .error .integerOfInfinity
  | .text s => readInt (quoted s) (some s)
  | .bytes b => readInt (Bytes.display (b.take 200)) (asciiText? b)
  | s => .error (.noInteger s.fullTypeName)

/-- The double nearest to an integer, unless that is an infinity. -/
def doubleOfInt (n : Int) : Except NumberError Double :=
  match Double.ofInt n with
  | .infinity _ => .error .doubleTooLarge
  | x => .ok x

/-- **The double of a scalar.** -/
def toDouble : Scalar → Except NumberError Double
  | .bool b => doubleOfInt (if b then 1 else 0)
  | .int n => doubleOfInt n
  | .float x => .ok x
  | .text s =>
    match Numeral.readDouble s with
    | some x => .ok x
    | none => .error (.notADecimal (quoted s))
  | .bytes b =>
    match (asciiText? b).bind Numeral.readDouble with
    | some x => .ok x
    | none => .error (.notADecimal b.display)
  | s => .error (.noDouble s.fullTypeName)

/-- An integer is converted to itself: `toInt (.int n) = .ok n`. -/
@[simp] theorem toInt_int (n : Int) : toInt (.int n) = .ok n := rfl

/-- A double is converted to itself: `toDouble (.float x) = .ok x`. -/
@[simp] theorem toDouble_float (x : Double) : toDouble (.float x) = .ok x := rfl

end Scalar

namespace Value

/-- The integer of a value; what is kept in the store has none. -/
def toInt : Value → Except NumberError Int
  | .scalar s => s.toInt
  | v => .error (.noInteger v.typeName)

/-- The double of a value; what is kept in the store has none. -/
def toDouble : Value → Except NumberError Double
  | .scalar s => s.toDouble
  | v => .error (.noDouble v.typeName)

/-- A value that is a scalar is converted as one, by `Scalar.toInt`. -/
@[simp] theorem toInt_scalar (s : Scalar) : toInt (.scalar s) = s.toInt := rfl

/-- A value that is a scalar is converted as one, by `Scalar.toDouble`. -/
@[simp] theorem toDouble_scalar (s : Scalar) : toDouble (.scalar s) = s.toDouble := rfl

end Value

end ModuleSurface
