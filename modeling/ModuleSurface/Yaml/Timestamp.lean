import ModuleSurface.Moment
import ModuleSurface.Text.Numeral

/-! # Moments as they are written

A day is written as year, month and day between dashes, a point in time with the time of day and
perhaps a zone behind it. A plain scalar is a day only where month and day have two digits. -/

namespace ModuleSurface.Yaml

/-- **A moment as it is written**: the numbers of its day, whether they have all their digits, and
the numbers of its time, with the millionths of a second and the zone in minutes. -/
structure Timestamp where
  year : Nat
  month : Nat
  day : Nat
  hasAllDigits : Bool
  time : Option (Nat × Nat × Nat × Nat × Option Int)

/-- The text behind a character. -/
def behind? (c : Char) : List Char → Option (List Char)
  | d :: rest => if c = d then some rest else none
  | [] => none

/-- The number of ASCII digits. -/
def digitsNumber (digits : List Char) : Nat :=
  Numeral.ofDigits (digits.map fun c => c.toNat - '0'.toNat)

/-- The leading digits of a text, at least `least` and at most `most`, and the rest. -/
def digits? (least most : Nat) (text : List Char) : Option (List Char × List Char) :=
  let count := min most (text.takeWhile Char.isDigit).length
  if least ≤ count then some (text.take count, text.drop count) else none

/-- The leading number of a text, in one digit or two, and the rest. -/
def shortNumber? (text : List Char) : Option (Nat × List Char) :=
  (digits? 1 2 text).map fun (digits, rest) => (digitsNumber digits, rest)

/-- The leading number of a text in two digits, and the rest. -/
def fullNumber? (text : List Char) : Option (Nat × List Char) :=
  (digits? 2 2 text).map fun (digits, rest) => (digitsNumber digits, rest)

/-- Blanks and tabs at the start of a text left out. -/
def skipBlanks (text : List Char) : List Char := text.dropWhile fun c => c == ' ' || c == '\t'

/-- The millionths of a second that digits behind a point are; further digits do not count. -/
def microsOf (digits : List Char) : Nat :=
  digitsNumber ((digits ++ List.replicate 6 '0').take 6)

/-- The fraction of a second, if a point follows, and the rest. -/
def fraction : List Char → Nat × List Char
  | '.' :: rest => (microsOf (rest.takeWhile Char.isDigit), rest.dropWhile Char.isDigit)
  | rest => (0, rest)

/-- The zone at the end of a moment: none, the zero one, or a distance in hours and minutes. -/
def zone? (text : List Char) : Option (Option Int) :=
  match skipBlanks text with
  | [] => if text = [] then some none else none
  | ['Z'] => some (some 0)
  | sign :: rest =>
    if sign ≠ '-' ∧ sign ≠ '+' then none
    else do
      let (hours, rest) ← shortNumber? rest
      let (minutes, rest) ← match rest with
        | [] => some (0, [])
        | rest => fullNumber? (← behind? ':' rest)
      let distance : Int := (hours * 60 + minutes : Nat)
      if rest = [] then return some (if sign = '-' then -distance else distance) else none

/-- The time of day behind a day, from the letter or the blanks between them on. -/
def time? (text : List Char) : Option (Nat × Nat × Nat × Nat × Option Int) := do
  let start ← match text with
    | 'T' :: rest | 't' :: rest => some rest
    | ' ' :: rest | '\t' :: rest => some (skipBlanks rest)
    | _ => none
  let (hour, rest) ← shortNumber? start
  let (minute, rest) ← fullNumber? (← behind? ':' rest)
  let (second, rest) ← fullNumber? (← behind? ':' rest)
  let (micros, rest) := fraction rest
  return (hour, minute, second, micros, ← zone? rest)

/-- **Reading a moment**: its numbers, whether or not they are those of a day and a time. -/
def Timestamp.ofText? (text : List Char) : Option Timestamp := do
  let (year, rest) ← digits? 4 4 text
  let (month, rest) ← digits? 1 2 (← behind? '-' rest)
  let (day, rest) ← digits? 1 2 (← behind? '-' rest)
  let time ← match rest with
    | [] => some none
    | rest => (time? rest).map some
  return { year := digitsNumber year, month := digitsNumber month, day := digitsNumber day
           hasAllDigits := month.length = 2 && day.length = 2, time }

/-- Whether a plain scalar that is written so is a moment. -/
def Timestamp.isPlain (stamp : Timestamp) : Bool := stamp.time.isSome || stamp.hasAllDigits

/-- The moment of its numbers, if there is such a day and such a time. -/
def Timestamp.moment? (stamp : Timestamp) : Option Moment := do
  let day ← Day.ofParts? stamp.year stamp.month stamp.day
  match stamp.time with
  | none => return .day day
  | some (hour, minute, second, micro, zone) =>
    return .point day (← Time.ofParts? hour minute second micro zone)

end ModuleSurface.Yaml
