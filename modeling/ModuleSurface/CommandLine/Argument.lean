import ModuleSurface.CommandLine.Usage
import ModuleSurface.Text.Character

/-! # What an argument is taken for

An argument is an option by how it is spelled. A value may stand behind an equals sign, which is no
part of it where the sign follows the first option at once. Long options may be shortened as long as
no other one starts alike; short options may be joined, the last one with its value. -/

namespace ModuleSurface

/-- **The options in one argument**: those without a value, then one with its value or one whose
value is still to follow. -/
structure Cluster where
  plain : List Switch := []
  valued : Option (Switch × String) := none
  pending : Option Switch := none
deriving DecidableEq, Repr

namespace Cluster

/-- A single option without anything attached to it. -/
def lone (switch : Switch) : Cluster :=
  if switch.takesValue then { pending := some switch } else { plain := [switch] }

/-- An option in front of others. -/
def push (switch : Switch) (cluster : Cluster) : Cluster :=
  { cluster with plain := switch :: cluster.plain }

/-- A long option with the value that is attached to it, if there is one. -/
def ofLong (switch : Switch) : Option String → Except UsageError Cluster
  | none => .ok (lone switch)
  | some value =>
    if switch.takesValue then .ok { valued := some (switch, value) }
    else .error (.needlessValue switch value)

/-- A short option with what is attached to it: its value, or further short options. -/
def ofShort (switch : Switch) : List Char → Except UsageError Cluster
  | [] => ofLong switch (some "")
  | c :: rest =>
    if switch.takesValue then .ok { valued := some (switch, String.ofList (c :: rest)) }
    else
      match Switch.ofSpelling? (String.ofList ['-', c]), rest with
      | none, _ => .error (.needlessValue switch (String.ofList (c :: rest)))
      | some next, [] => .ok (push switch (lone next))
      | some next, rest => (ofShort next rest).map (push switch)

end Cluster

/-- **What an argument is taken for.** -/
inductive Argument
  /-- A word that is no option. -/
  | operand (text : String)
  /-- Options, or why they are not accepted when their turn comes. -/
  | options (cluster : Except UsageError Cluster)
  /-- What looks like an option but is none. -/
  | unknown (text : String)

namespace Argument

/-- Whether a text is a negative number: digits of any script behind a minus sign, with or without a
point in front of the last of them. A line feed at its end does not count. -/
def isNegativeNumber (text : List Char) : Bool :=
  let isDigit (c : Char) : Bool := (digitValue? c).isSome
  let text := if text.getLast? = some '\n' then text.dropLast else text
  match text with
  | '-' :: rest =>
    let behind := rest.dropWhile isDigit
    match behind with
    | [] => !rest.isEmpty
    | '.' :: fraction => !fraction.isEmpty && fraction.all isDigit
    | _ => false
  | _ => false

/-- Whether a text starts like a long option. -/
def isLong (text : List Char) : Bool := text.take 2 == ['-', '-']

/-- A text cut at its first equals sign. -/
def cutAtEquals (text : List Char) : String × Option (List Char) :=
  let name := String.ofList (text.takeWhile (· ≠ '='))
  match text.dropWhile (· ≠ '=') with
  | [] => (name, none)
  | _ :: value => (name, some value)

/-- The spellings that an argument may stand for, and the options that it holds then: those that a
long one shortens, or the short one that it starts with. -/
def candidates (text : List Char) : List (String × Except UsageError Cluster) :=
  if isLong text then
    let (name, value) := cutAtEquals text
    (Switch.spelled.filter fun entry => entry.1.startsWith name).map fun entry =>
      (entry.1, Cluster.ofLong entry.2 (value.map String.ofList))
  else
    let short := String.ofList (text.take 2)
    (Switch.spelled.filter fun entry => entry.1 == short).map fun entry =>
      (entry.1, Cluster.ofShort entry.2 (text.drop 2))

/-- **What an argument is taken for**; it must not shorten several options. -/
def ofText (text : String) : Except UsageError Argument :=
  let chars := text.toList
  if chars.head? ≠ some '-' then .ok (.operand text)
  else
    match Switch.ofSpelling? text with
    | some switch => .ok (.options (.ok (Cluster.lone switch)))
    | none =>
      if chars.length = 1 then .ok (.operand text)
      else
        let (name, value) := cutAtEquals chars
        match Switch.ofSpelling? name, value with
        | some switch, some value =>
          .ok (.options (if isLong chars then Cluster.ofLong switch (some (String.ofList value))
            else Cluster.ofShort switch value))
        | _, _ =>
          match candidates chars with
          | [(_, cluster)] => .ok (.options cluster)
          | [] =>
            if isNegativeNumber chars || chars.contains ' ' then .ok (.operand text)
            else .ok (.unknown text)
          | several => .error (.ambiguous text (several.map (·.1)))

end Argument

end ModuleSurface
