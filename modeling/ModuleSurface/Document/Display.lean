import ModuleSurface.Document
import ModuleSurface.Double.Layout
import ModuleSurface.Text.Numeral
import ModuleSurface.Text.Quoted

/-! # Values in messages

A message shows a value as it could be written down: texts in quotes, lists in brackets, pairs in
parentheses, maps and sets in braces. Inside itself a list, a pair or a map is shown by three dots,
so every value has a finite display. There is none only where an integer is too long to be written.
-/

namespace ModuleSurface

/-- How a scalar is shown in a message. -/
def Scalar.display? : Scalar → Option String
  | .null => some "None"
  | .bool true => some "True"
  | .bool false => some "False"
  | .int n => Numeral.intText? n
  | .float x => some (NumberLayout.display.render x)
  | .text s => some (quoted s)
  | .moment m _ => some m.display
  | .bytes b => some b.display

/-- Displays with commas between them. -/
def commaSeparated (displays : List String) : String := String.intercalate ", " displays

/-- **How a value is shown in a message.** `path` holds what is being shown, and `fuel` bounds how
deep it nests. -/
def Store.displayWithin? (store : Store) : Nat → List Value → Value → Option String
  | _, _, .scalar s => s.display?
  | _, _, .set ref => do
    let shown ← (store.entries ref).mapM (·.1.display?)
    return if shown = [] then "set()" else "\x7b" ++ commaSeparated shown ++ "\x7d"
  | 0, _, .list _ => some "[...]"
  | 0, _, .pair _ => some "(...)"
  | 0, _, .map _ => some "\x7b...\x7d"
  | fuel + 1, path, .list ref =>
    if .list ref ∈ path then some "[...]"
    else do
      let shown ← (store.items ref).mapM (store.displayWithin? fuel (.list ref :: path))
      return "[" ++ commaSeparated shown ++ "]"
  | fuel + 1, path, .pair ref =>
    if .pair ref ∈ path then some "(...)"
    else do
      let shown ← (store.items ref).mapM (store.displayWithin? fuel (.pair ref :: path))
      return "(" ++ commaSeparated shown ++ ")"
  | fuel + 1, path, .map ref =>
    if .map ref ∈ path then some "\x7b...\x7d"
    else do
      let shown ← (store.entries ref).mapM fun entry => do
        return (← entry.1.display?) ++ ": "
          ++ (← store.displayWithin? fuel (.map ref :: path) entry.2)
      return "\x7b" ++ commaSeparated shown ++ "\x7d"

/-- How a value of the store is shown in a message. No path is longer than what the store holds, so
the bound on the depth is never met. -/
def Store.display? (store : Store) (v : Value) : Option String :=
  store.displayWithin? (store.size + 1) [] v

/-- A scalar is displayed without a look at the store: `store.display? (.scalar s) = s.display?`. -/
@[simp] theorem Store.display?_scalar (store : Store) (s : Scalar) :
    store.display? (.scalar s) = s.display? := by
  simp [Store.display?, Store.displayWithin?]

/-- How a value is written inside a sentence: texts and moments as they are, and anything else as it
is shown. -/
def Store.inSentence? (store : Store) : Value → Option String
  | .scalar (.text s) => some s
  | .scalar (.moment m _) => some m.text
  | v => store.display? v

/-- A text stands in a sentence as it is, without quotes: `store.inSentence? (.text s) = some s`. -/
@[simp] theorem Store.inSentence?_text (store : Store) (s : String) :
    store.inSentence? (.text s) = some s := rfl

end ModuleSurface
