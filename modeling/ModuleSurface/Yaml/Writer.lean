import ModuleSurface.Document.SharedTree
import ModuleSurface.Yaml.Style

/-! # Writing YAML

A tree is written in block style. What is met more than once gets an anchor where it stands in full,
and an alias elsewhere; anchors are numbered in the order of the first aliases. A list under a key
stands at the column of the key, everything else two columns further in, and a block behind a dash
starts on the line of the dash. -/

namespace ModuleSurface.Yaml

/-- **Where a node stands.** -/
structure Position where
  /-- The column at which a block inside starts. -/
  column : Nat := 0
  /-- How far the line at hand has come. -/
  reached : Nat := 0
  /-- Whether the node is a key or a value of a mapping. -/
  inMapping : Bool := false
  /-- Whether a block may start on the line at hand: only marks stand before it. -/
  onMarks : Bool := true

/-- The name of the anchor with a number; it has at least three digits. -/
def anchorName (number : Nat) : String :=
  "id" ++ String.ofList (NumberLayout.zeros (3 - (toString number).length)) ++ toString number

/-- The name of the anchor of a value, if it has one. -/
def anchorOf? (repeated : List Value) (v : Value) : Option String :=
  if v ∈ repeated then some (anchorName (repeated.idxOf v + 1)) else none

/-- The tag that a value is written with, if it needs one. -/
def tagMark? : Value → Option String
  | .set _ => some "!!set"
  | _ => none

/-- The anchor and the tag in front of a value, each with a blank before it. -/
def properties (repeated : List Value) (v : Value) : String :=
  (((anchorOf? repeated v).map (" &" ++ ·)).getD "") ++ ((tagMark? v).map (" " ++ ·)).getD ""

/-- The lines of a block, from the line at hand on or from a new one. -/
def blockText (column : Nat) (onMarks : Bool) (lines : List String) : String :=
  let lineStart := "\n" ++ String.ofList (List.replicate column ' ')
  (if onMarks then " " else lineStart) ++ String.intercalate lineStart lines

/-- A key as it stands in front of a colon; none where it cannot stand there. -/
def simpleKey? (repeated : List Value) : SharedTree → Option String
  | .scalar s => do
    let anchor := (anchorOf? repeated (.scalar s)).getD ""
    let text ← scalarText? {} s
    if !isSimpleKey s anchor.length text then none
    else return if anchor = "" then text else "&" ++ anchor ++ " " ++ text
  | .again v => some ("*" ++ (anchorOf? repeated v).getD "")
  | _ => none

mutual

/-- **A node with what separates it** from the mark or the key before it; none if an integer is too
long to be written. -/
def nodeText? (repeated : List Value) (position : Position) : SharedTree → Option String
  | .scalar s =>
    let front := properties repeated (.scalar s)
    let site : Site :=
      { column := position.reached + front.length + 1, indent := position.column, mayFold := true }
    (scalarText? site s).map fun text => front ++ " " ++ text
  | .again v => some (" *" ++ (anchorOf? repeated v).getD "")
  | .list v items =>
    let front := properties repeated v
    if items.isEmpty then some (front ++ " []")
    else
      let onMarks := position.onMarks && front == ""
      -- under a key the dashes stand at the column of the key
      let column := if position.inMapping && !onMarks then position.column - 2 else position.column
      (itemLines? repeated column items).map fun lines => front ++ blockText column onMarks lines
  | .map v entries =>
    let front := properties repeated v
    if entries.isEmpty then some (front ++ " \x7b\x7d")
    else
      (entryLines? repeated position.column entries).map fun lines =>
        front ++ blockText position.column (position.onMarks && front == "") lines

/-- The items of a list, each from its dash on. -/
def itemLines? (repeated : List Value) (column : Nat) : List SharedTree → Option (List String)
  | [] => some []
  | tree :: rest => do
    let item ← nodeText? repeated { column := column + 2, reached := column + 1 } tree
    let others ← itemLines? repeated column rest
    return ("-" ++ item) :: others

/-- The entries of a map, each from its key on. -/
def entryLines? (repeated : List Value) (column : Nat) :
    List (SharedTree × SharedTree) → Option (List String)
  | [] => some []
  | (key, tree) :: rest => do
    let position : Position := { column := column + 2, reached := column + 1, inMapping := true }
    let entry ← match simpleKey? repeated key with
      | some name => do
        let reached := column + name.length + 1
        let value ← nodeText? repeated { position with reached, onMarks := false } tree
        pure (name ++ ":" ++ value)
      -- a key that is too long or no scalar is announced by a question mark
      | none => do
        let name ← nodeText? repeated position key
        let value ← nodeText? repeated position tree
        pure ("?" ++ name ++ "\n" ++ String.ofList (List.replicate column ' ') ++ ":" ++ value)
    let others ← entryLines? repeated column rest
    return entry :: others

end

/-- **The YAML text of a document**; none if an integer in it is too long to be written. -/
def write? (document : Document) : Option String :=
  let tree := document.unfoldShared
  (nodeText? tree.repeated {} tree).map fun text => (text.drop 1).toString ++ "\n"

end ModuleSurface.Yaml
