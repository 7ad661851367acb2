/-! # Indented text

Text is collected as fragments, in order, and joined once at the end. A depth says how far the
lines that are being written are indented: opening a block writes its header at the present depth
and goes one deeper, closing it comes back first and then writes the closing brace. -/

namespace ModuleSurface

/-- **A fragment**: a piece of text, or `none` for something that was put among the pieces and is no
text. -/
abbrev Fragment := Option String

/-- **An indented text** in the making. The depth may fall below zero, where lines are indented by
an empty fragment. -/
structure IndentedText where
  fragments : Array Fragment := #[]
  depth : Int := 0
  indentUnit : String := "  "

namespace IndentedText

instance : Inhabited IndentedText := ⟨{}⟩

/-- A text repeated; no times at all for a count below one. -/
def repeated (unit : String) (count : Int) : String :=
  String.join (List.replicate count.toNat unit)

/-- Fragments added at the end. -/
def push (text : IndentedText) (fragments : List Fragment) : IndentedText :=
  { text with fragments := text.fragments ++ fragments.toArray }

/-- The indentation of the present depth added at the end; at depth zero there is none. -/
def indent (text : IndentedText) : IndentedText :=
  if text.depth = 0 then text else text.push [some (repeated text.indentUnit text.depth)]

/-- One line: the indentation, its fragments and the line feed. -/
def line (text : IndentedText) (fragments : List Fragment) : IndentedText :=
  (text.indent.push fragments).push [some "\n"]

/-- The header of a block as a line, and one step deeper. -/
def openBlock (text : IndentedText) (header : List Fragment) : IndentedText :=
  let text := text.line (header ++ [some " \x7b"])
  { text with depth := text.depth + 1 }

/-- One step back, and the closing brace with what follows it as a line. -/
def closeBlock (text : IndentedText) (suffix : Fragment) : IndentedText :=
  { text with depth := text.depth - 1 }.line [some "\x7d", suffix]

/-- **The joined text**; none if a fragment is no text. -/
def joined? (text : IndentedText) : Option String :=
  (text.fragments.toList.mapM id).map String.join

/-- Pushing fragments keeps the depth: `(text.push fragments).depth = text.depth`. -/
@[simp] theorem depth_push (text : IndentedText) (fragments : List Fragment) :
    (text.push fragments).depth = text.depth := rfl

/-- What is pushed stands behind the other fragments. -/
@[simp] theorem fragments_push (text : IndentedText) (fragments : List Fragment) :
    (text.push fragments).fragments = text.fragments ++ fragments.toArray := rfl

/-- Writing the indentation keeps the depth: `text.indent.depth = text.depth`. -/
@[simp] theorem depth_indent (text : IndentedText) : text.indent.depth = text.depth := by
  unfold indent; split <;> simp

/-- Writing a line keeps the depth: `(text.line fragments).depth = text.depth`. -/
@[simp] theorem depth_line (text : IndentedText) (fragments : List Fragment) :
    (text.line fragments).depth = text.depth := by
  simp [line]

/-- Opening a block is one step deeper: `(text.openBlock header).depth = text.depth + 1`. -/
@[simp] theorem depth_openBlock (text : IndentedText) (header : List Fragment) :
    (text.openBlock header).depth = text.depth + 1 := by
  simp [openBlock]

/-- Closing a block is one step back, so it comes back to the depth at which `openBlock` was called.
-/
@[simp] theorem depth_closeBlock (text : IndentedText) (suffix : Fragment) :
    (text.closeBlock suffix).depth = text.depth - 1 := by
  simp [closeBlock]

end IndentedText

end ModuleSurface
