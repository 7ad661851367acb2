import ModuleSurface.Text.Quoted

/-! # Files

The command reads one file and may write one. What it needs of a system of files is to read and to
write a file at a path; a `Directory` held in memory is such a system. -/

namespace ModuleSurface

/-! ## Paths

A path is written as names with slashes between them. Empty names and names that are a single point
say nothing and are left out. -/

/-- **A path**: the slashes that it starts with, none, one or two, and its names. -/
structure Path where
  root : String := ""
  names : List String := []
deriving DecidableEq, Repr

namespace Path

/-- The path of a text. More than two slashes at its start count as one. -/
def ofText (text : String) : Path :=
  let slashes := (text.toList.takeWhile (· == '/')).length
  { root := if slashes = 0 then "" else if slashes = 2 then "//" else "/"
    names := ((text.splitOn "/").filter fun name => name != "" && name != ".") }

/-- The text of a path. The path without names is that of the current directory. -/
def toText (path : Path) : String :=
  let text := path.root ++ String.intercalate "/" path.names
  if text = "" then "." else text

/-- **The suffix of a path**: what follows the last point of its last name, with the point. A name
that starts or ends with that point has none. -/
def suffix (path : Path) : String :=
  let name := (path.names.getLast?.getD "").toList
  let behind := (name.reverse.takeWhile (· ≠ '.')).reverse
  if behind.length + 1 < name.length ∧ behind ≠ [] then String.ofList ('.' :: behind) else ""

/-- Whether a path is that of a JSON file. -/
def isJson (path : Path) : Bool := path.suffix.toLower == ".json"

/-- Whether a path has a form in bytes. A half of a surrogate pair has none, unless it stands for
one byte beyond ASCII. -/
def hasBytes (path : Path) : Bool :=
  path.toText.toList.all fun c => !isHalf c || (0xDC80 ≤ codeOf c && codeOf c ≤ 0xDCFF)

/-- Whether a path holds the character that ends a path for the system. -/
def hasNull (path : Path) : Bool := path.toText.toList.contains '\x00'

end Path

/-! ## Files and directories -/

/-- **Why a file was not read or written.** -/
inductive FileFault
  | missing | denied | notDirectory | isDirectory | nameTooLong
deriving DecidableEq, Repr

/-- **The sentence about a file** that was not read or written. -/
def FileFault.message (fault : FileFault) (path : Path) : String :=
  let what := match fault with
    | .missing => "[Errno 2] No such file or directory"
    | .denied => "[Errno 13] Permission denied"
    | .notDirectory => "[Errno 20] Not a directory"
    | .isDirectory => "[Errno 21] Is a directory"
    | .nameTooLong => "[Errno 36] File name too long"
  what ++ ": " ++ quoted path.toText

/-- **A system of files**: how to read one and how to write a text to one. -/
structure Files (m : Type → Type) where
  read : Path → m (Except FileFault ByteArray)
  write : Path → String → m (Except FileFault Unit)

/-- **A directory in memory**: its files by their names. A name with several parts is that of a file
in a directory inside. Nothing is known of what lies outside. -/
structure Directory where
  files : List (List String × ByteArray) := []

namespace Directory

/-- The contents of a file. -/
def file? (directory : Directory) (names : List String) : Option ByteArray :=
  directory.files.lookup names

/-- Whether names lead to the directory or to one inside. -/
def isDirectory (directory : Directory) (names : List String) : Bool :=
  names == [] || directory.files.any fun file => names.isPrefixOf file.1 && names != file.1

/-- The root is always a directory: `directory.isDirectory [] = true`. -/
@[simp] theorem isDirectory_nil (directory : Directory) : directory.isDirectory [] = true := rfl

/-- The greatest length of a name, in bytes. -/
def longestName : Nat := 255

/-- The greatest length of a path, in bytes. -/
def longestPath : Nat := 4095

/-- A place that a path leads to: inside the directory, or above it. -/
inductive Place
  | above
  | inside (names : List String)

/-- One step on a path. -/
def step (directory : Directory) : Place → String → Except FileFault Place
  | .above, name =>
    if longestName < name.utf8ByteSize then .error .nameTooLong
    else if name = ".." then .ok .above
    else .error .missing
  | .inside names, name =>
    if directory.isDirectory names then
      if longestName < name.utf8ByteSize then .error .nameTooLong
      else if name ≠ ".." then .ok (.inside (names ++ [name]))
      else if names = [] then .ok .above
      else .ok (.inside names.dropLast)
    else if (directory.file? names).isSome then .error .notDirectory
    else .error .missing

/-- Where a path leads; its last name need not be there. -/
def find (directory : Directory) (path : Path) : Except FileFault Place :=
  if longestPath < path.toText.utf8ByteSize then .error .nameTooLong
  else path.names.foldlM directory.step (if path.root = "" then .inside [] else .above)

/-- Whether a path names the null device, the one file outside that is known: it is empty, and what
is written to it is gone. -/
def isNullDevice (path : Path) : Bool := path.root != "" && path.names == ["dev", "null"]

/-- **Reading a file.** -/
def read (directory : Directory) (path : Path) : Except FileFault ByteArray :=
  if isNullDevice path then .ok .empty
  else match directory.find path with
  | .error fault => .error fault
  | .ok .above => .error .isDirectory
  | .ok (.inside names) =>
    if directory.isDirectory names then .error .isDirectory
    else
      match directory.file? names with
      | none => .error .missing
      | some bytes => .ok bytes

/-- **Writing a file**, a new one or an old one. -/
def write (directory : Directory) (path : Path) (bytes : ByteArray) : Except FileFault Directory :=
  if isNullDevice path then .ok directory
  else match directory.find path with
  | .error fault => .error fault
  | .ok .above => .error .isDirectory
  | .ok (.inside names) =>
    if directory.isDirectory names then .error .isDirectory
    else .ok ⟨directory.files.filter (·.1 != names) ++ [(names, bytes)]⟩

/-- The directory in memory as a system of files. -/
def system : Files (StateM Directory) where
  read path := fun directory => (directory.read path, directory)
  write path text := fun directory =>
    match directory.write path text.toUTF8 with
    | .error fault => (.error fault, directory)
    | .ok changed => (.ok (), changed)

end Directory

end ModuleSurface
