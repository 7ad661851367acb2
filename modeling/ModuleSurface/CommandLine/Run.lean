import ModuleSurface.CommandLine.Directory
import ModuleSurface.CommandLine.Request
import ModuleSurface.Definitions.Build
import ModuleSurface.Interchange

/-! # One run of the command

The command reads a graph, builds its definitions, and only when they are complete writes them, to
one place: a run that fails has written nothing. -/

namespace ModuleSurface

/-- **Why a run fails.** -/
inductive RunError
  /-- A file was not read or written. -/
  | file (fault : FileFault) (path : Path)
  /-- The path holds the character that ends a path for the system. -/
  | nullInPath
  /-- The file is no UTF-8 text. -/
  | notUtf8
  /-- What is to be written, or a path, holds halves of surrogate pairs and has no form in bytes. -/
  | noBytes
  /-- The text is no graph. -/
  | load (cause : LoadError)
  /-- No dialect is left to write. -/
  | noDialect
  /-- The graph has no definitions; the store is that of the graph. -/
  | render (cause : RenderError) (store : Store)

/-- **The sentence about a failure** that is reported; the other failures break a run off. -/
def RunError.message? : RunError → Option String
  | .file fault path => some (fault.message path)
  | .load cause => cause.message?
  | .render cause store => cause.message? store
  | .nullInPath | .notUtf8 | .noBytes | .noDialect => none

/-- **How a run ends**: with an exit code, or broken off. -/
inductive Ending
  | exit (code : Nat)
  | brokenOff (cause : RunError)

/-- **What a run leaves behind** apart from files. -/
structure Outcome where
  ending : Ending
  stdout : String := ""
  stderr : String := ""

/-! ## Definitions of a file -/

/-- Line ends of all sorts as line feeds. -/
def unifyLineEnds : List Char → List Char
  | '\r' :: '\n' :: rest => '\n' :: unifyLineEnds rest
  | '\r' :: rest => '\n' :: unifyLineEnds rest
  | c :: rest => c :: unifyLineEnds rest
  | [] => []

/-- The text of a file. -/
def fileText? (bytes : ByteArray) : Option String :=
  (String.fromUTF8? bytes).map fun text => String.ofList (unifyLineEnds text.toList)

/-- The graph of a file. -/
def Path.readGraph (path : Path) (bytes : ByteArray) : Except RunError Graph :=
  match fileText? bytes with
  | none => .error .notUtf8
  | some text => (if path.isJson then Graph.ofJson text else Graph.ofYaml text).mapError .load

namespace Settings

/-- The graph that is rendered: that of the file, in which the option may set the width. -/
def adjust (settings : Settings) (graph : Graph) : Graph :=
  graph.withWidth (graph.is64Bit || settings.is64Bit)

/-- The definitions of the contents of the file, with their dialect, and the lines that are logged
on the way. -/
def definitions (settings : Settings) (bytes : ByteArray) :
    Except RunError (Dialect × String) × List String :=
  match (Path.ofText settings.graph).readGraph bytes with
  | .error cause => (.error cause, [])
  | .ok graph =>
    match settings.dialect? with
    | none => (.error .noDialect, [])
    | some dialect =>
      let rendering := (settings.adjust graph).renderLogged dialect
      -- what was logged before a failure is kept
      ((rendering.result.mapError fun cause => .render cause graph.store).map (dialect, ·),
        rendering.log.filterMap (·.line? graph.store))

/-- The log as it is printed: lines that are not about failures only where they are asked for. -/
def printed (settings : Settings) (lines : List String) : String :=
  if settings.verbose then String.join (lines.map (· ++ "\n")) else ""

/-- The line of a log entry without names. -/
def plainLine (entry : LogEntry) : String := (entry.line? {}).getD ""

/-- How a run ends that failed. -/
def fail (settings : Settings) (lines : List String) (cause : RunError) : Outcome :=
  match cause.message? with
  | some message =>
    { ending := .exit 1
      stderr := settings.printed lines ++ plainLine (.failed message) ++ "\n" }
  | none => { ending := .brokenOff cause, stderr := settings.printed lines }

/-- What is wrong with a path before the system is asked. -/
def pathFault? (path : Path) : Option RunError :=
  if !path.hasBytes then some .noBytes
  else if path.hasNull then some .nullInPath
  else none

/-- Writing a text to a file. The file is there before the text is put into bytes, so a text without
such a form leaves an empty file. -/
def writeText {m : Type → Type} [Monad m] (files : Files m) (target : Path) (text : String) :
    m (Except RunError Unit) := do
  match pathFault? target with
  | some cause => return .error cause
  | none =>
    match ← files.write target (if hasHalf text then "" else text) with
    | .error fault => return .error (.file fault target)
    | .ok () => return if hasHalf text then .error .noBytes else .ok ()

/-- **One conversion.** -/
def convert {m : Type → Type} [Monad m] (settings : Settings) (files : Files m) : m Outcome := do
  let path := Path.ofText settings.graph
  match pathFault? path with
  | some cause => return settings.fail [] cause
  | none =>
    match ← files.read path with
    | .error fault => return settings.fail [] (.file fault path)
    | .ok bytes =>
      match settings.definitions bytes with
      | (.error cause, lines) => return settings.fail lines cause
      | (.ok (dialect, text), lines) =>
        -- nothing is written before the definitions are complete
        if settings.output = "" then
          return { ending := .exit 0, stdout := text, stderr := settings.printed lines }
        else
          match ← writeText files (Path.ofText settings.output) text with
          | .error cause => return settings.fail lines cause
          | .ok () =>
            let done := plainLine (.wrote dialect settings.output)
            return { ending := .exit 0, stderr := settings.printed (lines ++ [done]) }

end Settings

/-- **One run of the command** on a system of files. -/
def run {m : Type → Type} [Monad m] (files : Files m) (arguments : List String) : m Outcome :=
  match Request.ofArguments arguments with
  | .error cause =>
    return { ending := .exit 2, stderr := usageText ++ "defgen: error: " ++ cause.message ++ "\n" }
  | .ok .help => return { ending := .exit 0, stdout := helpText }
  | .ok .version => return { ending := .exit 0, stdout := versionText }
  | .ok (.convert settings) => settings.convert files

end ModuleSurface
