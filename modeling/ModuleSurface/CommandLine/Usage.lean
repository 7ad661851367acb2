import ModuleSurface.Definitions.Dialect
import ModuleSurface.Text.Quoted

/-! # How the command is used

The options, how they are spelled and which of them have a value; the texts that the command prints
about itself, and the sentences about arguments that it does not accept. -/

namespace ModuleSurface

/-! ## Options -/

/-- **The options.** -/
inductive Switch
  | help | format | output | wide | verbose | version
deriving DecidableEq, Repr

namespace Switch

/-- All options, in the order in which they are listed. -/
def all : List Switch := [.help, .format, .output, .wide, .verbose, .version]

/-- How an option is spelled, short before long. -/
def spellings : Switch → List String
  | .help => ["-h", "--help"]
  | .format => ["-f", "--format"]
  | .output => ["-o", "--output"]
  | .wide => ["--64bit"]
  | .verbose => ["-v", "--verbose"]
  | .version => ["--version"]

/-- Whether an option has a value. -/
def takesValue : Switch → Bool
  | .format | .output => true
  | _ => false

/-- How an option is called in a message. -/
def title (switch : Switch) : String := String.intercalate "/" switch.spellings

/-- The spellings with their options. -/
def spelled : List (String × Switch) :=
  all.flatMap fun switch => switch.spellings.map (·, switch)

/-- The option of a spelling. -/
def ofSpelling? (spelling : String) : Option Switch := spelled.lookup spelling

end Switch

/-! ## Usage and help -/

/-- The name and the version of the command. -/
def versionText : String := "defgen 0.1.0\n"

/-- **The usage** of the command. -/
def usageText : String :=
  "usage: defgen [-h] [-f \x7bwebidl,typescript\x7d] [-o OUTPUT] [--64bit] [-v]\n"
    ++ "              [--version]\n"
    ++ "              graph\n"

/-- **The help** of the command. -/
def helpText : String :=
  usageText ++ "\n"
    ++ "Generate WebIDL or TypeScript definitions from a module export graph\n"
    ++ "\n"
    ++ "positional arguments:\n"
    ++ "  graph                 Path to the export graph (.json, .yaml, .yml)\n"
    ++ "\n"
    ++ "options:\n"
    ++ "  -h, --help            show this help message and exit\n"
    ++ "  -f \x7bwebidl,typescript\x7d, --format \x7bwebidl,typescript\x7d\n"
    ++ "                        Output format (default: typescript)\n"
    ++ "  -o OUTPUT, --output OUTPUT\n"
    ++ "                        Output file (default: stdout)\n"
    ++ "  --64bit               Force 64-bit representation of pointer-sized types\n"
    ++ "  -v, --verbose         Enable debug logging\n"
    ++ "  --version             show program's version number and exit\n"

/-! ## Arguments that are not accepted -/

/-- **Why arguments are not accepted.** -/
inductive UsageError
  /-- No graph is named. -/
  | missingGraph
  /-- There are arguments that mean nothing. -/
  | unrecognized (texts : List String)
  /-- No dialect has the name that is given as format. -/
  | unknownDialect (name : String)
  /-- An option stands without its value. -/
  | missingValue (switch : Switch)
  /-- An option that has no value stands with one. -/
  | needlessValue (switch : Switch) (value : String)
  /-- An argument shortens several options. -/
  | ambiguous (text : String) (spellings : List String)
deriving DecidableEq, Repr

namespace UsageError

/-- A sentence about an option. -/
def about (switch : Switch) (sentence : String) : String :=
  "argument " ++ switch.title ++ ": " ++ sentence

/-- Words with commas between them. -/
def listed (words : List String) : String := String.intercalate ", " words

/-- **The sentence about arguments** that are not accepted. -/
def message : UsageError → String
  | .missingGraph => "the following arguments are required: graph"
  | .unrecognized texts => "unrecognized arguments: " ++ String.intercalate " " texts
  | .unknownDialect name =>
    let choices := listed (Dialect.all.map fun dialect => quoted dialect.name)
    about .format s!"invalid choice: {quoted name} (choose from {choices})"
  | .missingValue switch => about switch "expected one argument"
  | .needlessValue switch value => about switch s!"ignored explicit argument {quoted value}"
  | .ambiguous text spellings =>
    s!"ambiguous option: {text} could match {listed spellings}"

end UsageError

end ModuleSurface
