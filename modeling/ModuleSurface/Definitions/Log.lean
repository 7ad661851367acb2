import ModuleSurface.Definitions.Dialect
import ModuleSurface.Element

/-! # The log

What happens while definitions are built is logged as data; each entry has a level, the name of the
part that logs it, and a sentence. -/

namespace ModuleSurface

/-- **A log entry.** -/
inductive LogEntry
  /-- A walk comes to an export. -/
  | walking (key : Scalar) (kind : ElementKind)
  /-- A walk passes over an element that is not compiled. -/
  | skipping (kind : ElementKind) (name : Value)
  /-- Definitions are complete. -/
  | built (dialect : Dialect) (fragments elements : Nat)
  /-- Definitions are written to a file. -/
  | wrote (dialect : Dialect) (path : String)
  /-- The command failed. -/
  | failed (message : String)
deriving DecidableEq

namespace LogEntry

/-- The level of an entry. -/
def level : LogEntry → String
  | .walking .. | .skipping .. | .built .. => "DEBUG"
  | .wrote .. => "INFO"
  | .failed .. => "ERROR"

/-- Whether an entry is shown without asking for it. -/
def isError : LogEntry → Bool
  | .failed _ => true
  | _ => false

/-- The part of the program that logs an entry. -/
def source : LogEntry → String
  | .walking .. | .skipping .. => "defgen.walker"
  | .built .webidl .. => "defgen.backends.webidl"
  | .built .typescript .. => "defgen.backends.typescript"
  | .wrote .. | .failed .. => "defgen"

/-- The sentence of an entry; the store is that of the graph. There is none where it would show an
integer that is too long to be written. -/
def sentence? (store : Store) : LogEntry → Option String
  | .walking key kind =>
    (store.inSentence? (.scalar key)).map fun key => s!"Walking export {key} ({kind.name})"
  | .skipping kind name =>
    (store.inSentence? name).map fun name => s!"Skipping uncompiled {kind.name} {name}"
  | .built dialect fragments elements =>
    some s!"Built {dialect.title} definitions: {fragments} fragments, {elements} elements"
  | .wrote dialect path => some s!"Wrote {dialect.name} definitions to {path}"
  | .failed message => some message

/-- **The line of an entry**, if it has a sentence. -/
def line? (store : Store) (entry : LogEntry) : Option String :=
  (entry.sentence? store).map fun sentence =>
    entry.level ++ " " ++ entry.source ++ ": " ++ sentence

end LogEntry

end ModuleSurface
