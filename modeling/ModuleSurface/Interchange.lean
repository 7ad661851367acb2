import ModuleSurface.Json.Reader
import ModuleSurface.Json.Writer
import ModuleSurface.Schema.Decode
import ModuleSurface.Schema.Encode
import ModuleSurface.Yaml.Reader
import ModuleSurface.Yaml.Writer

/-! # Graphs as text

A graph is exchanged as the JSON or the YAML text of its document. JSON cannot express that a map is
shared, so a shared element is written out at every place where it is referred to, and a graph that
contains itself cannot be written. -/

namespace ModuleSurface

/-- **Why a text was not read as a graph.** -/
inductive LoadError
  /-- The text is no JSON. -/
  | json (what : Json.Offence) (place : Nat) (text : String)
  /-- The text is JSON with an integer of more digits than are read. -/
  | integerTooLong
  /-- The text is no YAML, or holds values that cannot be made. -/
  | yaml (cause : Yaml.ReadError)
  /-- The document is no graph. -/
  | document (cause : DecodeError) (store : Store)

namespace LoadError

/-- **The sentence about a text** that is no graph. What is no fault of the format, such as a number
out of range, has no sentence. -/
def message? : LoadError → Option String
  | .json what place text => some ("Invalid JSON: " ++ what.message text place)
  | .yaml .malformed => some "Invalid YAML"
  | .document (.format cause) store => cause.message? store
  | .document (.outOfRange _) _ | .document .nestedTooDeep _ | .integerTooLong | .yaml _ => none

end LoadError

namespace Graph

/-- Reading a document as a graph, with the store in which a fault is to be seen. -/
def load (document : Document) : Except LoadError Graph :=
  (ofDocument document).mapError fun cause => .document cause document.store

/-- **Reading a graph from JSON.** -/
def ofJson (text : String) : Except LoadError Graph :=
  match Json.read text with
  | .ok tree => load (Document.ofTree tree)
  | .error (.offence what place) => .error (.json what place text)
  | .error (.integerTooLong _) => .error .integerTooLong

/-- **Reading a graph from YAML.** -/
def ofYaml (text : String) : Except LoadError Graph :=
  match Yaml.read text with
  | .ok document => load document
  | .error cause => .error (.yaml cause)

/-- **Writing a graph as JSON.** -/
def toJson (graph : Graph) : Except UnfoldError String := graph.toDocument.unfold.map Json.write

/-- **Writing a graph as YAML**; an integer may have more digits than are written. -/
def toYaml (graph : Graph) : Except UnfoldError String :=
  match Yaml.write? graph.toDocument with
  | none => .error .integerTooLong
  | some text => .ok text

end Graph

end ModuleSurface
