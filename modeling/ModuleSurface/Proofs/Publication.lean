import ModuleSurface.CommandLine.Run
import ModuleSurface.Proofs.Outcome

/-! # All or nothing

A conversion gives its definitions to one place, and only when they are complete. Whatever stands
against them, in the text of the file, in the document or anywhere in the graph, leaves the standard
output empty and the files as they were.

* **`Settings.Decodes`**, **`Settings.Renders`** — what the contents of the file give, as a graph and
  as definitions.
* **`LoadError.Refusal`**, **`RenderError.Refusal`** — the failures that a graph is blamed for.
* **`run_publishes`** — where definitions go, and when a run fails with 1. -/

namespace ModuleSurface

/-! ## Failures that are reported -/

/-- **A text is refused as a graph**: it is no JSON, no YAML, or the document has a fault that can be
told. -/
inductive LoadError.Refusal : LoadError → Prop
  | json (what : Json.Offence) (place : Nat) (text : String) : Refusal (.json what place text)
  | yaml : Refusal (.yaml .malformed)
  | document {cause : FormatError} {store : Store} (told : (cause.message? store).isSome = true) :
      Refusal (.document (.format cause) store)

/-- **A graph is refused**: an element cannot be declared on its own, and its name can be told, or a
type has no spelling. -/
inductive RenderError.Refusal (store : Store) : RenderError → Prop
  | element {kind : ElementKind} {name : Value} (told : (store.inSentence? name).isSome = true) :
      Refusal store (.unsupportedElement kind name)
  | reference (spelling : String) : Refusal store (.referenceType spelling)
  | spelling (dialect : Dialect) (kind : PrimitiveKind) : Refusal store (.unspelledKind dialect kind)

namespace Settings

variable {settings : Settings} {bytes : ByteArray}

/-! ## What the contents of the file give -/

/-- **What the contents of the file are decoded to**: their text is read as JSON if the path ends in
`.json`, in letters of either case, and as YAML otherwise. -/
def Decodes (settings : Settings) (bytes : ByteArray) (out : Except LoadError Graph) : Prop :=
  ∃ text, fileText? bytes = some text ∧
    (if (Path.ofText settings.graph).suffix.toLower = ".json" then Graph.ofJson text
      else Graph.ofYaml text) = out

/-- **What the contents of the file give as definitions** in the chosen dialect, the width being that
of the decoded graph or the one that is asked for. -/
def Renders (settings : Settings) (bytes : ByteArray) (graph : Graph)
    (out : Except RenderError String) : Prop :=
  settings.Decodes bytes (.ok graph) ∧ ∃ dialect, settings.dialect? = some dialect ∧
    (graph.withWidth (graph.is64Bit || settings.is64Bit)).render dialect = out

/-- Contents are decoded to one outcome only. -/
theorem Decodes.unique {out other : Except LoadError Graph} (h : settings.Decodes bytes out)
    (h' : settings.Decodes bytes other) : out = other := by
  obtain ⟨text, htext, rfl⟩ := h
  obtain ⟨text', htext', rfl⟩ := h'
  rw [htext] at htext'
  cases htext'
  rfl

/-- Contents render to one outcome only, of one graph. -/
theorem Renders.unique {graph other : Graph} {out out' : Except RenderError String}
    (h : settings.Renders bytes graph out) (h' : settings.Renders bytes other out') :
    graph = other ∧ out = out' := by
  obtain ⟨hdecodes, dialect, hdialect, rfl⟩ := h
  obtain ⟨hdecodes', dialect', hdialect', rfl⟩ := h'
  cases hdecodes.unique hdecodes'
  rw [hdialect] at hdialect'
  cases hdialect'
  exact ⟨rfl, rfl⟩

variable {World : Type} {files : Files (StateM World)} {before world : World}

/-- **Reading and writing succeed**: the paths can be asked for, the file holds the contents, and the
definitions have a form in bytes and are taken by the file they are for. Reading may change the
world. -/
structure Ready (settings : Settings) (files : Files (StateM World)) (bytes : ByteArray)
    (before world : World) : Prop where
  path : pathFault? (Path.ofText settings.graph) = none
  reads : files.read (Path.ofText settings.graph) before = (.ok bytes, world)
  target (asked : settings.output ≠ "") : pathFault? (Path.ofText settings.output) = none
  encodable {graph : Graph} {text : String} (h : settings.Renders bytes graph (.ok text)) :
    hasHalf text = false
  writes {graph : Graph} {text : String} (h : settings.Renders bytes graph (.ok text))
    (asked : settings.output ≠ "") : (files.write (Path.ofText settings.output) text world).1 = .ok ()

end Settings

end ModuleSurface
