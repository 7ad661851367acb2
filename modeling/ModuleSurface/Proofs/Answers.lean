import ModuleSurface.Proofs.Agreement
import ModuleSurface.Proofs.Representation

/-! # Which renderings are answered

A rendering is answered by a text, or by a sentence about an element or a type that cannot be
rendered. Reading a document does not see to it: a type may be missing, a name or a reference may be
no text, and an integer may be of any length. Each of these breaks a rendering that comes to it
before anything else stands in its way. Nothing else does, where the keys of the document are texts.

* **`Graph.Answered`** — a rendering gives a text, or a failure that is told.
* **`Graph.Meets`**, **`Graph.Breaks`** — which demands are met, and which of the others break a
  rendering.
* **`Graph.answered_iff`** — a rendering is answered unless it comes to a demand that breaks it, or
  prints a name that is no text. -/

namespace ModuleSurface

/-! ## Keys -/

/-- **What a document holds**: what it is about, and the items and values in its lists and maps. -/
inductive Document.Holds (document : Document) : Value → Prop
  | root : Holds document document.root
  | item {ref : Nat} {v : Value} (h : v ∈ document.store.items ref) : Holds document v
  | value {ref : Nat} {entry : Scalar × Value} (h : entry ∈ document.store.entries ref) :
      Holds document entry.2

/-- **The keys of the maps of a document are texts.** -/
def Document.TextKeys (document : Document) : Prop :=
  ∀ ref, document.Holds (.map ref) →
    ∀ entry ∈ document.store.entries ref, (Value.scalar entry.1).text?.isSome = true

/-- It is enough that the keys of all maps of the store are texts. -/
theorem Document.textKeys_of_maps {document : Document}
    (h : ∀ entries ∈ document.store.maps.toList,
      ∀ entry ∈ entries, (Value.scalar entry.1).text?.isSome = true) : document.TextKeys := by
  intro ref _ entry hentry
  unfold Store.entries at hentry
  by_cases href : ref < document.store.maps.size
  · rw [Array.getD_eq_getD_getElem?, Array.getElem?_eq_getElem href, Option.getD_some] at hentry
    exact h _ (Array.mem_toList_iff.mpr (Array.getElem_mem href)) entry hentry
  · rw [Array.getD_eq_getD_getElem?, Array.getElem?_eq_none (Nat.le_of_not_lt href)] at hentry
    cases hentry

/-- A field that is a map is held. -/
theorem Document.holds_of_field {document : Document} {ref ref' : Nat} {name : String}
    (h : (document.store.entries ref).field name = .map ref') : document.Holds (.map ref') := by
  unfold Entries.field at h
  cases hfield : (document.store.entries ref).field? name with
  | none =>
    rw [hfield] at h
    cases h
  | some v =>
    rw [hfield] at h
    cases h
    obtain ⟨entry, hentry, hvalue⟩ := Option.map_eq_some_iff.mp hfield
    rw [← hvalue]
    exact .value (List.mem_of_find?_eq_some hentry)

namespace Graph

variable {graph : Graph} {dialect : Dialect} {document : Document}

/-- The keys of the members of a graph that was read are keys of maps of the document. -/
theorem isSome_text?_key (hread : ofDocument document = .ok graph) (hkeys : document.TextKeys)
    (h : Handle) :
    ∀ entry ∈ (graph.element h).memberItems, (Value.scalar entry.1).text?.isSome = true := by
  obtain ⟨forest, hrepresents⟩ := exists_represents hread
  by_cases hsize : h < graph.size
  · have hplace : h ∈ forest.refs.map forest.refs.idxOf := by
      rw [hrepresents.handles]
      exact List.mem_range.mpr hsize
    obtain ⟨r, hr, rfl⟩ := List.mem_map.mp hplace
    obtain ⟨visit, hvisit, rfl⟩ := List.mem_map.mp hr
    obtain ⟨hreads, helement⟩ := hrepresents.complete visit hvisit
    intro entry hentry
    rw [helement, Element.memberItems_map] at hentry
    obtain ⟨other, hother, rfl⟩ := List.mem_map.mp hentry
    have hmembers := hreads.members
    unfold Element.memberItems at hother
    cases hgiven : visit.element.members with
    | none =>
      rw [hgiven] at hother
      cases hother
    | some members =>
      rw [hgiven] at hmembers hother
      obtain ⟨ref, hfield, hentries⟩ := hmembers
      refine hkeys ref (Document.holds_of_field hfield) (other.1, .map other.2) ?_
      rw [hentries]
      exact List.mem_map_of_mem hother
  · rw [element_of_size_le (Nat.le_of_not_lt hsize)]
    intro entry hentry
    cases hentry

/-- With such keys an element prints only texts if its names are. -/
theorem allTexts_words_iff (hkeys : ∀ h, ∀ entry ∈ (graph.element h).memberItems,
      (Value.scalar entry.1).text?.isSome = true) (handles : List Handle) :
    AllTexts (handles.flatMap (graph.words dialect)) ↔
      AllTexts (handles.flatMap (graph.names dialect)) := by
  have htexts (h : Handle) : AllTexts (graph.keys h) := by
    unfold keys
    split
    · intro word hword
      obtain ⟨entry, hentry, rfl⟩ := List.mem_map.mp hword
      exact hkeys h entry (List.mem_filter.mp hentry).1
    · exact allTexts_nil
  induction handles with
  | nil => simp
  | cons h handles ih => simp [words, htexts h, ih]

/-! ## Demands that are met, and demands that break a rendering -/

/-- **Demands that are met**: a plain type of a kind with a spelling, and an integer that is not too
long. -/
inductive Meets (graph : Graph) (dialect : Dialect) : Demand → Prop
  | type {t : ValueType} (plain : t.isReference = false)
      (spelled : (dialect.spelling? (t.kind.resolve graph.is64Bit)).isSome = true) :
      Meets graph dialect (.item (.type (some t)))
  | integer {n : Int} (writable : Writable n) : Meets graph dialect (.integer n)

/-- **Demands that break a rendering**: a type that is missing, a reference by something that is no
text, an integer that is too long, and an element that may not be declared on its own, if its name
shows such an integer. -/
inductive Breaks (graph : Graph) : Demand → Prop
  | missing : Breaks graph (.item (.type none))
  | reference {t : ValueType} (reference : t.isReference = true) (unspelled : t.spelling? = none) :
      Breaks graph (.item (.type (some t)))
  | element {h : Handle} (untold : graph.store.inSentence? (graph.element h).name = none) :
      Breaks graph (.item (.element h))
  | integer {n : Int} (long : ¬ Writable n) : Breaks graph (.integer n)

/-- Nothing stands against a demand exactly when it is met: `refusal?` answers `none` where `Meets`
holds. -/
theorem refusal?_eq_none_iff {demand : Demand} :
    graph.refusal? dialect demand = none ↔ graph.Meets dialect demand := by
  constructor
  · intro hnone
    cases demand with
    | item item =>
      cases item with
      | element h => cases hnone
      | type type =>
        obtain ⟨t, rfl, hplain, hspelled⟩ := (offence?_type_eq_none_iff type).mp hnone
        exact .type hplain hspelled
    | integer n =>
      by_cases hwritable : Writable n
      · exact .integer hwritable
      · rw [refusal?, if_neg hwritable] at hnone
        cases hnone
  · intro hmeets
    cases hmeets with
    | @type t hplain hspelled => exact (offence?_type_eq_none_iff _).mpr ⟨t, rfl, hplain, hspelled⟩
    | integer hwritable => exact if_pos hwritable

/-- **A failure is told**: it is one that a graph can be blamed for, and has its sentence. -/
def Told (store : Store) (cause : RenderError) : Prop :=
  ∃ kind message, cause.failureClass? = some kind ∧ cause.message? store = some message

/-- Failures without a class are not told. -/
theorem not_told {store : Store} {cause : RenderError} (h : cause.failureClass? = none) :
    ¬ Told store cause := by
  rintro ⟨kind, message, hkind, -⟩
  rw [h] at hkind
  cases hkind

/-- What stands against a type that is there: a reference without a name, a reference with one, or a
kind that the dialect does not spell. -/
theorem offence?_type_cases {t : ValueType} {cause : RenderError}
    (h : graph.offence? dialect (.type (some t)) = some cause) :
    (t.isReference = true ∧ t.spelling? = none ∧ cause = .notText) ∨
      (∃ spelling, t.isReference = true ∧ t.spelling? = some spelling ∧
        cause = .referenceType spelling) ∨
      t.isReference = false ∧ cause = .unspelledKind dialect (t.kind.resolve graph.is64Bit) := by
  simp only [offence?, Dialect.spellType] at h
  cases hreference : t.isReference with
  | true =>
    rw [hreference, if_pos rfl] at h
    cases hspelling : t.spelling? with
    | none =>
      rw [hspelling] at h
      cases h
      exact .inl ⟨rfl, rfl, rfl⟩
    | some spelling =>
      rw [hspelling] at h
      cases h
      exact .inr (.inl ⟨spelling, rfl, rfl, rfl⟩)
  | false =>
    rw [hreference, if_neg Bool.false_ne_true] at h
    cases hkind : dialect.spelling? (t.kind.resolve graph.is64Bit) with
    | none =>
      rw [hkind] at h
      cases h
      exact .inr (.inr ⟨rfl, rfl⟩)
    | some spelling =>
      rw [hkind] at h
      cases h

/-- What stands against a type is told unless the type breaks the rendering, as `Breaks` has it. -/
theorem told_iff_type {t : ValueType} {cause : RenderError}
    (h : graph.offence? dialect (.type (some t)) = some cause) :
    Told graph.store cause ↔ ¬ graph.Breaks (.item (.type (some t))) := by
  rcases offence?_type_cases h with ⟨href, hnone, rfl⟩ | ⟨spelling, -, hsome, rfl⟩ | ⟨hplain, rfl⟩
  · exact iff_of_false (not_told rfl) fun hnot => hnot (.reference href hnone)
  · refine iff_of_true ⟨.type, _, rfl, rfl⟩ fun hbreaks => ?_
    cases hbreaks with
    | reference _ hnone =>
      rw [hsome] at hnone
      cases hnone
  · refine iff_of_true ⟨.type, _, rfl, rfl⟩ fun hbreaks => ?_
    cases hbreaks with
    | reference href _ =>
      rw [hplain] at href
      cases href

/-- The refusal of an element is told unless its name cannot be shown. -/
theorem told_iff_element (a : Handle) :
    Told graph.store (.unsupportedElement (graph.element a).kind (graph.element a).name) ↔
      ¬ graph.Breaks (.item (.element a)) := by
  cases hname : graph.store.inSentence? (graph.element a).name with
  | none =>
    refine iff_of_false ?_ fun hnot => hnot (.element hname)
    rintro ⟨kind, message, -, hmessage⟩
    rw [RenderError.message?, hname] at hmessage
    cases hmessage
  | some name =>
    refine iff_of_true ⟨.element, _, rfl, by rw [RenderError.message?, hname]; rfl⟩ fun hbreaks => ?_
    cases hbreaks with
    | element huntold =>
      rw [hname] at huntold
      cases huntold

/-- **What stands against a demand is told** unless the demand breaks the rendering: `Told` where
not `Breaks`. -/
theorem told_iff {demand : Demand} {cause : RenderError}
    (h : graph.refusal? dialect demand = some cause) :
    Told graph.store cause ↔ ¬ graph.Breaks demand := by
  match demand, h with
  | .item (.element a), h =>
    cases h
    exact told_iff_element a
  | .item (.type none), h =>
    cases h
    exact iff_of_false (not_told rfl) fun hnot => hnot .missing
  | .item (.type (some t)), h => exact told_iff_type h
  | .integer n, h =>
    rw [refusal?] at h
    split at h
    · cases h
    · rename_i hlong
      cases h
      exact iff_of_false (not_told rfl) fun hnot => hnot (.integer hlong)

/-- A demand that breaks a rendering is not met. -/
theorem Breaks.exists_refusal (dialect : Dialect) {demand : Demand} (h : graph.Breaks demand) :
    ∃ cause, graph.refusal? dialect demand = some cause := by
  refine Option.ne_none_iff_exists'.mp fun hnone => ?_
  cases refusal?_eq_none_iff.mp hnone with
  | type hplain _ =>
    cases h with
    | reference href _ =>
      rw [hplain] at href
      cases href
  | integer hwritable =>
    cases h with
    | integer hlong => exact hlong hwritable

/-! ## Answers -/

/-- **A rendering is answered** by a text, or by a failure that is told. -/
def Answered (graph : Graph) (dialect : Dialect) : Prop :=
  (∃ text, graph.render dialect = .ok text) ∨
    ∃ cause, graph.render dialect = .error cause ∧ Told graph.store cause

/-- **A rendering breaks off** along a forest of declarations: after demands that are all met it
comes to one that breaks it, or it meets all demands, but a name that it prints is no text. -/
inductive BreaksOff (graph : Graph) (dialect : Dialect) (forest : Forest Handle) : Prop
  | demand {before after : List Demand} {demand : Demand}
      (split : forest.preorder.flatMap (graph.demands dialect) = before ++ demand :: after)
      (met : ∀ other ∈ before, graph.Meets dialect other) (breaks : graph.Breaks demand)
  | name {word : Value}
      (met : ∀ demand ∈ forest.preorder.flatMap (graph.demands dialect), graph.Meets dialect demand)
      (printed : word ∈ forest.preorder.flatMap (graph.names dialect)) (given : word.text? = none)

variable {forest : Forest Handle}

/-- Nothing is refused exactly when all demands are met: `firstRefusal?` answers `none` where
`Meets` holds of each. -/
theorem firstRefusal?_eq_none_iff {demands : List Demand} :
    graph.firstRefusal? dialect demands = none ↔
      ∀ demand ∈ demands, graph.Meets dialect demand := by
  rw [firstRefusal?, List.findSome?_eq_none_iff]
  exact forall₂_congr fun _ _ => refusal?_eq_none_iff

/-- Where a demand breaks a rendering after others that are met, it is what the rendering is
refused for. -/
theorem firstRefusal?_of_breaks {before after : List Demand} {demand : Demand}
    (hmet : ∀ other ∈ before, graph.Meets dialect other) (hbreaks : graph.Breaks demand) :
    ∃ cause, graph.firstRefusal? dialect (before ++ demand :: after) = some cause ∧
      ¬ Told graph.store cause := by
  obtain ⟨cause, hcause⟩ := hbreaks.exists_refusal dialect
  refine ⟨cause, ?_, fun htold => (told_iff hcause).mp htold hbreaks⟩
  rw [firstRefusal?_append, firstRefusal?_eq_none_iff.mpr hmet, Option.none_or, firstRefusal?,
    List.findSome?_cons, hcause]

/-- A rendering that is refused is answered unless it breaks off, `BreaksOff dialect forest`. -/
theorem told_iff_not_breaksOff {cause : RenderError}
    (h : graph.firstRefusal? dialect (forest.preorder.flatMap (graph.demands dialect)) = some cause) :
    Told graph.store cause ↔ ¬ graph.BreaksOff dialect forest := by
  constructor
  · intro htold hbreaksOff
    cases hbreaksOff with
    | demand hsplit hmet hbreaks =>
      obtain ⟨other, hother, huntold⟩ := firstRefusal?_of_breaks hmet hbreaks
      rw [hsplit, hother] at h
      cases h
      exact huntold htold
    | name hmet _ _ =>
      rw [firstRefusal?_eq_none_iff.mpr hmet] at h
      cases h
  · intro hnot
    obtain ⟨before, demand, after, hsplit, hrefusal, hbefore⟩ := List.findSome?_eq_some_iff.mp h
    refine (told_iff hrefusal).mpr fun hbreaks => hnot (.demand hsplit (fun other hother => ?_) hbreaks)
    exact refusal?_eq_none_iff.mp (hbefore other hother)

/-- **A rendering of a well-sorted graph** with sound bodies, whose members are named by texts, is
answered unless it breaks off. -/
theorem answered_iff_of_sound (hs : graph.WellSorted) (hsound : ∀ a, (graph.element a).body.Sound)
    (hkeys : ∀ h, ∀ entry ∈ (graph.element h).memberItems,
      (Value.scalar entry.1).text?.isSome = true)
    (hforest : DepthFirst (graph.next dialect) [] graph.roots forest) :
    graph.Answered dialect ↔ ¬ graph.BreaksOff dialect forest := by
  have hsettles := settles_render_of_demands hs hsound hforest
  unfold Answered
  generalize graph.render dialect = out at hsettles ⊢
  cases hfirst : graph.firstRefusal? dialect (forest.preorder.flatMap (graph.demands dialect)) with
  | some cause =>
    rw [hfirst, Option.some_or] at hsettles
    cases hsettles
    simpa using told_iff_not_breaksOff hfirst
  | none =>
    have hmet := firstRefusal?_eq_none_iff.mp hfirst
    rw [hfirst, Option.none_or, notText?] at hsettles
    by_cases htexts : AllTexts (forest.preorder.flatMap (graph.words dialect))
    · rw [if_pos htexts] at hsettles
      cases hsettles with
      | ok _ =>
        refine iff_of_true (.inl ⟨_, rfl⟩) fun hbreaksOff => ?_
        cases hbreaksOff with
        | demand hsplit hmet' hbreaks =>
          obtain ⟨other, hother, -⟩ := firstRefusal?_of_breaks hmet' hbreaks
          rw [hsplit, hother] at hfirst
          cases hfirst
        | name _ hprinted hgiven =>
          have hword := (allTexts_words_iff hkeys _).mp htexts _ hprinted
          rw [hgiven] at hword
          cases hword
    · rw [if_neg htexts] at hsettles
      cases hsettles
      refine iff_of_false ?_ fun hnot => htexts ((allTexts_words_iff hkeys _).mpr ?_)
      · rintro (⟨text, htext⟩ | ⟨cause, hcause, htold⟩)
        · cases htext
        · cases hcause
          exact not_told rfl htold
      · intro word hword
        by_contra hgiven
        exact hnot (.name hmet hword (Option.not_isSome_iff_eq_none.mp hgiven))

/-- **A graph that was read is answered** in each dialect and for each addressing width, unless its
rendering breaks off, if the keys of the document are texts. `withWidth` sets the width. -/
theorem answered_iff (hread : ofDocument document = .ok graph) (hkeys : document.TextKeys)
    (is64Bit : Bool) (dialect : Dialect) :
    ∃ forest, DepthFirst ((graph.withWidth is64Bit).next dialect) []
        (graph.withWidth is64Bit).roots forest ∧
      ((graph.withWidth is64Bit).Answered dialect ↔
        ¬ (graph.withWidth is64Bit).BreaksOff dialect forest) := by
  obtain ⟨hsound, -⟩ := sound_of_ofDocument hread
  have hsound' : (graph.withWidth is64Bit).Sound := ⟨hsound.elements, hsound.exports⟩
  -- the members do not depend on the width
  have hmembers := isSome_text?_key hread hkeys
  obtain ⟨forest, hforest⟩ := (graph.withWidth is64Bit).exists_forest dialect
  exact ⟨forest, hforest,
    answered_iff_of_sound hsound'.wellSorted hsound'.body hmembers hforest⟩

/-- A document with a compiled namespace whose name is a number. -/
def numberedDocument : Document where
  store := { lists := #[[.text "compiled"]], maps := #[
    [(.text "kind", .text "namespace"), (.text "name", .int 5), (.text "flags", .list 0)],
    [(.text "five", .map 0)],
    [(.text "exports", .map 1)]] }
  root := .map 2

/-- The graph of the document. -/
def numberedGraph : Graph where
  store := numberedDocument.store
  elements := #[{ name := .int 5, flags := { compiled := true }, body := .nameSpace }]
  exports := [(.text "five", 0)]

/-- The rendering of `numberedGraph` meets all demands, and breaks off at the name. -/
theorem answered_iff_numbered :
    ofDocument numberedDocument = .ok numberedGraph ∧ numberedDocument.TextKeys ∧
      numberedGraph.render .webidl = .error .notText ∧
      ∃ forest, DepthFirst (numberedGraph.next .webidl) [] numberedGraph.roots forest ∧
        numberedGraph.BreaksOff .webidl forest := by
  have hread : ofDocument numberedDocument = .ok numberedGraph := rfl
  have hkeys : numberedDocument.TextKeys := Document.textKeys_of_maps (by decide)
  have hrender : numberedGraph.render .webidl = .error .notText := by decide +kernel
  obtain ⟨forest, hforest, hiff⟩ := answered_iff hread hkeys false .webidl
  refine ⟨hread, hkeys, hrender, forest, hforest, not_not.mp fun hnot => ?_⟩
  rcases hiff.mpr hnot with ⟨text, htext⟩ | ⟨cause, hcause, htold⟩
  · exact absurd (hrender.symm.trans htext) nofun
  · cases hrender.symm.trans hcause
    exact not_told rfl htold

/-- A document with a compiled global whose type is null. -/
def untypedDocument : Document where
  store := { lists := #[[.text "compiled"]], maps := #[
    [(.text "kind", .text "global"), (.text "flags", .list 0), (.text "type", .null)],
    [(.text "g", .map 0)],
    [(.text "exports", .map 1)]] }
  root := .map 2

/-- The graph of the document. -/
def untypedGraph : Graph where
  store := untypedDocument.store
  elements := #[{ name := .text "g", flags := { compiled := true }, body := .global none none }]
  exports := [(.text "g", 0)]

/-- **Not every graph that was read is answered**: `untypedGraph` has no type, which is let through.
-/
theorem not_answered_untyped :
    ofDocument untypedDocument = .ok untypedGraph ∧ untypedDocument.TextKeys ∧
      untypedGraph.render .webidl = .error .typeMissing ∧ ¬ untypedGraph.Answered .webidl := by
  have hrender : untypedGraph.render .webidl = .error .typeMissing := by decide +kernel
  refine ⟨rfl, Document.textKeys_of_maps (by decide), hrender, ?_⟩
  rintro (⟨text, htext⟩ | ⟨cause, hcause, htold⟩)
  · exact absurd (hrender.symm.trans htext) nofun
  · cases hrender.symm.trans hcause
    exact not_told rfl htold

end Graph

end ModuleSurface
