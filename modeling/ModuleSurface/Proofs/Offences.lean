import ModuleSurface.Proofs.Demands

/-! # What stands against a rendering

A graph that was read from a document is rendered unless something that is live stands against it:
an enum value where declarations are asked for, or a type without a spelling. This file says so
without a walk, and says which of the offences a failure names: the first one in the order in which
the declarations are written.

* **`Graph.Renderable`** — nothing stands against rendering a graph.
* **`Graph.Printable`** — nothing else can stand against an element: what it prints are texts, and
  its integers are not too long.
* **`Graph.render_of_ofDocument`** — a graph is rendered exactly when it is renderable, and a
  failure is the first offence. -/

namespace ModuleSurface

namespace Graph

/-- **What can be printed** of an element in a dialect: its name, the name of its base, the names of
its parameters and the keys of its values are texts, its types stand for something and spell
something, and its integers are not too long. -/
structure Printable (graph : Graph) (dialect : Dialect) (h : Handle) : Prop where
  name : graph.isEnumValue h = false → (graph.element h).name.text?.isSome = true
  types : ∀ type ∈ graph.types dialect h, ∃ t, type = some t ∧ t.spelling?.isSome = true
  parameters {signature : Signature} : (graph.element h).body = .function signature →
    ∀ name ∈ signature.parameterNames, name.text?.isSome = true
  constant {type : Option ValueType} {n : Int} : dialect = .webidl →
    (graph.element h).flags.inlined = true →
    (graph.element h).body = .global type (some ⟨.integer, .int n⟩) → Writable n
  keys : (graph.element h).body = .enumeration →
    ∀ entry ∈ graph.enumValues (graph.element h).memberItems,
      (Value.scalar entry.1).text?.isSome = true
  values {n : Int} : (graph.element h).body = .enumeration →
    ∀ entry ∈ graph.enumValues (graph.element h).memberItems,
      (graph.element entry.2).flags.inlined = true →
      (graph.element entry.2).body = .enumValue (.int n) → Writable n
  base {links : ClassLinks} {b : Handle} : dialect = .typescript →
    (graph.element h).body.classLinks? = some links → links.base = some b →
    (graph.element b).name.text?.isSome = true

variable {graph : Graph} {dialect : Dialect} {h a : Handle} {forest : Forest Handle}

/-! ## What can be printed -/

/-- Where integers are not too long, `firstTooLong?` finds none of them. -/
theorem firstTooLong?_eq_none {integers : List Int} (h : ∀ n ∈ integers, Writable n) :
    firstTooLong? integers = none :=
  List.findSome?_eq_none_iff.mpr fun n hn => if_pos (h n hn)

/-- The integers of an element that can be printed are not too long. -/
theorem Printable.integers (hp : graph.Printable dialect h) :
    ∀ n ∈ graph.integers dialect h, Writable n := by
  intro n hn
  unfold Graph.integers at hn
  cases hbody : (graph.element h).body <;> simp only [hbody] at hn
  case global type constant =>
    split at hn
    case isFalse => exact absurd hn List.not_mem_nil
    case isTrue hinlined =>
      have hconstant : constant = some ⟨.integer, .int n⟩ := by
        unfold constantInteger? at hn
        split at hn
        · rw [Option.toList_some, List.mem_singleton] at hn
          rw [hn]
        · exact absurd hn List.not_mem_nil
      exact hp.constant hinlined.1 hinlined.2 (hconstant ▸ hbody)
  case enumeration =>
    obtain ⟨entry, hentry, hinteger⟩ := List.mem_filterMap.mp hn
    unfold entryInteger? at hinteger
    split at hinteger
    case h_1 m hinlined hvalue =>
      cases hinteger
      exact hp.values hbody entry hentry hinlined hvalue
    case h_2 => cases hinteger
  all_goals exact absurd hn List.not_mem_nil

/-- What an element that can be printed prints are texts, unless it is refused. -/
theorem Printable.words (hp : graph.Printable dialect h) (hvalue : graph.isEnumValue h = false) :
    AllTexts (graph.words dialect h) := by
  have hname := hp.name hvalue
  have hbase {links : ClassLinks} (hlinks : (graph.element h).body.classLinks? = some links) :
      AllTexts (graph.baseName dialect links) := by
    unfold baseName
    split
    case isFalse => exact allTexts_nil
    case isTrue hdialect =>
      cases hb : links.base with
      | none => exact allTexts_nil
      | some b => simp [hp.base hdialect hlinks hb]
  cases hbody : (graph.element h).body <;> simp only [Graph.words, names, Graph.keys, hbody]
  case enumeration =>
    rw [allTexts_append]
    refine ⟨by simp [hname], fun word hword => ?_⟩
    obtain ⟨entry, hentry, rfl⟩ := List.mem_map.mp hword
    exact hp.keys hbody entry hentry
  case function signature =>
    have hparameters : AllTexts signature.parameterNames := hp.parameters hbody
    simp [hname, hparameters]
  case classType links => simp [hname, hbase (by rw [hbody]; rfl)]
  case interfaceType links => simp [hname, hbase (by rw [hbody]; rfl)]
  case nameSpace => split <;> simp [hname]
  all_goals simp [hname]

/-- The demands of what can be printed are refused for its items only: `firstRefusal?` is
`firstOffence?`. -/
theorem Printable.firstRefusal? (hp : graph.Printable dialect h) :
    graph.firstRefusal? dialect (graph.demands dialect h)
      = graph.firstOffence? dialect (graph.items dialect h) := by
  rw [firstRefusal?_demands, firstTooLong?_eq_none hp.integers, Option.or_none]

/-- So are those of several elements. -/
theorem firstRefusal?_of_printable {handles : List Handle}
    (hp : ∀ a ∈ handles, graph.Printable dialect a) :
    graph.firstRefusal? dialect (handles.flatMap (graph.demands dialect))
      = graph.firstOffence? dialect (handles.flatMap (graph.items dialect)) := by
  induction handles with
  | nil => rfl
  | cons a handles ih =>
    rw [List.forall_mem_cons] at hp
    rw [List.flatMap_cons, List.flatMap_cons, firstRefusal?_append, firstOffence?_append,
      hp.1.firstRefusal?, ih hp.2]

/-- Where no item is an offence, what is printed are texts. -/
theorem allTexts_of_printable {handles : List Handle}
    (hp : ∀ a ∈ handles, graph.Printable dialect a)
    (hnone : graph.firstOffence? dialect (handles.flatMap (graph.items dialect)) = none) :
    AllTexts (handles.flatMap (graph.words dialect)) := by
  intro word hword
  obtain ⟨a, ha, hword⟩ := List.mem_flatMap.mp hword
  have hvalue : graph.isEnumValue a = false := by
    by_contra hvalue
    have hitem : Item.element a ∈ handles.flatMap (graph.items dialect) :=
      List.mem_flatMap.mpr ⟨a, ha, by simp [items, hvalue]⟩
    have hoffence := List.findSome?_eq_none_iff.mp hnone _ hitem
    cases hoffence
  exact (hp a ha).words hvalue word hword

/-- **The opening lines of what is reached** are written unless `firstOffence?` finds an item that
stands against it. -/
theorem settles_opening (hp : graph.Printable dialect h)
    (hsound : ∀ a, (graph.element a).body.Sound)
    (hdeclarable : graph.isEnumValue h = true ∨ (graph.element h).body.sort? ≠ none) :
    Settles TextLines (graph.firstOffence? dialect (graph.items dialect h))
      (graph.opening dialect h) := by
  rw [← hp.firstRefusal?]
  cases hvalue : graph.isEnumValue h with
  | true => exact settles_enumValue hvalue _
  | false =>
    refine (settles_demands dialect hsound hdeclarable).mono fun lines hlines => ?_
    exact hlines.mpr (hp.words hvalue)

/-- **The lines of a forest** are written unless an item of one of its elements stands against it;
the first one in preorder counts. -/
theorem settles_lines (hsound : ∀ a, (graph.element a).body.Sound)
    (hp : ∀ a ∈ forest.preorder, graph.Printable dialect a)
    (hdeclarable : ∀ a ∈ forest.preorder,
      graph.isEnumValue a = true ∨ (graph.element a).body.sort? ≠ none) (level : Nat) :
    Settles TextLines (graph.firstOffence? dialect (forest.preorder.flatMap (graph.items dialect)))
      (graph.lines dialect level forest) := by
  have hsettles := settles_forest dialect hsound hdeclarable level
  rw [firstRefusal?_of_printable hp] at hsettles
  cases hfirst : graph.firstOffence? dialect (forest.preorder.flatMap (graph.items dialect)) with
  | none =>
    rw [hfirst] at hsettles
    exact hsettles.mono fun lines hlines => hlines.mpr (allTexts_of_printable hp hfirst)
  | some cause =>
    rw [hfirst] at hsettles
    generalize graph.lines dialect level forest = out at hsettles
    cases hsettles
    exact .fails

/-- **A rendering** of a well-sorted graph with sound bodies is stopped by the first offence of what
is reached, and by nothing else. -/
theorem settles_render (hs : graph.WellSorted) (hsound : ∀ a, (graph.element a).body.Sound)
    (hp : ∀ a, Reached (graph.next dialect) graph.roots a → graph.Printable dialect a)
    (hforest : DepthFirst (graph.next dialect) [] graph.roots forest) :
    Settles (fun _ => True)
      (graph.firstOffence? dialect (forest.preorder.flatMap (graph.items dialect)))
      (graph.render dialect) := by
  have hsettles := settles_render_of_demands hs hsound hforest
  have hprintable : ∀ a ∈ forest.preorder, graph.Printable dialect a :=
    fun a ha => hp a (hforest.mem_preorder_iff.mp ha)
  rw [firstRefusal?_of_printable hprintable] at hsettles
  cases hfirst : graph.firstOffence? dialect (forest.preorder.flatMap (graph.items dialect)) with
  | none =>
    rw [hfirst, notText?, if_pos (allTexts_of_printable hprintable hfirst)] at hsettles
    exact hsettles
  | some cause =>
    rw [hfirst] at hsettles
    exact hsettles

/-! ## Renderable graphs -/

/-- **A live element**: one that is reached from the exports through compiled members and instances
that the dialect goes on to. Enum values are never live. -/
def Live (graph : Graph) (dialect : Dialect) (h : Handle) : Prop :=
  Reached (graph.next dialect) graph.roots h ∧ (graph.element h).kind ≠ .enumValue

/-- Whether declarations are asked for at all members of elements of a kind. -/
def opensMembers (dialect : Dialect) : ElementKind → Prop
  | .nameSpace | .function => True
  | .global => dialect = .typescript
  | _ => False

/-- **Nothing stands against rendering a graph**: no enum value is exported, or is a member of a
live namespace or function, or in TypeScript of a live global, and all types of live elements are
plain and have a spelling. -/
structure Renderable (graph : Graph) (dialect : Dialect) : Prop where
  exports : ∀ entry ∈ graph.exports, (graph.element entry.2).kind ≠ .enumValue
  members (h : Handle) : graph.Live dialect h → opensMembers dialect (graph.element h).kind →
    ∀ entry ∈ (graph.element h).memberItems, (graph.element entry.2).kind ≠ .enumValue
  types (h : Handle) : graph.Live dialect h → ∀ type ∈ graph.types dialect h,
    ∃ t, type = some t ∧ t.isReference = false ∧
      (dialect.spelling? (t.kind.resolve graph.is64Bit)).isSome = true

/-- **What an item is blamed for**: an element for being what it is, and a type for being a
reference or for its kind. -/
inductive Blames (graph : Graph) (dialect : Dialect) : Item → RenderError → Prop
  | element (h : Handle) :
    Blames graph dialect (.element h)
      (.unsupportedElement (graph.element h).kind (graph.element h).name)
  | reference {t : ValueType} {spelling : String} (href : t.isReference = true)
      (hspelling : t.spelling? = some spelling) :
    Blames graph dialect (.type (some t)) (.referenceType spelling)
  | kind {t : ValueType} (hplain : t.isReference = false) :
    Blames graph dialect (.type (some t)) (.unspelledKind dialect (t.kind.resolve graph.is64Bit))

/-- The sentence about an item; the store is that of the graph. -/
def complaint? (graph : Graph) (dialect : Dialect) : Item → Option String
  | .element h => (graph.store.inSentence? (graph.element h).name).map fun name =>
    s!"Cannot render element '{name}' of kind {(graph.element h).kind.name}"
  | .type none => none
  | .type (some t) =>
    if t.isReference then
      t.spelling?.map fun spelling =>
        s!"Reference-typed value '{spelling}' has no primitive spelling"
    else some s!"No {dialect.title} spelling for type {(t.kind.resolve graph.is64Bit).name}"

/-- A failure is reported by the sentence about the item that is blamed, its `complaint?`. -/
theorem Blames.message? {item : Item} {cause : RenderError} (h : graph.Blames dialect item cause) :
    cause.message? graph.store = graph.complaint? dialect item := by
  cases h with
  | element a => rfl
  | reference href hspelling => simp [RenderError.message?, complaint?, href, hspelling]
  | kind hplain => simp [RenderError.message?, complaint?, hplain]

/-- A type has a spelling if it is plain and of a kind that `spelling?` knows. -/
theorem offence?_type_eq_none_iff (type : Option ValueType) :
    graph.offence? dialect (.type type) = none ↔ ∃ t, type = some t ∧ t.isReference = false ∧
      (dialect.spelling? (t.kind.resolve graph.is64Bit)).isSome = true := by
  cases type with
  | none => simp [offence?, Dialect.spellType]
  | some t =>
    simp only [offence?, Dialect.spellType, Option.some.injEq]
    by_cases hreference : t.isReference = true
    · cases t.spelling? <;> simp [hreference]
    · cases hspelling : dialect.spelling? (t.kind.resolve graph.is64Bit) <;>
        simp [hreference, hspelling]

/-- An offence `Blames` its item, if types stand for something and spell something. -/
theorem blames_of_offence? {item : Item} {cause : RenderError}
    (h : graph.offence? dialect item = some cause)
    (htype : ∀ type, item = .type type → ∃ t, type = some t ∧ t.spelling?.isSome = true) :
    graph.Blames dialect item cause := by
  cases item with
  | element a =>
    cases h
    exact .element a
  | type type =>
    obtain ⟨t, rfl, hspelling⟩ := htype type rfl
    obtain ⟨spelled, hspelled⟩ := Option.isSome_iff_exists.mp hspelling
    simp only [offence?, Dialect.spellType] at h
    cases hreference : t.isReference with
    | true =>
      simp only [hreference, if_true, hspelled, Option.some.injEq] at h
      subst h
      exact .reference hreference hspelled
    | false =>
      cases hkind : dialect.spelling? (t.kind.resolve graph.is64Bit) with
      | some spelling => simp [hreference, hkind] at h
      | none =>
        simp only [hreference, hkind, Bool.false_eq_true, if_false, Option.some.injEq] at h
        subst h
        exact .kind hreference

/-- In a well-sorted graph an enum value is declared only for itself. -/
theorem WellSorted.enumValue_of_resolved (hs : graph.WellSorted) {m a : Handle}
    (ha : a ∈ graph.resolved m) (hkind : (graph.element a).kind = .enumValue) : a = m := by
  unfold resolved at ha
  cases hbody : (graph.element m).body <;> rw [hbody] at ha
  case functionPrototype instances =>
    have := hs.functions hbody a (List.mem_filter.mp ha).1
    rw [hkind] at this
    cases this
  case classPrototype instances =>
    have := hs.classes hbody a (List.mem_filter.mp ha).1
    rw [hkind] at this
    cases this
  case enumValue value => exact List.mem_singleton.mp ha
  all_goals
    simp only at ha
    split at ha
    · exact List.mem_singleton.mp ha
    · simp at ha

/-- Where declarations are asked for at all members, as `opensMembers` has it, those are what a
declaration goes on to. -/
theorem expanded_of_opensMembers (h : opensMembers dialect (graph.element a).kind) :
    graph.expanded dialect a = (graph.element a).memberItems.map (·.2) := by
  unfold expanded
  cases hbody : (graph.element a).body <;>
    simp [Element.kind, hbody, Body.kind, opensMembers] at h ⊢
  exact fun hdialect => absurd h hdialect

/-- An enum value that a declaration goes on to is a member where declarations are asked for. -/
theorem opensMembers_of_expanded {m : Handle} (hm : m ∈ graph.expanded dialect a)
    (hkind : (graph.element m).kind = .enumValue) :
    opensMembers dialect (graph.element a).kind ∧ (graph.element a).kind ≠ .enumValue ∧
      ∃ entry ∈ (graph.element a).memberItems, entry.2 = m := by
  unfold expanded at hm
  cases hbody : (graph.element a).body <;> simp only [hbody] at hm <;>
    simp only [Element.kind, hbody, Body.kind, opensMembers]
  case global type constant =>
    split at hm
    · rename_i hdialect
      obtain ⟨entry, hentry, rfl⟩ := List.mem_map.mp hm
      exact ⟨hdialect, by simp, entry, hentry, rfl⟩
    · simp at hm
  -- an enum goes on to its other members, and those are no enum values
  case enumeration =>
    obtain ⟨entry, hentry, rfl⟩ := List.mem_map.mp hm
    have := (List.mem_filter.mp hentry).2
    simp [isEnumValue, hkind] at this
  case function signature =>
    obtain ⟨entry, hentry, rfl⟩ := List.mem_map.mp hm
    exact ⟨trivial, by simp, entry, hentry, rfl⟩
  case nameSpace =>
    obtain ⟨entry, hentry, rfl⟩ := List.mem_map.mp hm
    exact ⟨trivial, by simp, entry, hentry, rfl⟩
  all_goals simp at hm

/-- No enum value is reached exactly when none is exported and none is a member where declarations
are asked for. -/
theorem WellSorted.no_enumValue_iff (hs : graph.WellSorted) :
    (∀ a, Reached (graph.next dialect) graph.roots a → (graph.element a).kind ≠ .enumValue) ↔
      (∀ entry ∈ graph.exports, (graph.element entry.2).kind ≠ .enumValue) ∧
      ∀ h, graph.Live dialect h → opensMembers dialect (graph.element h).kind →
        ∀ entry ∈ (graph.element h).memberItems, (graph.element entry.2).kind ≠ .enumValue := by
  constructor
  · intro hnone
    refine ⟨fun entry hentry hkind => ?_, fun h hlive hopens entry hentry hkind => ?_⟩
    · refine hnone entry.2 (.root (List.mem_flatMap.mpr ⟨entry, hentry, ?_⟩)) hkind
      rw [resolved_of_enumValue hkind]
      exact List.mem_singleton_self _
    · refine hnone entry.2 (hlive.1.step (List.mem_flatMap.mpr ⟨entry.2, ?_, ?_⟩)) hkind
      · rw [expanded_of_opensMembers hopens]
        exact List.mem_map_of_mem hentry
      · rw [resolved_of_enumValue hkind]
        exact List.mem_singleton_self _
  · rintro ⟨hexports, hmembers⟩ a hreached hkind
    cases hreached with
    | root hroot =>
      obtain ⟨entry, hentry, hroot⟩ := List.mem_flatMap.mp hroot
      obtain rfl := hs.enumValue_of_resolved hroot hkind
      exact hexports entry hentry hkind
    | @step b _ before hnext =>
      obtain ⟨m, hm, hnext⟩ := List.mem_flatMap.mp hnext
      obtain rfl := hs.enumValue_of_resolved hnext hkind
      obtain ⟨hopens, hlive, entry, hentry, rfl⟩ := opensMembers_of_expanded hm hkind
      exact hmembers b ⟨before, hlive⟩ hopens entry hentry hkind

/-- **A well-sorted graph is renderable** exactly when no item of what is reached is an offence:
`firstOffence?` answers `none` where `Renderable` holds. -/
theorem WellSorted.renderable_iff (hs : graph.WellSorted) {forest : Forest Handle}
    (hforest : DepthFirst (graph.next dialect) [] graph.roots forest) :
    graph.firstOffence? dialect (forest.preorder.flatMap (graph.items dialect)) = none ↔
      graph.Renderable dialect := by
  rw [firstOffence?, List.findSome?_eq_none_iff]
  constructor
  · intro hnone
    have hitems : ∀ a, Reached (graph.next dialect) graph.roots a →
        ∀ item ∈ graph.items dialect a, graph.offence? dialect item = none :=
      fun a ha item hitem => hnone item
        (List.mem_flatMap.mpr ⟨a, hforest.mem_preorder_iff.mpr ha, hitem⟩)
    have hvalues : ∀ a, Reached (graph.next dialect) graph.roots a →
        (graph.element a).kind ≠ .enumValue := by
      intro a ha hkind
      have := hitems a ha (.element a) (by simp [items, isEnumValue, hkind])
      cases this
    obtain ⟨hexports, hmembers⟩ := hs.no_enumValue_iff.mp hvalues
    refine ⟨hexports, hmembers, fun a hlive type htype => ?_⟩
    refine (offence?_type_eq_none_iff type).mp (hitems a hlive.1 (.type type) ?_)
    simp [items, isEnumValue, hlive.2, htype]
  · intro hrenderable item hitem
    obtain ⟨a, ha, hitem⟩ := List.mem_flatMap.mp hitem
    have hreached := hforest.mem_preorder_iff.mp ha
    have hkind := hs.no_enumValue_iff.mpr ⟨hrenderable.exports, hrenderable.members⟩ a hreached
    simp only [items, isEnumValue, hkind, decide_false] at hitem
    obtain ⟨type, htype, rfl⟩ := List.mem_map.mp hitem
    exact (offence?_type_eq_none_iff type).mpr (hrenderable.types a ⟨hreached, hkind⟩ type htype)

/-- The bodies of a sound graph are sound, also where a handle stands for nothing. -/
theorem Sound.body (hsound : graph.Sound) (h : Handle) : (graph.element h).body.Sound := by
  by_cases hsize : h < graph.size
  · exact (hsound.elements h hsize).body
  · rw [element_of_size_le (Nat.le_of_not_lt hsize)]
    trivial

/-- **A graph that was read is rendered exactly when it is renderable**, if what is reached in it
can be printed. Otherwise the failure blames the first offence in the order of writing, and its
message is the sentence about that item. -/
theorem render_of_ofDocument {document : Document} (hread : ofDocument document = .ok graph)
    (hp : ∀ a, Reached (graph.next dialect) graph.roots a → graph.Printable dialect a) :
    ((∃ text, graph.render dialect = .ok text) ↔ graph.Renderable dialect) ∧
      ∃ forest, DepthFirst (graph.next dialect) [] graph.roots forest ∧
        (¬ graph.Renderable dialect → ∃ before item after cause,
          forest.preorder.flatMap (graph.items dialect) = before ++ item :: after ∧
          (∀ other ∈ before, graph.offence? dialect other = none) ∧
          graph.offence? dialect item = some cause ∧ graph.Blames dialect item cause ∧
          graph.render dialect = .error cause ∧
          cause.message? graph.store = graph.complaint? dialect item) := by
  obtain ⟨hsound, -⟩ := sound_of_ofDocument hread
  have hs := hsound.wellSorted
  obtain ⟨forest, hforest⟩ := graph.exists_forest dialect
  have hsettles := settles_render hs hsound.body hp hforest
  have hrenderable := hs.renderable_iff hforest
  cases hfirst : graph.firstOffence? dialect (forest.preorder.flatMap (graph.items dialect)) with
  | none =>
    rw [hfirst] at hsettles
    have hgood := hrenderable.mp hfirst
    cases hrender : graph.render dialect with
    | error cause => rw [hrender] at hsettles; cases hsettles
    | ok text => exact ⟨by simp [hgood], forest, hforest, fun hbad => absurd hgood hbad⟩
  | some cause =>
    rw [hfirst] at hsettles
    have hbad : ¬ graph.Renderable dialect := fun hgood => by
      rw [hrenderable.mpr hgood] at hfirst
      cases hfirst
    obtain ⟨before, item, after, hitems, hoffence, hbefore⟩ :=
      List.findSome?_eq_some_iff.mp hfirst
    have hblames : graph.Blames dialect item cause := by
      refine blames_of_offence? hoffence ?_
      rintro type rfl
      have hmem : Item.type type ∈ forest.preorder.flatMap (graph.items dialect) := by
        rw [hitems]
        simp
      obtain ⟨a, ha, hmem⟩ := List.mem_flatMap.mp hmem
      unfold items at hmem
      split at hmem
      · simp at hmem
      · obtain ⟨_, htype, heq⟩ := List.mem_map.mp hmem
        cases heq
        exact (hp a (hforest.mem_preorder_iff.mp ha)).types type htype
    cases hrender : graph.render dialect with
    | ok text => rw [hrender] at hsettles; cases hsettles
    | error other =>
      rw [hrender] at hsettles
      cases hsettles
      exact ⟨by simp [hbad], forest, hforest, fun _ => ⟨before, item, after, cause, hitems, hbefore,
        hoffence, hblames, rfl, hblames.message?⟩⟩

/-- A document with a global of a vector type, and an enum value behind it. -/
def vectorDocument : Document where
  store := { lists := #[[.text "compiled"]], maps := #[
    [(.text "kind", .text "global"), (.text "flags", .list 0), (.text "type", .text "v128")],
    [(.text "kind", .text "enum_value")],
    [(.text "mask", .map 0), (.text "Red", .map 1)],
    [(.text "exports", .map 2)]] }
  root := .map 3

/-- The graph of the document. -/
def vectorGraph : Graph where
  store := vectorDocument.store
  elements := #[
    { name := .text "mask", flags := { compiled := true },
      body := .global (some (.plain .v128)) none },
    { name := .text "Red", body := .enumValue (.int 0) }]
  exports := [(.text "mask", 0), (.text "Red", 1)]

/-- The texts and numbers of `vectorGraph` can be printed. -/
theorem printable_vectorGraph (a : Handle) (ha : a = 0 ∨ a = 1) :
    vectorGraph.Printable .webidl a := by
  rcases ha with rfl | rfl
  · refine ⟨fun _ => by decide, ?_, nofun, nofun, nofun, nofun, nofun⟩
    intro type htype
    have htypes : vectorGraph.types .webidl 0 = [some (.plain .v128)] := rfl
    rw [htypes, List.mem_singleton] at htype
    exact ⟨.plain .v128, htype, rfl⟩
  · have htypes : vectorGraph.types .webidl 1 = [] := rfl
    exact ⟨nofun, by simp [htypes], nofun, nofun, nofun, nofun, nofun⟩

/-- The vector type is the first offence, before the enum value. -/
theorem render_of_ofDocument_vector :
    ofDocument vectorDocument = .ok vectorGraph ∧
      (∀ a, Reached (vectorGraph.next .webidl) vectorGraph.roots a →
        vectorGraph.Printable .webidl a) ∧
      vectorGraph.render .webidl = .error (.unspelledKind .webidl .v128) ∧
      ¬ vectorGraph.Renderable .webidl := by
  have hread : ofDocument vectorDocument = .ok vectorGraph := rfl
  have hp : ∀ a, Reached (vectorGraph.next .webidl) vectorGraph.roots a →
      vectorGraph.Printable .webidl a := by
    intro a ha
    have hplace : a = 0 ∨ a = 1 := by
      refine ha.mem_of_closed (S := fun b => b = 0 ∨ b = 1) ?_ ?_
      · decide
      · rintro a (rfl | rfl) <;> decide
    exact printable_vectorGraph a hplace
  have hrender : vectorGraph.render .webidl = .error (.unspelledKind .webidl .v128) := by
    decide +kernel
  refine ⟨hread, hp, hrender, fun hgood => ?_⟩
  obtain ⟨text, htext⟩ := (render_of_ofDocument hread hp).1.mpr hgood
  rw [hrender] at htext
  cases htext

end Graph

end ModuleSurface
