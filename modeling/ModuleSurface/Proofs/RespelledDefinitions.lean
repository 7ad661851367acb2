import ModuleSurface.Proofs.Likeness
import ModuleSurface.Proofs.Refusals
import ModuleSurface.Proofs.RespelledReading
import ModuleSurface.Proofs.Walk

/-! # The definitions of other spellings

Graphs that are alike handle by handle declare the same elements in the same order, and what is
declared looks alike. So they have the same definitions, or fail alike: only a name that is told in a
message may be kept in other places, and it is told in the same words.

* **`Graph.Alike.render`** — graphs that are alike have the same definitions.
* **`Graph.ofDocument_of_respells`** — other spellings of a document have the same definitions. -/

namespace ModuleSurface

/-- **Two failures are alike**: they are the same and show no value, or an element of one kind is
refused under names that are the same data. -/
inductive RenderError.Alike (same : Value → Value → Prop) : RenderError → RenderError → Prop
  | equal {cause : RenderError} (plain : ∀ kind name, cause ≠ .unsupportedElement kind name) :
      Alike same cause cause
  | unsupported (kind : ElementKind) {name name' : Value} (names : same name name') :
      Alike same (.unsupportedElement kind name) (.unsupportedElement kind name')

/-- **Two attempts end alike**: with the same result, or with failures that are alike. -/
inductive EndsAlike {α : Type} (same : Value → Value → Prop) :
    Except RenderError α → Except RenderError α → Prop
  | ok (a : α) : EndsAlike same (.ok a) (.ok a)
  | error {cause cause' : RenderError} (causes : cause.Alike same cause') :
      EndsAlike same (.error cause) (.error cause')

namespace EndsAlike

variable {α β : Type} {same : Value → Value → Prop}

/-- What refuses no element ends like itself. -/
theorem of_not_refuses {x : Except RenderError α} (h : ¬ Refuses x) : EndsAlike same x x := by
  cases x with
  | ok a => exact .ok a
  | error cause =>
    refine .error (.equal ?_)
    rintro kind name rfl
    exact h ⟨kind, name, rfl⟩

/-- A step after a step ends alike when both do. -/
theorem bind {x y : Except RenderError α} {f g : α → Except RenderError β}
    (h : EndsAlike same x y) (hf : ∀ a, x = .ok a → EndsAlike same (f a) (g a)) :
    EndsAlike same (x >>= f) (y >>= g) := by
  cases h with
  | ok a => exact hf a rfl
  | error causes => exact .error causes

end EndsAlike

namespace Graph.Alike

variable {same : Value → Value → Prop} {graph graph' : Graph} {dialect : Dialect}

/-! ## Elements that are declared -/

/-- Member maps that are alike lead to the same elements:
`members'.map (·.2) = members.map (·.2)`. -/
theorem map_snd_eq {members members' : Members} (h : Members.Alike members members') :
    members'.map (·.2) = members.map (·.2) := by
  induction h with
  | nil => rfl
  | cons hfirst _ ih => rw [List.map_cons, List.map_cons, hfirst.2, ih]

variable (h : graph.Alike same graph')

include h

/-- Elements that are alike have one kind: `(graph'.element a).kind = (graph.element a).kind`. -/
theorem kind_eq (a : Handle) : (graph'.element a).kind = (graph.element a).kind :=
  (h.element a).body.kind_eq

/-- Elements that are alike are compiled together. -/
theorem isCompiled_eq (a : Handle) :
    (graph'.element a).isCompiled = (graph.element a).isCompiled := by
  rw [Element.isCompiled, Element.isCompiled, (h.element a).flags]

/-- Elements that are alike are enum values together:
`graph'.isEnumValue a = graph.isEnumValue a`. -/
theorem isEnumValue_eq (a : Handle) : graph'.isEnumValue a = graph.isEnumValue a := by
  rw [isEnumValue, isEnumValue, h.kind_eq]

/-- Elements that are alike have member maps alike. -/
theorem memberItems (a : Handle) :
    Members.Alike (graph.element a).memberItems (graph'.element a).memberItems := by
  rw [Element.memberItems, Element.memberItems]
  obtain ⟨hnone, hnone'⟩ | ⟨members, members', hsome, hsome', halike⟩ :=
    rel_cases (h.element a).members
  · rw [hnone, hnone']
    exact .nil
  · rw [hsome, hsome']
    exact halike

/-- The entries of member maps that are chosen by whether they are enum values. -/
theorem filter_isEnumValue {members members' : Members} (hmembers : Members.Alike members members')
    (p : Bool → Bool) :
    Members.Alike (members.filter fun entry => p (graph.isEnumValue entry.2))
      (members'.filter fun entry => p (graph'.isEnumValue entry.2)) := by
  refine List.rel_filter ?_ hmembers
  intro entry entry' hentry
  have hsame : graph'.isEnumValue entry'.2 = graph.isEnumValue entry.2 := by
    rw [hentry.2, h.isEnumValue_eq]
  simp only [hsame]

/-- The members that are no enum values are the same. -/
theorem otherMembers_eq {members members' : Members} (hmembers : Members.Alike members members') :
    graph'.otherMembers members' = graph.otherMembers members :=
  map_snd_eq (h.filter_isEnumValue hmembers not)

/-- The same elements stand for an element: `graph'.resolved a = graph.resolved a`. -/
theorem resolved_eq (a : Handle) : graph'.resolved a = graph.resolved a := by
  have hbody := (h.element a).body
  have hcompiled := h.isCompiled_eq a
  unfold Graph.resolved
  generalize (graph.element a).body = body at hbody ⊢
  generalize (graph'.element a).body = body' at hbody ⊢
  simp only [h.isCompiled_eq]
  cases hbody <;> rfl

/-- A declaration goes on to the same members:
`graph'.expanded dialect a = graph.expanded dialect a`. -/
theorem expanded_eq (a : Handle) : graph'.expanded dialect a = graph.expanded dialect a := by
  have hbody := (h.element a).body
  unfold Graph.expanded
  generalize (graph.element a).body = body at hbody ⊢
  generalize (graph'.element a).body = body' at hbody ⊢
  simp only [map_snd_eq (h.memberItems a), h.otherMembers_eq (h.memberItems a)]
  cases hbody <;> rfl

/-- **The same elements are declared** inside an element:
`graph'.next dialect = graph.next dialect`. -/
theorem next_eq : graph'.next dialect = graph.next dialect := by
  funext a
  rw [Graph.next, Graph.next, h.expanded_eq]
  exact List.flatMap_congr fun b _ => h.resolved_eq b

/-- The same elements are declared at the top level: `graph'.roots = graph.roots`. -/
theorem roots_eq : graph'.roots = graph.roots := by
  have hsplit (g : Graph) : g.roots = (g.exports.map (·.2)).flatMap g.resolved := by
    rw [List.flatMap_map, Graph.roots]
  rw [hsplit, hsplit, map_snd_eq h.exports]
  exact List.flatMap_congr fun b _ => h.resolved_eq b

/-! ## What they look like -/

/-- The same data gives the same text, or none: `v'.text? = v.text?`. -/
theorem text?_eq {v v' : Value} (hsame : same v v') : v'.text? = v.text? :=
  (h.corresponds.shape hsame).text?_eq

/-- Types that are alike are spelled alike. -/
theorem spelledAlike {type type' : Option ValueType}
    (halike : Option.Rel (ValueType.Alike same) type type') :
    SpelledAlike dialect graph graph' type type' := by
  have hreference {reference reference' : Option Value}
      (hrel : Option.Rel same reference reference') :
      reference'.isSome = reference.isSome ∧
        reference'.map Value.text? = reference.map Value.text? := by
    cases hrel with
    | none => exact ⟨rfl, rfl⟩
    | some hsame => exact ⟨rfl, congrArg some (h.text?_eq hsame)⟩
  rw [SpelledAlike, h.is64Bit]
  cases halike with
  | none => rfl
  | @some type type' halike =>
    obtain ⟨kind, reference, signature⟩ := type
    obtain ⟨kind', reference', signature'⟩ := type'
    obtain ⟨rfl, hclass, hsignature⟩ := halike
    cases hclass with
    | some hsame =>
      have htext := h.text?_eq hsame
      simp only [Dialect.spellType, ValueType.isReference, ValueType.spelling?, Option.isSome_some,
        Bool.true_or, htext]
    | none =>
      cases hsignature with
      | none => rfl
      | some hsame =>
        have htext := h.text?_eq hsame
        simp only [Dialect.spellType, ValueType.isReference, ValueType.spelling?,
          Option.isSome_some, Bool.or_true, htext]

/-- Signatures that are alike look alike. -/
theorem sameSignature {signature signature' : Signature} (halike : signature.Alike same signature') :
    SameSignature dialect graph graph' signature signature' where
  parameters := halike.types.imp fun type type' => h.spelledAlike
  names := by
    have hgiven {names names' : List Value} (hnames : List.Forall₂ same names names') (place : Nat)
        (default : Value) : (names'.getD place default).text? = (names.getD place default).text? := by
      induction hnames generalizing place with
      | nil => rfl
      | cons hfirst _ ih =>
        cases place with
        | zero => exact h.text?_eq hfirst
        | succ place => exact ih place
    have hlength : signature'.parameterTypes.length = signature.parameterTypes.length :=
      halike.types.length_eq.symm
    rw [Signature.names, Signature.names, hlength, List.map_map, List.map_map]
    exact List.map_congr_left fun place _ => hgiven halike.names place _
  result := h.spelledAlike halike.result

/-- The values of enums are shown alike. -/
theorem sameValues {members members' : Members} (hmembers : Members.Alike members members') :
    List.Forall₂ (SameValue graph graph') (graph.enumValues members) (graph'.enumValues members') := by
  have hfilter := h.filter_isEnumValue hmembers id
  refine forall₂_imp_of_mem hfilter ?_
  rintro ⟨key, a⟩ hmem ⟨key', a'⟩ ⟨hkey, rfl⟩
  refine ⟨hkey.text?_eq, congrArg Flags.inlined (h.element a').flags, fun _ => ?_⟩
  -- the payload of an enum value is a number, which is the same on both sides
  have hvalue : (graph.element a').kind = .enumValue := by
    simpa [isEnumValue] using (List.mem_filter.mp hmem).2
  have hbody := (h.element a').body
  unfold Element.kind at hvalue
  generalize (graph.element a').body = body at hbody hvalue ⊢
  generalize (graph'.element a').body = body' at hbody ⊢
  cases hbody with
  | enumValue => rfl
  | _ => cases hvalue

/-- **What is declared looks alike.** -/
theorem looksAlike {a : Handle} (hsort : (graph.element a).body.sort? ≠ none) :
    LooksAlike dialect graph graph' (· = ·) (graph.element a) (graph'.element a) := by
  have halike := h.element a
  have hmembers : SameMembers (· = ·) (graph.element a) (graph'.element a) := by
    rw [SameMembers, map_snd_eq (h.memberItems a)]
    exact List.forall₂_same.mpr fun _ _ => rfl
  have hclass {links links' : ClassLinks} (hlinks : links.Alike links')
      (hbody : (graph.element a).body.classLinks? = some links)
      (hbody' : (graph'.element a).body.classLinks? = some links') :
      LooksAlike dialect graph graph' (· = ·) (graph.element a) (graph'.element a) := by
    refine .classLike links links' hbody hbody' ⟨fun _ => h.kind_eq a, fun _ _ => ?_, fun _ => ?_⟩
    · rw [halike.flags]
    · rw [hlinks.base]
      exact Option.map_congr fun b _ => h.text?_eq (h.element b).name
  have hbody := halike.body
  generalize hgiven : (graph.element a).body = body at hbody hsort
  generalize hgiven' : (graph'.element a).body = body' at hbody
  cases hbody with
  | global constant types =>
    exact .global _ _ constant constant hgiven hgiven' (congrArg Flags.inlined halike.flags)
      (h.spelledAlike types) (fun _ _ => rfl) fun _ => hmembers
  | enumeration =>
    refine .enumeration hgiven hgiven' (h.sameValues (h.memberItems a)) ?_
    rw [h.otherMembers_eq (h.memberItems a)]
    exact List.forall₂_same.mpr fun _ _ => rfl
  | function signatures =>
    exact .function _ _ hgiven hgiven' (h.sameSignature signatures) hmembers
  | classType alike => exact hclass alike (by rw [hgiven]; rfl) (by rw [hgiven']; rfl)
  | interfaceType alike => exact hclass alike (by rw [hgiven]; rfl) (by rw [hgiven']; rfl)
  | nameSpace => exact .nameSpace hgiven hgiven' hmembers
  | _ => exact absurd rfl hsort

/-! ## The definitions -/

/-- **An element opens alike** in graphs that are alike, or is refused alike, as `EndsAlike` has it.
-/
theorem opening (a : Handle) :
    EndsAlike same (graph.opening dialect a) (graph'.opening dialect a) := by
  have hname := h.text?_eq (h.element a).name
  by_cases hsort : (graph.element a).body.sort? = none
  · have hbody := (h.element a).body
    generalize hgiven : (graph.element a).body = body at hbody hsort
    generalize hgiven' : (graph'.element a).body = body' at hbody
    cases hbody with
    | enumValue value =>
      have hkind : (graph.element a).kind = .enumValue := by rw [Element.kind, hgiven]; rfl
      rw [opening_of_enumValue hkind, opening_of_enumValue (by rw [h.kind_eq, hkind]), h.kind_eq]
      exact .error (.unsupported _ (h.element a).name)
    -- a prototype stands for its instances, and has no lines of its own
    | functionPrototype | classPrototype =>
      cases dialect <;>
        simp only [opening_webidl, opening_typescript, WebIdl.opening, TypeScript.opening, hgiven,
          hgiven'] <;>
        exact .error (.equal fun _ _ hcause => by cases hcause)
    | _ => cases hsort
  · rw [(h.looksAlike hsort).opening hname]
    refine .of_not_refuses (not_refuses_opening ?_)
    intro hkind
    apply hsort
    unfold Element.kind at hkind
    generalize (graph.element a).body = body at hkind
    cases body <;> cases hkind
    rfl

/-- What opens closes alike: `graph'.closing dialect a = graph.closing dialect a`. -/
theorem closing {a : Handle} {opening : List Line} (hopening : graph.opening dialect a = .ok opening) :
    graph'.closing dialect a = graph.closing dialect a := by
  have hsort : (graph.element a).body.sort? ≠ none := by
    intro hnone
    cases dialect <;>
      simp only [opening_webidl, opening_typescript, WebIdl.opening, TypeScript.opening] at hopening <;>
      generalize (graph.element a).body = body at hopening hnone <;>
      cases body <;> cases hnone <;> cases hopening
  exact (h.looksAlike hsort).closing

/-- **The lines of a forest** are the same, or fail alike, at every `level`. -/
theorem lines (forest : Forest Handle) (level : Nat) :
    EndsAlike same (graph.lines dialect level forest) (graph'.lines dialect level forest) := by
  induction forest generalizing level with
  | nil => exact .ok []
  | node a inside rest ihInside ihRest =>
    rw [lines_node, lines_node]
    refine (h.opening a).bind ?_
    intro opening hopening
    refine (ihInside (level + 1)).bind ?_
    intro within _
    refine (ihRest level).bind ?_
    intro after _
    rw [h.closing hopening]
    exact .ok _

/-- **Graphs that are alike have the same definitions**, or fail alike: `EndsAlike` holds of
`render`. -/
theorem render (hs : graph.CompiledSorted) (hs' : graph'.CompiledSorted) (dialect : Dialect) :
    EndsAlike same (graph.render dialect) (graph'.render dialect) := by
  obtain ⟨forest, hforest⟩ := graph.exists_forest dialect
  have hforest' : DepthFirst (graph'.next dialect) [] graph'.roots forest := by
    rw [h.next_eq, h.roots_eq]
    exact hforest
  rw [render_eq hs hforest, render_eq hs' hforest']
  refine (h.lines forest 1).bind ?_
  intro lines _
  split
  · exact .ok _
  · exact .error (.equal fun _ _ hcause => by cases hcause)

/-- Failures that are alike are told in the same words, by `message?`. -/
theorem message?_eq {cause cause' : RenderError} (hcause : cause.Alike same cause') :
    cause'.message? graph'.store = cause.message? graph.store := by
  cases hcause with
  | unsupported kind names =>
    rw [RenderError.message?, RenderError.message?, h.corresponds.inSentence?_eq names]
  | equal plain =>
    cases cause with
    | unsupportedElement kind name => exact absurd rfl (plain kind name)
    | _ => rfl

end Graph.Alike

namespace Graph

variable {document document' : Document} {same : Value → Value → Prop}

/-- **Decoding does not depend on the spelling.** Of two documents without shared maps that respell
each other, both are read or none is; and the graphs are alike, handle by handle, and have the same
definitions, or fail alike and with the same message. -/
theorem ofDocument_of_respells (h : document.Respells document' same)
    (hunshared : document.Unshared) (hunshared' : document'.Unshared) :
    ((∃ graph, ofDocument document = .ok graph) ↔ ∃ graph', ofDocument document' = .ok graph') ∧
      ∀ graph graph', ofDocument document = .ok graph → ofDocument document' = .ok graph' →
        graph.Alike same graph' ∧ ∀ dialect,
          (∃ text, graph.render dialect = .ok text ∧ graph'.render dialect = .ok text) ∨
            ∃ cause cause', graph.render dialect = .error cause ∧
              graph'.render dialect = .error cause' ∧ cause.Alike same cause' ∧
              cause'.message? graph'.store = cause.message? graph.store := by
  have hread := h.ofDocument hunshared hunshared'
  constructor
  · cases hgraph : ofDocument document with
    | ok graph =>
      cases hgraph' : ofDocument document' with
      | ok graph' => exact iff_of_true ⟨graph, rfl⟩ ⟨graph', rfl⟩
      | error cause' =>
        rw [hgraph, hgraph'] at hread
        cases hread
    | error cause =>
      cases hgraph' : ofDocument document' with
      | ok graph' =>
        rw [hgraph, hgraph'] at hread
        cases hread
      | error cause' =>
        refine iff_of_false ?_ ?_
        · rintro ⟨_, hok⟩
          cases hok
        · rintro ⟨_, hok⟩
          cases hok
  · intro graph graph' hgraph hgraph'
    have hs : graph.CompiledSorted := (sound_of_ofDocument hgraph).1.wellSorted.compiledSorted
    have hs' : graph'.CompiledSorted := (sound_of_ofDocument hgraph').1.wellSorted.compiledSorted
    rw [hgraph, hgraph'] at hread
    cases hread with
    | ok halike =>
      refine ⟨halike, fun dialect => ?_⟩
      have hends := halike.render hs hs' dialect
      generalize graph.render dialect = result at hends ⊢
      generalize graph'.render dialect = result' at hends ⊢
      cases hends with
      | ok text => exact .inl ⟨text, rfl, rfl⟩
      | error causes => exact .inr ⟨_, _, rfl, rfl, causes, halike.message?_eq causes⟩

/-- **Two scalars are alike, as values.** Values that hold something are not related. -/
inductive ScalarsAlike : Value → Value → Prop
  | scalar {s s' : Scalar} (alike : s.Alike s') : ScalarsAlike (.scalar s) (.scalar s')

/-- Any two stores correspond along their scalars. -/
theorem corresponds_scalars (store store' : Store) : store.Corresponds store' ScalarsAlike where
  scalar alike := .scalar alike
  shape hsame := by
    cases hsame with
    | scalar alike => exact .scalar alike
  loops _ hother hinside _ := by
    -- nothing is inside a scalar
    cases hother with
    | @scalar s s' alike =>
      have hnone {v w : Value} (h : store.Inside v w) (hw : w = .scalar s) : False := by
        induction h with
        | part held => subst hw; exact List.not_mem_nil held
        | deeper _ _ ih => exact ih hw
      exact (hnone hinside rfl).elim
  apart hlist := by cases hlist

/-- Flags with the same names respell each other. -/
theorem respellsFlags_of_names {store store' : Store} {ref ref' : Nat} {names names' : List Value}
    (hitems : store.items ref = names) (hitems' : store'.items ref' = names')
    (hscalars : ∀ v ∈ names, v.text? ≠ none) (hsubset : names ⊆ names')
    (hsubset' : names' ⊆ names) :
    store.RespellsFlags store' ScalarsAlike (.list ref) (.list ref') := by
  have hself (v : Value) (hv : v ∈ names) : ScalarsAlike v v := by
    cases v with
    | scalar s => exact .scalar (.refl s)
    | _ => exact absurd rfl (hscalars _ hv)
  subst hitems hitems'
  refine .names (fun v hv => ?_) fun v hv => ?_
  · exact ⟨v, hsubset hv, hself v hv⟩
  · exact ⟨v, hsubset' hv, hself v (hsubset' hv)⟩

/-- A document with a class and a function, all written out. -/
def wordyDocument : Document := .ofTree (.map [(.text "exports", .map [
  (.text "Size", .map [(.text "kind", .scalar (.text "class_prototype")),
    (.text "name", .scalar (.text "Size")), (.text "flags", .scalar .null),
    (.text "instances", .list [.map [(.text "kind", .scalar (.text "class")),
      (.text "name", .scalar (.text "Size")),
      (.text "flags", .list [.scalar (.text "compiled"), .scalar (.text "inlined")]),
      (.text "base", .scalar .null)]])]),
  (.text "grow", .map [(.text "kind", .scalar (.text "function")),
    (.text "flags", .list [.scalar (.text "compiled")]),
    (.text "signature", .map [(.text "parameters", .list []),
      (.text "return_type", .scalar (.text "void"))])])])])

/-- The same in another order, without what may be left out. -/
def briefDocument : Document := .ofTree (.map [(.text "exports", .map [
  (.text "Size", .map [(.text "instances", .list [.map [
      (.text "flags", .list [.scalar (.text "inlined"), .scalar (.text "compiled"),
        .scalar (.text "inlined")]),
      (.text "kind", .scalar (.text "class"))]]),
    (.text "kind", .scalar (.text "class_prototype"))]),
  (.text "grow", .map [(.text "kind", .scalar (.text "function")),
    (.text "flags", .list [.scalar (.text "compiled")])])])])

/-- The maps at the same places of the two, with the names that they inherit. -/
def wordyPlaces : List ((Value × Option Value) × Value × Option Value) :=
  [((.map 1, some (.text "Size")), .map 1, some (.text "Size")),
    ((.map 0, some (.text "Size")), .map 0, some (.text "Size")),
    ((.map 3, some (.text "grow")), .map 2, some (.text "grow"))]

/-- The places that the two documents share are those of the list: `(call, call') ∈ wordyPlaces`. -/
theorem mem_wordyPlaces {call call' : Value × Option Value}
    (h : wordyDocument.SamePlace briefDocument call call') : (call, call') ∈ wordyPlaces := by
  induction h with
  | exported calls =>
    refine (?_ : _ ⊆ wordyPlaces) calls
    decide +kernel
  | inside _ calls ih =>
    simp only [wordyPlaces, List.mem_cons, Prod.mk.injEq, Value.map.injEq, List.not_mem_nil,
      or_false] at ih
    refine (?_ : _ ⊆ wordyPlaces) calls
    rcases ih with ⟨⟨rfl, rfl⟩, rfl, rfl⟩ | ⟨⟨rfl, rfl⟩, rfl, rfl⟩ | ⟨⟨rfl, rfl⟩, rfl, rfl⟩ <;>
      decide +kernel

/-- The prototype: without its name, and without saying that it has no flags. -/
theorem respellsMap_prototype : wordyDocument.store.RespellsMap briefDocument.store ScalarsAlike 1 1
    (some (.text "Size")) (some (.text "Size")) where
  head := ⟨.scalar (.refl _), .scalar (.refl _), .other (.scalar (.refl _)) (by rintro _ ⟨⟩),
    by rintro kind ⟨⟩; trivial⟩
  members := .other (.scalar (.refl _)) rfl
  links := by
    rintro kind ⟨⟩
    exact .items (.list 1) (.list 1) rfl

/-- The class inside it: without its name, with its flags in another order, and one twice. -/
theorem respellsMap_class : wordyDocument.store.RespellsMap briefDocument.store ScalarsAlike 0 0
    (some (.text "Size")) (some (.text "Size")) where
  head := ⟨.scalar (.refl _), .scalar (.refl _),
    respellsFlags_of_names rfl rfl (by decide +kernel) (by decide +kernel) (by decide +kernel),
    by rintro kind ⟨⟩; trivial⟩
  members := .other (.scalar (.refl _)) rfl
  links := by
    rintro kind ⟨⟩
    exact ⟨Iff.rfl, .other (.scalar (.refl _)) rfl, .other (.scalar (.refl _)) rfl⟩

/-- The function: without its signature, which is empty. -/
theorem respellsMap_function : wordyDocument.store.RespellsMap briefDocument.store ScalarsAlike 3 2
    (some (.text "grow")) (some (.text "grow")) where
  head := by
    have hvoid : wordyDocument.store.RespellsType briefDocument.store ScalarsAlike (.text "void")
        (.text "void") :=
      .fields (.word "void") (.word "void") (.scalar (.refl _)) (.scalar (.refl _))
        (.scalar (.refl _))
    have hempty : wordyDocument.store.RespellsParameters briefDocument.store ScalarsAlike
        (some (.list 3)) none := .items rfl rfl .nil
    refine ⟨.scalar (.refl _), .scalar (.refl _),
      respellsFlags_of_names rfl rfl (by decide +kernel) (by decide +kernel) (by decide +kernel),
      ?_⟩
    rintro kind ⟨⟩
    exact .fields (.map 2) (.falsy rfl) hempty hvoid
  members := .other (.scalar (.refl _)) rfl
  links := by
    rintro kind ⟨⟩
    trivial

/-- What is at the same place of the two respells each other. -/
theorem respells_brief : wordyDocument.Respells briefDocument ScalarsAlike where
  corresponds := corresponds_scalars _ _
  root := .map (.fields (.map 4) (.map 3) (.cons (.refl _) (.cons (.refl _) .nil)))
    (.scalar (.refl _))
  places hplace := by
    have hmem := mem_wordyPlaces hplace
    simp only [wordyPlaces, List.mem_cons, Prod.mk.injEq, List.not_mem_nil, or_false] at hmem
    rcases hmem with ⟨⟨rfl, rfl⟩, rfl, rfl⟩ | ⟨⟨rfl, rfl⟩, rfl, rfl⟩ | ⟨⟨rfl, rfl⟩, rfl, rfl⟩
    · exact .map respellsMap_prototype
    · exact .map respellsMap_class
    · exact .map respellsMap_function

/-- The graph of the document that is written out. -/
def wordyGraph : Graph where
  store := wordyDocument.store
  elements := #[
    { name := .text "Size", body := .classPrototype [1] },
    { name := .text "Size", flags := { compiled := true, inlined := true },
      body := .classType {} },
    { name := .text "grow", flags := { compiled := true }, body := .function {} }]
  exports := [(.text "Size", 0), (.text "grow", 2)]

/-- The definitions of both. -/
def sizeDefinitions : String :=
  "interface ASModule \x7b\n  interface Size \x7b\n  \x7d\n  void grow();\n\x7d\n"

/-- Both documents are read, and have the same definitions. -/
theorem ofDocument_of_respells_brief :
    wordyDocument.Respells briefDocument ScalarsAlike ∧
      wordyDocument.Unshared ∧ briefDocument.Unshared ∧
      ofDocument wordyDocument = .ok wordyGraph ∧
      ∃ graph, ofDocument briefDocument = .ok graph ∧ wordyGraph.Alike ScalarsAlike graph ∧
        graph.render .webidl = .ok sizeDefinitions := by
  have hunshared : wordyDocument.Unshared := Document.ofTree_unshared _
  have hunshared' : briefDocument.Unshared := Document.ofTree_unshared _
  have hread : ofDocument wordyDocument = .ok wordyGraph := rfl
  have hrender : wordyGraph.render .webidl = .ok sizeDefinitions := rfl
  obtain ⟨hboth, halike⟩ := ofDocument_of_respells respells_brief hunshared hunshared'
  obtain ⟨graph, hread'⟩ := hboth.mp ⟨wordyGraph, hread⟩
  obtain ⟨hgraphs, hdefinitions⟩ := halike wordyGraph graph hread hread'
  refine ⟨respells_brief, hunshared, hunshared', hread, graph, hread', hgraphs, ?_⟩
  rcases hdefinitions .webidl with ⟨text, htext, htext'⟩ | ⟨cause, _, hcause, -⟩
  · rw [htext', ← htext, hrender]
  · rw [hrender] at hcause
    cases hcause

end Graph

end ModuleSurface
