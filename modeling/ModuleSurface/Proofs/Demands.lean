import ModuleSurface.Proofs.Decoding
import ModuleSurface.Proofs.Walk

/-! # What a declaration asks for

A declaration is written when all that it asks for can be had: a spelling for each of its types, and
the digits of each of its integers; and an enum value that is to be declared on its own cannot be. The
first demand in the order of writing that is not met is what stands against the declaration. What is
written has a text when, besides, all words that are printed are texts; this is found out at the very
end, when the pieces are joined.

* **`Graph.demands`** — what a declaration asks for, in order.
* **`Graph.words`** — the words that a declaration prints.
* **`Graph.settles_demands`** — a declaration is stopped by the first demand that is not met, and has
  a text exactly when its words are texts.
* **`Graph.settles_render_of_demands`** — so is a rendering. -/

namespace ModuleSurface

/-! ## Outcomes -/

/-- **How a step comes out**: with a cause it fails for that cause, and without one it has a good
result. -/
inductive Settles {α : Type} (good : α → Prop) : Option RenderError → Except RenderError α → Prop
  | fails {cause : RenderError} : Settles good (some cause) (.error cause)
  | ok {a : α} (h : good a) : Settles good none (.ok a)

namespace Settles

variable {α β : Type} {cause? cause?' : Option RenderError} {out : Except RenderError α}
  {good : α → Prop} {good' : β → Prop}

/-- A step after a step: the first cause counts, `cause?.or cause?'`. -/
theorem bind {f : α → Except RenderError β} (h : Settles good cause? out)
    (h' : ∀ a, good a → Settles good' cause?' (f a)) :
    Settles good' (cause?.or cause?') (out >>= f) := by
  cases h with
  | fails => exact .fails
  | ok ha => exact h' _ ha

/-- What is done with the result of a step. -/
theorem map {f : α → β} (h : Settles good cause? out) (h' : ∀ a, good a → good' (f a)) :
    Settles good' cause? (do return f (← out)) := by
  cases h with
  | fails => exact .fails
  | ok ha => exact .ok (h' _ ha)

/-- A good result may be good for more. -/
theorem mono {good' : α → Prop} (h : Settles good cause? out) (h' : ∀ a, good a → good' a) :
    Settles good' cause? out := by
  cases h with
  | fails => exact .fails
  | ok ha => exact .ok (h' _ ha)

/-- A step for every item: the first cause of an item counts, `items.findSome? cause?`. -/
theorem mapM {γ : Type} {f : γ → Except RenderError β} {cause? : γ → Option RenderError}
    {good : γ → β → Prop} {items : List γ}
    (h : ∀ a ∈ items, Settles (good a) (cause? a) (f a)) :
    Settles (List.Forall₂ good items) (items.findSome? cause?) (items.mapM f) := by
  induction items with
  | nil => exact .ok .nil
  | cons a items ih =>
    rw [List.forall_mem_cons] at h
    have hcons : (a :: items).findSome? cause? = (cause? a).or (items.findSome? cause?) := by
      rw [List.findSome?_cons]
      cases cause? a <;> rfl
    rw [List.mapM_cons, hcons]
    exact h.1.bind fun b hb => (ih h.2).map fun results hresults => .cons hb hresults

end Settles

/-! ## Texts -/

/-- Pieces that are texts. -/
def Texts (pieces : List Fragment) : Prop := ∀ piece ∈ pieces, piece.isSome = true

/-- No pieces are texts. -/
@[simp] theorem texts_nil : Texts [] := by simp [Texts]

/-- Pieces are texts when the first one is a text and the others are. -/
@[simp] theorem texts_cons (piece : Fragment) (pieces : List Fragment) :
    Texts (piece :: pieces) ↔ piece.isSome = true ∧ Texts pieces := by
  simp [Texts]

/-- Pieces behind others are texts when both are. -/
@[simp] theorem texts_append (pieces others : List Fragment) :
    Texts (pieces ++ others) ↔ Texts pieces ∧ Texts others := by
  simp [Texts, or_imp, forall_and]

/-- Lines whose pieces are texts. -/
def TextLines (lines : List Line) : Prop := ∀ line ∈ lines, Texts line.pieces

/-- No lines are lines of texts. -/
@[simp] theorem textLines_nil : TextLines [] := by simp [TextLines]

/-- Lines are lines of texts when the pieces of the first one are texts and the others are such
lines. -/
@[simp] theorem textLines_cons (line : Line) (lines : List Line) :
    TextLines (line :: lines) ↔ Texts line.pieces ∧ TextLines lines := by
  simp [TextLines]

/-- Lines behind others are lines of texts when both are. -/
@[simp] theorem textLines_append (lines others : List Line) :
    TextLines (lines ++ others) ↔ TextLines lines ∧ TextLines others := by
  simp [TextLines, or_imp, forall_and]

/-- How deep lines stand does not matter for `TextLines`. -/
@[simp] theorem textLines_deeper (level : Nat) (lines : List Line) :
    TextLines (lines.map (Line.deeper level)) ↔ TextLines lines := by
  simp [TextLines]

/-- Words that are texts. -/
def AllTexts (words : List Value) : Prop := ∀ word ∈ words, word.text?.isSome = true

instance (words : List Value) : Decidable (AllTexts words) :=
  inferInstanceAs (Decidable (∀ word ∈ words, word.text?.isSome = true))

/-- No words are texts. -/
@[simp] theorem allTexts_nil : AllTexts [] := by simp [AllTexts]

/-- Words are texts when the first one is a text and the others are. -/
@[simp] theorem allTexts_cons (word : Value) (words : List Value) :
    AllTexts (word :: words) ↔ word.text?.isSome = true ∧ AllTexts words := by
  simp [AllTexts]

/-- Words behind others are texts when both are. -/
@[simp] theorem allTexts_append (words others : List Value) :
    AllTexts (words ++ others) ↔ AllTexts words ∧ AllTexts others := by
  simp [AllTexts, or_imp, forall_and]

/-- An integer with no more digits than are written. -/
def Writable (n : Int) : Prop := (toString n.natAbs).length ≤ integerDigitLimit

instance (n : Int) : Decidable (Writable n) := Nat.decLe _ _

namespace Graph

/-! ## Demands -/

/-- **What is looked at** for a declaration: an element that may not be declared on its own, or a
type that may have no spelling. -/
inductive Item
  | element (h : Handle)
  | type (type : Option ValueType)

/-- **What a declaration asks for**: that something that is looked at may be written, or the digits of
an integer. -/
inductive Demand
  | item (item : Item)
  | integer (n : Int)

/-- **The types of an element** in the order in which a dialect writes them: of a function WebIDL
writes the result first, and TypeScript the parameters. -/
def types (graph : Graph) (dialect : Dialect) (h : Handle) : List (Option ValueType) :=
  match (graph.element h).body with
  | .global type _ => [type]
  | .function signature =>
    match dialect with
    | .webidl => signature.returnType :: signature.parameterTypes
    | .typescript => signature.parameterTypes ++ [signature.returnType]
  | _ => []

/-- **The items of an element**, in the order of writing. -/
def items (graph : Graph) (dialect : Dialect) (h : Handle) : List Item :=
  if graph.isEnumValue h then [.element h] else (graph.types dialect h).map .type

/-- The integer that an entry of an enum writes, if it writes one. -/
def entryInteger? (graph : Graph) (entry : Scalar × Handle) : Option Int :=
  match (graph.element entry.2).flags.inlined, (graph.element entry.2).body with
  | true, .enumValue (.int n) => some n
  | _, _ => none

/-- The integer that a constant writes, if it is one. -/
def constantInteger? : Option Constant → Option Int
  | some ⟨.integer, .int n⟩ => some n
  | _ => none

/-- **The integers that an element writes**: those of the values of an enum, and in WebIDL that of a
constant. -/
def integers (graph : Graph) (dialect : Dialect) (h : Handle) : List Int :=
  match (graph.element h).body with
  | .global _ constant =>
    if dialect = .webidl ∧ (graph.element h).flags.inlined = true then
      (constantInteger? constant).toList
    else []
  | .enumeration => (graph.enumValues (graph.element h).memberItems).filterMap graph.entryInteger?
  | _ => []

/-- **The demands of an element**, in the order of writing. -/
def demands (graph : Graph) (dialect : Dialect) (h : Handle) : List Demand :=
  (graph.items dialect h).map .item ++ (graph.integers dialect h).map .integer

/-- **What is wrong with an item**, if anything is. -/
def offence? (graph : Graph) (dialect : Dialect) : Item → Option RenderError
  | .element h => some (.unsupportedElement (graph.element h).kind (graph.element h).name)
  | .type type =>
    match dialect.spellType graph.is64Bit type with
    | .error cause => some cause
    | .ok _ => none

/-- **Why a demand is not met**, if it is not. -/
def refusal? (graph : Graph) (dialect : Dialect) : Demand → Option RenderError
  | .item item => graph.offence? dialect item
  | .integer n => if Writable n then none else some (.payload .integerTooLong)

/-! ## Words -/

/-- The names that a class prints besides its own: in TypeScript that of its base. -/
def baseName (graph : Graph) (dialect : Dialect) (links : ClassLinks) : List Value :=
  if dialect = .typescript then links.base.toList.map fun b => (graph.element b).name else []

/-- **The names that an element prints**: its own, those of its parameters, and that of its base. A
namespace without members prints nothing in TypeScript. -/
def names (graph : Graph) (dialect : Dialect) (h : Handle) : List Value :=
  let element := graph.element h
  match element.body with
  | .function signature => element.name :: signature.parameterNames
  | .classType links | .interfaceType links => element.name :: graph.baseName dialect links
  | .nameSpace => if dialect = .typescript ∧ element.memberItems = [] then [] else [element.name]
  | _ => [element.name]

/-- The keys that an element prints: those of the values of an enum. -/
def keys (graph : Graph) (h : Handle) : List Value :=
  match (graph.element h).body with
  | .enumeration =>
    (graph.enumValues (graph.element h).memberItems).map fun entry => .scalar entry.1
  | _ => []

/-- **The words that an element prints.** -/
def words (graph : Graph) (dialect : Dialect) (h : Handle) : List Value :=
  graph.names dialect h ++ graph.keys h

variable {graph : Graph} {dialect : Dialect} {h a : Handle}

/-! ## The first demand that is not met -/

/-- The first offence of some items. -/
def firstOffence? (graph : Graph) (dialect : Dialect) (items : List Item) : Option RenderError :=
  items.findSome? (graph.offence? dialect)

/-- Nothing stands against no items: `graph.firstOffence? dialect [] = none`. -/
@[simp] theorem firstOffence?_nil (graph : Graph) (dialect : Dialect) :
    graph.firstOffence? dialect [] = none := rfl

/-- What stands against the first item counts before what stands against the others. -/
theorem firstOffence?_cons (graph : Graph) (dialect : Dialect) (item : Item) (items : List Item) :
    graph.firstOffence? dialect (item :: items)
      = (graph.offence? dialect item).or (graph.firstOffence? dialect items) := by
  rw [firstOffence?, List.findSome?_cons]
  cases graph.offence? dialect item <;> rfl

/-- What stands against the first items counts before what stands against the others. -/
theorem firstOffence?_append (graph : Graph) (dialect : Dialect) (items others : List Item) :
    graph.firstOffence? dialect (items ++ others)
      = (graph.firstOffence? dialect items).or (graph.firstOffence? dialect others) :=
  List.findSome?_append

/-- The first refusal of some demands. -/
def firstRefusal? (graph : Graph) (dialect : Dialect) (demands : List Demand) : Option RenderError :=
  demands.findSome? (graph.refusal? dialect)

/-- The first integer that is too long. -/
def firstTooLong? (integers : List Int) : Option RenderError :=
  integers.findSome? fun n => if Writable n then none else some (.payload .integerTooLong)

/-- None of no integers is too long: `firstTooLong? [] = none`. -/
@[simp] theorem firstTooLong?_nil : firstTooLong? [] = none := rfl

/-- Nothing is refused where nothing is demanded: `graph.firstRefusal? dialect [] = none`. -/
@[simp] theorem firstRefusal?_nil (graph : Graph) (dialect : Dialect) :
    graph.firstRefusal? dialect [] = none := rfl

/-- The refusal of the first demands counts before the refusal of the others. -/
theorem firstRefusal?_append (graph : Graph) (dialect : Dialect) (demands others : List Demand) :
    graph.firstRefusal? dialect (demands ++ others)
      = (graph.firstRefusal? dialect demands).or (graph.firstRefusal? dialect others) :=
  List.findSome?_append

/-- Of an element, items are asked for before integers: `firstOffence?` comes before
`firstTooLong?`. -/
theorem firstRefusal?_demands (graph : Graph) (dialect : Dialect) (h : Handle) :
    graph.firstRefusal? dialect (graph.demands dialect h)
      = (graph.firstOffence? dialect (graph.items dialect h)).or
        (firstTooLong? (graph.integers dialect h)) := by
  rw [demands, firstRefusal?_append, firstRefusal?, firstRefusal?, List.findSome?_map,
    List.findSome?_map]
  rfl

/-! ## Pieces -/

/-- A type is spelled by `spellType` unless something stands against it. -/
theorem settles_type (graph : Graph) (dialect : Dialect) (type : Option ValueType) :
    Settles (fun _ => True) (graph.offence? dialect (.type type))
      (dialect.spellType graph.is64Bit type) := by
  simp only [offence?]
  cases dialect.spellType graph.is64Bit type with
  | error cause => exact .fails
  | ok spelled => exact .ok trivial

/-- The digits of an integer are written unless it is too long. -/
theorem settles_integer (n : Int) :
    Settles (fun _ => True) (firstTooLong? [n]) ((integerText (.int n)).mapError .payload) := by
  by_cases hlength : Writable n
  · have htext : integerText (.int n) = .ok (toString n) := by
      simp only [integerText, Scalar.toInt_int, Numeral.intText?, if_neg (Nat.not_lt.mpr hlength)]
    rw [htext, firstTooLong?, List.findSome?_singleton, if_pos hlength]
    exact .ok trivial
  · have htext : integerText (.int n) = .error .integerTooLong := by
      simp only [integerText, Scalar.toInt_int, Numeral.intText?, if_pos (Nat.not_le.mp hlength)]
    rw [htext, firstTooLong?, List.findSome?_singleton, if_neg hlength]
    exact .fails

/-- The comma before a parameter is a text. -/
theorem texts_commaBefore (place : Nat) : Texts (commaBefore place) := by
  unfold commaBefore
  split <;> simp

/-- The word in front of a constant is a text. -/
theorem texts_constWords (element : Element) : Texts (constWords element) := by
  unfold constWords
  split <;> simp

/-- The names of the parameters from a place on. -/
def parameterNamesFrom (signature : Signature) (place count : Nat) : List Value :=
  (List.range' place count).map signature.parameterName

/-- With a name for each type, the names of the parameters are those that are given. -/
theorem parameterNamesFrom_zero {signature : Signature}
    (h : signature.parameterNames.length = signature.parameterTypes.length) :
    parameterNamesFrom signature 0 signature.parameterTypes.length = signature.parameterNames := by
  refine List.ext_getElem (by simp [parameterNamesFrom, h]) fun i hi hi' => ?_
  simp [parameterNamesFrom, Signature.parameterName, List.getElem?_eq_getElem hi']

/-- Parameters come out by their types, and have a text by their names: `parameterWords` has texts
where `parameterNamesFrom` has. -/
theorem settles_parameters (graph : Graph) (dialect : Dialect) (signature : Signature)
    (types : List (Option ValueType)) (place : Nat) :
    Settles (fun pieces => Texts pieces ↔ AllTexts (parameterNamesFrom signature place types.length))
      (graph.firstOffence? dialect (types.map .type))
      (parameterWords dialect graph.is64Bit signature place types) := by
  induction types generalizing place with
  | nil => exact .ok (by simp [parameterNamesFrom])
  | cons type types ih =>
    rw [List.map_cons, firstOffence?_cons]
    refine (settles_type graph dialect type).bind fun spelled _ => (ih (place + 1)).map
      fun others hothers => ?_
    rw [texts_append, hothers]
    cases dialect <;>
      simp [Dialect.parameterPieces, texts_commaBefore, parameterNamesFrom, List.range'_succ]

/-- The payload of a constant has its pieces, unless its integer is too long. -/
theorem WebIdl.settles_payload {constant : Option Constant} (element : Element)
    (hsound : ∀ c, constant = some c → c.Sound) :
    Settles Texts (firstTooLong? (if element.flags.inlined = true then
      (constantInteger? constant).toList else [])) (payloadWords element constant) := by
  unfold payloadWords
  cases element.flags.inlined with
  | false => exact .ok texts_nil
  | true =>
    cases constant with
    | none => exact .ok texts_nil
    | some constant =>
      have hconstant := hsound constant rfl
      obtain ⟨kind, value⟩ := constant
      cases kind with
      | integer =>
        obtain ⟨n, rfl⟩ := hconstant
        exact (settles_integer n).map fun text _ => by simp
      | float =>
        obtain ⟨x, rfl⟩ := hconstant
        exact .ok (by simp)

/-- The payload of an enum value is written, unless it is too long. -/
theorem settles_enumValueText {entry : Scalar × Handle} (hsound : (graph.element entry.2).body.Sound)
    (hkind : graph.isEnumValue entry.2 = true) (hinlined : (graph.element entry.2).flags.inlined = true) :
    Settles (fun _ => True) (firstTooLong? (graph.entryInteger? entry).toList)
      (enumValueText (graph.element entry.2).body) := by
  have hbody : (graph.element entry.2).body.kind = .enumValue := of_decide_eq_true hkind
  unfold entryInteger?
  cases hvalue : (graph.element entry.2).body <;> rw [hvalue] at hbody <;> cases hbody
  rw [hvalue] at hsound
  obtain ⟨n, rfl⟩ := hsound
  rw [hinlined]
  exact settles_integer n

/-- An entry of an enum has the pieces of `valueWords`, and these are texts by its key. -/
theorem settles_value (dialect : Dialect) {entry : Scalar × Handle}
    (hsound : (graph.element entry.2).body.Sound) (hkind : graph.isEnumValue entry.2 = true) :
    Settles (fun pieces => Texts pieces ↔ (Value.scalar entry.1).text?.isSome = true)
      (firstTooLong? (graph.entryInteger? entry).toList) (graph.valueWords dialect entry) := by
  have hfront (inlined : Bool) : Texts (valueFront dialect inlined) := by
    cases dialect <;> cases inlined <;> simp [valueFront]
  have hend : Texts (valueEnd dialect) := by cases dialect <;> simp [valueEnd]
  unfold valueWords
  by_cases hinlined : (graph.element entry.2).flags.inlined = true
  · rw [if_pos hinlined]
    exact (settles_enumValueText hsound hkind hinlined).map fun text _ => by simp [hfront, hend]
  · rw [if_neg hinlined]
    simp only [entryInteger?, hinlined]
    exact .ok (by simp [hfront, hend])

/-- The first of the integers that entries write. -/
theorem firstTooLong?_entries (graph : Graph) (entries : Members) :
    firstTooLong? (entries.filterMap graph.entryInteger?)
      = entries.findSome? fun entry => firstTooLong? (graph.entryInteger? entry).toList := by
  induction entries with
  | nil => rfl
  | cons entry entries ih =>
    rw [List.filterMap_cons, List.findSome?_cons, ← ih]
    cases graph.entryInteger? entry with
    | none => rfl
    | some n =>
      simp only [firstTooLong?, Option.toList_some, List.findSome?_cons, List.findSome?_nil]
      split <;> simp_all

/-- **Entries of an enum** that are values have their lines, by their keys. -/
theorem settles_values (hsound : ∀ a, (graph.element a).body.Sound)
    {words : Scalar × Handle → Except RenderError (List Fragment)}
    (hwords : ∀ entry, (graph.element entry.2).body.Sound → graph.isEnumValue entry.2 = true →
      Settles (fun pieces => Texts pieces ↔ (Value.scalar entry.1).text?.isSome = true)
        (firstTooLong? (graph.entryInteger? entry).toList) (words entry))
    {entries : Members} (hentries : ∀ entry ∈ entries, graph.isEnumValue entry.2 = true) :
    Settles (fun results => TextLines (results.map (Line.mk 1)) ↔
        AllTexts (entries.map fun entry => .scalar entry.1))
      (firstTooLong? (entries.filterMap graph.entryInteger?)) (entries.mapM words) := by
  rw [firstTooLong?_entries]
  refine (Settles.mapM fun entry hentry =>
    hwords entry (hsound entry.2) (hentries entry hentry)).mono fun results hresults => ?_
  clear hentries
  induction hresults with
  | nil => simp
  | cons hfirst _ ih => simp [hfirst, ih]

/-! ## Openings -/

/-- The entries that `enumValues` keeps are enum values. -/
theorem isEnumValue_of_enumValues (graph : Graph) (members : Members) :
    ∀ entry ∈ graph.enumValues members, graph.isEnumValue entry.2 = true :=
  fun _ hentry => (List.mem_filter.mp hentry).2

/-- An enum value is refused, and it is its only item. -/
theorem settles_enumValue (hvalue : graph.isEnumValue h = true) (good : List Line → Prop) :
    Settles good (graph.firstRefusal? dialect (graph.demands dialect h))
      (graph.opening dialect h) := by
  rw [firstRefusal?_demands, items, if_pos hvalue, opening_of_enumValue (of_decide_eq_true hvalue)]
  exact .fails

/-- Whether the header of a namespace for members is a text, where there is one. -/
theorem textLines_membersHeader (element : Element) (members : List Handle) :
    TextLines (TypeScript.membersHeader element members) ↔
      (members ≠ [] → element.name.text?.isSome = true) := by
  unfold TypeScript.membersHeader
  by_cases hmembers : members = []
  · simp [hmembers]
  · simp [hmembers, Line.opener]

/-- The words in front of the name of a class are texts. -/
theorem texts_classWords (element : Element) : Texts (TypeScript.classWords element) := by
  unfold TypeScript.classWords
  split
  · simp
  · split <;> simp

/-- The words that name a base have a text by its name. -/
theorem texts_baseWords (graph : Graph) (links : ClassLinks) :
    Texts (TypeScript.baseWords graph links.base) ↔
      AllTexts (graph.baseName .typescript links) := by
  unfold baseName
  cases links.base with
  | none => simp [TypeScript.baseWords]
  | some b => simp [TypeScript.baseWords]

/-- The line of a global in WebIDL has a text by its name, and stops at a payload that is too
long. -/
theorem WebIdl.settles_globalWords (graph : Graph) (element : Element) (type : Option ValueType)
    {constant : Option Constant} (hsound : ∀ c, constant = some c → c.Sound) :
    Settles (fun pieces => Texts pieces ↔ element.name.text?.isSome = true)
      ((graph.offence? .webidl (.type type)).or (firstTooLong? (if element.flags.inlined = true then
        (constantInteger? constant).toList else [])))
      (globalWords graph element type constant) := by
  unfold globalWords
  refine (settles_type graph .webidl type).bind fun spelled _ =>
    (settles_payload element hsound).map fun payload hpayload => ?_
  simp [texts_constWords, hpayload]

/-- The line of a global in TypeScript has a text by its name, and shows no payload. -/
theorem TypeScript.settles_globalWords (graph : Graph) (element : Element) (type : Option ValueType) :
    Settles (fun pieces => Texts pieces ↔ element.name.text?.isSome = true)
      (graph.offence? .typescript (.type type)) (globalWords graph element type) := by
  unfold globalWords
  refine (settles_type graph .typescript type).map fun spelled _ => ?_
  simp [texts_constWords]

/-- The line of a function in WebIDL stops at the type of its result before those of its parameters,
and has a text by its name and theirs. -/
theorem WebIdl.settles_functionWords (graph : Graph) (element : Element) {signature : Signature}
    (hsound : signature.Sound) :
    Settles (fun pieces => Texts pieces ↔ AllTexts (element.name :: signature.parameterNames))
      ((graph.offence? .webidl (.type signature.returnType)).or
        (graph.firstOffence? .webidl (signature.parameterTypes.map .type)))
      (functionWords graph element signature) := by
  have hparameters := settles_parameters graph .webidl signature signature.parameterTypes 0
  rw [parameterNamesFrom_zero hsound.names] at hparameters
  unfold functionWords
  refine (settles_type graph .webidl signature.returnType).bind fun result _ =>
    hparameters.map fun parameters hparameters => ?_
  simp [hparameters]

/-- The line of a function in TypeScript stops at the types of its parameters before that of its
result, and has a text by its name and theirs. -/
theorem TypeScript.settles_functionWords (graph : Graph) (element : Element) {signature : Signature}
    (hsound : signature.Sound) :
    Settles (fun pieces => Texts pieces ↔ AllTexts (element.name :: signature.parameterNames))
      ((graph.firstOffence? .typescript (signature.parameterTypes.map .type)).or
        (graph.offence? .typescript (.type signature.returnType)))
      (functionWords graph element signature) := by
  have hparameters := settles_parameters graph .typescript signature signature.parameterTypes 0
  rw [parameterNamesFrom_zero hsound.names] at hparameters
  unfold functionWords
  refine hparameters.bind fun parameters hparameters =>
    (settles_type graph .typescript signature.returnType).map fun result _ => ?_
  simp [hparameters]

/-- **The opening lines of a declaration** are written unless a type or an integer stands against
it, and have a text by the words of the element. -/
theorem WebIdl.settles_opening (hsound : ∀ a, (graph.element a).body.Sound)
    (hsort : (graph.element h).body.sort? ≠ none) :
    Settles (fun lines => TextLines lines ↔ AllTexts (graph.words .webidl h))
      ((graph.firstOffence? .webidl ((graph.types .webidl h).map .type)).or
        (firstTooLong? (graph.integers .webidl h)))
      (opening graph (graph.element h)) := by
  have hbodySound := hsound h
  cases hbody : (graph.element h).body with
  | global type constant =>
    rw [hbody] at hbodySound
    have hwords := settles_globalWords graph (graph.element h) type hbodySound.2
    simp only [opening, hbody, types, integers, words, names, keys, List.map_cons, List.map_nil,
      firstOffence?_cons, firstOffence?_nil, Option.or_none, true_and]
    exact hwords.map fun words hwords => by simp [hwords]
  | enumeration =>
    have hvalues := settles_values hsound (fun entry => settles_value .webidl)
      (isEnumValue_of_enumValues graph (graph.element h).memberItems)
    simp only [opening, hbody, types, integers, words, names, keys, List.map_nil,
      firstOffence?_nil, Option.none_or]
    exact hvalues.map fun values hvalues => by simp [Line.opener, hvalues]
  | function signature =>
    rw [hbody] at hbodySound
    have hwords := settles_functionWords graph (graph.element h) hbodySound
    simp only [opening, hbody, types, integers, words, names, keys, List.map_cons,
      firstOffence?_cons, List.append_nil, firstTooLong?_nil, Option.or_none]
    refine hwords.map fun words hwords => ?_
    split
    · simp [hwords]
    · -- the header of the members shows the name once more
      simp +contextual [hwords, Line.opener]
  | classType links | interfaceType links =>
    simp only [opening, hbody, types, integers, words, names, keys, baseName]
    exact .ok (by simp [Line.opener])
  | nameSpace =>
    simp only [opening, hbody, types, integers, words, names, keys]
    exact .ok (by simp [Line.opener])
  | enumValue _ | functionPrototype _ | classPrototype _ => simp [hbody, Body.sort?] at hsort

/-- **The opening lines of a declaration** are written unless a type or an integer stands against
it, and have a text by the words of the element. -/
theorem TypeScript.settles_opening (hsound : ∀ a, (graph.element a).body.Sound)
    (hsort : (graph.element h).body.sort? ≠ none) :
    Settles (fun lines => TextLines lines ↔ AllTexts (graph.words .typescript h))
      ((graph.firstOffence? .typescript ((graph.types .typescript h).map .type)).or
        (firstTooLong? (graph.integers .typescript h)))
      (opening graph (graph.element h)) := by
  have hbodySound := hsound h
  have hheader := textLines_membersHeader (graph.element h)
  cases hbody : (graph.element h).body with
  | global type constant =>
    simp only [opening, hbody, types, integers, words, names, keys, List.map_cons, List.map_nil,
      firstOffence?_cons, firstOffence?_nil, Option.or_none]
    rw [if_neg (by simp), firstTooLong?_nil, Option.or_none]
    refine (settles_globalWords graph (graph.element h) type).map fun words hwords => ?_
    simp +contextual [hwords, hheader]
  | enumeration =>
    have hvalues := settles_values hsound (fun entry => settles_value .typescript)
      (isEnumValue_of_enumValues graph (graph.element h).memberItems)
    simp only [opening, hbody, types, integers, words, names, keys, List.map_nil,
      firstOffence?_nil, Option.none_or]
    refine hvalues.map fun values hvalues => ?_
    simp +contextual [Line.opener, Line.closer, hvalues, hheader]
  | function signature =>
    rw [hbody] at hbodySound
    have hwords := settles_functionWords graph (graph.element h) hbodySound
    simp only [opening, hbody, types, integers, words, names, keys, List.map_append, List.map_cons,
      List.map_nil, firstOffence?_append, firstOffence?_cons, firstOffence?_nil, Option.or_none,
      List.append_nil, firstTooLong?_nil]
    refine hwords.map fun words hwords => ?_
    simp +contextual [hwords, hheader]
  | classType links | interfaceType links =>
    simp only [opening, hbody, types, integers, words, names, keys]
    exact .ok (by simp [Line.opener, texts_classWords, texts_baseWords])
  | nameSpace =>
    simp only [opening, hbody, types, integers, words, names, keys, true_and]
    refine .ok ?_
    rw [hheader]
    split <;> simp [*]
  | enumValue _ | functionPrototype _ | classPrototype _ => simp [hbody, Body.sort?] at hsort

/-- **The opening lines of what is reached** are written unless `firstRefusal?` finds a demand that
is not met, and have a text by its words. -/
theorem settles_demands (dialect : Dialect) (hsound : ∀ a, (graph.element a).body.Sound)
    (hdeclarable : graph.isEnumValue h = true ∨ (graph.element h).body.sort? ≠ none) :
    Settles (fun lines => TextLines lines ↔ AllTexts (graph.words dialect h))
      (graph.firstRefusal? dialect (graph.demands dialect h)) (graph.opening dialect h) := by
  cases hvalue : graph.isEnumValue h with
  | true => exact settles_enumValue hvalue _
  | false =>
    have hsort := hdeclarable.resolve_left (by simp [hvalue])
    rw [firstRefusal?_demands, items, if_neg (by simp [hvalue])]
    cases dialect with
    | webidl => exact WebIdl.settles_opening hsound hsort
    | typescript => exact TypeScript.settles_opening hsound hsort

/-! ## Forests -/

/-- A declaration ends with one closing line at most, which is `Line.closer`. -/
theorem closing_eq (graph : Graph) (dialect : Dialect) (h : Handle) :
    graph.closing dialect h = [] ∨ graph.closing dialect h = [Line.closer] := by
  cases dialect with
  | webidl =>
    simp only [closing_webidl, WebIdl.closing]
    split
    · exact .inl rfl
    · split
      · exact .inl rfl
      · exact .inr rfl
    · exact .inr rfl
  | typescript =>
    simp only [closing_typescript, TypeScript.closing]
    split
    · split
      · exact .inl rfl
      · exact .inr rfl
    · exact .inr rfl
    · exact .inr rfl
    · split
      · exact .inl rfl
      · exact .inr rfl

/-- Closing lines are lines of texts. -/
theorem textLines_closing (graph : Graph) (dialect : Dialect) (h : Handle) :
    TextLines (graph.closing dialect h) := by
  rcases graph.closing_eq dialect h with hclosing | hclosing <;> simp [hclosing, Line.closer]

/-- **The lines of a forest** are written unless a demand of one of its elements is not met; the
first one in preorder counts. -/
theorem settles_forest (dialect : Dialect) {forest : Forest Handle}
    (hsound : ∀ a, (graph.element a).body.Sound)
    (hdeclarable : ∀ a ∈ forest.preorder,
      graph.isEnumValue a = true ∨ (graph.element a).body.sort? ≠ none) (level : Nat) :
    Settles (fun lines => TextLines lines ↔
        AllTexts (forest.preorder.flatMap (graph.words dialect)))
      (graph.firstRefusal? dialect (forest.preorder.flatMap (graph.demands dialect)))
      (graph.lines dialect level forest) := by
  induction forest generalizing level with
  | nil => exact .ok (by simp)
  | node h inside rest ihInside ihRest =>
    simp only [Forest.preorder_node, List.mem_cons, List.mem_append] at hdeclarable
    have hopening := settles_demands dialect hsound (hdeclarable h (.inl rfl))
    have hinside := ihInside (fun a ha => hdeclarable a (.inr (.inl ha))) (level + 1)
    have hrest := ihRest (fun a ha => hdeclarable a (.inr (.inr ha))) level
    simp only [Forest.preorder_node, List.flatMap_cons, List.flatMap_append, firstRefusal?_append,
      lines_node]
    refine hopening.bind fun opening hopening => hinside.bind fun within hwithin => hrest.map
      fun after hafter => ?_
    simp [hopening, hwithin, hafter, textLines_closing]

/-! ## The text -/

/-- The fragments of lines are texts when the lines are lines of texts:
`Texts (fragmentsOf lines) ↔ TextLines lines`. -/
theorem texts_fragmentsOf {lines : List Line} : Texts (fragmentsOf lines) ↔ TextLines lines := by
  induction lines with
  | nil => simp
  | cons line lines ih =>
    have hindentation : Texts (Line.indentation line.level) := by
      unfold Line.indentation
      split <;> simp
    simp [Line.fragments, hindentation, ih]

/-- Pieces have a joined text exactly when they are texts: `joined?` answers where `Texts` holds. -/
theorem isSome_joined? {pieces : List Fragment} : (joined? pieces).isSome = true ↔ Texts pieces := by
  rw [joined?, Option.isSome_map, isSome_mapM_iff]
  rfl

/-- The lines of the definitions have a joined text exactly when those of the declarations are
texts. -/
theorem isSome_page (dialect : Dialect) {lines : List Line} :
    (joined? (fragmentsOf (page dialect 0 lines))).isSome = true ↔ TextLines lines := by
  have haliases : TextLines (dialect.aliases.map (aliasLine 1)) := by
    intro line hline
    obtain ⟨entry, _, rfl⟩ := List.mem_map.mp hline
    simp [aliasLine]
  rw [isSome_joined?, texts_fragmentsOf]
  simp [page, haliases, Line.opener, Line.closer]

/-- In a well-sorted graph an element that is declared calls for a declaration, or is an enum
value. -/
theorem WellSorted.declarable (hs : graph.WellSorted) {m a : Handle} (ha : a ∈ graph.resolved m) :
    graph.isEnumValue a = true ∨ (graph.element a).body.sort? ≠ none := by
  cases harrivals : graph.arrivals? m with
  | none =>
    have hkind := (graph.arrivals?_eq_none_iff m).mp harrivals
    rw [resolved_of_enumValue hkind] at ha
    rw [List.mem_singleton.mp ha]
    exact .inl (decide_eq_true hkind)
  | some arrivals =>
    rw [← declares_of_arrivals? harrivals] at ha
    obtain ⟨arrival, harrival, ha⟩ := List.mem_flatMap.mp ha
    have hfits := hs.compiledSorted.fits harrivals arrival harrival
    cases arrival with
    | skip _ => simp [Arrival.declares] at ha
    | declare sort b =>
      rw [Arrival.declares, List.mem_singleton] at ha
      subst ha
      exact .inr (by rw [hfits]; simp)

/-- What stands against words: that one of them is no text. -/
def notText? (words : List Value) : Option RenderError :=
  if AllTexts words then none else some .notText

/-- **A rendering** of a well-sorted graph with sound bodies is stopped by the first demand of what
is reached that is not met, else by a word that is no text, and by nothing else. -/
theorem settles_render_of_demands (hs : graph.WellSorted)
    (hsound : ∀ a, (graph.element a).body.Sound) {forest : Forest Handle}
    (hforest : DepthFirst (graph.next dialect) [] graph.roots forest) :
    Settles (fun _ => True)
      ((graph.firstRefusal? dialect (forest.preorder.flatMap (graph.demands dialect))).or
        (notText? (forest.preorder.flatMap (graph.words dialect))))
      (graph.render dialect) := by
  have hdeclarable : ∀ a ∈ forest.preorder,
      graph.isEnumValue a = true ∨ (graph.element a).body.sort? ≠ none := by
    intro a ha
    obtain ⟨m, hm⟩ := exists_resolved_of_reached (hforest.mem_preorder_iff.mp ha)
    exact hs.declarable hm
  rw [render_eq hs.compiledSorted hforest]
  refine (settles_forest dialect hsound hdeclarable 1).bind fun lines hlines => ?_
  have hjoined : (joined? (fragmentsOf (page dialect 0 lines))).isSome = true ↔
      AllTexts (forest.preorder.flatMap (graph.words dialect)) := by
    rw [isSome_page, hlines]
  unfold notText?
  by_cases htexts : AllTexts (forest.preorder.flatMap (graph.words dialect))
  · obtain ⟨text, htext⟩ := Option.isSome_iff_exists.mp (hjoined.mpr htexts)
    rw [if_pos htexts, htext]
    exact .ok trivial
  · have hnone : joined? (fragmentsOf (page dialect 0 lines)) = none := by
      rw [← Option.not_isSome_iff_eq_none, hjoined]
      exact htexts
    rw [if_neg htexts, hnone]
    exact .fails

end Graph

end ModuleSurface
