import ModuleSurface.Proofs.Declarations

/-! # Elements that look alike

What a dialect shows of a declared element are its words and the members that it goes on to. Two
elements, each in its own graph, look alike when all this is the same: the handles of what they refer
to, the keys of members and what the dialect leaves out do not matter. What looks alike has the same
opening and closing lines.

* **`Graph.LooksAlike`** — what a dialect shows of two declared elements is the same.
* **`Graph.LooksAlike.opening`**, **`Graph.LooksAlike.closing`** — the lines of what looks alike. -/

namespace ModuleSurface

namespace Graph

/-! ## What is shown -/

section Shown

variable (dialect : Dialect) (graph graph' : Graph) (same : Handle → Handle → Prop)

/-- **Two entries of enums are shown alike**: by one key, and with one payload if they show it. -/
structure SameValue (entry entry' : Scalar × Handle) : Prop where
  key : (Value.scalar entry'.1).text? = (Value.scalar entry.1).text?
  inlined : (graph'.element entry'.2).flags.inlined = (graph.element entry.2).flags.inlined
  payload : (graph.element entry.2).flags.inlined = true →
    (graph'.element entry'.2).body = (graph.element entry.2).body

/-- **Two types are spelled alike**, each under the addressing width of its graph. -/
def SpelledAlike (type type' : Option ValueType) : Prop :=
  dialect.spellType graph'.is64Bit type' = dialect.spellType graph.is64Bit type

/-- **Two signatures look alike**: types that are spelled alike, and as many names. -/
structure SameSignature (signature signature' : Signature) : Prop where
  parameters : List.Forall₂ (SpelledAlike dialect graph graph') signature.parameterTypes
    signature'.parameterTypes
  names : signature'.names.map Value.text? = signature.names.map Value.text?
  result : SpelledAlike dialect graph graph' signature.returnType signature'.returnType

/-- **Two classes or interfaces look alike**. WebIDL shows their names only; TypeScript shows what
they are and the names of their bases as well. -/
structure SameClassWords (element element' : Element) (links links' : ClassLinks) : Prop where
  kind : dialect = .typescript → element'.kind = element.kind
  abstract : dialect = .typescript → element.kind = .classType →
    element'.flags.abstract = element.flags.abstract
  base : dialect = .typescript →
    links'.base.map (fun b => (graph'.element b).name.text?)
      = links.base.map fun b => (graph.element b).name.text?

/-- The members of two elements are matched in order. Their keys do not matter. -/
def SameMembers (element element' : Element) : Prop :=
  List.Forall₂ same (element.memberItems.map (·.2)) (element'.memberItems.map (·.2))

/-- **What a dialect shows of two declared elements is the same**, and the members that it goes on to
are matched. -/
inductive LooksAlike (element element' : Element) : Prop
  | global (type type' : Option ValueType) (constant constant' : Option Constant)
      (body : element.body = .global type constant) (body' : element'.body = .global type' constant')
      (inlined : element'.flags.inlined = element.flags.inlined)
      (type : SpelledAlike dialect graph graph' type type')
      (constant : dialect = .webidl → element.flags.inlined = true → constant' = constant)
      (members : dialect = .typescript → SameMembers same element element')
  | enumeration (body : element.body = .enumeration) (body' : element'.body = .enumeration)
      (values : List.Forall₂ (SameValue graph graph') (graph.enumValues element.memberItems)
        (graph'.enumValues element'.memberItems))
      (members : List.Forall₂ same (graph.otherMembers element.memberItems)
        (graph'.otherMembers element'.memberItems))
  | function (signature signature' : Signature) (body : element.body = .function signature)
      (body' : element'.body = .function signature')
      (signature : SameSignature dialect graph graph' signature signature')
      (members : SameMembers same element element')
  | classLike (links links' : ClassLinks) (body : element.body.classLinks? = some links)
      (body' : element'.body.classLinks? = some links')
      (words : SameClassWords dialect graph graph' element element' links links')
  | nameSpace (body : element.body = .nameSpace) (body' : element'.body = .nameSpace)
      (members : SameMembers same element element')

end Shown

variable {dialect : Dialect} {graph graph' : Graph} {same : Handle → Handle → Prop} {h h' : Handle}
  {element element' : Element}

/-! ## What looks alike is written alike -/

/-- Entries of enums that are shown alike have the same `valueWords`. -/
theorem SameValue.valueWords {entry entry' : Scalar × Handle}
    (hvalue : SameValue graph graph' entry entry') (dialect : Dialect) :
    graph'.valueWords dialect entry' = graph.valueWords dialect entry := by
  simp only [Graph.valueWords, hvalue.key, hvalue.inlined]
  split
  · rename_i hinlined
    rw [hvalue.payload hinlined]
  · rfl

/-- The names of the parameters are texts alike. -/
theorem SameSignature.parameterName {signature signature' : Signature}
    (hsignature : SameSignature dialect graph graph' signature signature') {place : Nat}
    (hplace : place < signature.parameterTypes.length) :
    (signature'.parameterName place).text? = (signature.parameterName place).text? := by
  have hnames := congrArg (·[place]?) hsignature.names
  have hlength := hsignature.parameters.length_eq
  simpa [Signature.names, hplace, hlength ▸ hplace] using hnames

/-- Types that are spelled alike, under names that are texts alike, have the same
`parameterWords`. -/
theorem parameterWords_congr {signature signature' : Signature}
    (hnames : ∀ place < signature.parameterTypes.length,
      (signature'.parameterName place).text? = (signature.parameterName place).text?)
    {types types' : List (Option ValueType)}
    (htypes : List.Forall₂ (SpelledAlike dialect graph graph') types types') (place : Nat)
    (hplace : place + types.length ≤ signature.parameterTypes.length) :
    parameterWords dialect graph'.is64Bit signature' place types'
      = parameterWords dialect graph.is64Bit signature place types := by
  induction htypes generalizing place with
  | nil => rfl
  | cons hfirst _ ih =>
    rw [List.length_cons] at hplace
    rw [parameterWords, parameterWords, hfirst, ih (place + 1) (by omega), hnames place (by omega)]

/-- The words in front of the names of classes are alike. -/
theorem SameClassWords.classWords {links links' : ClassLinks}
    (h : SameClassWords .typescript graph graph' element element' links links')
    (hlinks : element.body.classLinks? = some links) :
    TypeScript.classWords element' = TypeScript.classWords element := by
  unfold TypeScript.classWords
  rw [h.kind rfl]
  split
  · rfl
  · rename_i hkind
    have hclass : element.kind = .classType := by
      unfold Element.kind at hkind ⊢
      cases hbody : element.body <;> simp [hbody, Body.classLinks?, Body.kind] at hlinks hkind ⊢
    rw [h.abstract rfl hclass]

/-- The words that name the bases of classes are alike. -/
theorem SameClassWords.baseWords {links links' : ClassLinks}
    (h : SameClassWords .typescript graph graph' element element' links links') :
    TypeScript.baseWords graph' links'.base = TypeScript.baseWords graph links.base := by
  have hbase := h.base rfl
  cases hlinks : links.base <;> cases hlinks' : links'.base <;> rw [hlinks, hlinks'] at hbase
  · rfl
  · cases hbase
  · cases hbase
  · simp only [TypeScript.baseWords, Option.some.inj hbase]

/-- A class or an interface opens with its header. -/
theorem WebIdl.opening_of_classLinks? {graph : Graph} {element : Element} {links : ClassLinks}
    (hlinks : element.body.classLinks? = some links) :
    WebIdl.opening graph element
      = .ok [Line.opener 0 [some "interface ", element.name.text?]] := by
  unfold WebIdl.opening
  cases hbody : element.body <;> simp [hbody, Body.classLinks?] at hlinks ⊢

/-- A class or an interface opens with its header, which names the base. -/
theorem TypeScript.opening_of_classLinks? {graph : Graph} {element : Element} {links : ClassLinks}
    (hlinks : element.body.classLinks? = some links) :
    TypeScript.opening graph element = .ok [Line.opener 0
      (classWords element ++ [element.name.text?] ++ baseWords graph links.base)] := by
  unfold TypeScript.opening
  cases hbody : element.body <;> simp [hbody, Body.classLinks?] at hlinks ⊢ <;> rw [hlinks]

/-- Matched lists are empty together: `others = [] ↔ items = []`. -/
theorem nil_iff_of_forall₂ {α β : Type} {R : α → β → Prop} {items : List α} {others : List β}
    (h : List.Forall₂ R items others) : others = [] ↔ items = [] := by
  rw [← List.length_eq_zero_iff, ← List.length_eq_zero_iff, h.length_eq]

/-- Elements alike have members together: `element'.memberItems = [] ↔ element.memberItems = []`. -/
theorem SameMembers.nil_iff (h : SameMembers same element element') :
    element'.memberItems = [] ↔ element.memberItems = [] := by
  simpa using nil_iff_of_forall₂ h

namespace LooksAlike

/-- What looks alike calls for a declaration on both sides, by its `sort?`. -/
theorem sort? (h : LooksAlike dialect graph graph' same element element') :
    element.body.sort? ≠ none ∧ element'.body.sort? ≠ none := by
  have hclass {body : Body} {links : ClassLinks} (hlinks : body.classLinks? = some links) :
      body.sort? ≠ none := by
    cases body <;> simp [Body.classLinks?, Body.sort?] at hlinks ⊢
  cases h with
  | classLike _ _ body body' => exact ⟨hclass body, hclass body'⟩
  | _ => simp_all [Body.sort?]

/-- **Opening lines of what looks alike** in WebIDL are the same: `WebIdl.opening` depends on
nothing else. -/
theorem opening_webidl (halike : LooksAlike .webidl graph graph' same element element')
    (hname : element'.name.text? = element.name.text?) :
    WebIdl.opening graph' element' = WebIdl.opening graph element := by
  cases halike with
  | classLike _ _ body body' =>
    rw [WebIdl.opening_of_classLinks? body, WebIdl.opening_of_classLinks? body', hname]
  | global _ _ constant constant' body body' inlined spelled payload _ =>
    -- payloads are compared only where they are inlined
    have hpayload : WebIdl.payloadWords element' constant'
        = WebIdl.payloadWords element constant := by
      unfold WebIdl.payloadWords
      rw [inlined]
      cases hinlined : element.flags.inlined with
      | false => rfl
      | true => rw [payload rfl hinlined]
    have hspelled : Dialect.webidl.spellType _ _ = Dialect.webidl.spellType _ _ := spelled
    simp only [WebIdl.opening, body, body', WebIdl.globalWords, constWords, hspelled, hpayload,
      hname, inlined]
  | enumeration body body' values _ =>
    simp only [WebIdl.opening, body, body', hname,
      mapM_congr_forall₂ values fun _ _ hvalue => hvalue.valueWords .webidl]
  | function signature signature' body body' alike members =>
    have hresult : Dialect.webidl.spellType _ _ = Dialect.webidl.spellType _ _ := alike.result
    have hparameters := parameterWords_congr (fun place => alike.parameterName)
      alike.parameters 0 (by omega)
    simp only [WebIdl.opening, body, body', WebIdl.functionWords, hresult, hparameters, hname,
      members.nil_iff]
  | nameSpace body body' _ => simp only [WebIdl.opening, body, body', hname]

/-- **Opening lines of what looks alike** in TypeScript are the same: `TypeScript.opening` depends
on nothing else. -/
theorem opening_typescript (halike : LooksAlike .typescript graph graph' same element element')
    (hname : element'.name.text? = element.name.text?) :
    TypeScript.opening graph' element' = TypeScript.opening graph element := by
  have hheader {members members' : List Handle} (hmembers : List.Forall₂ same members members') :
      TypeScript.membersHeader element' members' = TypeScript.membersHeader element members := by
    simp only [TypeScript.membersHeader, nil_iff_of_forall₂ hmembers, hname]
  cases halike with
  | classLike _ _ body body' words =>
    rw [TypeScript.opening_of_classLinks? body, TypeScript.opening_of_classLinks? body', hname,
      words.classWords body, words.baseWords]
  | global _ _ _ _ body body' inlined spelled _ members =>
    have hspelled : Dialect.typescript.spellType _ _ = Dialect.typescript.spellType _ _ := spelled
    simp only [TypeScript.opening, body, body', TypeScript.globalWords, constWords, hspelled, hname,
      inlined, hheader (members rfl)]
  | enumeration body body' values members =>
    simp only [TypeScript.opening, body, body', hname,
      mapM_congr_forall₂ values fun _ _ hvalue => hvalue.valueWords .typescript, hheader members]
  | function signature signature' body body' alike members =>
    have hresult : Dialect.typescript.spellType _ _ = Dialect.typescript.spellType _ _ :=
      alike.result
    have hparameters := parameterWords_congr (fun place => alike.parameterName)
      alike.parameters 0 (by omega)
    simp only [TypeScript.opening, body, body', TypeScript.functionWords, hresult, hparameters,
      hname, hheader members]
  | nameSpace body body' members =>
    simp only [TypeScript.opening, body, body', hheader members]

/-- **Closing lines of what looks alike** in WebIDL are the same, by `WebIdl.closing`. -/
theorem closing_webidl (halike : LooksAlike .webidl graph graph' same element element') :
    WebIdl.closing element' = WebIdl.closing element := by
  cases halike with
  | classLike _ _ body body' =>
    have hclass {element : Element} {links : ClassLinks}
        (hlinks : element.body.classLinks? = some links) :
        WebIdl.closing element = [Line.closer] := by
      unfold WebIdl.closing
      cases hbody : element.body <;> simp [hbody, Body.classLinks?] at hlinks ⊢
    rw [hclass body, hclass body']
  | global _ _ _ _ body body' => simp only [WebIdl.closing, body, body']
  | enumeration body body' => simp only [WebIdl.closing, body, body']
  | function _ _ body body' _ members => simp only [WebIdl.closing, body, body', members.nil_iff]
  | nameSpace body body' => simp only [WebIdl.closing, body, body']

/-- **Closing lines of what looks alike** in TypeScript are the same, by `TypeScript.closing`. -/
theorem closing_typescript (halike : LooksAlike .typescript graph graph' same element element') :
    TypeScript.closing graph' element' = TypeScript.closing graph element := by
  cases halike with
  | classLike _ _ body body' =>
    have hclass {graph : Graph} {element : Element} {links : ClassLinks}
        (hlinks : element.body.classLinks? = some links) :
        TypeScript.closing graph element = [Line.closer] := by
      unfold TypeScript.closing
      cases hbody : element.body <;> simp [hbody, Body.classLinks?] at hlinks ⊢
    rw [hclass body, hclass body']
  | global _ _ _ _ body body' _ _ _ members =>
    simp only [TypeScript.closing, body, body', (members rfl).nil_iff]
  | enumeration body body' _ members =>
    simp only [TypeScript.closing, body, body', nil_iff_of_forall₂ members]
  | function _ _ body body' _ members =>
    simp only [TypeScript.closing, body, body', members.nil_iff]
  | nameSpace body body' members => simp only [TypeScript.closing, body, body', members.nil_iff]

/-- What looks alike opens alike in both dialects:
`graph'.opening dialect h' = graph.opening dialect h`. -/
theorem opening (halike : LooksAlike dialect graph graph' same (graph.element h) (graph'.element h'))
    (hname : (graph'.element h').name.text? = (graph.element h).name.text?) :
    graph'.opening dialect h' = graph.opening dialect h := by
  cases dialect with
  | webidl => exact halike.opening_webidl hname
  | typescript => exact halike.opening_typescript hname

/-- What looks alike closes alike in both dialects:
`graph'.closing dialect h' = graph.closing dialect h`. -/
theorem closing
    (halike : LooksAlike dialect graph graph' same (graph.element h) (graph'.element h')) :
    graph'.closing dialect h' = graph.closing dialect h := by
  cases dialect with
  | webidl => exact halike.closing_webidl
  | typescript => exact halike.closing_typescript

end LooksAlike

end Graph

end ModuleSurface
