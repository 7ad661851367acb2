import ModuleSurface.Proofs.Writes

/-! # What a declaration writes

A declaration writes its opening lines, what is declared inside it one level deeper, and its closing
lines. This file says so for each sort of declaration in both dialects, on the assumption that what
is inside is written by visiting the members that the declaration goes on to. -/

namespace ModuleSurface

/-- The sort of declaration that a body calls for. Prototypes and enum values call for none. -/
def Body.sort? : Body → Option DeclarationSort
  | .global .. => some .global
  | .enumeration => some .enumeration
  | .function _ => some .function
  | .classType _ => some .classType
  | .interfaceType _ => some .interfaceType
  | .nameSpace => some .nameSpace
  | .enumValue _ | .functionPrototype _ | .classPrototype _ => none

namespace Graph

open Build (Prints prints_push prints_pure prints_ofExcept_bind)

variable {graph : Graph} {found marked : List Handle} {out : Nat → Except RenderError (List Line)}
  {visit : Visitor}

/-- **The lines of a declaration** around what is written inside it. -/
def around (graph : Graph) (dialect : Dialect) (h : Handle)
    (out : Nat → Except RenderError (List Line)) (level : Nat) :
    Except RenderError (List Line) := do
  let opening ← graph.opening dialect h
  let within ← out (level + 1)
  return opening.map (Line.deeper level) ++ within ++ (graph.closing dialect h).map (Line.deeper level)

/-- **What is inside a declaration**: the lines that visiting its members writes; without members
there are none. -/
structure Inside (graph : Graph) (dialect : Dialect) (h : Handle) (visit : Visitor)
    (found marked : List Handle) (out : Nat → Except RenderError (List Line)) : Prop where
  writes : Writes graph found marked out (Build.each visit (graph.expanded dialect h))
  empty : graph.expanded dialect h = [] → marked = [] ∧ out = fun _ => .ok []

/-- The word in front of a constant, and what follows it. -/
theorem prints_const (element : Element) {act : Build Unit}
    {words : Except RenderError (List Fragment)} (hact : Prints act words) :
    Prints (if element.flags.inlined = true then Build.push [some "const "] >>= fun _ => act else act)
      (do return constWords element ++ (← words)) := by
  unfold constWords
  by_cases hinlined : element.flags.inlined = true
  · rw [if_pos hinlined, if_pos hinlined]
    exact hact.after_push _
  · rw [if_neg hinlined, if_neg hinlined]
    exact hact.congr (by simp)

/-- Parameters that are declared print their `parameterWords`. -/
theorem prints_parameters (graph : Graph) (dialect : Dialect) (signature : Signature)
    (types : List (Option ValueType)) (place : Nat) :
    Prints (graph.declareParameters dialect signature place types)
      (parameterWords dialect graph.is64Bit signature place types) := by
  induction types generalizing place with
  | nil => exact prints_pure
  | cons type rest ih =>
    have hrest := prints_ofExcept_bind (dialect.spellType graph.is64Bit type) fun spelled =>
      (ih (place + 1)).after_push
        (dialect.parameterPieces spelled (signature.parameterName place).text?)
    unfold declareParameters parameterWords commaBefore
    by_cases hplace : place = 0
    · subst hplace
      exact hrest
    · rw [if_pos hplace, if_neg hplace]
      refine (hrest.after_push [some ", "]).congr ?_
      simp only [bind_assoc, pure_bind, List.append_assoc]

/-- A block of members, left out where there are none. -/
theorem writes_memberBlock (header : List Fragment) (none : Prop) [Decidable none]
    {members : List Handle} (hwrites : Writes graph found marked out (Build.each visit members))
    (hempty : none → marked = [] ∧ out = fun _ => .ok []) :
    Writes graph found marked (fun level => do
      let within ← out (level + 1)
      return (if none then [] else [Line.opener level header]) ++ within
        ++ (if none then [] else [Line.closer.deeper level]))
      (if none then pure () else memberBlock visit header members) := by
  by_cases hnone : none
  · obtain ⟨rfl, rfl⟩ := hempty hnone
    simp only [hnone, if_true]
    exact Writes.pure.congr fun level => by simp [pure_eq_ok]
  · simp only [hnone, if_false]
    exact Writes.block header hwrites

/-! ## WebIDL -/

namespace WebIdl

/-- The payload of a constant is written behind it, as `payloadWords` has it. -/
theorem prints_payload (element : Element) (constant : Option Constant) {act : Build Unit}
    {words : Except RenderError (List Fragment)} (hact : Prints act words) :
    Prints (match element.flags.inlined, constant with
      | true, some constant => do
        let payload ← Build.ofExcept (constantText constant)
        Build.push [some " = ", some payload]
        act
      | _, _ => act) (do return (← payloadWords element constant) ++ (← words)) := by
  unfold payloadWords
  cases element.flags.inlined with
  | false => exact hact.congr (by simp)
  | true =>
    cases constant with
    | none => exact hact.congr (by simp)
    | some constant =>
      refine (prints_ofExcept_bind _ fun payload =>
        hact.after_push [some " = ", some payload]).congr ?_
      simp only [bind_assoc, pure_bind]

/-- A global is one line, with nothing inside: `declareGlobal` writes `graph.around .webidl`. -/
theorem writes_global {h : Handle} {type : Option ValueType} {constant : Option Constant}
    (hbody : (graph.element h).body = .global type constant)
    (hinside : Inside graph .webidl h visit found marked out) :
    Writes graph found marked (graph.around .webidl h out)
      (declareGlobal graph (graph.element h)) := by
  obtain ⟨rfl, rfl⟩ := hinside.empty (by simp [expanded, hbody])
  have hwords := prints_const (graph.element h) <| prints_ofExcept_bind
    (Dialect.webidl.spellType graph.is64Bit type) fun spelled =>
      (prints_payload (graph.element h) constant (prints_push [some ";\n"])).after_push
        [some spelled, some " ", (graph.element h).name.text?]
  unfold declareGlobal
  simp only [hbody]
  refine (Writes.ofPieces hwords).congr fun level => ?_
  simp [around, opening, closing, hbody, globalWords]

/-- An entry of an enum is a line. -/
theorem writes_value (entry : Scalar × Handle) :
    Writes graph found [] (fun level => do return [Line.mk level (← graph.valueWords .webidl entry)])
      (declareEnumValue graph entry) := by
  unfold declareEnumValue valueWords
  by_cases hinlined : (graph.element entry.2).flags.inlined = true
  · rw [if_pos hinlined, if_pos hinlined]
    refine (Writes.ofExcept_bind _ fun payload => Writes.line _).congr fun level => ?_
    simp [pure_eq_ok, valueFront, valueEnd]
  · rw [if_neg hinlined, if_neg hinlined]
    exact (Writes.line _).congr fun level => by simp [pure_eq_ok, valueFront, valueEnd]

/-- An enum lists its values, and its other members behind them, as `graph.around .webidl` has it.
-/
theorem writes_enum {h : Handle} (hbody : (graph.element h).body = .enumeration)
    (hinside : Inside graph .webidl h visit found marked out) :
    Writes graph found marked (graph.around .webidl h out)
      (declareEnum graph visit (graph.element h)) := by
  have hvalues := Writes.each (graph.enumValues (graph.element h).memberItems)
    (fun _ _ => declared_nil graph) fun entry _ =>
      show Writes graph found [] _ _ from writes_value entry
  have hothers := hinside.writes
  simp only [expanded, hbody] at hothers
  rw [show (graph.enumValues (graph.element h).memberItems).flatMap (fun _ => ([] : List Handle)) = []
    by simp] at hvalues
  have hblock := Writes.block [some "interface ", (graph.element h).name.text?]
    (Writes.bind_of_declared_nil rfl hvalues hothers)
  simp only [bind_assoc] at hblock
  refine hblock.congr fun level => ?_
  simp [around, opening, closing, hbody, List.map_map, Function.comp_def]

/-- A function is a line, and a block if it has members. -/
theorem writes_function {h : Handle} {signature : Signature}
    (hbody : (graph.element h).body = .function signature)
    (hinside : Inside graph .webidl h visit found marked out) :
    Writes graph found marked (graph.around .webidl h out)
      (declareFunction graph visit (graph.element h)) := by
  have hwords := prints_ofExcept_bind
    (Dialect.webidl.spellType graph.is64Bit signature.returnType) fun result =>
      ((prints_parameters graph .webidl signature signature.parameterTypes 0).bind
        (prints_push [some ");\n"])).after_push
          [some result, some " ", (graph.element h).name.text?, some "("]
  have hmembers := hinside.writes
  simp only [expanded, hbody] at hmembers
  have hblock := writes_memberBlock [some "interface ", (graph.element h).name.text?]
    ((graph.element h).memberItems = []) hmembers
    fun hnone => hinside.empty (by simp [expanded, hbody, hnone])
  have hboth := Writes.bind_of_declared_nil rfl (Writes.ofPieces hwords) hblock
  unfold declareFunction
  simp only [hbody, ne_eq, ite_not]
  simp only [bind_assoc] at hboth
  refine hboth.congr fun level => ?_
  simp [around, opening, closing, hbody, functionWords]
  split <;> simp

/-- A class is an empty block. -/
theorem writes_class {h : Handle} {links : ClassLinks}
    (hbody : (graph.element h).body = .classType links ∨
      (graph.element h).body = .interfaceType links)
    (hinside : Inside graph .webidl h visit found marked out) :
    Writes graph found marked (graph.around .webidl h out)
      (declareClass (graph.element h)) := by
  obtain ⟨rfl, rfl⟩ := hinside.empty (by rcases hbody with hbody | hbody <;> simp [expanded, hbody])
  have hempty : Writes graph found [] _ (pure ()) := Writes.pure
  have hblock := Writes.block [some "interface ", (graph.element h).name.text?] hempty
  unfold declareClass
  refine hblock.congr fun level => ?_
  rcases hbody with hbody | hbody <;> simp [around, opening, closing, hbody, pure_eq_ok]

/-- A namespace is a block. -/
theorem writes_nameSpace {h : Handle} (hbody : (graph.element h).body = .nameSpace)
    (hinside : Inside graph .webidl h visit found marked out) :
    Writes graph found marked (graph.around .webidl h out)
      (declareNameSpace visit (graph.element h)) := by
  have hwrites := hinside.writes
  simp only [expanded, hbody] at hwrites
  refine (Writes.block [some "interface ", (graph.element h).name.text?] hwrites).congr
    fun level => ?_
  simp [around, opening, closing, hbody]

end WebIdl

/-! ## TypeScript -/

namespace TypeScript

/-- The members of a declaration stand in a namespace of its name, which `membersHeader` opens. -/
theorem writes_members {h : Handle}
    (hexpanded : graph.expanded .typescript h = (graph.element h).memberItems.map (·.2))
    (hinside : Inside graph .typescript h visit found marked out) :
    Writes graph found marked (fun level => do
      let within ← out (level + 1)
      return (if (graph.element h).memberItems = [] then []
          else [Line.opener level [some "namespace ", (graph.element h).name.text?]]) ++ within
        ++ (if (graph.element h).memberItems = [] then [] else [Line.closer.deeper level]))
      (declareMembers visit (graph.element h)) :=
  writes_memberBlock _ _ (hexpanded ▸ hinside.writes)
    fun hnone => hinside.empty (by rw [hexpanded, hnone, List.map_nil])

/-- A global is one line, and a namespace if it has members: `declareGlobal` writes
`graph.around .typescript`. -/
theorem writes_global {h : Handle} {type : Option ValueType} {constant : Option Constant}
    (hbody : (graph.element h).body = .global type constant)
    (hinside : Inside graph .typescript h visit found marked out) :
    Writes graph found marked (graph.around .typescript h out)
      (declareGlobal graph visit (graph.element h)) := by
  have hwords := prints_const (graph.element h) <| prints_ofExcept_bind
    (Dialect.typescript.spellType graph.is64Bit type) fun spelled =>
      prints_push [(graph.element h).name.text?, some ": ", some spelled, some ";\n"]
  have hmembers := writes_members (by simp [expanded, hbody]) hinside
  have hboth := Writes.bind_of_declared_nil rfl (Writes.ofPieces hwords) hmembers
  unfold declareGlobal
  simp only [hbody]
  simp only [bind_assoc, ite_bind] at hboth
  refine hboth.congr fun level => ?_
  simp [around, opening, closing, hbody, globalWords, membersHeader]
  split <;> simp

/-- An entry of an enum is a line, and its value counts as declared: `declareEnumValue` marks
`entry.2`. -/
theorem writes_value {entry : Scalar × Handle} (hvalue : graph.isEnumValue entry.2 = true) :
    Writes graph found [entry.2]
      (fun level => do return [Line.mk level (← graph.valueWords .typescript entry)])
      (declareEnumValue graph entry) := by
  have hpayload := prints_ofExcept_bind (enumValueText (graph.element entry.2).body)
    fun payload => (prints_push [some ",\n"]).after_push [some " = ", some payload]
  have hwords : Prints (do
      Build.push [(Value.scalar entry.1).text?]
      if (graph.element entry.2).flags.inlined = true then do
        let payload ← Build.ofExcept (enumValueText (graph.element entry.2).body)
        Build.push [some " = ", some payload]
        Build.push [some ",\n"]
      else Build.push [some ",\n"]) (graph.valueWords .typescript entry) := by
    unfold valueWords
    by_cases hinlined : (graph.element entry.2).flags.inlined = true
    · rw [if_pos hinlined, if_pos hinlined]
      refine (hpayload.after_push [(Value.scalar entry.1).text?]).congr ?_
      simp only [ok_bind, bind_assoc, pure_bind, List.cons_append, List.nil_append, valueFront,
        valueEnd]
    · rw [if_neg hinlined, if_neg hinlined]
      exact (prints_push [some ",\n"]).after_push [(Value.scalar entry.1).text?]
  exact Writes.mark_value hvalue (Writes.ofPieces hwords)

/-- An enum lists its values; its other members stand in a namespace of its name. -/
theorem writes_enum {h : Handle} (hbody : (graph.element h).body = .enumeration)
    (hinside : Inside graph .typescript h visit found marked out) :
    Writes graph found ((graph.enumValues (graph.element h).memberItems).map (·.2) ++ marked)
      (graph.around .typescript h out) (declareEnum graph visit (graph.element h)) := by
  have hentries : ∀ entry ∈ graph.enumValues (graph.element h).memberItems,
      graph.isEnumValue entry.2 = true := fun _ hentry => (List.mem_filter.mp hentry).2
  have hvalues := Writes.each (graph.enumValues (graph.element h).memberItems)
    (fun entry hentry => by simp [declared, hentries entry hentry])
    fun entry hentry => show Writes graph found [entry.2] _ _ from
      writes_value (hentries entry hentry)
  rw [← List.map_eq_flatMap] at hvalues
  -- the values are marked, but an enum value is never a declared element
  have hmarks : graph.declared ((graph.enumValues (graph.element h).memberItems).map (·.2)) = [] :=
    declared_eq_nil fun a ha => by
      obtain ⟨entry, hentry, rfl⟩ := List.mem_map.mp ha
      exact hentries entry hentry
  have hothers := hinside.writes
  simp only [expanded, hbody] at hothers
  have hmembers := writes_memberBlock [some "namespace ", (graph.element h).name.text?]
    (graph.otherMembers (graph.element h).memberItems = []) hothers
    fun hnone => hinside.empty (by simp [expanded, hbody, hnone])
  have hboth := Writes.bind_of_declared_nil hmarks
    (Writes.block [some "enum ", (graph.element h).name.text?] hvalues) hmembers
  unfold declareEnum
  simp only [ne_eq, ite_not]
  simp only [bind_assoc] at hboth
  refine hboth.congr fun level => ?_
  simp [around, opening, closing, hbody, membersHeader, List.map_map, Function.comp_def]
  split <;> simp

/-- A function is one line, and a namespace if it has members. -/
theorem writes_function {h : Handle} {signature : Signature}
    (hbody : (graph.element h).body = .function signature)
    (hinside : Inside graph .typescript h visit found marked out) :
    Writes graph found marked (graph.around .typescript h out)
      (declareFunction graph visit (graph.element h)) := by
  have hresult := prints_ofExcept_bind
    (Dialect.typescript.spellType graph.is64Bit signature.returnType) fun result =>
      prints_push [some "): ", some result, some ";\n"]
  have hwords := ((prints_parameters graph .typescript signature signature.parameterTypes 0).bind
    hresult).after_push [some "function ", (graph.element h).name.text?, some "("]
  have hmembers := writes_members (by simp [expanded, hbody]) hinside
  have hboth := Writes.bind_of_declared_nil rfl (Writes.ofPieces hwords) hmembers
  unfold declareFunction
  simp only [hbody]
  simp only [bind_assoc] at hboth
  refine hboth.congr fun level => ?_
  simp [around, opening, closing, hbody, functionWords, membersHeader]
  split <;> simp

/-- A class is an empty block. -/
theorem writes_class {h : Handle} {links : ClassLinks}
    (hbody : (graph.element h).body = .classType links ∨
      (graph.element h).body = .interfaceType links)
    (hinside : Inside graph .typescript h visit found marked out) :
    Writes graph found marked (graph.around .typescript h out)
      (declareClass graph (graph.element h)) := by
  obtain ⟨rfl, rfl⟩ := hinside.empty (by rcases hbody with hbody | hbody <;> simp [expanded, hbody])
  have hempty : Writes graph found [] _ (pure ()) := Writes.pure
  have hblock := Writes.block (classWords (graph.element h) ++ [(graph.element h).name.text?]
    ++ baseWords graph links.base) hempty
  unfold declareClass
  rcases hbody with hbody | hbody <;>
    simp only [hbody, Body.classLinks?] <;>
    exact hblock.congr fun level => by simp [around, opening, closing, hbody, pure_eq_ok]

/-- A namespace is its members. -/
theorem writes_nameSpace {h : Handle} (hbody : (graph.element h).body = .nameSpace)
    (hinside : Inside graph .typescript h visit found marked out) :
    Writes graph found marked (graph.around .typescript h out)
      (declareMembers visit (graph.element h)) := by
  refine (writes_members (by simp [expanded, hbody]) hinside).congr fun level => ?_
  simp [around, opening, closing, hbody, membersHeader]
  split <;> simp

end TypeScript

/-! ## Both dialects -/

/-- A body of a sort is no enum value: `isEnumValue h = false`. -/
theorem isEnumValue_of_sort? {h : Handle} {sort : DeclarationSort}
    (hsort : (graph.element h).body.sort? = some sort) : graph.isEnumValue h = false := by
  cases hbody : (graph.element h).body <;>
    simp [isEnumValue, Element.kind, Body.kind, hbody, Body.sort?] at hsort ⊢

/-- **A declaration of a new element** marks `graph.markedBy dialect h` and writes its lines around
what is inside. -/
theorem writes_declare {dialect : Dialect} {h : Handle} {sort : DeclarationSort}
    (hsort : (graph.element h).body.sort? = some sort) (hnew : h ∉ found)
    (hinside : Inside graph dialect h visit (found ++ [h]) marked out) :
    Writes graph found (graph.markedBy dialect h ++ marked) (graph.around dialect h out)
      (graph.declare dialect visit sort h) := by
  have hkind := isEnumValue_of_sort? hsort
  unfold markedBy
  rw [List.cons_append]
  cases dialect with
  | webidl =>
    refine Writes.mark_fresh hkind hnew ?_
    rw [if_neg (by simp), List.nil_append]
    cases hbody : (graph.element h).body <;> rw [hbody] at hsort <;> cases hsort
    case global.refl type constant => exact WebIdl.writes_global hbody hinside
    case enumeration.refl => exact WebIdl.writes_enum hbody hinside
    case function.refl signature => exact WebIdl.writes_function hbody hinside
    case classType.refl links => exact WebIdl.writes_class (.inl hbody) hinside
    case interfaceType.refl links => exact WebIdl.writes_class (.inr hbody) hinside
    case nameSpace.refl => exact WebIdl.writes_nameSpace hbody hinside
  | typescript =>
    refine Writes.mark_fresh hkind hnew ?_
    cases hbody : (graph.element h).body <;> rw [hbody] at hsort <;> cases hsort
    -- an enum is the only declaration that marks more than itself
    case enumeration.refl =>
      rw [if_pos ⟨rfl, by rw [Element.kind, hbody]; rfl⟩]
      exact TypeScript.writes_enum hbody hinside
    all_goals rw [if_neg (by simp [Element.kind, hbody, Body.kind]), List.nil_append]
    case global.refl type constant => exact TypeScript.writes_global hbody hinside
    case function.refl signature => exact TypeScript.writes_function hbody hinside
    case classType.refl links => exact TypeScript.writes_class (.inl hbody) hinside
    case interfaceType.refl links => exact TypeScript.writes_class (.inr hbody) hinside
    case nameSpace.refl => exact TypeScript.writes_nameSpace hbody hinside

/-- **A declaration of a declared element** writes nothing and marks nothing. -/
theorem writes_declare_again {dialect : Dialect} {h : Handle} (sort : DeclarationSort)
    (hold : h ∈ found) :
    Writes graph found [] (fun _ => .ok []) (graph.declare dialect visit sort h) := by
  cases dialect with
  | webidl => exact Writes.mark_again hold
  | typescript => exact Writes.mark_again hold

end Graph

end ModuleSurface
