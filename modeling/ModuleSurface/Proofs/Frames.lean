import ModuleSurface.Proofs.Walk

/-! # What a declaration does around its members

A declaration visits its members one after the other, and neither what it does before nor what it
does behind depends on how members are visited. So two builds that differ in their visits can be
compared member by member, and a build that fails can be asked how far it got.

* **`Build.Steps`** — a step that goes deeper and marks elements, or fails on the way.
* **`Graph.Framed`** — a declaration as the visits of its members between two steps. -/

namespace ModuleSurface

namespace Build

variable {α β : Type} {deeper deeper' : Int} {marked marked' : List Handle}

/-- **What a step leaves** that goes some levels deeper and marks elements: all of them, or the first
ones of them if it fails. -/
inductive Leaves (deeper : Int) (marked : List Handle) (before : BuildState) :
    EStateM.Result RenderError BuildState α → Prop
  | ok {a : α} {after : BuildState} (depth : after.text.depth = before.text.depth + deeper)
      (indentUnit : after.text.indentUnit = before.text.indentUnit)
      (visited : after.visited = marked.foldl markIn before.visited) :
      Leaves deeper marked before (.ok a after)
  | error {cause : RenderError} {after : BuildState} (part : List Handle) (first : part <+: marked)
      (visited : after.visited = part.foldl markIn before.visited) :
      Leaves deeper marked before (.error cause after)

/-- **A step that goes deeper and marks elements**, whatever the state is. -/
def Steps (deeper : Int) (marked : List Handle) (act : Build α) : Prop :=
  ∀ state, Leaves deeper marked state (act state)

namespace Steps

/-- A step that does nothing is quiet. -/
theorem pure (a : α) : Steps 0 [] (Pure.pure a : Build α) :=
  fun _ => .ok (by simp) rfl rfl

/-- A step that fails is whatever one likes, since it ends no step. -/
theorem throw (cause : RenderError) : Steps deeper marked (MonadExcept.throw cause : Build α) :=
  fun _ => .error [] List.nil_prefix rfl

/-- A result that is passed on is quiet. -/
theorem ofExcept (result : Except RenderError α) : Steps 0 [] (Build.ofExcept result) := by
  cases result with
  | ok a => exact pure a
  | error cause => exact throw cause

/-- A step after a step goes `deeper + deeper'` and marks `marked ++ marked'`. -/
theorem bind {act : Build α} {next : α → Build β} (h : Steps deeper marked act)
    (h' : ∀ a, Steps deeper' marked' (next a)) :
    Steps (deeper + deeper') (marked ++ marked') (act >>= next) := by
  intro state
  rw [stateBind_apply]
  have hfirst := h state
  -- a failing first step leaves a part of its marks, a failing second one all of the first and a
  -- part of its own
  cases hrun : act state with
  | error cause after =>
    rw [hrun] at hfirst
    cases hfirst with
    | error part first visited => exact .error part (first.trans (List.prefix_append _ _)) visited
  | ok a middle =>
    rw [hrun] at hfirst
    cases hfirst with
    | ok depth indentUnit visited =>
      have hsecond := h' a middle
      show Leaves _ _ _ (next a middle)
      cases hrun' : next a middle with
      | error cause after =>
        rw [hrun'] at hsecond
        cases hsecond with
        | error part first visited' =>
          refine .error (marked ++ part) ((List.prefix_append_right_inj _).mpr first) ?_
          rw [visited', visited, List.foldl_append]
      | ok b after =>
        rw [hrun'] at hsecond
        cases hsecond with
        | ok depth' indentUnit' visited' =>
          refine .ok (by omega) (indentUnit'.trans indentUnit) ?_
          rw [visited', visited, List.foldl_append]

/-- A quiet step before another one. -/
theorem after {act : Build α} {next : α → Build β} (h : Steps 0 [] act)
    (h' : ∀ a, Steps deeper marked (next a)) : Steps deeper marked (act >>= next) := by
  simpa using h.bind h'

/-- A quiet step behind another one. -/
theorem before {act : Build α} {next : α → Build β} (h : Steps deeper marked act)
    (h' : ∀ a, Steps 0 [] (next a)) : Steps deeper marked (act >>= next) := by
  simpa using h.bind h'

/-- A choice between two steps of one sort is a step of that sort. -/
theorem ite {c : Prop} [Decidable c] {act act' : Build α} (h : Steps deeper marked act)
    (h' : Steps deeper marked act') : Steps deeper marked (if c then act else act') := by
  split
  · exact h
  · exact h'

/-- Pushing pieces is quiet. -/
theorem push (pieces : List Fragment) : Steps 0 [] (Build.push pieces) :=
  fun state => .ok (by simp [IndentedText.push]) rfl rfl

/-- Writing the indentation is quiet. -/
theorem indent : Steps 0 [] Build.indent :=
  fun state => .ok
    (show state.text.indent.depth = _ by simp) (IndentedText.indentUnit_indent state.text) rfl

/-- Writing a line is quiet. -/
theorem line (pieces : List Fragment) : Steps 0 [] (Build.line pieces) :=
  fun state => .ok
    (show (state.text.line pieces).depth = _ by simp)
    (show (state.text.line pieces).indentUnit = _ by simp [IndentedText.line]) rfl

/-- Opening a block goes one deeper. -/
theorem openBlock (header : List Fragment) : Steps 1 [] (Build.openBlock header) :=
  fun state => .ok (state.text.depth_openBlock header) (state.text.indentUnit_openBlock header) rfl

/-- Closing a block comes one back. -/
theorem closeBlock : Steps (-1) [] Build.closeBlock :=
  fun state => .ok (state.text.depth_closeBlock _)
    (show (state.text.closeBlock (some "")).indentUnit = _ by
      simp [IndentedText.closeBlock, IndentedText.line]) rfl

/-- An entry in the log is quiet. -/
theorem log (entry : LogEntry) : Steps 0 [] (Build.log entry) :=
  fun _ => .ok (by simp) rfl rfl

/-- Marking an element marks it. -/
theorem mark (h : Handle) : Steps 0 [h] (Build.mark h) := by
  intro state
  by_cases hmem : h ∈ state.visited
  · have hrun : Build.mark h state = .ok false state := by
      show (if h ∈ state.visited then _ else _ : Build Bool) state = _
      rw [if_pos hmem]
      rfl
    rw [hrun]
    exact .ok (by simp) rfl (by simp [markIn, hmem])
  · have hrun : Build.mark h state = .ok true { state with visited := state.visited ++ [h] } := by
      show (if h ∈ state.visited then _ else _ : Build Bool) state = _
      rw [if_neg hmem]
      rfl
    rw [hrun]
    exact .ok (by simp) rfl (by simp [markIn, hmem])

/-- A step for every item marks what the items mark, `items.flatMap marks`. -/
theorem each {step : α → Build Unit} {marks : α → List Handle} (h : ∀ a, Steps 0 (marks a) (step a))
    (items : List α) : Steps 0 (items.flatMap marks) (Build.each step items) := by
  induction items with
  | nil => exact pure ()
  | cons a items ih => simpa using (h a).bind fun _ => ih

end Steps

end Build

namespace Graph

open Build (Steps)

variable {graph : Graph} {dialect : Dialect} {h : Handle}

/-- **What a declaration does** with an element that it has just marked. -/
def declaration (graph : Graph) : Dialect → DeclarationSort → Handle → Visitor → Build Unit
  | .webidl, .global, h, _ => WebIdl.declareGlobal graph (graph.element h)
  | .webidl, .enumeration, h, visit => WebIdl.declareEnum graph visit (graph.element h)
  | .webidl, .function, h, visit => WebIdl.declareFunction graph visit (graph.element h)
  | .webidl, .classType, h, _ | .webidl, .interfaceType, h, _ => WebIdl.declareClass (graph.element h)
  | .webidl, .nameSpace, h, visit => WebIdl.declareNameSpace visit (graph.element h)
  | .typescript, .global, h, visit => TypeScript.declareGlobal graph visit (graph.element h)
  | .typescript, .enumeration, h, visit => TypeScript.declareEnum graph visit (graph.element h)
  | .typescript, .function, h, visit => TypeScript.declareFunction graph visit (graph.element h)
  | .typescript, .classType, h, _ | .typescript, .interfaceType, h, _ =>
    TypeScript.declareClass graph (graph.element h)
  | .typescript, .nameSpace, h, visit => TypeScript.declareMembers visit (graph.element h)

/-- A declaration goes on where `mark` finds its element for the first time. -/
theorem declare_eq (graph : Graph) (dialect : Dialect) (visit : Visitor) (sort : DeclarationSort)
    (h : Handle) : graph.declare dialect visit sort h
      = (do if ← Build.mark h then graph.declaration dialect sort h visit) := by
  cases dialect <;> cases sort <;> rfl

/-- **A declaration around its members**: a step that marks elements, the visits of the members, and
an end that does not fail. -/
structure Framed (marked members : List Handle) (act : Visitor → Build Unit) : Prop where
  intro ::
  parts : ∃ (front back : Build Unit) (deeper : Nat), Steps deeper marked front ∧
    (∀ state, ∃ after : BuildState, back state = .ok () after ∧ after.visited = state.visited) ∧
    ∀ visit, act visit = (do front; Build.each visit members; back)

namespace Framed

variable {marked members : List Handle}

/-- A step that does nothing ends. -/
theorem pure_ends (state : BuildState) :
    ∃ after : BuildState, (pure () : Build Unit) state = .ok () after ∧
      after.visited = state.visited :=
  ⟨state, rfl, rfl⟩

/-- Closing a block ends, and marks nothing. -/
theorem closeBlock_ends (state : BuildState) :
    ∃ after : BuildState, Build.closeBlock state = .ok () after ∧ after.visited = state.visited :=
  ⟨_, rfl, rfl⟩

/-- A step alone, with no members. -/
theorem alone {front : Build Unit} (hfront : Steps 0 marked front) :
    Framed marked [] fun _ => front :=
  ⟨front, pure (), 0, hfront, pure_ends, fun _ => by simp⟩

/-- A step, and then a block of the members, left out where there are none. -/
theorem block {front : Build Unit} (hfront : Steps 0 marked front) (header : List Fragment) :
    Framed marked members fun visit =>
      (front >>= fun _ => if members = [] then pure () else memberBlock visit header members) := by
  by_cases hmembers : members = []
  · subst hmembers
    exact ⟨front, pure (), 0, hfront, pure_ends, fun _ => by simp⟩
  · refine ⟨front >>= fun _ => Build.openBlock header, Build.closeBlock, 1, ?_, closeBlock_ends,
      fun visit => ?_⟩
    · simpa using hfront.bind fun _ => Steps.openBlock header
    · simp only [if_neg hmembers, memberBlock, bind_assoc]

/-- What does the same with every visitor is framed alike. -/
theorem congr {act act' : Visitor → Build Unit} (hframed : Framed marked members act)
    (heq : ∀ visit, act' visit = act visit) : Framed marked members act' := by
  obtain rfl : act' = act := funext heq
  exact hframed

end Framed

/-- The parameters of a function, as `declareParameters` writes them, are quiet. -/
theorem steps_parameters (graph : Graph) (dialect : Dialect) (signature : Signature)
    (types : List (Option ValueType)) (place : Nat) :
    Steps 0 [] (graph.declareParameters dialect signature place types) := by
  induction types generalizing place with
  | nil => exact Steps.pure ()
  | cons type types ih =>
    have hrest := (Steps.ofExcept (dialect.spellType graph.is64Bit type)).after fun spelled =>
      (Steps.push (dialect.parameterPieces spelled (signature.parameterName place).text?)).after
        fun _ => ih (place + 1)
    unfold declareParameters
    exact Steps.ite ((Steps.push _).after fun _ => hrest) hrest

/-! ## WebIDL -/

namespace WebIdl

/-- A global in WebIDL has no members to go on to. -/
theorem framed_global (h : Handle) :
    Framed [] [] fun _ => declareGlobal graph (graph.element h) := by
  refine Framed.alone ?_
  unfold declareGlobal
  split
  case h_1 type constant _ =>
    have hend : Steps 0 [] (Build.push [some ";\n"]) := Steps.push _
    refine Steps.indent.after fun _ => Steps.ite ((Steps.push _).after fun _ => ?_) ?_
    all_goals
      refine (Steps.ofExcept _).after fun _ => (Steps.push _).after fun _ => ?_
      split
      · exact (Steps.ofExcept _).after fun _ => (Steps.push _).after fun _ => hend
      · exact hend
  case h_2 => exact Steps.throw _

/-- An entry of an enum in WebIDL is quiet. -/
theorem steps_value (graph : Graph) (entry : Scalar × Handle) :
    Steps 0 [] (declareEnumValue graph entry) := by
  unfold declareEnumValue
  exact Steps.ite ((Steps.ofExcept _).after fun _ => Steps.line _) (Steps.line _)

/-- An enum in WebIDL goes on to the members that are no values, `otherMembers`. -/
theorem framed_enum (h : Handle) :
    Framed [] (graph.otherMembers (graph.element h).memberItems)
      fun visit => declareEnum graph visit (graph.element h) := by
  have hvalues := Steps.each (steps_value graph) (graph.enumValues (graph.element h).memberItems)
  rw [List.flatMap_eq_nil_iff.mpr fun _ _ => rfl] at hvalues
  have hfront := (Steps.openBlock [some "interface ", (graph.element h).name.text?]).before
    fun _ => hvalues
  refine ⟨_, Build.closeBlock, 1, hfront, Framed.closeBlock_ends, fun visit => ?_⟩
  simp only [declareEnum, bind_assoc]

/-- A function in WebIDL goes on to its members. -/
theorem framed_function (h : Handle) {signature : Signature}
    (hbody : (graph.element h).body = .function signature) :
    Framed [] ((graph.element h).memberItems.map (·.2))
      fun visit => declareFunction graph visit (graph.element h) := by
  have hfront := Steps.indent.after fun _ =>
    (Steps.ofExcept (Dialect.webidl.spellType graph.is64Bit signature.returnType)).after
      fun result => (Steps.push
        [some result, some " ", (graph.element h).name.text?, some "("]).after fun _ =>
          (steps_parameters graph .webidl signature signature.parameterTypes 0).after fun _ =>
            Steps.push [some ");\n"]
  refine (Framed.block hfront [some "interface ", (graph.element h).name.text?]).congr
    fun visit => ?_
  simp only [declareFunction, hbody, bind_assoc, ne_eq, ite_not, List.map_eq_nil_iff]

/-- A class in WebIDL has no members to go on to. -/
theorem framed_class (h : Handle) :
    Framed [] [] fun _ => declareClass (graph.element h) :=
  Framed.alone ((Steps.openBlock _).bind fun _ => Steps.closeBlock)

/-- A namespace in WebIDL goes on to its members. -/
theorem framed_nameSpace (h : Handle) :
    Framed [] ((graph.element h).memberItems.map (·.2))
      fun visit => declareNameSpace visit (graph.element h) :=
  ⟨_, Build.closeBlock, 1, Steps.openBlock [some "interface ", (graph.element h).name.text?],
    Framed.closeBlock_ends, fun _ => rfl⟩

end WebIdl

/-! ## TypeScript -/

namespace TypeScript

/-- A step, and then the members in a namespace, as `declareMembers` has it. -/
theorem framed_members {front : Build Unit} (hfront : Steps 0 [] front) (element : Element) :
    Framed [] (element.memberItems.map (·.2))
      fun visit => (front >>= fun _ => declareMembers visit element) := by
  refine (Framed.block hfront [some "namespace ", element.name.text?]).congr fun visit => ?_
  simp only [declareMembers, List.map_eq_nil_iff]

/-- A global in TypeScript goes on to its members. -/
theorem framed_global (h : Handle) {type : Option ValueType} {constant : Option Constant}
    (hbody : (graph.element h).body = .global type constant) :
    Framed [] ((graph.element h).memberItems.map (·.2))
      fun visit => declareGlobal graph visit (graph.element h) := by
  have hspelled := (Steps.ofExcept (Dialect.typescript.spellType graph.is64Bit type)).after
    fun spelled => Steps.push [(graph.element h).name.text?, some ": ", some spelled, some ";\n"]
  have hfront := Steps.indent.after fun _ => Steps.ite (c := (graph.element h).flags.inlined = true)
    ((Steps.push [some "const "]).after fun _ => hspelled) hspelled
  refine (framed_members hfront (graph.element h)).congr fun visit => ?_
  simp only [declareGlobal, hbody, bind_assoc, ite_bind]

/-- An entry of an enum in TypeScript marks its value, `entry.2`. -/
theorem steps_value (graph : Graph) (entry : Scalar × Handle) :
    Steps 0 [entry.2] (declareEnumValue graph entry) := by
  unfold declareEnumValue
  have hend : Steps 0 [] (Build.push [some ",\n"]) := Steps.push _
  exact (Steps.mark entry.2).before fun _ => Steps.indent.after fun _ => (Steps.push _).after
    fun _ => Steps.ite ((Steps.ofExcept _).after fun _ => (Steps.push _).after fun _ => hend) hend

/-- An enum in TypeScript marks its values, and goes on to the other members. -/
theorem framed_enum (h : Handle) :
    Framed ((graph.enumValues (graph.element h).memberItems).map (·.2))
      (graph.otherMembers (graph.element h).memberItems)
      fun visit => declareEnum graph visit (graph.element h) := by
  have hvalues := Steps.each (steps_value graph) (graph.enumValues (graph.element h).memberItems)
  rw [← List.map_eq_flatMap] at hvalues
  have hblock := (Steps.openBlock [some "enum ", (graph.element h).name.text?]).bind
    fun _ => hvalues.bind fun _ => Steps.closeBlock
  rw [List.nil_append, List.append_nil] at hblock
  refine (Framed.block hblock [some "namespace ", (graph.element h).name.text?]).congr
    fun visit => ?_
  simp only [declareEnum, bind_assoc, ne_eq, ite_not]

/-- A function in TypeScript goes on to its members. -/
theorem framed_function (h : Handle) {signature : Signature}
    (hbody : (graph.element h).body = .function signature) :
    Framed [] ((graph.element h).memberItems.map (·.2))
      fun visit => declareFunction graph visit (graph.element h) := by
  have hresult := (Steps.ofExcept
    (Dialect.typescript.spellType graph.is64Bit signature.returnType)).after fun result =>
      Steps.push [some "): ", some result, some ";\n"]
  have hfront := Steps.indent.after fun _ =>
    (Steps.push [some "function ", (graph.element h).name.text?, some "("]).after fun _ =>
      (steps_parameters graph .typescript signature signature.parameterTypes 0).after fun _ => hresult
  refine (framed_members hfront (graph.element h)).congr fun visit => ?_
  simp only [declareFunction, hbody, bind_assoc]

/-- A class in TypeScript has no members to go on to. -/
theorem framed_class (h : Handle) :
    Framed [] [] fun _ => declareClass graph (graph.element h) := by
  refine Framed.alone ?_
  unfold declareClass
  split
  · exact (Steps.openBlock _).bind fun _ => Steps.closeBlock
  · exact Steps.throw _

/-- A namespace in TypeScript goes on to its members. -/
theorem framed_nameSpace (h : Handle) :
    Framed [] ((graph.element h).memberItems.map (·.2))
      fun visit => declareMembers visit (graph.element h) :=
  (framed_members (Steps.pure ()) (graph.element h)).congr fun visit => by simp

end TypeScript

/-! ## Both dialects -/

/-- **A declaration is framed** by what it marks besides its element, the tail of `markedBy`, and
the members it goes on to, `expanded`. -/
theorem framed_declaration {sort : DeclarationSort}
    (hsort : (graph.element h).body.sort? = some sort) :
    Framed (graph.markedBy dialect h).tail (graph.expanded dialect h)
      (graph.declaration dialect sort h) := by
  -- only an enum in TypeScript marks more than its element
  unfold markedBy expanded
  rw [List.tail_cons]
  cases dialect with
  | webidl =>
    rw [if_neg (by simp)]
    cases hbody : (graph.element h).body <;> rw [hbody] at hsort <;> cases hsort
    case global.refl type constant => exact WebIdl.framed_global h
    case enumeration.refl => exact WebIdl.framed_enum h
    case function.refl signature => exact WebIdl.framed_function h hbody
    case classType.refl links => exact WebIdl.framed_class h
    case interfaceType.refl links => exact WebIdl.framed_class h
    case nameSpace.refl => exact WebIdl.framed_nameSpace h
  | typescript =>
    cases hbody : (graph.element h).body <;> rw [hbody] at hsort <;> cases hsort
    case enumeration.refl =>
      rw [if_pos ⟨rfl, by rw [Element.kind, hbody]; rfl⟩]
      exact TypeScript.framed_enum h
    all_goals rw [if_neg (by simp [Element.kind, hbody, Body.kind])]
    case global.refl type constant => exact TypeScript.framed_global h hbody
    case function.refl signature => exact TypeScript.framed_function h hbody
    case classType.refl links => exact TypeScript.framed_class h
    case interfaceType.refl links => exact TypeScript.framed_class h
    case nameSpace.refl => exact TypeScript.framed_nameSpace h

end Graph

end ModuleSurface
