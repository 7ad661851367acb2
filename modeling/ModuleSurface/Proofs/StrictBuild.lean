import ModuleSurface.Proofs.Stopping
import ModuleSurface.Proofs.Unfolded

/-! # Builds that mark nothing twice

A strict build fails where an element is to be marked that is marked already. It is the same as the
build where the walk is an unfolding and the elements that it marks are different: then no element is
ever passed over, and whether an element is marked need not have been asked.

* **`Graph.strictBuild`** — a build that fails where an element is met again.
* **`Build.MarksNew`** — a step and its strict form are the same where certain elements are new.
* **`Graph.strictBuild_eq`** — when a build and the strict build are the same. -/

namespace ModuleSurface

namespace Build

/-- **A demand that an element is new**: it is not marked, or the build fails. -/
def demandNew (cause : RenderError) (h : Handle) : Build Unit := do
  if h ∈ (← get).visited then throw cause

end Build

namespace Graph

/-! ## Strict builds -/

/-- An enum in TypeScript of which all values have to be new. -/
def declareStrictEnum (graph : Graph) (cause : RenderError) (visit : Visitor) (element : Element) :
    Build Unit := do
  Build.openBlock [some "enum ", element.name.text?]
  Build.each (fun entry => do
    Build.demandNew cause entry.2
    TypeScript.declareEnumValue graph entry) (graph.enumValues element.memberItems)
  Build.closeBlock
  let others := graph.otherMembers element.memberItems
  if others ≠ [] then memberBlock visit [some "namespace ", element.name.text?] others

/-- What a strict declaration does with an element that it has just marked. Enums in TypeScript are
the only ones that mark more. -/
def strictDeclaration (graph : Graph) (cause : RenderError) :
    Dialect → DeclarationSort → Handle → Visitor → Build Unit
  | .typescript, .enumeration, h, visit => graph.declareStrictEnum cause visit (graph.element h)
  | dialect, sort, h, visit => graph.declaration dialect sort h visit

/-- **A strict declaration**: its element has to be new. -/
def strictDeclare (graph : Graph) (cause : RenderError) (dialect : Dialect) (visit : Visitor)
    (sort : DeclarationSort) (h : Handle) : Build Unit := do
  Build.demandNew cause h
  if ← Build.mark h then graph.strictDeclaration cause dialect sort h visit

/-- A strict visit. -/
def strictVisit (graph : Graph) (cause : RenderError) (dialect : Dialect) : Nat → Visitor
  | 0, _ => throw .nestedTooDeep
  | fuel + 1, h =>
    match graph.arrivals? h with
    | none => throw (.unsupportedElement (graph.element h).kind (graph.element h).name)
    | some arrivals => Build.each
      (graph.meet (graph.strictDeclare cause dialect (graph.strictVisit cause dialect fuel))) arrivals

/-- The frame of the definitions with a strict walk inside. -/
def strictFrame (graph : Graph) (cause : RenderError) (dialect : Dialect) : Build Unit := do
  Build.openBlock [some dialect.moduleHeader, some Dialect.moduleName]
  Build.each (fun pair =>
    Build.line [some "type ", some pair.1, some " = ", some pair.2, some ";"]) dialect.aliases
  Build.each (fun entry => do
    Build.log (.walking entry.1 (graph.element entry.2).kind)
    graph.strictVisit cause dialect (graph.size + 1) entry.2) graph.exports
  Build.closeBlock

/-- **A strict build** fails with a cause where an element is to be marked a second time. -/
def strictBuild (graph : Graph) (cause : RenderError) (dialect : Dialect) : Build String := do
  modify fun state => { state with visited := [], text := {} }
  graph.strictFrame cause dialect
  finish dialect

end Graph

/-! ## Marking what is new -/

/-- Marking new elements puts them behind the others, `visited ++ marked`. -/
theorem foldl_markIn_of_new {marked visited : List Handle} (hnodup : marked.Nodup)
    (hnew : ∀ a ∈ marked, a ∉ visited) : marked.foldl markIn visited = visited ++ marked := by
  induction marked generalizing visited with
  | nil => simp
  | cons a marked ih =>
    rw [List.nodup_cons] at hnodup
    rw [List.forall_mem_cons] at hnew
    rw [List.foldl_cons, markIn, if_neg hnew.1, ih hnodup.2, List.append_assoc, List.singleton_append]
    intro b hb hmem
    rcases List.mem_append.mp hmem with hmem | hmem
    · exact hnew.2 b hb hmem
    · rw [List.mem_singleton] at hmem
      exact hnodup.1 (hmem ▸ hb)

namespace Build

variable {α β : Type} {marked marked' : List Handle}

/-- **A step marks new elements**: where none of them is marked, the step does what its strict form
does, and has marked all of them unless it fails. -/
def MarksNew (marked : List Handle) (act strict : Build α) : Prop :=
  ∀ state : BuildState, (∀ a ∈ marked, a ∉ state.visited) → strict state = act state ∧
    ∀ a after, act state = .ok a after → after.visited = state.visited ++ marked

namespace MarksNew

/-- A step that is its own strict form. -/
theorem of_steps {act : Build α} {deeper : Int} (h : Steps deeper marked act)
    (hnodup : marked.Nodup) : MarksNew marked act act := by
  intro state hnew
  refine ⟨rfl, fun a after hrun => ?_⟩
  have hleaves := h state
  rw [hrun] at hleaves
  cases hleaves with
  | ok _ _ visited => rw [visited, foldl_markIn_of_new hnodup hnew]

/-- A step that marks nothing and does not fail. -/
theorem of_ends {act : Build α} (h : ∀ state, ∃ a, ∃ after : BuildState, act state = .ok a after ∧
    after.visited = state.visited) : MarksNew [] act act := by
  intro state _
  refine ⟨rfl, fun a after hrun => ?_⟩
  obtain ⟨_, _, hok, hvisited⟩ := h state
  rw [hok] at hrun
  cases hrun
  rw [hvisited, List.append_nil]

/-- **Two steps** mark new elements one after the other. -/
theorem bind {act strict : Build α} {next next' : α → Build β} (h : MarksNew marked act strict)
    (h' : ∀ a, MarksNew marked' (next a) (next' a)) (hnodup : (marked ++ marked').Nodup) :
    MarksNew (marked ++ marked') (act >>= next) (strict >>= next') := by
  intro state hnew
  obtain ⟨hsame, hvisited⟩ := h state fun a ha => hnew a (List.mem_append_left _ ha)
  rw [stateBind_apply, stateBind_apply, hsame]
  cases hrun : act state with
  | error cause after => exact ⟨rfl, fun _ _ hrun => by cases hrun⟩
  | ok a middle =>
    have hmiddle := hvisited a middle hrun
    obtain ⟨hsame', hvisited'⟩ := h' a middle fun b hb hmem => by
      rw [hmiddle] at hmem
      rcases List.mem_append.mp hmem with hmem | hmem
      · exact hnew b (List.mem_append_right _ hb) hmem
      · exact (List.nodup_append.mp hnodup).2.2 b hmem b hb rfl
    refine ⟨hsame', fun b after hrun' => ?_⟩
    rw [hvisited' b after hrun', hmiddle, List.append_assoc]

/-- A step that marks nothing before another one. -/
theorem after {act strict : Build α} {next next' : α → Build β} (h : MarksNew [] act strict)
    (h' : ∀ a, MarksNew marked (next a) (next' a)) (hnodup : marked.Nodup) :
    MarksNew marked (act >>= next) (strict >>= next') :=
  h.bind h' hnodup

/-- A step that marks nothing behind another one. -/
theorem before {act strict : Build α} {next next' : α → Build β} (h : MarksNew marked act strict)
    (h' : ∀ a, MarksNew [] (next a) (next' a)) (hnodup : marked.Nodup) :
    MarksNew marked (act >>= next) (strict >>= next') := by
  have hboth := h.bind h' (by rwa [List.append_nil])
  rwa [List.append_nil] at hboth

/-- **What is demanded is the case** where an element is new. -/
theorem demanding {act strict : Build α} {h : Handle} (hmem : h ∈ marked)
    (hact : MarksNew marked act strict) (cause : RenderError) :
    MarksNew marked act (do Build.demandNew cause h; strict) := by
  intro state hnew
  have hdemand : Build.demandNew cause h state = .ok () state := by
    show (if h ∈ state.visited then throw cause else pure () : Build Unit) state = _
    rw [if_neg (hnew h hmem)]
    rfl
  rw [stateBind_of_ok hdemand]
  exact hact state hnew

/-- A step for every item. -/
theorem each {step strict : α → Build Unit} {marks : α → List Handle} {items : List α}
    (h : ∀ a ∈ items, MarksNew (marks a) (step a) (strict a)) (hnodup : (items.flatMap marks).Nodup) :
    MarksNew (items.flatMap marks) (Build.each step items) (Build.each strict items) := by
  induction items with
  | nil => exact of_ends fun state => ⟨(), state, rfl, rfl⟩
  | cons a items ih =>
    rw [List.flatMap_cons] at hnodup ⊢
    exact (h a List.mem_cons_self).bind (fun _ => ih
      (fun b hb => h b (List.mem_cons_of_mem a hb)) (List.Nodup.of_append_right hnodup)) hnodup

/-- A block. -/
theorem block {act strict : Build Unit} (header : List Fragment) (h : MarksNew marked act strict)
    (hnodup : marked.Nodup) : MarksNew marked (do openBlock header; act; closeBlock)
      (do openBlock header; strict; closeBlock) :=
  (of_steps (Steps.openBlock header) List.nodup_nil).after
    (fun _ => h.before (fun _ => of_steps Steps.closeBlock List.nodup_nil) hnodup) hnodup

end MarksNew

end Build

namespace Graph

open Build (MarksNew Steps)

variable {graph : Graph} {dialect : Dialect} {h : Handle} {forest : Forest Handle}

/-! ## Declarations -/

/-- **An enum in TypeScript** whose values are new marks them, and then what its other members do. -/
theorem marksNew_enum {visit visit' : Visitor} {inner : List Handle} (cause : RenderError)
    (element : Element)
    (hothers : MarksNew inner (Build.each visit (graph.otherMembers element.memberItems))
      (Build.each visit' (graph.otherMembers element.memberItems)))
    (hnodup : ((graph.enumValues element.memberItems).map (·.2) ++ inner).Nodup) :
    MarksNew ((graph.enumValues element.memberItems).map (·.2) ++ inner)
      (TypeScript.declareEnum graph visit element)
      (graph.declareStrictEnum cause visit' element) := by
  have hsplit := List.nodup_append.mp hnodup
  have hvalue : ∀ entry ∈ graph.enumValues element.memberItems,
      MarksNew [entry.2] (TypeScript.declareEnumValue graph entry)
        (do Build.demandNew cause entry.2; TypeScript.declareEnumValue graph entry) :=
    fun entry _ => (MarksNew.of_steps (TypeScript.steps_value graph entry)
      (List.nodup_singleton _)).demanding List.mem_cons_self cause
  -- each value is demanded to be new in front of its line
  have hvalues := MarksNew.each hvalue (by rw [← List.map_eq_flatMap]; exact hsplit.1)
  rw [← List.map_eq_flatMap] at hvalues
  refine (MarksNew.of_steps (Steps.openBlock _) List.nodup_nil).after (fun _ =>
    hvalues.bind (fun _ => (MarksNew.of_steps Steps.closeBlock List.nodup_nil).after (fun _ => ?_)
      hsplit.2.1) hnodup) hnodup
  -- without other members there is no block, and nothing that they mark
  by_cases hnone : graph.otherMembers element.memberItems = []
  · rw [if_neg (not_not.mpr hnone), if_neg (not_not.mpr hnone)]
    rwa [hnone] at hothers
  · rw [if_pos hnone, if_pos hnone]
    exact hothers.block _ hsplit.2.1

/-- What a declaration does with an element that it has marked. -/
theorem marksNew_declaration {visit visit' : Visitor} {inner : List Handle} {sort : DeclarationSort}
    (cause : RenderError) (hsort : (graph.element h).body.sort? = some sort)
    (hmembers : MarksNew inner (Build.each visit (graph.expanded dialect h))
      (Build.each visit' (graph.expanded dialect h)))
    (hnodup : ((graph.markedBy dialect h).tail ++ inner).Nodup) :
    MarksNew ((graph.markedBy dialect h).tail ++ inner) (graph.declaration dialect sort h visit)
      (graph.strictDeclaration cause dialect sort h visit') := by
  -- only the enums of TypeScript differ between the two builds
  by_cases henum : dialect = .typescript ∧ sort = .enumeration
  · obtain ⟨rfl, rfl⟩ := henum
    have hbody : (graph.element h).body = .enumeration := by
      cases hbody : (graph.element h).body <;> rw [hbody] at hsort <;> cases hsort
    have hmarked : (graph.markedBy .typescript h).tail
        = (graph.enumValues (graph.element h).memberItems).map (·.2) := by
      rw [markedBy, List.tail_cons, if_pos ⟨rfl, by rw [Element.kind, hbody]; rfl⟩]
    rw [hmarked] at hnodup ⊢
    rw [expanded, hbody] at hmembers
    exact marksNew_enum cause (graph.element h) hmembers hnodup
  · have hstrict : graph.strictDeclaration cause dialect sort h visit'
        = graph.declaration dialect sort h visit' := by
      cases dialect <;> cases sort <;> first | rfl | exact absurd ⟨rfl, rfl⟩ henum
    have hframed : Framed (graph.markedBy dialect h).tail (graph.expanded dialect h)
        (graph.declaration dialect sort h) := framed_declaration hsort
    obtain ⟨front, back, deeper, hfront, hback, hparts⟩ := hframed.parts
    have hsplit := List.nodup_append.mp hnodup
    rw [hstrict, hparts, hparts]
    exact (MarksNew.of_steps hfront hsplit.1).bind (fun _ => hmembers.before
      (fun _ => MarksNew.of_ends fun state => ⟨(), hback state⟩) hsplit.2.1) hnodup

/-- **A declaration of a new element** marks the element, its values in TypeScript, and then what its
members do. -/
theorem marksNew_declare {visit visit' : Visitor} {inner : List Handle} {sort : DeclarationSort}
    (cause : RenderError) (hsort : (graph.element h).body.sort? = some sort)
    (hmembers : MarksNew inner (Build.each visit (graph.expanded dialect h))
      (Build.each visit' (graph.expanded dialect h)))
    (hnodup : (graph.markedBy dialect h ++ inner).Nodup) :
    MarksNew (graph.markedBy dialect h ++ inner) (graph.declare dialect visit sort h)
      (graph.strictDeclare cause dialect visit' sort h) := by
  have hmarked : graph.markedBy dialect h = [h] ++ (graph.markedBy dialect h).tail := rfl
  rw [hmarked, List.append_assoc] at hnodup ⊢
  refine MarksNew.demanding (List.mem_append_left _ List.mem_cons_self) ?_ cause
  rw [declare_eq]
  have hinside := marksNew_declaration cause hsort hmembers (List.Nodup.of_append_right hnodup)
  intro state hnew
  have hmem : h ∉ state.visited := hnew h (List.mem_append_left _ List.mem_cons_self)
  rw [stateBind_of_ok (mark_of_not_mem hmem), stateBind_of_ok (mark_of_not_mem hmem), if_pos rfl,
    if_pos rfl]
  obtain ⟨hsame, hvisited⟩ := hinside { state with visited := state.visited ++ [h] } fun a ha hmem => by
    rcases List.mem_append.mp hmem with hmem | hmem
    · exact hnew a (List.mem_append_right _ ha) hmem
    · exact (List.nodup_append.mp hnodup).2.2 a hmem a ha rfl
  refine ⟨hsame, fun a after hrun => ?_⟩
  rw [hvisited a after hrun, List.append_assoc]

/-! ## Visits -/

/-- Steps mark what is new in the unfoldings of what they stand for. -/
theorem marksNew_each {α : Type} {step strict : α → Build Unit} {stands : α → List Handle}
    (bound : Nat) (items : List α) (hstep : ∀ a ∈ items, ∀ forest : Forest Handle,
      Unfolded (graph.next dialect) (stands a) forest → forest.height ≤ bound →
      (graph.marks dialect forest).Nodup →
      MarksNew (graph.marks dialect forest) (step a) (strict a))
    (hforest : Unfolded (graph.next dialect) (items.flatMap stands) forest)
    (hheight : forest.height ≤ bound) (hnodup : (graph.marks dialect forest).Nodup) :
    MarksNew (graph.marks dialect forest) (Build.each step items) (Build.each strict items) := by
  induction items generalizing forest with
  | nil =>
    cases hforest
    exact MarksNew.of_ends fun state => ⟨(), state, rfl, rfl⟩
  | cons a items ih =>
    rw [List.flatMap_cons] at hforest
    obtain ⟨first, second, rfl, hfirst, hsecond⟩ := hforest.exists_of_append
    rw [Forest.height_append] at hheight
    rw [marks_append] at hnodup ⊢
    exact (hstep a List.mem_cons_self first hfirst (by omega) (List.Nodup.of_append_left hnodup)).bind
      (fun _ => ih (fun b hb => hstep b (List.mem_cons_of_mem a hb)) hsecond (by omega)
        (List.Nodup.of_append_right hnodup)) hnodup

/-- An arrival marks what is new, if visits do so. -/
theorem marksNew_meet {arrival : Arrival} {visit visit' : Visitor} {bound : Nat}
    (cause : RenderError) (hfits : arrival.Fits graph)
    (hvisit : ∀ (h : Handle) (forest : Forest Handle),
      Unfolded (graph.next dialect) (graph.resolved h) forest → forest.height < bound →
      (graph.marks dialect forest).Nodup →
      MarksNew (graph.marks dialect forest) (visit h) (visit' h))
    (hforest : Unfolded (graph.next dialect) arrival.declares forest)
    (hheight : forest.height ≤ bound) (hnodup : (graph.marks dialect forest).Nodup) :
    MarksNew (graph.marks dialect forest) (graph.meet (graph.declare dialect visit) arrival)
      (graph.meet (graph.strictDeclare cause dialect visit') arrival) := by
  cases arrival with
  | skip h =>
    cases hforest
    exact MarksNew.of_steps (Steps.log _) List.nodup_nil
  | declare sort h =>
    cases hforest with
    | node below later =>
      cases later
      rw [Forest.height_node] at hheight
      rw [marks_node, marks_nil, List.append_nil] at hnodup ⊢
      exact marksNew_declare cause hfits (marksNew_each (bound - 1) _ (fun m _ forest hforest hlow =>
        hvisit m forest hforest (by omega)) below (by omega) (List.Nodup.of_append_right hnodup)) hnodup

/-- **A visit** marks what is new in the unfolding of what the element stands for:
`MarksNew (graph.marks dialect forest)`. -/
theorem marksNew_visit (hs : graph.CompiledSorted) (cause : RenderError) (fuel : Nat) (h : Handle)
    (forest : Forest Handle) (hforest : Unfolded (graph.next dialect) (graph.resolved h) forest)
    (hheight : forest.height < fuel) (hnodup : (graph.marks dialect forest).Nodup) :
    MarksNew (graph.marks dialect forest) (graph.visit dialect fuel h)
      (graph.strictVisit cause dialect fuel h) := by
  induction fuel generalizing h forest with
  | zero => omega
  | succ fuel ih =>
    unfold visit strictVisit
    cases harrivals : graph.arrivals? h with
    | none => exact fun state _ => ⟨rfl, fun _ _ hrun => by cases hrun⟩
    | some arrivals =>
      rw [← declares_of_arrivals? harrivals] at hforest
      exact marksNew_each fuel arrivals (fun arrival harrival forest hforest hlow =>
        marksNew_meet cause (hs.fits harrivals arrival harrival) ih hforest hlow) hforest (by omega)
        hnodup

/-! ## Builds -/

/-- The frame marks what is new in the unfolding of what is exported. -/
theorem marksNew_frame (hs : graph.CompiledSorted)
    (hforest : Unfolded (graph.next dialect) graph.roots forest) (hheight : forest.height ≤ graph.size)
    (hnodup : (graph.marks dialect forest).Nodup) (cause : RenderError) :
    MarksNew (graph.marks dialect forest) (graph.frame dialect) (graph.strictFrame cause dialect) := by
  have haliases : MarksNew [] (Build.each (fun pair : String × String =>
        Build.line [some "type ", some pair.1, some " = ", some pair.2, some ";"]) dialect.aliases)
      (Build.each (fun pair => Build.line
        [some "type ", some pair.1, some " = ", some pair.2, some ";"]) dialect.aliases) := by
    have hsteps := Steps.each (fun pair : String × String => Steps.line
      [some "type ", some pair.1, some " = ", some pair.2, some ";"]) dialect.aliases
    rw [List.flatMap_eq_nil_iff.mpr fun _ _ => rfl] at hsteps
    exact MarksNew.of_steps hsteps List.nodup_nil
  have hwalk : MarksNew (graph.marks dialect forest) (graph.walk dialect) _ :=
    marksNew_each graph.size graph.exports (fun entry _ forest hforest hheight hnodup =>
      (MarksNew.of_steps (Steps.log _) List.nodup_nil).after (fun _ =>
        marksNew_visit hs cause (graph.size + 1) entry.2 forest hforest (by omega) hnodup) hnodup)
      hforest hheight hnodup
  have hblock := (haliases.after (fun _ => hwalk) hnodup).block
    [some dialect.moduleHeader, some Dialect.moduleName] hnodup
  simp only [bind_assoc] at hblock
  exact hblock

/-- **A build is the strict build**, `strictBuild`, where the walk is an unfolding that marks
different elements, whatever was built before and whatever the strict build is to fail with. -/
theorem strictBuild_eq (hs : graph.CompiledSorted)
    (hforest : Unfolded (graph.next dialect) graph.roots forest) (hheight : forest.height ≤ graph.size)
    (hnodup : (graph.marks dialect forest).Nodup) (cause : RenderError) (before : BuildState) :
    graph.strictBuild cause dialect before = graph.build dialect before := by
  have hstrict : graph.strictBuild cause dialect before
      = (graph.strictFrame cause dialect >>= fun _ => finish dialect)
        { before with visited := [], text := {} } := rfl
  obtain ⟨hsame, -⟩ := marksNew_frame hs hforest hheight hnodup cause
    { before with visited := [], text := {} } fun _ _ => List.not_mem_nil
  rw [hstrict, build_eq, stateBind_apply, stateBind_apply, hsame]

end Graph

end ModuleSurface
