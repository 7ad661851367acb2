import ModuleSurface.Proofs.Declarations

/-! # What a walk writes

A walk writes the lines of the forest that a depth-first search finds from the exports. The search
knows nothing of the state of a build, so what a build gives can be said without it.

* **`Graph.WellSorted`**, **`Graph.CompiledSorted`** — prototypes have instances of their own sort,
  all of them or the compiled ones.
* **`Graph.writes_walk`** — the walk writes the lines of the forest.
* **`Graph.build_eq`** — what a build gives, and which elements it declares. -/

namespace ModuleSurface

/-- **A graph whose prototypes have instances of their sort**: functions, or classes and
interfaces. -/
structure Graph.WellSorted (graph : Graph) : Prop where
  functions {h : Handle} {instances : List Handle}
    (hbody : (graph.element h).body = .functionPrototype instances) :
    ∀ i ∈ instances, InstanceSort.function.admits (graph.element i).kind = true
  classes {h : Handle} {instances : List Handle}
    (hbody : (graph.element h).body = .classPrototype instances) :
    ∀ i ∈ instances, InstanceSort.classLike.admits (graph.element i).kind = true

/-- **A graph whose prototypes have compiled instances of their sort**; the other instances are never
declared. -/
structure Graph.CompiledSorted (graph : Graph) : Prop where
  functions {h : Handle} {instances : List Handle}
    (hbody : (graph.element h).body = .functionPrototype instances) :
    ∀ i ∈ instances, (graph.element i).isCompiled = true →
      InstanceSort.function.admits (graph.element i).kind = true
  classes {h : Handle} {instances : List Handle}
    (hbody : (graph.element h).body = .classPrototype instances) :
    ∀ i ∈ instances, (graph.element i).isCompiled = true →
      InstanceSort.classLike.admits (graph.element i).kind = true

/-- In a well-sorted graph the compiled instances are of their sorts. -/
theorem Graph.WellSorted.compiledSorted {graph : Graph} (hs : graph.WellSorted) :
    graph.CompiledSorted :=
  ⟨fun hbody i hi _ => hs.functions hbody i hi, fun hbody i hi _ => hs.classes hbody i hi⟩

/-- What is shown for graphs whose compiled instances are of their sort holds of well-sorted
graphs. -/
instance {graph : Graph} : Coe graph.WellSorted graph.CompiledSorted := ⟨fun hs => hs.compiledSorted⟩

/-- Whether the instances of an element are of its sort. -/
def Graph.sortedAt (graph : Graph) (element : Element) : Bool :=
  match element.body with
  | .functionPrototype instances =>
    instances.all fun i => InstanceSort.function.admits (graph.element i).kind
  | .classPrototype instances =>
    instances.all fun i => InstanceSort.classLike.admits (graph.element i).kind
  | _ => true

/-- An element is one of those that the graph holds, or the one that stands in for them. -/
theorem Graph.element_mem (graph : Graph) (h : Handle) :
    graph.element h ∈ graph.elements.toList ∨ graph.element h = default := by
  unfold element
  by_cases hsize : h < graph.elements.size
  · left
    simp [Array.getD, hsize]
  · right
    simp [Array.getD, hsize]

/-- It is enough to look at the elements that the graph holds. -/
theorem Graph.WellSorted.of_all {graph : Graph}
    (hall : graph.elements.toList.all graph.sortedAt = true) : graph.WellSorted := by
  have hsorted : ∀ h, graph.sortedAt (graph.element h) = true := by
    intro h
    rcases graph.element_mem h with hmem | hdefault
    · exact List.all_eq_true.mp hall _ hmem
    · rw [hdefault]; rfl
  constructor <;> intro h instances hbody i hi
  · have hinstances := hsorted h
    rw [sortedAt, hbody] at hinstances
    exact List.all_eq_true.mp hinstances i hi
  · have hinstances := hsorted h
    rw [sortedAt, hbody] at hinstances
    exact List.all_eq_true.mp hinstances i hi

namespace Arrival

/-- The element that an arrival declares, if it declares one. -/
def declares : Arrival → List Handle
  | declare _ h => [h]
  | skip _ => []

/-- An arrival asks for a declaration of the sort that the element calls for. -/
def Fits (graph : Graph) : Arrival → Prop
  | declare sort h => (graph.element h).body.sort? = some sort
  | skip _ => True

/-- **What an arrival asks for**: the declaration that the element calls for, or that of an instance of
a prototype. Nothing sees to it that instances are of their sort. -/
def Asks (graph : Graph) : Arrival → Prop
  | declare sort h => (graph.element h).body.sort? = some sort ∨ sort = .function ∨
    sort = .classType ∨ sort = .interfaceType
  | skip _ => True

end Arrival

namespace Graph

variable {graph : Graph} {dialect : Dialect} {found : List Handle} {forest : Forest Handle}

/-! ## Arrivals -/

/-- An arrival declares its element if it is compiled. -/
theorem declares_arrive (graph : Graph) (sort : DeclarationSort) (h : Handle) :
    (graph.arrive sort h).declares = if (graph.element h).isCompiled then [h] else [] := by
  unfold arrive
  split <;> rfl

/-- An arrival fits its element if it is of the sort that a compiled element calls for. -/
theorem fits_arrive {sort : DeclarationSort} {h : Handle}
    (hsort : (graph.element h).isCompiled = true → (graph.element h).body.sort? = some sort) :
    (graph.arrive sort h).Fits graph := by
  unfold arrive
  split
  · rename_i hcompiled
    exact hsort hcompiled
  · trivial

/-- The arrivals at instances declare those that are compiled. -/
theorem declares_arrivals (sort : Handle → DeclarationSort) (instances : List Handle) :
    (instances.map fun i => graph.arrive (sort i) i).flatMap Arrival.declares
      = instances.filter fun i => (graph.element i).isCompiled := by
  induction instances with
  | nil => rfl
  | cons i instances ih =>
    rw [List.map_cons, List.flatMap_cons, ih, declares_arrive, List.filter_cons]
    split <;> simp

/-- The arrivals at an element declare what the element stands for, in order: `graph.resolved h`. -/
theorem declares_of_arrivals? {h : Handle} {arrivals : List Arrival}
    (harrivals : graph.arrivals? h = some arrivals) :
    arrivals.flatMap Arrival.declares = graph.resolved h := by
  unfold arrivals? at harrivals
  unfold resolved
  cases hbody : (graph.element h).body <;> simp only [hbody, Option.some.injEq] at harrivals <;>
    first
    | subst harrivals
    | cases harrivals
  case functionPrototype instances => exact declares_arrivals (fun _ => .function) instances
  case classPrototype instances => exact declares_arrivals graph.classSort instances
  all_goals simp [declares_arrive]

/-- A compiled instance fits. -/
theorem CompiledSorted.sort? (hs : graph.CompiledSorted) {h i : Handle} {instances : List Handle}
    (hi : i ∈ instances) (hcompiled : (graph.element i).isCompiled = true) :
    ((graph.element h).body = .functionPrototype instances →
        (graph.element i).body.sort? = some .function) ∧
      ((graph.element h).body = .classPrototype instances →
        (graph.element i).body.sort? = some (graph.classSort i)) := by
  constructor
  · intro hbody
    have hkind := hs.functions hbody i hi hcompiled
    unfold Element.kind at hkind
    cases hinstance : (graph.element i).body <;> rw [hinstance] at hkind <;> first
      | rfl
      | cases hkind
  · intro hbody
    have hkind := hs.classes hbody i hi hcompiled
    unfold classSort
    unfold Element.kind at hkind ⊢
    cases hinstance : (graph.element i).body <;> rw [hinstance] at hkind <;> first
      | rfl
      | cases hkind

/-- Every arrival fits its element, if compiled instances are of their sort. -/
theorem CompiledSorted.fits (hs : graph.CompiledSorted) {h : Handle} {arrivals : List Arrival}
    (harrivals : graph.arrivals? h = some arrivals) : ∀ arrival ∈ arrivals, arrival.Fits graph := by
  unfold arrivals? at harrivals
  cases hbody : (graph.element h).body <;> simp only [hbody, Option.some.injEq] at harrivals <;>
    first
    | subst harrivals
    | cases harrivals
  case functionPrototype instances =>
    intro arrival harrival
    obtain ⟨i, hi, rfl⟩ := List.mem_map.mp harrival
    exact fits_arrive fun hcompiled => (hs.sort? hi hcompiled).1 hbody
  case classPrototype instances =>
    intro arrival harrival
    obtain ⟨i, hi, rfl⟩ := List.mem_map.mp harrival
    exact fits_arrive fun hcompiled => (hs.sort? hi hcompiled).2 hbody
  all_goals
    intro arrival harrival
    rw [List.mem_singleton] at harrival
    subst harrival
    exact fits_arrive fun _ => by rw [hbody]; rfl

/-- An arrival asks for a declaration of the sort of its element, or of a sort that instances are
declared as. -/
theorem asks_arrive {sort : DeclarationSort} {h : Handle}
    (hsort : (graph.element h).body.sort? = some sort ∨ sort = .function ∨ sort = .classType ∨
      sort = .interfaceType) : (graph.arrive sort h).Asks graph := by
  unfold arrive
  split
  · exact hsort
  · trivial

/-- Every arrival asks for such a declaration. -/
theorem asks_of_arrivals? {h : Handle} {arrivals : List Arrival}
    (harrivals : graph.arrivals? h = some arrivals) :
    ∀ arrival ∈ arrivals, arrival.Asks graph := by
  unfold arrivals? at harrivals
  cases hbody : (graph.element h).body <;> simp only [hbody, Option.some.injEq] at harrivals <;>
    first
    | subst harrivals
    | cases harrivals
  case functionPrototype instances =>
    intro arrival harrival
    obtain ⟨i, -, rfl⟩ := List.mem_map.mp harrival
    exact asks_arrive (.inr (.inl rfl))
  case classPrototype instances =>
    intro arrival harrival
    obtain ⟨i, -, rfl⟩ := List.mem_map.mp harrival
    refine asks_arrive ?_
    unfold classSort
    split <;> simp
  all_goals
    intro arrival harrival
    rw [List.mem_singleton] at harrival
    subst harrival
    exact asks_arrive (.inl (by rw [hbody]; rfl))

/-! ## Forests -/

/-- **The elements that a forest of declarations marks**, in order. -/
def marks (graph : Graph) (dialect : Dialect) (forest : Forest Handle) : List Handle :=
  forest.preorder.flatMap (graph.markedBy dialect)

/-- An empty forest marks nothing: `graph.marks dialect .nil = []`. -/
@[simp] theorem marks_nil (graph : Graph) (dialect : Dialect) : graph.marks dialect .nil = [] := rfl

/-- A node marks what its declaration marks, before what is inside it and what follows. -/
@[simp] theorem marks_node (graph : Graph) (dialect : Dialect) (h : Handle)
    (inside rest : Forest Handle) :
    graph.marks dialect (.node h inside rest)
      = graph.markedBy dialect h ++ (graph.marks dialect inside ++ graph.marks dialect rest) := by
  simp [marks]

/-- Forests behind others mark what they mark, in order. -/
@[simp] theorem marks_append (graph : Graph) (dialect : Dialect) (first second : Forest Handle) :
    graph.marks dialect (first.append second)
      = graph.marks dialect first ++ graph.marks dialect second := by
  simp [marks]

/-- An enum value is refused. -/
theorem opening_of_enumValue {h : Handle} (hkind : (graph.element h).kind = .enumValue) :
    graph.opening dialect h
      = .error (.unsupportedElement (graph.element h).kind (graph.element h).name) := by
  cases dialect <;> cases hbody : (graph.element h).body <;>
    simp [Element.kind, hbody, Body.kind, WebIdl.opening, TypeScript.opening] at hkind ⊢

/-- An enum value stands for itself, compiled or not: `graph.resolved h = [h]`. -/
theorem resolved_of_enumValue {h : Handle} (hkind : (graph.element h).kind = .enumValue) :
    graph.resolved h = [h] := by
  unfold resolved
  cases hbody : (graph.element h).body <;> simp [Element.kind, hbody, Body.kind] at hkind ⊢

/-- What has opening lines is no enum value: `graph.isEnumValue h = false`. -/
theorem isEnumValue_of_opening {h : Handle} {opening : List Line}
    (hopening : graph.opening dialect h = .ok opening) : graph.isEnumValue h = false := by
  by_contra hvalue
  rw [opening_of_enumValue (by simpa [isEnumValue] using hvalue)] at hopening
  cases hopening

/-- Of what a declaration marks, it declares the element alone:
`graph.declared (graph.markedBy dialect h) = [h]`. -/
theorem declared_markedBy {h : Handle} (hkind : graph.isEnumValue h = false) :
    graph.declared (graph.markedBy dialect h) = [h] := by
  have hself : graph.declared [h] = [h] := by simp [declared, hkind]
  unfold markedBy
  rw [← List.singleton_append, declared_append, hself, declared_eq_nil, List.append_nil]
  · intro a ha
    split at ha
    · obtain ⟨entry, hentry, rfl⟩ := List.mem_map.mp ha
      exact (List.mem_filter.mp hentry).2
    · simp at ha

/-- A forest that has lines declares all its elements, `forest.preorder`. -/
theorem declared_marks {level : Nat} {lines : List Line}
    (hlines : graph.lines dialect level forest = .ok lines) :
    graph.declared (graph.marks dialect forest) = forest.preorder := by
  induction forest generalizing level lines with
  | nil => rfl
  | node h inside rest ihInside ihRest =>
    rw [lines_node] at hlines
    obtain ⟨opening, hopening, hlines⟩ := bind_eq_ok_iff.mp hlines
    obtain ⟨within, hwithin, hlines⟩ := bind_eq_ok_iff.mp hlines
    obtain ⟨after, hafter, -⟩ := bind_eq_ok_iff.mp hlines
    rw [marks_node, declared_append, declared_append,
      declared_markedBy (isEnumValue_of_opening hopening), ihInside hwithin, ihRest hafter,
      Forest.preorder_node, List.singleton_append]

/-! ## Visits -/

/-- **Steps that write forests**: if each step writes the lines of the forest that is found from
what it stands for, then so do all of them in order. -/
theorem writes_each {α : Type} {step : α → Build Unit} {stands : α → List Handle} (bound : Nat)
    (items : List α) (hstep : ∀ a ∈ items, ∀ (found : List Handle) (forest : Forest Handle),
      DepthFirst (graph.next dialect) found (stands a) forest → forest.height ≤ bound →
      Writes graph found (graph.marks dialect forest)
        (fun level => graph.lines dialect level forest) (step a))
    (hforest : DepthFirst (graph.next dialect) found (items.flatMap stands) forest)
    (hheight : forest.height ≤ bound) :
    Writes graph found (graph.marks dialect forest) (fun level => graph.lines dialect level forest)
      (Build.each step items) := by
  induction items generalizing found forest with
  | nil =>
    cases hforest
    exact Writes.pure
  | cons a items ih =>
    rw [List.flatMap_cons, DepthFirst.append_iff] at hforest
    obtain ⟨first, second, rfl, hfirst, hsecond⟩ := hforest
    rw [Forest.height_append] at hheight
    have hhead := hstep a List.mem_cons_self found first hfirst (by omega)
    rw [marks_append, Build.each_cons]
    refine (hhead.bind fun ⟨level, lines, hlines⟩ => ?_).congr fun level =>
      (lines_append graph dialect level first second).symm
    rw [declared_marks hlines]
    exact ih (fun b hb => hstep b (List.mem_cons_of_mem a hb)) hsecond (by omega)

/-- An arrival writes the forest of what it declares, if visits do so. -/
theorem writes_meet {arrival : Arrival} {visit : Visitor} {bound : Nat}
    (hfits : arrival.Fits graph)
    (hvisit : ∀ (h : Handle) (found : List Handle) (forest : Forest Handle),
      DepthFirst (graph.next dialect) found (graph.resolved h) forest → forest.height < bound →
      Writes graph found (graph.marks dialect forest)
        (fun level => graph.lines dialect level forest) (visit h))
    (hforest : DepthFirst (graph.next dialect) found arrival.declares forest)
    (hheight : forest.height ≤ bound) :
    Writes graph found (graph.marks dialect forest) (fun level => graph.lines dialect level forest)
      (graph.meet (graph.declare dialect visit) arrival) := by
  cases arrival with
  | skip h =>
    cases hforest
    exact Writes.log _
  | declare sort h =>
    cases hforest with
    | again old later =>
      cases later
      exact writes_declare_again sort old
    | @fresh _ _ _ inside rest new below later =>
      cases later
      rw [Forest.height_node] at hheight
      -- what is inside the new element is searched with it among the found ones
      have hinside : Inside graph dialect h visit (found ++ [h]) (graph.marks dialect inside)
          fun level => graph.lines dialect level inside :=
        { writes := writes_each (bound - 1) _ (fun m _ found forest hforest hlow =>
            hvisit m found forest hforest (by omega)) below (by omega)
          empty := fun hnone => by
            rw [next, hnone, List.flatMap_nil] at below
            cases below
            exact ⟨rfl, rfl⟩ }
      rw [marks_node, marks_nil, List.append_nil]
      refine (writes_declare hfits new hinside).congr fun level => ?_
      simp only [around, lines_node, lines_nil, ok_bind, List.append_nil]

/-- **A visit** writes the lines of the forest that is found from what the element stands for. The
bound `fuel` on the nesting need only be above the height of the forest. -/
theorem writes_visit (hs : graph.CompiledSorted) (fuel : Nat) (h : Handle) (found : List Handle)
    (forest : Forest Handle)
    (hforest : DepthFirst (graph.next dialect) found (graph.resolved h) forest)
    (hheight : forest.height < fuel) :
    Writes graph found (graph.marks dialect forest) (fun level => graph.lines dialect level forest)
      (graph.visit dialect fuel h) := by
  induction fuel generalizing h found forest with
  | zero => omega
  | succ fuel ih =>
    unfold visit
    cases harrivals : graph.arrivals? h with
    | some arrivals =>
      rw [← declares_of_arrivals? harrivals] at hforest
      exact writes_each fuel arrivals (fun arrival harrival found forest hforest hlow =>
        writes_meet (hs.fits harrivals arrival harrival) ih hforest hlow) hforest (by omega)
    | none =>
      -- an enum value cannot be among the declared elements, so the search finds it
      have hkind := (graph.arrivals?_eq_none_iff h).mp harrivals
      rw [resolved_of_enumValue hkind] at hforest
      intro level state _ _ hfound
      cases hforest with
      | again old _ =>
        have hmem : h ∈ graph.declared state.visited := hfound ▸ old
        simp [declared, isEnumValue, hkind] at hmem
      | fresh _ _ _ =>
        show Build.Meets _ (graph.lines dialect level _) (.error _ state)
        rw [lines_node, opening_of_enumValue hkind]
        exact .error

/-! ## The forest of a graph -/

/-- A handle outside the graph has the default element: `graph.element h = default`. -/
theorem element_of_size_le {h : Handle} (hsize : graph.size ≤ h) : graph.element h = default := by
  unfold element
  rw [Array.getD_eq_getD_getElem?, Array.getElem?_eq_none hsize, Option.getD_none]

/-- A handle outside the graph stands for nothing. -/
theorem lt_size_of_mem_resolved {h a : Handle} (ha : a ∈ graph.resolved h) : a < graph.size := by
  by_contra hsize
  have hdefault := element_of_size_le (Nat.le_of_not_lt hsize)
  have hcompiled : (graph.element a).isCompiled = false := by rw [hdefault]; rfl
  unfold resolved at ha
  cases hbody : (graph.element h).body <;> rw [hbody] at ha
  case enumValue value =>
    obtain rfl := List.mem_singleton.mp ha
    rw [hdefault] at hbody
    cases hbody
  case functionPrototype instances => simp [hcompiled] at ha
  case classPrototype instances => simp [hcompiled] at ha
  all_goals
    simp only at ha
    split at ha
    · obtain rfl := List.mem_singleton.mp ha
      simp_all
    · simp at ha

/-- What is declared at the top level is in the graph. -/
theorem lt_size_of_mem_roots {a : Handle} (ha : a ∈ graph.roots) : a < graph.size := by
  obtain ⟨entry, _, ha⟩ := List.mem_flatMap.mp ha
  exact lt_size_of_mem_resolved ha

/-- What is declared inside an element is in the graph. -/
theorem lt_size_of_mem_next {h a : Handle} (ha : a ∈ graph.next dialect h) : a < graph.size := by
  obtain ⟨m, _, ha⟩ := List.mem_flatMap.mp ha
  exact lt_size_of_mem_resolved ha

/-- What is reached is declared for something. -/
theorem exists_resolved_of_reached {a : Handle} (ha : Reached (graph.next dialect) graph.roots a) :
    ∃ m, a ∈ graph.resolved m := by
  cases ha with
  | root hroot =>
    obtain ⟨entry, _, hroot⟩ := List.mem_flatMap.mp hroot
    exact ⟨entry.2, hroot⟩
  | step _ hnext =>
    obtain ⟨m, _, hnext⟩ := List.mem_flatMap.mp hnext
    exact ⟨m, hnext⟩

/-- **There is a forest of declarations** for every graph: a `DepthFirst` search from the roots. -/
theorem exists_forest (graph : Graph) (dialect : Dialect) :
    ∃ forest, DepthFirst (graph.next dialect) [] graph.roots forest :=
  DepthFirst.exists_of_closed (Finset.range graph.size)
    (fun _ _ _ hb => Finset.mem_range.mpr (lt_size_of_mem_next hb)) [] graph.roots
    fun _ ha => Finset.mem_range.mpr (lt_size_of_mem_roots ha)

/-- Declarations do not nest deeper than there are elements: `forest.height ≤ graph.size`. -/
theorem height_le_size (hforest : DepthFirst (graph.next dialect) [] graph.roots forest) :
    forest.height ≤ graph.size :=
  hforest.height_le fun _ ha =>
    ha.mem_of_closed (fun _ hb => lt_size_of_mem_roots hb) fun _ _ _ hb => lt_size_of_mem_next hb

/-- **The walk**, `graph.walk dialect`, writes the lines of the forest that is found from the
exports. -/
theorem writes_walk (hs : graph.CompiledSorted)
    (hforest : DepthFirst (graph.next dialect) [] graph.roots forest) :
    Writes graph [] (graph.marks dialect forest) (fun level => graph.lines dialect level forest)
      (graph.walk dialect) := by
  refine writes_each graph.size graph.exports (fun entry _ found forest hforest hheight => ?_)
    hforest (height_le_size hforest)
  have hvisit := writes_visit hs (graph.size + 1) entry.2 found forest hforest (by omega)
  exact (Writes.bind_of_declared_nil rfl (Writes.log _) hvisit).congr fun level => by simp

/-! ## The text -/

/-- The joined text of fragments; none if one of them is no text. -/
def joined? (fragments : List Fragment) : Option String := (fragments.mapM id).map String.join

/-- The line that defines an alias, at a level. -/
def aliasLine (level : Nat) (entry : String × String) : Line :=
  ⟨level, [some "type ", some entry.1, some " = ", some entry.2, some ";", some "\n"]⟩

/-- **The lines of definitions** around those of the declarations: the header of the module, the
aliases, and the closing line. -/
def page (dialect : Dialect) (level : Nat) (lines : List Line) : List Line :=
  Line.opener level [some dialect.moduleHeader, some Dialect.moduleName]
    :: (dialect.aliases.map (aliasLine (level + 1)) ++ lines) ++ [Line.closer.deeper level]

/-- The aliases are a line each. -/
theorem writes_aliases (graph : Graph) (entries : List (String × String)) :
    Writes graph found [] (fun level => .ok (entries.map (aliasLine level)))
      (Build.each (fun pair =>
        Build.line [some "type ", some pair.1, some " = ", some pair.2, some ";"]) entries) := by
  induction entries with
  | nil => exact Writes.pure
  | cons pair entries ih =>
    exact (Writes.bind_of_declared_nil rfl (Writes.line _) ih).congr fun level => rfl

/-- The frame of the definitions with the walk inside. -/
def frame (graph : Graph) (dialect : Dialect) : Build Unit := do
  Build.openBlock [some dialect.moduleHeader, some Dialect.moduleName]
  Build.each (fun pair =>
    Build.line [some "type ", some pair.1, some " = ", some pair.2, some ";"]) dialect.aliases
  graph.walk dialect
  Build.closeBlock

/-- The frame writes the lines of the definitions, `page dialect level`. -/
theorem writes_frame (hs : graph.CompiledSorted)
    (hforest : DepthFirst (graph.next dialect) [] graph.roots forest) :
    Writes graph [] (graph.marks dialect forest)
      (fun level => do return page dialect level (← graph.lines dialect (level + 1) forest))
      (graph.frame dialect) := by
  have hinside := Writes.bind_of_declared_nil rfl (writes_aliases graph dialect.aliases)
    (writes_walk hs hforest)
  have hblock := Writes.block [some dialect.moduleHeader, some Dialect.moduleName] hinside
  simp only [bind_assoc] at hblock
  refine hblock.congr fun level => ?_
  simp only [ok_bind, pure_bind, page]

/-- The end of a build: the joined text. -/
def finish (dialect : Dialect) : Build String := do
  let state ← get
  Build.log (.built dialect state.text.fragments.size state.visited.length)
  match state.text.joined? with
  | some text => return text
  | none => throw .notText

/-- A build starts from an empty text and with nothing declared. -/
theorem build_eq (graph : Graph) (dialect : Dialect) (state : BuildState) :
    graph.build dialect state
      = (graph.frame dialect >>= fun _ => finish dialect) { state with visited := [], text := {} } := by
  unfold build frame finish
  simp only [bind_assoc]
  rfl

/-- The end of a build, `finish`, logs what was built, and joins the fragments. -/
theorem finish_apply (dialect : Dialect) (state : BuildState) :
    ∃ after : BuildState, after.visited = state.visited ∧
      after.log = state.log ++ [.built dialect state.text.fragments.size state.visited.length] ∧
      finish dialect state = match joined? state.text.fragments.toList with
        | some text => .ok text after
        | none => .error .notText after := by
  refine ⟨{ state with log := state.log ++
    [.built dialect state.text.fragments.size state.visited.length] }, rfl, rfl, ?_⟩
  have hfinish : finish dialect state = (match state.text.joined? with
      | some text => return text
      | none => throw .notText : Build String) _ := rfl
  have hjoined : state.text.joined? = joined? state.text.fragments.toList := rfl
  rw [hfinish, hjoined]
  cases joined? state.text.fragments.toList <;> rfl

/-- **What a build gives**: the joined text of the lines, or the first thing that stands against
them. A build declares the elements of the forest, and what was declared before does not matter. -/
theorem build_apply (hs : graph.CompiledSorted)
    (hforest : DepthFirst (graph.next dialect) [] graph.roots forest) (state : BuildState) :
    match graph.lines dialect 1 forest with
    | .error cause => ∃ after, graph.build dialect state = .error cause after
    | .ok lines => ∃ after : BuildState, graph.declared after.visited = forest.preorder ∧
      after.visited = (graph.marks dialect forest).foldl markIn [] ∧
      graph.build dialect state = match joined? (fragmentsOf (page dialect 0 lines)) with
        | some text => .ok text after
        | none => .error .notText after := by
  have hframe := writes_frame hs hforest 0 { state with visited := [], text := {} } rfl rfl rfl
  rw [build_eq, stateBind_apply]
  cases hlines : graph.lines dialect 1 forest with
  | error cause =>
    simp only [Nat.zero_add, hlines, error_bind] at hframe
    cases hrun : graph.frame dialect { state with visited := [], text := {} } with
    | ok _ after => rw [hrun] at hframe; cases hframe
    | error other after =>
      rw [hrun] at hframe
      cases hframe
      exact ⟨after, rfl⟩
  | ok lines =>
    simp only [Nat.zero_add, hlines, ok_bind, pure_eq_ok] at hframe
    cases hrun : graph.frame dialect { state with visited := [], text := {} } with
    | error other after => rw [hrun] at hframe; cases hframe
    | ok _ middle =>
      rw [hrun] at hframe
      cases hframe with
      | ok wrote =>
        obtain ⟨after, hvisited, -, hfinish⟩ := finish_apply dialect middle
        -- joining the fragments changes nothing of what has been marked
        refine ⟨after, ?_, ?_, ?_⟩
        · rw [hvisited, wrote.declared, declared_marks hlines]
          rfl
        · rw [hvisited, wrote.visited]
        · simp [hfinish, wrote.text]

/-- **What a build gives**: its text, or why it fails. -/
def built (graph : Graph) (dialect : Dialect) (before : BuildState) : Except RenderError String :=
  match graph.build dialect before with
  | .ok text _ => .ok text
  | .error cause _ => .error cause

/-- A build gives the joined text of the lines of its forest, or the first thing that stands against
them, whatever was built before. -/
theorem built_eq (hs : graph.CompiledSorted)
    (hforest : DepthFirst (graph.next dialect) [] graph.roots forest) (before : BuildState) :
    graph.built dialect before = (do
      let lines ← graph.lines dialect 1 forest
      match joined? (fragmentsOf (page dialect 0 lines)) with
      | some text => .ok text
      | none => .error .notText) := by
  have hbuild := build_apply hs hforest before
  unfold built
  cases hlines : graph.lines dialect 1 forest with
  | error cause =>
    rw [hlines] at hbuild
    obtain ⟨after, hbuild⟩ := hbuild
    rw [hbuild, error_bind]
  | ok lines =>
    rw [hlines] at hbuild
    obtain ⟨after, -, -, hbuild⟩ := hbuild
    rw [hbuild, ok_bind]
    cases joined? (fragmentsOf (page dialect 0 lines)) <;> rfl

/-- The definitions of a graph are what the first build gives:
`graph.render dialect = graph.built dialect {}`. -/
theorem render_eq_built (graph : Graph) (dialect : Dialect) :
    graph.render dialect = graph.built dialect {} := by
  unfold render renderLogged EStateM.run built
  cases graph.build dialect {} <;> rfl

/-- **The definitions of a graph**, `graph.render dialect`: the joined text of the lines of its
forest, or the first thing that stands against them. -/
theorem render_eq (hs : graph.CompiledSorted)
    (hforest : DepthFirst (graph.next dialect) [] graph.roots forest) :
    graph.render dialect = (do
      let lines ← graph.lines dialect 1 forest
      match joined? (fragmentsOf (page dialect 0 lines)) with
      | some text => .ok text
      | none => .error .notText) := by
  rw [render_eq_built, built_eq hs hforest]

/-- A graph that has definitions has a build that gives them. -/
theorem exists_build {text : String} (h : graph.render dialect = .ok text) :
    ∃ after, graph.build dialect {} = .ok text after := by
  unfold render renderLogged EStateM.run at h
  cases hbuild : graph.build dialect {} with
  | ok given after =>
    rw [hbuild] at h
    cases h
    exact ⟨after, rfl⟩
  | error cause after =>
    rw [hbuild] at h
    cases h

end Graph

end ModuleSurface
