import ModuleSurface.Proofs.Frames

/-! # Where a build stops

A build that fails keeps what it has declared so far. It has declared what comes before the first
element that something stands against, and this element as well; only an enum value, which is never
declared, is refused before it is marked.

* **`Graph.Stopped`** — how far a build has got that failed.
* **`Graph.build_stopped`** — a build that fails on its walk stops at the first such element. -/

namespace ModuleSurface

namespace Graph

variable {graph : Graph} {dialect : Dialect} {h : Handle} {found : List Handle}
  {forest first second : Forest Handle}

/-- **How far a step has got** that was to declare some elements and failed: nothing stands against
those before the one that it stopped at, they are declared, and so is this one itself unless it is
an enum value. -/
structure StoppedAt (graph : Graph) (dialect : Dialect) (found before : List Handle) (h : Handle)
    (cause : RenderError) (after : BuildState) : Prop where
  good : ∀ a ∈ before, graph.failure? dialect a = none
  bad : graph.failure? dialect h = some cause
  declared : graph.declared after.visited = found ++ before ++ graph.declared [h]

/-- A step has stopped at one of the elements that it was to declare. -/
def Stopped (graph : Graph) (dialect : Dialect) (found elements : List Handle) (cause : RenderError)
    (after : BuildState) : Prop :=
  ∃ before h rest, elements = before ++ h :: rest ∧
    graph.StoppedAt dialect found before h cause after

/-- **A step that stops** at one of its elements wherever it fails. -/
def Stops (graph : Graph) (dialect : Dialect) (found elements : List Handle) (act : Build Unit) :
    Prop :=
  ∀ (level : Nat) (state : BuildState), state.text.depth = level →
    state.text.indentUnit = "  " → graph.declared state.visited = found →
    ∀ cause after, act state = .error cause after →
      graph.Stopped dialect found elements cause after

namespace Stopped

variable {elements others : List Handle} {cause : RenderError} {after : BuildState}

/-- A step that stops at its first element. -/
theorem here (hbad : graph.failure? dialect h = some cause)
    (hdeclared : graph.declared after.visited = found ++ graph.declared [h]) :
    graph.Stopped dialect found (h :: others) cause after :=
  ⟨[], h, others, rfl, by simp, hbad, by simpa using hdeclared⟩

/-- A step that stops before other elements. -/
theorem before (hstopped : graph.Stopped dialect found elements cause after) :
    graph.Stopped dialect found (elements ++ others) cause after := by
  obtain ⟨first, h, rest, rfl, hstopped⟩ := hstopped
  exact ⟨first, h, rest ++ others, by simp, hstopped⟩

/-- A step that stops behind elements that nothing stands against. -/
theorem behind (hstopped : graph.Stopped dialect (found ++ elements) others cause after)
    (hgood : ∀ a ∈ elements, graph.failure? dialect a = none) :
    graph.Stopped dialect found (elements ++ others) cause after := by
  obtain ⟨first, h, rest, rfl, hstopped⟩ := hstopped
  refine ⟨elements ++ first, h, rest, by simp, fun a ha => ?_, hstopped.bad, ?_⟩
  · exact (List.mem_append.mp ha).elim (hgood a) (hstopped.good a)
  · rw [hstopped.declared, List.append_assoc found]

end Stopped

/-- What has lines has nothing against it: `failure?` answers `none`. -/
theorem failure?_of_lines {level : Nat} {lines : List Line}
    (hlines : graph.lines dialect level forest = .ok lines) :
    ∀ a ∈ forest.preorder, graph.failure? dialect a = none := by
  refine List.findSome?_eq_none_iff.mp ?_
  by_contra hsome
  obtain ⟨cause, hcause⟩ := Option.ne_none_iff_exists'.mp hsome
  rw [lines_eq_error_iff.mpr hcause] at hlines
  cases hlines

namespace Stops

variable {marked : List Handle} {act act' : Build Unit}

/-- A step that never fails stops nowhere. -/
theorem of_ok {elements : List Handle} (hact : ∀ state, ∃ after, act state = .ok () after) :
    Stops graph dialect found elements act := by
  intro level state _ _ _ cause after hrun
  obtain ⟨_, hok⟩ := hact state
  rw [hok] at hrun
  cases hrun

/-- A step behind one that never fails. -/
theorem bind_of_ok {lines : Nat → List Line}
    (hw : Writes graph found [] (fun level => .ok (lines level)) act) {elements : List Handle}
    (h' : Stops graph dialect found elements act') :
    Stops graph dialect found elements (act >>= fun _ => act') := by
  intro level state hdepth hunit hfound cause after hrun
  have hfirst := hw level state hdepth hunit hfound
  rw [stateBind_apply] at hrun
  cases hact : act state with
  | error other middle => rw [hact] at hfirst; cases hfirst
  | ok _ middle =>
    rw [hact] at hfirst hrun
    cases hfirst with
    | ok wrote =>
      exact h' level middle (by rw [wrote.text]; exact hdepth) (by rw [wrote.text]; exact hunit)
        (by rw [wrote.declared, hfound]; simp) cause after hrun

/-- A block stops where its inside does. -/
theorem block (header : List Fragment) {elements : List Handle}
    (h : Stops graph dialect found elements act) :
    Stops graph dialect found elements (do Build.openBlock header; act; Build.closeBlock) := by
  intro level state hdepth hunit hfound cause after hrun
  have hrun : (act >>= fun _ => Build.closeBlock) { state with text := state.text.openBlock header }
      = .error cause after := hrun
  rw [stateBind_apply] at hrun
  cases hact : act { state with text := state.text.openBlock header } with
  | ok _ middle =>
    rw [hact] at hrun
    cases hrun
  | error other middle =>
    rw [hact] at hrun
    cases hrun
    exact h (level + 1) { state with text := state.text.openBlock header } (by simp [hdepth])
      (by simpa using hunit) hfound _ _ hact

/-- **A step after a step.** The second one only counts where the first one declares all its
elements. -/
theorem bind (hw : Writes graph found (graph.marks dialect first)
      (fun level => graph.lines dialect level first) act)
    (h : Stops graph dialect found first.preorder act)
    (h' : Stops graph dialect (found ++ first.preorder) second.preorder act') :
    Stops graph dialect found (first.append second).preorder (act >>= fun _ => act') := by
  intro level state hdepth hunit hfound cause after hrun
  have hfirst : Build.Meets _ (graph.lines dialect level first) _ :=
    hw level state hdepth hunit hfound
  rw [Forest.preorder_append]
  rw [stateBind_apply] at hrun
  -- it stops in the first step, or behind it in the second one
  cases hact : act state with
  | error other middle =>
    rw [hact] at hrun
    cases hrun
    exact (h level state hdepth hunit hfound _ _ hact).before
  | ok _ middle =>
    rw [hact] at hfirst hrun
    cases hlines : graph.lines dialect level first with
    | error other => rw [hlines] at hfirst; cases hfirst
    | ok lines =>
      rw [hlines] at hfirst
      cases hfirst with
      | ok wrote =>
        exact (h' level middle (by rw [wrote.text]; exact hdepth)
          (by rw [wrote.text]; exact hunit)
          (by rw [wrote.declared, hfound, declared_marks hlines]) cause after hrun).behind
            (failure?_of_lines hlines)

end Stops

/-- Marking enum values declares nothing: `declared` stays. -/
theorem declared_foldl_markIn {values : List Handle}
    (hvalues : ∀ a ∈ values, graph.isEnumValue a = true) (visited : List Handle) :
    graph.declared (values.foldl markIn visited) = graph.declared visited := by
  induction values generalizing visited with
  | nil => rfl
  | cons a values ih =>
    rw [List.foldl_cons, ih fun b hb => hvalues b (List.mem_cons_of_mem a hb), markIn]
    split
    · rfl
    · have hnothing : graph.declared [a] = [] := declared_eq_nil (by simpa using hvalues a)
      rw [declared_append, hnothing, List.append_nil]

/-- Besides its element a declaration marks enum values only, in the tail of `markedBy`. -/
theorem isEnumValue_of_mem_tail {a : Handle} (ha : a ∈ (graph.markedBy dialect h).tail) :
    graph.isEnumValue a = true := by
  rw [markedBy, List.tail_cons] at ha
  split at ha
  · obtain ⟨entry, hentry, rfl⟩ := List.mem_map.mp ha
    exact (List.mem_filter.mp hentry).2
  · exact absurd ha List.not_mem_nil

/-- Marking a new element answers `true`, and puts it behind the others. -/
theorem mark_of_not_mem {state : BuildState} (hmem : h ∉ state.visited) :
    Build.mark h state = .ok true { state with visited := state.visited ++ [h] } := by
  show (if h ∈ state.visited then _ else _ : Build Bool) state = _
  rw [if_neg hmem]
  rfl

/-- Visiting nothing for every member is nothing. -/
theorem each_pure {α : Type} (items : List α) :
    Build.each (fun _ => pure ()) items = (pure () : Build Unit) := by
  induction items with
  | nil => rfl
  | cons a items ih => rw [Build.each_cons, ih, pure_bind]

/-- **What a declaration does before its members** fails exactly where something stands against the
opening lines. The lines of a declaration whose members have none show it. -/
theorem meets_front {sort : DeclarationSort} (hsort : (graph.element h).body.sort? = some sort)
    {front back : Build Unit}
    (hback : ∀ state, ∃ after : BuildState, back state = .ok () after ∧
      after.visited = state.visited)
    (hparts : ∀ visit, graph.declaration dialect sort h visit
      = (do front; Build.each visit (graph.expanded dialect h); back))
    {level : Nat} {state : BuildState} (hdepth : state.text.depth = level)
    (hunit : state.text.indentUnit = "  ") (hnew : h ∉ graph.declared state.visited) :
    Build.Meets (fun _ _ => True) (graph.opening dialect h)
      (front { state with visited := state.visited ++ [h] }) := by
  have hmem : h ∉ state.visited := fun hmem => hnew
    (List.mem_filter.mpr ⟨hmem, by simp [isEnumValue_of_sort? hsort]⟩)
  -- without members the declaration is its front and its back, and the back cannot fail
  have hempty : Inside graph dialect h (fun _ => pure ())
      (graph.declared state.visited ++ [h]) [] fun _ => .ok [] :=
    ⟨by rw [each_pure]; exact Writes.pure, fun _ => ⟨rfl, rfl⟩⟩
  have hlines := writes_declare hsort hnew hempty level state hdepth hunit rfl
  rw [declare_eq, stateBind_of_ok (mark_of_not_mem hmem), if_pos rfl, hparts, each_pure, pure_bind,
    stateBind_apply, around] at hlines
  cases hfront : front { state with visited := state.visited ++ [h] } with
  | error cause after =>
    rw [hfront] at hlines
    cases hopening : graph.opening dialect h with
    | ok opening => rw [hopening] at hlines; cases hlines
    | error other =>
      rw [hopening] at hlines
      cases hlines
      exact .error
  | ok _ middle =>
    rw [hfront] at hlines
    obtain ⟨after, hend, -⟩ := hback middle
    cases hopening : graph.opening dialect h with
    | ok opening => exact .ok trivial
    | error other =>
      rw [hopening] at hlines
      simp only [hend] at hlines
      cases hlines

/-- Besides its element a declaration declares nothing by what it marks. -/
theorem declared_foldl_prefix {part visited : List Handle}
    (hpart : part <+: (graph.markedBy dialect h).tail) :
    graph.declared (part.foldl markIn (visited ++ [h]))
      = graph.declared visited ++ graph.declared [h] := by
  rw [declared_foldl_markIn fun a ha => isEnumValue_of_mem_tail (hpart.subset ha),
    declared_append]

/-- **A declaration of a new element** stops at the element if something stands against it, and
otherwise where its members do. -/
theorem stops_declare {visit : Visitor} {sort : DeclarationSort} {inside : Forest Handle}
    (hsort : (graph.element h).body.sort? = some sort) (hnew : h ∉ found)
    (hinside : Stops graph dialect (found ++ [h]) inside.preorder
      (Build.each visit (graph.expanded dialect h))) :
    Stops graph dialect found (h :: inside.preorder) (graph.declare dialect visit sort h) := by
  rintro level state hdepth hunit rfl cause after hrun
  have hself : graph.declared [h] = [h] := by simp [declared, isEnumValue_of_sort? hsort]
  have hmem : h ∉ state.visited := fun hmem => hnew
    (List.mem_filter.mpr ⟨hmem, by simp [isEnumValue_of_sort? hsort]⟩)
  have hframed : Framed (graph.markedBy dialect h).tail (graph.expanded dialect h)
      (graph.declaration dialect sort h) := framed_declaration hsort
  obtain ⟨front, back, deeper, hfront, hback, hparts⟩ := hframed.parts
  have hopening := meets_front hsort hback hparts hdepth hunit hnew
  have hsteps := hfront { state with visited := state.visited ++ [h] }
  rw [declare_eq, stateBind_of_ok (mark_of_not_mem hmem), if_pos rfl, hparts,
    stateBind_apply] at hrun
  -- it fails in front of its members, or in one of them: nothing behind them can fail
  cases hfrontRun : front { state with visited := state.visited ++ [h] } with
  | error other middle =>
    rw [hfrontRun] at hopening hsteps hrun
    cases hrun
    cases hbad : graph.opening dialect h with
    | ok opening => rw [hbad] at hopening; cases hopening
    | error other =>
      rw [hbad] at hopening
      cases hopening
      cases hsteps with
      | error part first visited =>
        exact .here (by rw [failure?, hbad]) (by rw [visited, declared_foldl_prefix first])
  | ok _ middle =>
    rw [hfrontRun] at hopening hsteps hrun
    cases hgood : graph.opening dialect h with
    | error other => rw [hgood] at hopening; cases hopening
    | ok opening =>
      simp only [stateBind_apply] at hrun
      cases hmembers : Build.each visit (graph.expanded dialect h) middle with
      | ok _ last =>
        obtain ⟨_, hend, -⟩ := hback last
        rw [hmembers] at hrun
        simp only [hend] at hrun
        cases hrun
      | error other last =>
        rw [hmembers] at hrun
        cases hrun
        cases hsteps with
        | ok depth indentUnit visited =>
          have hdeclared : graph.declared middle.visited = graph.declared state.visited ++ [h] := by
            rw [visited, declared_foldl_prefix (List.prefix_refl _), hself]
          have hdeeper : middle.text.depth = (level + deeper : Nat) := by
            rw [depth, Int.natCast_add, ← hdepth]
          have hstopped := hinside (level + deeper) middle hdeeper (indentUnit.trans hunit)
            hdeclared _ _ hmembers
          exact hstopped.behind (by simp [failure?, hgood])

/-! ## Visits -/

/-- **Steps that stop** in the forests of what they stand for: all of them in order stop in the
forest of everything. -/
theorem stops_each {α : Type} {step : α → Build Unit} {stands : α → List Handle} (bound : Nat)
    (items : List α) (hstep : ∀ a ∈ items, ∀ (found : List Handle) (forest : Forest Handle),
      DepthFirst (graph.next dialect) found (stands a) forest → forest.height ≤ bound →
      Writes graph found (graph.marks dialect forest)
        (fun level => graph.lines dialect level forest) (step a) ∧
      Stops graph dialect found forest.preorder (step a))
    (hforest : DepthFirst (graph.next dialect) found (items.flatMap stands) forest)
    (hheight : forest.height ≤ bound) :
    Stops graph dialect found forest.preorder (Build.each step items) := by
  induction items generalizing found forest with
  | nil => exact Stops.of_ok fun state => ⟨state, rfl⟩
  | cons a items ih =>
    rw [List.flatMap_cons, DepthFirst.append_iff] at hforest
    obtain ⟨first, second, rfl, hfirst, hsecond⟩ := hforest
    rw [Forest.height_append] at hheight
    obtain ⟨hwrites, hstops⟩ := hstep a List.mem_cons_self found first hfirst (by omega)
    exact Stops.bind hwrites hstops
      (ih (fun b hb => hstep b (List.mem_cons_of_mem a hb)) hsecond (by omega))

/-- An arrival stops in the forest of what it declares, if visits do so. -/
theorem stops_meet {arrival : Arrival} {visit : Visitor} {bound : Nat}
    (hfits : arrival.Fits graph)
    (hvisit : ∀ (h : Handle) (found : List Handle) (forest : Forest Handle),
      DepthFirst (graph.next dialect) found (graph.resolved h) forest → forest.height < bound →
      Writes graph found (graph.marks dialect forest)
        (fun level => graph.lines dialect level forest) (visit h) ∧
      Stops graph dialect found forest.preorder (visit h))
    (hforest : DepthFirst (graph.next dialect) found arrival.declares forest)
    (hheight : forest.height ≤ bound) :
    Stops graph dialect found forest.preorder (graph.meet (graph.declare dialect visit) arrival) := by
  cases arrival with
  | skip h => exact Stops.of_ok fun state => ⟨_, rfl⟩
  | declare sort h =>
    cases hforest with
    | again old later =>
      cases later
      intro level state hdepth hunit hfound cause after hrun
      have hagain : Writes graph found [] _ (graph.declare dialect visit sort h) :=
        writes_declare_again sort old
      have hwrites := hagain level state hdepth hunit hfound
      have hrun : graph.declare dialect visit sort h state = .error cause after := hrun
      rw [hrun] at hwrites
      cases hwrites
    | @fresh _ _ _ inside rest new below later =>
      cases later
      rw [Forest.height_node] at hheight
      rw [Forest.preorder_node, Forest.preorder_nil, List.append_nil]
      exact stops_declare hfits new (stops_each (bound - 1) _ (fun m _ found forest hforest hlow =>
        hvisit m found forest hforest (by omega)) below (by omega))

/-- **A visit** stops in the forest that is found from what the element stands for: `Stops` holds of
`visit`. -/
theorem stops_visit (hs : graph.CompiledSorted) (fuel : Nat) (h : Handle) (found : List Handle)
    (forest : Forest Handle)
    (hforest : DepthFirst (graph.next dialect) found (graph.resolved h) forest)
    (hheight : forest.height < fuel) :
    Stops graph dialect found forest.preorder (graph.visit dialect fuel h) := by
  induction fuel generalizing h found forest with
  | zero => omega
  | succ fuel ih =>
    unfold visit
    cases harrivals : graph.arrivals? h with
    | some arrivals =>
      have hvisit (h : Handle) (found : List Handle) (forest : Forest Handle)
          (hforest : DepthFirst (graph.next dialect) found (graph.resolved h) forest)
          (hheight : forest.height < fuel) := And.intro
        (writes_visit hs fuel h found forest hforest hheight) (ih h found forest hforest hheight)
      rw [← declares_of_arrivals? harrivals] at hforest
      refine stops_each fuel arrivals (fun arrival harrival found forest hforest hlow => ?_) hforest
        (by omega)
      have hfits := hs.fits harrivals arrival harrival
      exact ⟨writes_meet hfits (fun h found forest hforest hlow =>
        (hvisit h found forest hforest hlow).1) hforest hlow, stops_meet hfits hvisit hforest hlow⟩
    | none =>
      -- an enum value is refused before it is marked
      have hkind := (graph.arrivals?_eq_none_iff h).mp harrivals
      rw [resolved_of_enumValue hkind] at hforest
      rintro level state _ _ rfl cause after hrun
      cases hrun
      cases hforest with
      | again old _ => simp [declared, isEnumValue, hkind] at old
      | @fresh _ _ _ inside rest new below later =>
        rw [Forest.preorder_node]
        exact .here (by rw [failure?, opening_of_enumValue hkind])
          (by simp [declared, isEnumValue, hkind])

/-- **The walk** stops in the forest that is found from the exports: `Stops` holds of
`graph.walk dialect`. -/
theorem stops_walk (hs : graph.CompiledSorted)
    (hforest : DepthFirst (graph.next dialect) [] graph.roots forest) :
    Stops graph dialect [] forest.preorder (graph.walk dialect) := by
  refine stops_each graph.size graph.exports (fun entry _ found forest hforest hheight => ?_)
    hforest (height_le_size hforest)
  have hwrites := writes_visit hs (graph.size + 1) entry.2 found forest hforest (by omega)
  have hstops := stops_visit hs (graph.size + 1) entry.2 found forest hforest (by omega)
  exact ⟨(Writes.bind_of_declared_nil rfl (Writes.log _) hwrites).congr fun level => by simp,
    Stops.bind_of_ok (Writes.log _) hstops⟩

/-- **A build that fails on its walk** is `Stopped` at the first element that something stands
against, whatever was built before. -/
theorem build_stopped (hs : graph.CompiledSorted)
    (hforest : DepthFirst (graph.next dialect) [] graph.roots forest) {cause : RenderError}
    (hlines : graph.lines dialect 1 forest = .error cause) (state : BuildState) :
    ∃ after, graph.build dialect state = .error cause after ∧
      graph.Stopped dialect [] forest.preorder cause after := by
  have hstops : Stops graph dialect [] forest.preorder (graph.frame dialect) := by
    have hblock := Stops.block [some dialect.moduleHeader, some Dialect.moduleName]
      (Stops.bind_of_ok (writes_aliases graph dialect.aliases) (stops_walk hs hforest))
    simpa only [frame, bind_assoc] using hblock
  have hwrites := writes_frame hs hforest 0 { state with visited := [], text := {} } rfl rfl rfl
  simp only [Nat.zero_add, hlines, error_bind] at hwrites
  rw [build_eq, stateBind_apply]
  cases hrun : graph.frame dialect { state with visited := [], text := {} } with
  | ok _ middle => rw [hrun] at hwrites; cases hwrites
  | error other after =>
    rw [hrun] at hwrites
    cases hwrites
    exact ⟨after, rfl, hstops 0 _ rfl rfl rfl _ _ hrun⟩

end Graph

end ModuleSurface
