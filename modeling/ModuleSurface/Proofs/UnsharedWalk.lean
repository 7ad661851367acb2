import ModuleSurface.Proofs.Repeats
import ModuleSurface.Proofs.TreeCopy

/-! # Walks of graphs without sharing

A walk declares some of what an element refers to: members, or the instances of a prototype. So what
it declares in a graph that contains nothing at two places is thinned out of the unfolding of that
graph, and nothing is met twice. Where such a graph is renamed into another one, its definitions are
those of the unfolding of the other walk.

* **`Graph.exists_unfolded_walk`** — what is declared is thinned out of what is contained.
* **`Graph.Unshared.exists_walk`** — the walk of a graph without sharing is an unfolding.
* **`Graph.Renames.render_eq_iff`** — when a copy without sharing has the definitions of its
  original. -/

namespace ModuleSurface

namespace Graph

variable {graph copy : Graph} {dialect : Dialect} {f : Handle → Handle}

/-! ## What is declared -/

/-- An instance of a prototype is declared for itself, where it is compiled: `graph.resolved h` is
`[h]` or empty. -/
theorem resolved_of_instance {h : Handle} {sort : InstanceSort}
    (hsort : sort.admits (graph.element h).kind = true) :
    graph.resolved h = if (graph.element h).isCompiled then [h] else [] := by
  unfold resolved
  unfold Element.kind at hsort
  cases hbody : (graph.element h).body with
  | functionPrototype instances | classPrototype instances | enumValue value =>
    rw [hbody] at hsort
    cases sort <;> exact absurd hsort Bool.false_ne_true
  | _ => rfl

/-- What is declared for instances are those that are compiled. -/
theorem flatMap_resolved_of_instances {instances : List Handle} {sort : InstanceSort}
    (hsort : ∀ i ∈ instances, sort.admits (graph.element i).kind = true) :
    instances.flatMap graph.resolved = instances.filter fun i => (graph.element i).isCompiled := by
  induction instances with
  | nil => rfl
  | cons i instances ih =>
    rw [List.flatMap_cons, resolved_of_instance (hsort i List.mem_cons_self),
      ih fun j hj => hsort j (List.mem_cons_of_mem i hj), List.filter_cons]
    split <;> rfl

/-- **An element is declared for itself, or some of what it refers to is declared for it.** -/
theorem resolved_cases (hs : graph.WellSorted) (h : Handle) :
    graph.resolved h = [h] ∨ ∃ others : List Handle,
      others.Sublist (graph.element h).successors ∧
        graph.resolved h = others.flatMap graph.resolved := by
  have hlinks : (graph.element h).body.links.Sublist (graph.element h).successors :=
    List.sublist_append_right _ _
  cases hbody : (graph.element h).body with
  | functionPrototype instances =>
    rw [hbody] at hlinks
    refine .inr ⟨instances, hlinks, ?_⟩
    rw [flatMap_resolved_of_instances (hs.functions hbody), resolved, hbody]
  | classPrototype instances =>
    rw [hbody] at hlinks
    refine .inr ⟨instances, hlinks, ?_⟩
    rw [flatMap_resolved_of_instances (hs.classes hbody), resolved, hbody]
  | enumValue value =>
    left
    rw [resolved, hbody]
  | _ =>
    -- what is not compiled is declared no more than nothing is
    by_cases hcompiled : (graph.element h).isCompiled
    · left
      simp only [resolved, hbody, hcompiled, if_true]
    · right
      refine ⟨[], List.nil_sublist _, ?_⟩
      rw [List.flatMap_nil]
      simp only [resolved, hbody]
      rw [if_neg hcompiled]

/-- A declaration goes on to some of what its element refers to: `expanded` is a sublist of
`successors`. -/
theorem expanded_sublist (graph : Graph) (dialect : Dialect) (h : Handle) :
    (graph.expanded dialect h).Sublist (graph.element h).successors := by
  have hmembers : ((graph.element h).memberItems.map (·.2)).Sublist (graph.element h).successors :=
    List.sublist_append_left _ _
  -- declarations go on to members only, never to links
  refine List.Sublist.trans ?_ hmembers
  unfold expanded
  cases hbody : (graph.element h).body with
  | global type constant =>
    by_cases hdialect : dialect = .typescript
    · simp [hdialect]
    · simp [hdialect]
  | enumeration => exact List.filter_sublist.map _
  | function | nameSpace => exact List.Sublist.refl _
  | _ => exact List.nil_sublist _

/-- **What is declared is thinned out of what is contained**: for some of what is unfolded, what is
declared can be unfolded too, and shows some of the same. -/
theorem exists_unfolded_walk (hs : graph.WellSorted) {waiting : List Handle}
    {forest : Forest Handle}
    (hu : Unfolded (fun h => (graph.element h).successors) waiting forest) {chosen : List Handle}
    (hchosen : chosen.Sublist waiting) :
    ∃ walk, Unfolded (graph.next dialect) (chosen.flatMap graph.resolved) walk ∧
      walk.preorder.Sublist forest.preorder := by
  induction hu generalizing chosen with
  | done =>
    rw [List.sublist_nil.mp hchosen]
    exact ⟨.nil, .done, List.Sublist.refl _⟩
  | @node waiting a inside rest _ _ ihBelow ihLater =>
    cases hchosen with
    | cons _ hchosen =>
      obtain ⟨walk, hwalk, hsublist⟩ := ihLater hchosen
      refine ⟨walk, hwalk, hsublist.trans ?_⟩
      rw [Forest.preorder_node, ← List.cons_append]
      exact List.sublist_append_right _ _
    | @cons_cons chosen _ _ hchosen =>
      obtain ⟨later, hlater, hrest⟩ := ihLater hchosen
      rw [List.flatMap_cons]
      -- an element is shown itself, or what is shown for it stands below it
      rcases resolved_cases hs a with hself | ⟨others, hothers, hresolved⟩
      · obtain ⟨below, hbelow, hinside⟩ := ihBelow (expanded_sublist graph dialect a)
        rw [hself]
        exact ⟨.node a below later, .node hbelow hlater, (hinside.append hrest).cons_cons a⟩
      · obtain ⟨below, hbelow, hinside⟩ := ihBelow hothers
        rw [hresolved]
        refine ⟨below.append later, hbelow.append hlater, ?_⟩
        rw [Forest.preorder_append, Forest.preorder_node]
        exact (hinside.append hrest).cons a

/-- Where the unfolding of a graph shows nothing twice, the walk of the graph is thinned out of it. -/
theorem exists_walk_within (hs : graph.WellSorted) (dialect : Dialect) {forest : Forest Handle}
    (hforest : Unfolded (fun h => (graph.element h).successors) (graph.exports.map (·.2)) forest)
    (hnodup : forest.preorder.Nodup) : ∃ walk, Unfolded (graph.next dialect) graph.roots walk ∧
      DepthFirst (graph.next dialect) [] graph.roots walk ∧
      walk.preorder.Sublist forest.preorder := by
  obtain ⟨walk, hwalk, hsublist⟩ := exists_unfolded_walk hs hforest (List.Sublist.refl _)
  rw [List.flatMap_map] at hwalk
  exact ⟨walk, hwalk, hwalk.depthFirst (hnodup.sublist hsublist), hsublist⟩

/-- **The walk of a graph without sharing** is an unfolding: it meets nothing twice, so `Unfolded`
and `DepthFirst` agree on it. -/
theorem Unshared.exists_walk (hunshared : graph.Unshared) (hs : graph.WellSorted) :
    ∃ walk, Unfolded (graph.next dialect) graph.roots walk ∧
      DepthFirst (graph.next dialect) [] graph.roots walk := by
  obtain ⟨forest, hforest, hnodup⟩ := hunshared
  obtain ⟨walk, hwalk, hsearch, -⟩ := exists_walk_within hs dialect hforest hnodup
  exact ⟨walk, hwalk, hsearch⟩

/-! ## Copies -/

/-- **A copy without sharing has the definitions of its original** exactly when there are none, or
the walk of the original meets no element that has lines twice. -/
theorem Renames.render_eq_iff (hr : Renames f copy graph) (hunshared : copy.Unshared)
    (hs : graph.WellSorted) (hs' : copy.WellSorted) {search : Forest Handle}
    (hsearch : DepthFirst (graph.next dialect) [] graph.roots search) :
    copy.render dialect = graph.render dialect ↔
      (∀ text, graph.render dialect ≠ .ok text) ∨ graph.DeclaresOnce dialect search := by
  obtain ⟨walk, hwalk, hdepthFirst⟩ : ∃ walk, Unfolded (copy.next dialect) copy.roots walk ∧
      DepthFirst (copy.next dialect) [] copy.roots walk := hunshared.exists_walk hs'
  have hreached : ∀ h ∈ walk.preorder, copy.Reachable h := fun h hh =>
    (hwalk.reached hh).mem_of_closed (fun _ ha => reachable_roots ha)
      fun _ ha _ hb => reachable_next ha hb
  have hunfolded : Unfolded (graph.next dialect) graph.roots (walk.map f) := by
    rw [hr.roots]
    exact hwalk.map f (S := copy.Reachable) (fun _ ha _ hb => reachable_next ha hb)
      (fun _ ha => hr.next ha) fun _ ha => reachable_roots ha
  rw [← textOf_unfolded_eq_iff hs hsearch hunfolded, hr.lines hreached 1]
  exact iff_of_eq (congrArg (· = _) (render_eq hs' hdepthFirst))

end Graph

end ModuleSurface
