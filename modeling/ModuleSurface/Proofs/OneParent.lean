import ModuleSurface.Proofs.StrictBuild
import ModuleSurface.Proofs.UnsharedWalk

/-! # One parent for each element

Where an unfolding shows nothing twice, each node is next to one other node at most, and roots are
next to none. So the walk of a graph that contains nothing at two places marks nothing twice: not the
elements that it declares, and not the values of enums either, which it marks without declaring them.

* **`Unfolded.parent_unique`** — nodes next to two nodes.
* **`Graph.Unshared.exists_marked_walk`** — the walk of a graph without sharing. -/

namespace ModuleSurface

namespace Unfolded

variable {α : Type} {next : α → List α} {waiting : List α} {forest : Forest α}

/-- **What an unfolding shows** are the roots and what is next to the nodes, each as often:
`waiting ++ forest.preorder.flatMap next` up to the order. -/
theorem perm (h : Unfolded next waiting forest) :
    forest.preorder.Perm (waiting ++ forest.preorder.flatMap next) := by
  induction h with
  | done => simp
  | @node waiting a inside rest _ _ ihBelow ihLater =>
    -- the node itself is one of the roots; what is next to it is what waits below it
    rw [Forest.preorder_node, List.flatMap_cons, List.flatMap_append, List.cons_append]
    refine List.Perm.cons a ((ihBelow.append ihLater).trans ?_)
    rw [← Multiset.coe_eq_coe]
    simp only [← Multiset.coe_add]
    rw [add_left_comm, add_assoc]

/-- **A node has one parent**: if `a` is next to `b` and to `c`, these are the same. -/
theorem parent_unique (h : Unfolded next waiting forest) (hnodup : forest.preorder.Nodup) {a b c : α}
    (hb : b ∈ forest.preorder) (hc : c ∈ forest.preorder) (hab : a ∈ next b) (hac : a ∈ next c) :
    b = c := by
  by_contra hne
  have hchildren := List.Nodup.of_append_right (h.perm.nodup_iff.mp hnodup)
  have hsymm : Std.Symm (Function.onFun List.Disjoint next) := ⟨fun _ _ h => List.Disjoint.symm h⟩
  exact (List.nodup_flatMap.mp hchildren).2.forall hb hc hne hab hac

/-- **A root has none**: nothing that is waiting is next to a node. -/
theorem not_mem_next_of_waiting (h : Unfolded next waiting forest) (hnodup : forest.preorder.Nodup)
    {a b : α} (ha : a ∈ waiting) (hb : b ∈ forest.preorder) : a ∉ next b := fun hab =>
  (List.nodup_append.mp (h.perm.nodup_iff.mp hnodup)).2.2 a ha a
    (List.mem_flatMap.mpr ⟨b, hb, hab⟩) rfl

/-- What is next to a node is there once. -/
theorem nodup_next (h : Unfolded next waiting forest) (hnodup : forest.preorder.Nodup) {b : α}
    (hb : b ∈ forest.preorder) : (next b).Nodup :=
  (List.nodup_flatMap.mp (List.Nodup.of_append_right (h.perm.nodup_iff.mp hnodup))).1 b hb

end Unfolded

namespace Graph

variable {graph : Graph} {dialect : Dialect} {forest walk : Forest Handle}

/-- What a declaration marks besides its element, the tail of `markedBy`, are members of an enum
that it does not go on to. -/
theorem mem_tail_markedBy {a h : Handle} (ha : a ∈ (graph.markedBy dialect h).tail) :
    graph.isEnumValue a = true ∧ a ∈ (graph.element h).successors ∧
      a ∉ graph.expanded dialect h := by
  have hvalue := isEnumValue_of_mem_tail ha
  rw [markedBy, List.tail_cons] at ha
  split at ha
  · rename_i henum
    obtain ⟨entry, hentry, rfl⟩ := List.mem_map.mp ha
    obtain ⟨hmember, -⟩ := List.mem_filter.mp hentry
    refine ⟨hvalue, List.mem_append_left _ (List.mem_map_of_mem hmember), fun hmem => ?_⟩
    have hbody : (graph.element h).body = .enumeration := by
      have hkind := henum.2
      unfold Element.kind at hkind
      cases hbody : (graph.element h).body <;> rw [hbody] at hkind <;> cases hkind
    rw [expanded, hbody] at hmem
    obtain ⟨other, hother, heq⟩ := List.mem_map.mp hmem
    have hnot := (List.mem_filter.mp hother).2
    rw [heq, hvalue] at hnot
    cases hnot
  · exact absurd ha List.not_mem_nil

/-- What a declaration marks besides its element is different: the tail of `markedBy` has no
duplicates. -/
theorem nodup_tail_markedBy {h : Handle} (hnodup : (graph.element h).successors.Nodup) :
    (graph.markedBy dialect h).tail.Nodup := by
  rw [markedBy, List.tail_cons]
  split
  · exact hnodup.sublist ((List.filter_sublist.map _).trans (List.sublist_append_left _ _))
  · exact List.nodup_nil

/-- **The values that a walk marks are not declared by it.** -/
theorem not_mem_walk (hs : graph.WellSorted)
    (hforest : Unfolded (fun h => (graph.element h).successors) (graph.exports.map (·.2)) forest)
    (hnodup : forest.preorder.Nodup) (hwalk : Unfolded (graph.next dialect) graph.roots walk)
    (hwithin : ∀ h ∈ walk.preorder, h ∈ forest.preorder) {a h : Handle}
    (hh : h ∈ walk.preorder) (ha : a ∈ (graph.markedBy dialect h).tail) : a ∉ walk.preorder := by
  intro hmem
  obtain ⟨hvalue, hsuccessor, hnot⟩ := mem_tail_markedBy ha
  have hkind : (graph.element a).kind = .enumValue := of_decide_eq_true hvalue
  -- a value that is declared is exported or a member, and then not only of the enum that marks it
  cases hwalk.reached hmem with
  | root hroot =>
    obtain ⟨entry, hentry, hresolved⟩ := List.mem_flatMap.mp hroot
    rw [hs.enumValue_of_resolved hresolved hkind] at hsuccessor
    exact hforest.not_mem_next_of_waiting hnodup (List.mem_map_of_mem hentry) (hwithin h hh)
      hsuccessor
  | @step b _ hbefore hnext =>
    obtain ⟨m, hm, hresolved⟩ := List.mem_flatMap.mp hnext
    rw [← hs.enumValue_of_resolved hresolved hkind] at hm
    have hb : b ∈ walk.preorder := hwalk.mem_preorder_iff.mpr hbefore
    have hsame : h = b := hforest.parent_unique hnodup (hwithin h hh) (hwithin b hb) hsuccessor
      ((expanded_sublist graph dialect b).subset hm)
    exact hnot (hsame ▸ hm)

/-- **The walk of a graph without sharing** marks nothing twice: its `marks` have no duplicates. -/
theorem Unshared.exists_marked_walk (hunshared : graph.Unshared) (hs : graph.WellSorted)
    (dialect : Dialect) : ∃ walk, Unfolded (graph.next dialect) graph.roots walk ∧
      DepthFirst (graph.next dialect) [] graph.roots walk ∧ (graph.marks dialect walk).Nodup := by
  obtain ⟨forest, hforest, hnodup⟩ := hunshared
  obtain ⟨walk, hwalk, hsearch, hsublist⟩ := exists_walk_within hs dialect hforest hnodup
  have hwithin : ∀ h ∈ walk.preorder, h ∈ forest.preorder := fun h hh => hsublist.subset hh
  have hmarked (h : Handle) : graph.markedBy dialect h = h :: (graph.markedBy dialect h).tail := rfl
  refine ⟨walk, hwalk, hsearch, List.nodup_flatMap.mpr ⟨fun h hh => ?_, ?_⟩⟩
  · rw [hmarked, List.nodup_cons]
    exact ⟨fun hmem => not_mem_walk hs hforest hnodup hwalk hwithin hh hmem hh,
      nodup_tail_markedBy (hforest.nodup_next hnodup (hwithin h hh))⟩
  -- two elements mark the same only if one marks the other, or both have it as a child
  · refine (hnodup.sublist hsublist).pairwise_of_forall_ne fun b hb c hc hne a hab hac => ?_
    rw [hmarked, List.mem_cons] at hab hac
    rcases hab with rfl | hab
    · rcases hac with rfl | hac
      · exact hne rfl
      · exact not_mem_walk hs hforest hnodup hwalk hwithin hc hac hb
    · rcases hac with rfl | hac
      · exact not_mem_walk hs hforest hnodup hwalk hwithin hb hab hc
      · exact hne (hforest.parent_unique hnodup (hwithin b hb) (hwithin c hc)
          (mem_tail_markedBy hab).2.1 (mem_tail_markedBy hac).2.1)

end Graph

end ModuleSurface
