import ModuleSurface.Proofs.RoundTrip
import ModuleSurface.Proofs.Unfolded
import ModuleSurface.Proofs.WrittenOut

/-! # Graphs written out in full

Where no element contains itself, every element has a draft in which all that it refers to stands in
full. The map of the element in the document of the graph stands for this draft, so the document is
written out as a tree.

* **`Graph.Acyclic`** — no element contains itself.
* **`Graph.FullDrafts`** — the drafts of elements, with all that they refer to.
* **`Graph.FullDrafts.unfold`** — a graph whose drafts hold scalars only is written out. -/

namespace ModuleSurface

namespace Graph

variable {graph : Graph} {document : Document} {place : Handle → Nat} {below : Handle → Draft}

/-- **No element contains itself**, through members, instances, bases and the member maps of
classes. -/
def Acyclic (graph : Graph) : Prop :=
  ∀ h, graph.Reachable h →
    ¬ Reached (fun h => (graph.element h).successors) (graph.element h).successors h

/-- A sound graph in which no element contains itself, which is `Acyclic`, can be unfolded. -/
theorem Sound.exists_unfolded (hsound : graph.Sound) (hacyclic : graph.Acyclic) : ∃ forest,
    Unfolded (fun h => (graph.element h).successors) (graph.exports.map (·.2)) forest := by
  classical
  have hmem (h : Handle) : h ∈ (Finset.range graph.size).filter graph.Reachable ↔
      graph.Reachable h := by
    simp only [Finset.mem_filter, Finset.mem_range]
    exact ⟨fun hh => hh.2, fun hh => ⟨hsound.lt_size hh, hh⟩⟩
  refine Unfolded.exists_of_acyclic ((Finset.range graph.size).filter graph.Reachable) ?_ ?_ ?_
  · exact fun a ha b hb => (hmem b).mpr (.step ((hmem a).mp ha) hb)
  · exact fun a ha => hacyclic a ((hmem a).mp ha)
  · exact fun a ha => (hmem a).mpr (.root ha)

/-- **The drafts of elements with all that they refer to.** -/
def FullDrafts (graph : Graph) (below : Handle → Draft) : Prop :=
  ∀ h, graph.Reachable h → below h = .map ((graph.element h).draft below)

/-- The draft of an element, in which what it refers to is left out at some depth. -/
def draftWithin (graph : Graph) : Nat → Handle → Draft
  | 0, _ => .value .null
  | depth + 1, h => .map ((graph.element h).draft (graph.draftWithin depth))

/-- Nothing is left out at a depth that the unfolding does not have: `draftWithin m h` does not
depend on `m`. -/
theorem draftWithin_eq {waiting : List Handle} {forest : Forest Handle}
    (hu : Unfolded (fun h => (graph.element h).successors) waiting forest) {m n : Nat}
    (hm : forest.preorder.length ≤ m) (hn : forest.preorder.length ≤ n) :
    ∀ h ∈ waiting, graph.draftWithin m h = graph.draftWithin n h := by
  induction hu generalizing m n with
  | done => exact fun h hh => absurd hh List.not_mem_nil
  | node _ _ ihBelow ihLater =>
    simp only [Forest.preorder_node, List.length_cons, List.length_append] at hm hn
    intro h hh
    rcases List.mem_cons.mp hh with rfl | hh
    · obtain _ | m := m
      · omega
      obtain _ | n := n
      · omega
      have hcongr : (graph.element h).draft (graph.draftWithin m)
          = (graph.element h).draft (graph.draftWithin n) :=
        Element.draft_congr (ihBelow (by omega) (by omega))
      rw [draftWithin, draftWithin, hcongr]
    · exact ihLater (by omega) (by omega) h hh

/-- **There are full drafts**, `FullDrafts below`, where no element contains itself. -/
theorem exists_fullDrafts {forest : Forest Handle}
    (hu : Unfolded (fun h => (graph.element h).successors) (graph.exports.map (·.2)) forest) :
    ∃ below, graph.FullDrafts below := by
  refine ⟨graph.draftWithin forest.preorder.length, fun h hh => ?_⟩
  obtain ⟨inside, hinside, -, hlength⟩ := hu.exists_below (hu.mem_preorder_iff.mpr hh)
  obtain ⟨depth, hdepth⟩ := Nat.exists_eq_add_one_of_ne_zero (Nat.ne_zero_of_lt hlength)
  have hcongr : (graph.element h).draft (graph.draftWithin depth)
      = (graph.element h).draft (graph.draftWithin forest.preorder.length) :=
    Element.draft_congr (draftWithin_eq hinside (by omega) (by omega))
  rw [← hcongr]
  conv_lhs => rw [hdepth, draftWithin]

/-- **The maps of the elements stand for their full drafts**, in a document with a place for each
element. -/
theorem PlacedAs.refines (hp : PlacedAs place graph document) (hfull : graph.FullDrafts below)
    {waiting : List Handle} {forest : Forest Handle}
    (hu : Unfolded (fun h => (graph.element h).successors) waiting forest)
    (hwaiting : ∀ h ∈ waiting, graph.Reachable h) :
    ∀ h ∈ waiting, document.store.Refines (.value (.map (place h))) (below h) := by
  induction hu with
  | done => exact fun h hh => absurd hh List.not_mem_nil
  | @node waiting a _ _ _ _ ihBelow ihLater =>
    intro h hh
    rcases List.mem_cons.mp hh with rfl | hh
    · have ha : graph.Reachable h := hwaiting h List.mem_cons_self
      rintro v ⟨⟩
      rw [hfull h ha]
      refine Store.holds_map_iff.mpr ⟨place h, rfl, hp.inside ha, ?_⟩
      exact Store.refines_element (ihBelow fun b hb => .step ha hb) _ (hp.holds ha)
    · exact ihLater (fun b hb => hwaiting b (List.mem_cons_of_mem _ hb)) h hh

/-- The root stands for its full draft, `graph.rootDraft below`. -/
theorem PlacedAs.root_full (hp : PlacedAs place graph document) (hfull : graph.FullDrafts below)
    {forest : Forest Handle}
    (hu : Unfolded (fun h => (graph.element h).successors) (graph.exports.map (·.2)) forest) :
    document.store.Holds (graph.rootDraft below) document.root :=
  Store.refines_root (hp.refines hfull hu fun _ ha => .root ha) _ hp.root

end Graph

end ModuleSurface
