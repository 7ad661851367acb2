import ModuleSurface.Proofs.Contents
import ModuleSurface.Proofs.Cycles
import ModuleSurface.Proofs.JsonRoundTrip

/-! # What JSON makes of a graph

A graph that JSON carries is written as JSON unless an element contains itself. What is read from the
text is the graph again, as far as its content goes: only sharing is gone, for an element that was
referred to from several places is a new one at each of them. So the document of what is read is
written out as that of the graph was.

* **`Graph.toJson_outcome`** — when a graph is written as JSON, and what is read then. -/

namespace ModuleSurface

namespace Graph

variable {document : Document} {graph : Graph}

/-- **A graph is restored by another one**: they have the same content and their documents are written
out as the same tree, but in the other one each element is referred to from one place. Where no scalar
differs from itself, comparing what the two export says that it is equal. -/
structure Restored (graph copy : Graph) : Prop where
  content : copy.EqualByContent graph
  parents : copy.OneParent
  document : ∃ tree, graph.toDocument.unfold = .ok tree ∧ copy.toDocument.unfold = .ok tree
  equal : (∀ h, graph.Reachable h → (graph.element h).SelfEqual) →
    ∀ pair ∈ (copy.exports.map (·.2)).zip (graph.exports.map (·.2)),
      (graph.beside copy).sameElement (graph.size + pair.1) pair.2 = some true

/-- **What is read from the JSON text of a graph** in which no element contains itself restores it,
as `Restored` has it. -/
theorem exists_restored (hsound : graph.Sound) (hcarried : graph.Carried)
    (hacyclic : graph.Acyclic) : ∃ (text : String) (copy : Graph),
      graph.toJson = .ok text ∧ ofJson text = .ok copy ∧ graph.Restored copy := by
  obtain ⟨forest, hforest⟩ := hsound.exists_unfolded hacyclic
  obtain ⟨text, copy, f, hwritten, hread, hsound', hrenames, hunshared⟩ :=
    exists_json_copy hsound hcarried hforest
  have ⟨forest', hforest', _⟩ := hunshared
  obtain ⟨below, hfull⟩ := exists_fullDrafts hforest
  have hdraft := hfull.carries_root hcarried hforest
  -- the drafts of the copy are those of the graph, so it is written out as the same tree
  have hcopied : copy.toDocument.unfold = .ok (graph.rootDraft below).tree := by
    rw [← hrenames.rootDraft below] at hdraft ⊢
    exact (hfull.rename hrenames).unfold_toDocument hsound' hforest' hdraft
  refine ⟨text, copy, hwritten, hread, ?_, ?_, ?_, ?_⟩
  · exact hrenames.equalByContent hforest'
  · exact hunshared.oneParent
  · exact ⟨_, hfull.unfold_toDocument hsound hforest hdraft, hcopied⟩
  · exact hrenames.sameElement hsound hsound' hunshared hcarried

/-- **JSON fails exactly on cycles, and loses nothing but sharing.** A graph is not written if an
element that can be reached leads back to itself, and for no other cause. If none does, it is written,
and what is read from the text restores it. -/
theorem toJson_outcome (hread : ofDocument document = .ok graph) (hcarried : graph.Carried) :
    (graph.toJson = .error .cyclic ↔ ∃ h, graph.Reachable h ∧
      Reached (fun h => (graph.element h).successors) (graph.element h).successors h) ∧
    (graph.Acyclic → ∃ (text : String) (copy : Graph),
      graph.toJson = .ok text ∧ ofJson text = .ok copy ∧ graph.Restored copy) := by
  obtain ⟨hsound, -⟩ := sound_of_ofDocument hread
  refine ⟨⟨fun herror => ?_, ?_⟩, exists_restored hsound hcarried⟩
  · by_contra hnone
    have hacyclic : graph.Acyclic := fun h hh hcycle => hnone ⟨h, hh, hcycle⟩
    obtain ⟨text, copy, hwritten, -⟩ := exists_restored hsound hcarried hacyclic
    rw [herror] at hwritten
    cases hwritten
  · rintro ⟨h, hh, hcycle⟩
    rw [toJson, unfold_of_cyclic hsound hcarried fun hacyclic => hacyclic h hh hcycle]
    rfl

/-- A document with a class that is exported, and is the base of another one. -/
def baseDocument : Document where
  store := { maps := #[
    [(.text "kind", .text "class")],
    [(.text "kind", .text "class"), (.text "base", .map 0)],
    [(.text "Base", .map 0), (.text "Derived", .map 1)],
    [(.text "exports", .map 2)]] }
  root := .map 3

/-- The graph of the document. -/
def baseGraph : Graph where
  store := baseDocument.store
  elements := #[
    { name := .text "Base", body := .classType {} },
    { name := .text "Derived", body := .classType { base := some 0 } }]
  exports := [(.text "Base", 0), (.text "Derived", 1)]

/-- A class that JSON carries: its name is a text, and it has no member maps. -/
theorem carried_class {name : String} {base : Option Handle} (hname : Json.Unpaired name.toList) :
    Element.Carried { name := .text name, body := .classType { base } } where
  name := ⟨.text name, rfl, hname⟩
  members _ hmembers := by cases hmembers
  body := by constructor <;> intro members hmembers <;> cases hmembers

/-- A namespace that contains itself is not written. A base that is shared is, and what is read has a
class of its own as the base. -/
theorem toJson_outcome_base :
    loopGraph.toJson = .error .cyclic ∧
    ∃ (text : String) (copy : Graph), baseGraph.toJson = .ok text ∧ ofJson text = .ok copy ∧
      baseGraph.Restored copy := by
  constructor
  · have hread : ofDocument loopDocument = .ok loopGraph := rfl
    have hcarried : loopGraph.Carried := by
      refine ⟨fun {h} hh => ?_, ["here", "there"], rfl, by decide, by decide⟩
      rw [eq_zero_of_reachable_loopGraph hh]
      refine ⟨⟨.text "here", rfl, ?_⟩, fun members hmembers => ?_, trivial⟩
      · show Json.Unpaired "here".toList
        decide
      · cases hmembers
        exact ⟨["self"], rfl, by decide, by decide⟩
    exact (toJson_outcome hread hcarried).1.mpr ⟨0, .root (by decide), .root (by decide)⟩
  · have hread : ofDocument baseDocument = .ok baseGraph := rfl
    have hreached {h : Handle} (hh : baseGraph.Reachable h) : h = 0 ∨ h = 1 := by
      refine hh.mem_of_closed (S := fun h => h = 0 ∨ h = 1) (fun a ha => ?_) fun a ha b hb => ?_
      · simpa [baseGraph] using ha
      · rcases ha with rfl | rfl
        · cases hb
        · exact .inl (List.mem_singleton.mp hb)
    have hcarried : baseGraph.Carried := by
      refine ⟨fun {h} hh => ?_, ["Base", "Derived"], rfl, by decide, by decide⟩
      rcases hreached hh with rfl | rfl
      · exact carried_class (by decide)
      · exact carried_class (by decide)
    -- a base leads to nothing, and what is derived from it leads to the base only
    have hacyclic : baseGraph.Acyclic := by
      have hbase {h : Handle}
          (hh : Reached (fun h => (baseGraph.element h).successors) [0] h) : h = 0 := by
        refine hh.mem_of_closed (S := (· = 0)) (fun a ha => List.mem_singleton.mp ha) ?_
        rintro a rfl b hb
        cases hb
      intro h hh hcycle
      rcases hreached hh with rfl | rfl
      · have hnever : ∀ a ∈ (baseGraph.element 0).successors, False := List.forall_mem_nil _
        exact hcycle.mem_of_closed (S := fun _ => False) hnever fun a ha => ha.elim
      · exact absurd (hbase hcycle) (by decide)
    exact (toJson_outcome hread hcarried).2 hacyclic

end Graph

end ModuleSurface
