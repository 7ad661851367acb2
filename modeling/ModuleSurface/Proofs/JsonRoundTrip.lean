import ModuleSurface.Interchange
import ModuleSurface.Proofs.CarriedDrafts
import ModuleSurface.Proofs.OneParent

/-! # The round trip through JSON

JSON cannot express that a map is shared, so an element is written out at every place that refers to
it, and each of these places is read as an element of its own. A walk that meets an element again
passes over it, but a walk of the copy declares it again. So the definitions stay the same exactly
when there are none, or when no element that has lines is met twice.

* **`Graph.exists_json_copy`** — what is read from the JSON text of a graph.
* **`Graph.render_json_copy_iff`** — when it has the definitions of the graph. -/

namespace ModuleSurface

namespace Graph

variable {document : Document} {graph : Graph}

/-- **What is read from the JSON text of a graph** that can be unfolded: a graph that is `Unshared`,
so that it contains nothing at two places, and that is renamed into the graph that was written. -/
theorem exists_json_copy (hsound : graph.Sound) (hcarried : graph.Carried) {forest : Forest Handle}
    (hforest : Unfolded (fun h => (graph.element h).successors) (graph.exports.map (·.2)) forest) :
    ∃ (text : String) (copy : Graph) (f : Handle → Handle),
      graph.toJson = .ok text ∧ ofJson text = .ok copy ∧ copy.Sound ∧ Renames f copy graph ∧
      copy.Unshared := by
  obtain ⟨below, hfull⟩ := exists_fullDrafts hforest
  have hdraft : Json.CarriesDraft (graph.rootDraft below) := hfull.carries_root hcarried hforest
  have hnames : graph.ScalarNames := fun h hh => by
    obtain ⟨s, hs, -⟩ := (hcarried.elements hh).name
    exact ⟨s, hs⟩
  -- the document is written out as the tree of the full draft
  have hwritten : graph.toDocument.unfold = .ok (graph.rootDraft below).tree :=
    hfull.unfold_toDocument hsound hforest hdraft
  -- the tree that is read again has a map of its own for each part
  obtain ⟨hholds, hnodup⟩ := Draft.ofTree_holds hdraft
  obtain ⟨copy, f, hread, hrenames, hunshared⟩ :=
    exists_copy_of_holds hsound hfull hnames hforest hholds hnodup
  refine ⟨Json.write (graph.rootDraft below).tree, copy, f, ?_, ?_, (sound_of_ofDocument hread).1,
    hrenames, hunshared⟩
  · rw [toJson, hwritten]
    rfl
  · rw [ofJson, Json.read_write (Json.carries_tree hdraft)]
    show load _ = _
    rw [load, hread]
    rfl

/-- **The round trip through JSON preserves the definitions** of a graph exactly when there are
none, or its walk meets no element that has lines twice: `DeclaresOnce`. -/
theorem render_json_copy_iff (hread : ofDocument document = .ok graph) (hacyclic : graph.Acyclic)
    (hcarried : graph.Carried) : ∃ (text : String) (copy : Graph),
      graph.toJson = .ok text ∧ ofJson text = .ok copy ∧ ∀ dialect,
        (copy.render dialect = graph.render dialect ↔
          (∀ text, graph.render dialect ≠ .ok text) ∨
            ∃ walk, DepthFirst (graph.next dialect) [] graph.roots walk ∧
              graph.DeclaresOnce dialect walk) := by
  -- the copy has no sharing left, so it renders as the unfolding does
  obtain ⟨hsound, -⟩ := sound_of_ofDocument hread
  obtain ⟨forest, hforest⟩ := hsound.exists_unfolded hacyclic
  obtain ⟨text, copy, f, hwritten, hcopy, hsound', hrenames, hunshared⟩ :=
    exists_json_copy hsound hcarried hforest
  refine ⟨text, copy, hwritten, hcopy, fun dialect => ?_⟩
  obtain ⟨walk, hwalk⟩ := graph.exists_forest dialect
  rw [hrenames.render_eq_iff hunshared hsound.wellSorted hsound'.wellSorted hwalk]
  refine or_congr_right ⟨fun honce => ⟨walk, hwalk, honce⟩, ?_⟩
  rintro ⟨other, hother, honce⟩
  rwa [hwalk.unique hother]

/-- A document in which one global is exported under two names. -/
def aliasDocument : Document where
  store := {
    lists := #[[.text "compiled"]]
    maps := #[
      [(.text "kind", .text "global"), (.text "name", .text "shared"), (.text "flags", .list 0),
        (.text "type", .text "i32")],
      [(.text "first", .map 0), (.text "second", .map 0)],
      [(.text "exports", .map 1)]] }
  root := .map 2

/-- The graph of the document. -/
def aliasGraph : Graph where
  store := aliasDocument.store
  elements := #[
    { name := .text "shared", flags := { compiled := true },
      body := .global (some (.plain .i32)) none }]
  exports := [(.text "first", 0), (.text "second", 0)]

/-- Only the global is reached in `aliasGraph`. -/
theorem reachable_alias {h : Handle} (hh : aliasGraph.Reachable h) : h = 0 := by
  refine hh.mem_of_closed (S := (· = 0)) (fun a ha => ?_) fun a ha b hb => ?_
  · simpa [aliasGraph] using ha
  · subst ha
    cases hb

/-- The global is declared once, and twice after the round trip. -/
theorem render_json_copy_alias : ofDocument aliasDocument = .ok aliasGraph ∧ aliasGraph.Acyclic ∧
    aliasGraph.Carried ∧ ∃ (text : String) (copy : Graph), aliasGraph.toJson = .ok text ∧
      ofJson text = .ok copy ∧ copy.render .webidl ≠ aliasGraph.render .webidl := by
  have hread : ofDocument aliasDocument = .ok aliasGraph := rfl
  have hacyclic : aliasGraph.Acyclic := fun h hh hcycle => by
    obtain rfl := reachable_alias hh
    have hnever : ∀ a ∈ (aliasGraph.element 0).successors, False := List.forall_mem_nil _
    exact hcycle.mem_of_closed (S := fun _ => False) hnever fun a ha => ha.elim
  have hcarried : aliasGraph.Carried := by
    refine ⟨fun {h} hh => ?_, ["first", "second"], rfl, by decide, by decide⟩
    obtain rfl := reachable_alias hh
    have hname : Json.Unpaired "shared".toList := by decide
    refine ⟨⟨.text "shared", rfl, hname⟩, fun members hmembers => ?_, fun type htype => ?_,
      fun constant hconstant => ?_⟩
    · cases hmembers
    · cases htype
      constructor <;> intro v hv <;> cases hv
    · cases hconstant
  obtain ⟨text, copy, hwritten, hcopy, hsame⟩ := render_json_copy_iff hread hacyclic hcarried
  refine ⟨hread, hacyclic, hcarried, text, copy, hwritten, hcopy, fun hequal => ?_⟩
  rcases (hsame .webidl).mp hequal with hnone | ⟨walk, hwalk, honce⟩
  · exact hnone "interface ASModule \x7b\n  long shared;\n\x7d\n" (by decide)
  · have hcount := honce 0 fun hsilent => by cases hsilent.1
    have hroots : aliasGraph.roots = [0, 0] := rfl
    rw [Forest.met, hroots, List.count_append] at hcount
    exact absurd (Nat.le_of_add_right_le hcount) (by decide)

end Graph

end ModuleSurface
