import ModuleSurface.Proofs.Encoding
import ModuleSurface.Proofs.ReadBack
import ModuleSurface.Proofs.Recognition
import ModuleSurface.Proofs.Renaming

/-! # Writing a graph and reading it back

A graph that was read is written with one map for each element that can be reached, and reading
these maps gives an isomorphic graph: what was shared is shared again, and cycles are closed again.

* **`Graph.WrittenAs`** — a document has one map for each element that can be reached.
* **`Graph.WrittenAs.exists_copy`** — such a document is read as an isomorphic graph.
* **`Graph.writtenAs_toDocument`** — the document of a graph is such a document.
* **`Graph.ofDocument_toDocument`** — a graph that was read survives the round trip. -/

namespace ModuleSurface

namespace Graph

open Store (Grows)

variable {graph copy : Graph} {document : Document} {place : Handle → Nat}

/-- **A document with one map for each element** that can be reached: the map spells the element,
different elements have different maps, and the root holds the exports and the addressing width. -/
structure WrittenAs (place : Handle → Nat) (graph : Graph) (document : Document) : Prop where
  spells {h : Handle} : graph.Reachable h →
    document.store.Spells ((graph.element h).map place) (document.store.entries (place h))
  inside {h : Handle} : graph.Reachable h → place h < document.store.maps.size
  apart : Set.InjOn place {h | graph.Reachable h}
  root : ∃ ref, document.root = .map ref ∧
    document.store.SpellsMembers ((document.store.entries ref).field "exports")
      (some (graph.exports.rename place)) ∧
    document.store.truthy (((document.store.entries ref).field? "is_64bit").getD (.bool false))
      = graph.is64Bit

/-- What can be reached in a sound graph is an element of it: `h < graph.size`. -/
theorem Sound.lt_size (hsound : graph.Sound) {h : Handle} (hh : graph.Reachable h) :
    h < graph.size := by
  refine hh.mem_of_closed (fun a ha => ?_) fun a ha b hb => (hsound.elements a ha).inside b hb
  obtain ⟨entry, hentry, rfl⟩ := List.mem_map.mp ha
  exact hsound.exports entry hentry

/-! ## Reading -/

/-- **One map for each element is enough**: the document is read as a graph that is `Isomorphic`. -/
theorem WrittenAs.exists_copy (hw : WrittenAs place graph document) (hsound : graph.Sound) :
    ∃ (copy : Graph) (f : Handle → Handle), ofDocument document = .ok copy ∧
      Isomorphic f graph copy := by
  -- the element that a map spells, for the maps that stand for elements
  let spelled (r : Nat) : Element :=
    (graph.element (Function.invFunOn place {h | graph.Reachable h} r)).map place
  have hspelled {h : Handle} (hh : graph.Reachable h) :
      spelled (place h) = (graph.element h).map place := by
    show (graph.element (Function.invFunOn place {h | graph.Reachable h} (place h))).map place = _
    rw [hw.apart.leftInvOn_invFunOn hh]
  have hmaps : Spelled document.store spelled fun r => ∃ h, graph.Reachable h ∧ place h = r := by
    constructor
    · rintro _ ⟨h, hh, rfl⟩
      rw [hspelled hh]
      exact hw.spells hh
    · rintro _ ⟨h, hh, rfl⟩ s hs
      rw [hspelled hh, Element.successors_map] at hs
      obtain ⟨a, ha, rfl⟩ := List.mem_map.mp hs
      exact ⟨a, .step hh ha, rfl⟩
    · rintro _ ⟨h, hh, rfl⟩
      rw [hspelled hh]
      refine (hsound.elements h (hsound.lt_size hh)).sorted.map fun a ha => ?_
      rw [hspelled (.step hh (List.mem_append_right _ ha)), Element.kind_map]
      rfl
    · rintro _ ⟨h, hh, rfl⟩
      exact hw.inside hh
  obtain ⟨ref, hroot, hexports, his64Bit⟩ := hw.root
  obtain ⟨copy, forest, hread, hsearch, -, -, helement, hcopy, hwidth⟩ :=
    ofDocument_of_spelled hmaps hroot hexports fun r hr => by
      rw [Members.map_snd_rename] at hr
      obtain ⟨a, ha, rfl⟩ := List.mem_map.mp hr
      exact ⟨a, .root ha, rfl⟩
  have hfound {h : Handle} (hh : graph.Reachable h) : place h ∈ forest.preorder := by
    rw [hsearch.mem_preorder_iff]
    induction hh with
    | root mem =>
      refine .root ?_
      rw [Members.map_snd_rename]
      exact List.mem_map_of_mem mem
    | step before mem ih =>
      refine .step ih ?_
      rw [hspelled before, Element.successors_map]
      exact List.mem_map_of_mem mem
  have hrenames : Renames (fun h => forest.preorder.idxOf (place h)) graph copy := by
    refine ⟨fun hh => ?_, ?_, hwidth.trans his64Bit⟩
    · rw [helement _ (hfound hh), hspelled hh, Element.map_map]
    · rw [hcopy, Members.rename_rename]
  refine ⟨copy, _, hread, hrenames.isomorphic fun h k hh hk heq => ?_⟩
  exact hw.apart hh hk ((List.idxOf_inj (hfound hh)).mp heq)

/-! ## Writing -/

/-- The discovery of elements, `discoverFrom`, is a depth-first search. -/
theorem foldl_discoverFrom {found waiting : List Handle} {forest : Forest Handle}
    (hsearch : DepthFirst (fun h => (graph.element h).successors) found waiting forest)
    {fuel : Nat} (hheight : forest.height ≤ fuel) :
    waiting.foldl (graph.discoverFrom fuel) found = found ++ forest.preorder :=
  hsearch.foldl_eq graph.discoverFrom (fun _ _ _ => discoverFrom_of_mem)
    (fun _ _ _ new => if_neg new) hheight

/-- **The elements that are to be written** are the forest of a search:
`graph.discover = forest.preorder`. What is beyond the graph refers to nothing, so the fuel is
enough. -/
theorem discover_eq_preorder {forest : Forest Handle}
    (hsearch : DepthFirst (fun h => (graph.element h).successors) [] (graph.exports.map (·.2)) forest) :
    graph.discover = forest.preorder := by
  have hbeyond (a : Handle) (ha : graph.size ≤ a) : (graph.element a).successors = [] := by
    rw [element_of_size_le ha]
    rfl
  have hfold := foldl_discoverFrom hsearch (hsearch.height_le_succ_of_beyond hbeyond)
  rwa [List.foldl_map, List.nil_append] at hfold

/-- **The discovered elements**, `graph.discover`, are those that can be reached, each once. -/
theorem Sound.discover (hsound : graph.Sound) :
    graph.discover.Nodup ∧ ∀ h, h ∈ graph.discover ↔ graph.Reachable h := by
  have hwaiting : ∀ a ∈ graph.exports.map (·.2), a ∈ Finset.range graph.size := fun a ha =>
    Finset.mem_range.mpr (hsound.lt_size (.root ha))
  obtain ⟨forest, hsearch⟩ := DepthFirst.exists_of_closed (Finset.range graph.size)
    (fun a ha b hb => Finset.mem_range.mpr
      ((hsound.elements a (Finset.mem_range.mp ha)).inside b hb)) [] _ hwaiting
  rw [discover_eq_preorder hsearch]
  exact ⟨hsearch.nodup_preorder, fun h => hsearch.mem_preorder_iff⟩

/-- Reserving places keeps what is there. -/
theorem grows_reserve (store : Store) (count : Nat) (free : Nat → Prop) :
    Grows free store (Writing.reserve count store).2 where
  lists := le_rfl
  maps := by simp [Writing.reserve]
  items _ _ := rfl
  entries ref href _ := by
    simp [Store.entries, Writing.reserve, Array.getD_eq_getD_getElem?, href, Array.getElem?_append_left]

/-- Writing the root, behind the maps of the elements. -/
def writeRoot (graph : Graph) (place : Placement) : Writing Value := do
  let exports ← place.writeMembers graph.exports
  Writing.map [(.text "is_64bit", .bool graph.is64Bit), (.text "exports", exports)]

/-- The root stands for its draft, `graph.rootDraft`. -/
theorem writeRoot_leaves (graph : Graph) (place : Placement) (free : Nat → Prop) :
    Writing.Leaves free (graph.writeRoot place) fun later v =>
      later.Holds (graph.rootDraft place.below) v := by
  refine .bind (place.writeMembers_leaves graph.exports) fun exports => ?_
  refine (Writing.Leaves.map _).imp ?_
  rintro later v ⟨ref, rfl, inside, hentries⟩ hexports
  refine Store.holds_map_iff.mpr ⟨ref, rfl, inside, ?_⟩
  rw [hentries]
  exact .cons ⟨rfl, .value _⟩ (.cons ⟨rfl, hexports⟩ .nil)

/-- **A document with a place for each element** that can be reached: the map at the place stands for
the draft of the element, different elements have different places, and the root stands for its
draft. -/
structure PlacedAs (place : Handle → Nat) (graph : Graph) (document : Document) : Prop where
  holds {h : Handle} : graph.Reachable h → document.store.HoldsEntries
    ((graph.element h).draft fun h => .value (.map (place h))) (document.store.entries (place h))
  inside {h : Handle} : graph.Reachable h → place h < document.store.maps.size
  apart : Set.InjOn place {h | graph.Reachable h}
  root : document.store.Holds (graph.rootDraft fun h => .value (.map (place h))) document.root

/-- **The document of a sound graph** has one place for each element that can be reached, as
`PlacedAs` has it. The places are new ones, and nothing else in the store has changed. -/
theorem placedAs_toDocument (hsound : graph.Sound) :
    ∃ place : Handle → Nat, PlacedAs place graph graph.toDocument ∧
      (∀ h, graph.Reachable h → graph.store.maps.size ≤ place h) ∧
      Grows (fun _ => False) graph.store graph.toDocument.store := by
  obtain ⟨-, hmem⟩ := hsound.discover
  let first := graph.store.maps.size
  let order := graph.discover
  let place : Handle → Nat := fun h => first + order.idxOf h
  let values : Placement := fun h => .map (place h)
  let reserved := (Writing.reserve order.length graph.store).2
  let filled := (graph.writeElements values first order reserved).2
  have hdocument : graph.toDocument
      = ⟨(graph.writeRoot values filled).2, (graph.writeRoot values filled).1⟩ := rfl
  have hreserved : Grows (fun _ => False) graph.store reserved := grows_reserve _ _ _
  have hroom : first + order.length ≤ reserved.maps.size := by
    simp [reserved, first, Writing.reserve]
  obtain ⟨hfilled, hholds⟩ := graph.writeElements_holds values first hroom
  obtain ⟨hroot, hgood⟩ := graph.writeRoot_leaves values (fun _ => False) filled fun _ h => h.elim
  -- nothing that the graph had before is at a reserved place
  have hgrows : Grows (fun _ => False) graph.store graph.toDocument.store := by
    have hall := ((hreserved.mono fun _ _ h => h.elim).trans hfilled).trans
      (hroot.mono fun _ _ h => h.elim)
    exact hall.mono fun ref href hfrom => absurd hfrom.1 (Nat.not_le_of_lt href)
  refine ⟨place, ⟨fun {h} hh => ?_, fun {h} hh => ?_, fun h hh k hk heq => ?_, ?_⟩,
    fun h _ => Nat.le_add_right _ _, hgrows⟩
  · have hplace : order[order.idxOf h]? = some h := by
      rw [List.getElem?_eq_getElem (List.idxOf_lt_length_of_mem ((hmem h).mpr hh)),
        List.getElem_idxOf]
    exact hholds _ hroot _ h hplace
  · have hlt : order.idxOf h < order.length := List.idxOf_lt_length_of_mem ((hmem h).mpr hh)
    have hsize := hfilled.maps.trans hroot.maps
    calc place h < first + order.length := Nat.add_lt_add_left hlt first
      _ ≤ reserved.maps.size := hroom
      _ ≤ graph.toDocument.store.maps.size := hsize
  · exact (List.idxOf_inj ((hmem h).mpr hh)).mp (Nat.add_left_cancel heq)
  · exact hgood _ (.refl _ _)

/-- A document with a place for each element is written with one map for each of them, which spells
it. -/
theorem PlacedAs.writtenAs (hp : PlacedAs place graph document) (hsound : graph.Sound)
    (hgrows : Grows (fun _ => False) graph.store document.store) :
    WrittenAs place graph document where
  spells {h} hh := by
    have helement := hsound.elements h (hsound.lt_size hh)
    exact Store.spells_of_placed helement.body (hp.holds hh) (hgrows.truthy helement.name)
  inside := hp.inside
  apart := hp.apart
  root := by
    obtain ⟨ref, exports, hroot, hspells, hshape, hpairs, hwidth⟩ :=
      Store.exists_root (fun h _ => .inl ⟨place h, rfl⟩) hp.root
    refine ⟨ref, hroot, ?_, hwidth⟩
    rwa [← Members.eq_rename_of_shape hshape (Store.places_of_pairs hpairs)]

/-- **The document of a sound graph** has one map for each element that can be reached, as
`WrittenAs` has it. Its maps are new ones, and nothing else in the store has changed. -/
theorem writtenAs_toDocument (hsound : graph.Sound) :
    ∃ place : Handle → Nat, WrittenAs place graph graph.toDocument ∧
      (∀ h, graph.Reachable h → graph.store.maps.size ≤ place h) ∧
      Grows (fun _ => False) graph.store graph.toDocument.store := by
  obtain ⟨place, hplaced, hnew, hgrows⟩ := placedAs_toDocument hsound
  exact ⟨place, hplaced.writtenAs hsound hgrows, hnew, hgrows⟩

/-! ## The round trip -/

/-- **A graph that was read survives the round trip** through a document. It is written by
`toDocument` with one new map for each element that can be reached, and reading the document gives
an isomorphic graph, which has the same definitions. -/
theorem ofDocument_toDocument (h : ofDocument document = .ok graph) :
    ∃ (place f : Handle → Nat) (copy : Graph),
      WrittenAs place graph graph.toDocument ∧
      (∀ a, graph.Reachable a → graph.store.maps.size ≤ place a) ∧
      ofDocument graph.toDocument = .ok copy ∧
      Isomorphic f graph copy ∧
      Grows (fun _ => False) graph.store copy.store ∧
      ∀ dialect, copy.render dialect = graph.render dialect := by
  obtain ⟨hsound, -⟩ := sound_of_ofDocument h
  obtain ⟨place, hwritten, hnew, hgrows⟩ := writtenAs_toDocument hsound
  obtain ⟨copy, f, hread, hisomorphic⟩ := hwritten.exists_copy hsound
  obtain ⟨hcopy, hstore⟩ := sound_of_ofDocument hread
  refine ⟨place, f, copy, hwritten, hnew, hread, hisomorphic, ?_, ?_⟩
  · rwa [hstore]
  · exact hisomorphic.render_eq hsound.wellSorted hcopy.wellSorted

/-- A document with a namespace that is exported under two names and is a member of itself. -/
def loopDocument : Document where
  store := { maps := #[
    [(.text "kind", .text "namespace"), (.text "members", .map 1)],
    [(.text "self", .map 0)],
    [(.text "here", .map 0), (.text "there", .map 0)],
    [(.text "exports", .map 2)]] }
  root := .map 3

/-- The graph of the document. -/
def loopGraph : Graph where
  store := loopDocument.store
  elements := #[{ name := .text "here", members := some [(.text "self", 0)], body := .nameSpace }]
  exports := [(.text "here", 0), (.text "there", 0)]

/-- Nothing but the namespace can be reached in `loopGraph`. -/
theorem eq_zero_of_reachable_loopGraph {h : Handle} (hh : loopGraph.Reachable h) : h = 0 := by
  refine hh.mem_of_closed (S := (· = 0)) (fun a ha => ?_) fun a ha b hb => ?_
  · simpa [loopGraph] using ha
  · subst ha
    exact List.mem_singleton.mp hb

/-- The namespace is one element again, and a member of itself. -/
theorem ofDocument_toDocument_loop :
    ofDocument loopDocument = .ok loopGraph ∧
      ∃ (f : Handle → Nat) (copy : Graph), ofDocument loopGraph.toDocument = .ok copy ∧
        Isomorphic f loopGraph copy := by
  have hread : ofDocument loopDocument = .ok loopGraph := rfl
  obtain ⟨_, f, copy, -, -, hcopy, hisomorphic, -⟩ := ofDocument_toDocument hread
  exact ⟨hread, f, copy, hcopy, hisomorphic⟩

end Graph

end ModuleSurface
