import ModuleSurface.Proofs.FullDraft

/-! # Graphs read from trees

The document of a tree has no map at two places. Where it stands for the full drafts of a graph, each
of its maps spells one of the elements, and an element is spelled once for every place at which the
unfolding of the graph shows it. So the graph that is read from the tree is unfolded, and it is
renamed into the graph that was written.

* **`Graph.Unshared`** — nothing in a graph is contained at two places.
* **`Graph.exists_copy_of_holds`** — what is read from the tree of a graph. -/

namespace ModuleSurface

namespace Graph

variable {graph : Graph} {store : Store} {below : Handle → Draft}

/-- **Nothing is contained at two places**: the graph is the unfolding of itself. -/
def Unshared (graph : Graph) : Prop :=
  ∃ forest, Unfolded (fun h => (graph.element h).successors) (graph.exports.map (·.2)) forest ∧
    forest.preorder.Nodup

/-! ## Maps and elements -/

/-- **A map stands for an element** that can be reached. -/
def StandsFor (graph : Graph) (store : Store) (below : Handle → Draft) (r : Nat) (h : Handle) : Prop :=
  graph.Reachable h ∧ store.Holds (below h) (.map r)

open Classical in
/-- The element that a map of a store spells, if it does. -/
noncomputable def spelledIn (store : Store) (r : Nat) : Element :=
  if h : ∃ element, store.Spells element (store.entries r) then h.choose else default

/-- What a map spells is what `spelledIn` answers. -/
theorem spelledIn_eq {r : Nat} {element : Element}
    (h : store.Spells element (store.entries r)) : spelledIn store r = element := by
  have hexists : ∃ element, store.Spells element (store.entries r) := ⟨element, h⟩
  rw [spelledIn, dif_pos hexists]
  exact hexists.choose_spec.unique h

/-- **The names of all elements are scalars** that count as true in every store. -/
def ScalarNames (graph : Graph) : Prop :=
  ∀ h, graph.Reachable h → ∃ s, (graph.element h).name = .scalar s

/-- **What a map that stands for an element spells**: the shape of the element, with maps that stand
for what it refers to. -/
theorem StandsFor.spells (hsound : graph.Sound) (hfull : graph.FullDrafts below)
    (hnames : graph.ScalarNames) {r : Nat} {h : Handle} (hs : graph.StandsFor store below r h) :
    r < store.maps.size ∧ store.Spells (spelledIn store r) (store.entries r) ∧
      (spelledIn store r).shape = (graph.element h).shape ∧
      store.Pairs below (graph.element h).successors (spelledIn store r).successors
        (store.mapsOfEntries ((graph.element h).draft below) (store.entries r)) := by
  obtain ⟨hh, hholds⟩ := hs
  rw [hfull h hh] at hholds
  obtain ⟨_, href, inside, hentries⟩ := Store.holds_map_iff.mp hholds
  cases href
  have helement := hsound.elements h (hsound.lt_size hh)
  have hname : store.truthy (graph.element h).name = true := by
    obtain ⟨s, hscalar⟩ := hnames h hh
    have htruthy := helement.name
    rw [hscalar] at htruthy ⊢
    exact htruthy
  obtain ⟨element, hspells, hshape, hpairs⟩ := Store.exists_spelled helement.body
    (fun a ha => .inr ⟨_, hfull a (.step hh ha)⟩) hentries hname
  rw [spelledIn_eq hspells]
  exact ⟨inside, hspells, hshape, hpairs⟩

/-- What a map refers to stands for what its element refers to. -/
theorem StandsFor.successors (hsound : graph.Sound) (hfull : graph.FullDrafts below)
    (hnames : graph.ScalarNames) {r : Nat} {h : Handle} (hs : graph.StandsFor store below r h) :
    List.Forall₂ (graph.StandsFor store below) (spelledIn store r).successors
      (graph.element h).successors := by
  obtain ⟨-, -, -, hpairs⟩ := hs.spells hsound hfull hnames
  exact (forall₂_imp_of_mem hpairs.holds fun a ha s hholds => ⟨.step hs.1 ha, hholds⟩).flip

/-- The kinds stay: `spelledIn store r` has the kind of the element. -/
theorem StandsFor.kind (hsound : graph.Sound) (hfull : graph.FullDrafts below)
    (hnames : graph.ScalarNames) {r : Nat} {h : Handle} (hs : graph.StandsFor store below r h) :
    (spelledIn store r).kind = (graph.element h).kind := by
  obtain ⟨-, -, hshape, -⟩ := hs.spells hsound hfull hnames
  simpa [Element.shape] using congrArg Element.kind hshape

/-- Instances and bases stay of their sort. -/
theorem StandsFor.sorted (hsound : graph.Sound) (hfull : graph.FullDrafts below)
    (hnames : graph.ScalarNames) {r : Nat} {h : Handle} (hs : graph.StandsFor store below r h) :
    (spelledIn store r).body.Sorted fun s => (spelledIn store s).kind := by
  obtain ⟨-, -, hshape, -⟩ := hs.spells hsound hfull hnames
  have hsuccessors := hs.successors hsound hfull hnames
  have hlinks := List.forall₂_drop_append _ _ _ hsuccessors
  have hdrop : (spelledIn store r).successors.drop ((graph.element h).memberItems.map (·.2)).length
      = (spelledIn store r).body.links := by
    rw [Element.successors, List.length_map, ← Element.length_memberItems_of_shape hshape]
    exact List.drop_left' (by simp)
  rw [hdrop] at hlinks
  refine (hsound.elements h (hsound.lt_size hs.1)).sorted.of_shape
    (congrArg Element.body hshape) (hlinks.flip.imp fun a s hstands => ?_)
  exact StandsFor.kind hsound hfull hnames hstands

/-- **The maps that stand for elements spell them.** -/
theorem spelled_of_standsFor (hsound : graph.Sound) (hfull : graph.FullDrafts below)
    (hnames : graph.ScalarNames) :
    Spelled store (spelledIn store) fun r => ∃ h, graph.StandsFor store below r h := by
  constructor
  · rintro r ⟨h, hs⟩
    exact (hs.spells hsound hfull hnames).2.1
  · rintro r ⟨h, hs⟩ s hsucc
    obtain ⟨a, -, ha⟩ := exists_of_mem_forall₂ (hs.successors hsound hfull hnames) hsucc
    exact ⟨a, ha⟩
  · rintro r ⟨h, hs⟩
    exact hs.sorted hsound hfull hnames
  · rintro r ⟨h, hs⟩
    exact (hs.spells hsound hfull hnames).1

/-! ## The unfolding -/

/-- What is next to a map and its element: what they refer to, side by side. -/
noncomputable def nextPair (graph : Graph) (store : Store) (pair : Nat × Handle) :
    List (Nat × Handle) :=
  (spelledIn store pair.1).successors.zip (graph.element pair.2).successors

/-- The pairs of what a map and its element refer to. -/
theorem StandsFor.nextPair (hsound : graph.Sound) (hfull : graph.FullDrafts below)
    (hnames : graph.ScalarNames) {pair : Nat × Handle}
    (hs : graph.StandsFor store below pair.1 pair.2) :
    (graph.nextPair store pair).map (·.1) = (spelledIn store pair.1).successors ∧
      (graph.nextPair store pair).map (·.2) = (graph.element pair.2).successors ∧
      ∀ other ∈ graph.nextPair store pair, graph.StandsFor store below other.1 other.2 := by
  have hsuccessors := hs.successors hsound hfull hnames
  exact ⟨List.map_fst_zip hsuccessors.length_eq.le, List.map_snd_zip hsuccessors.length_eq.ge,
    fun other hother => List.forall₂_zip hsuccessors hother⟩

/-- The maps and their elements are unfolded side by side. -/
theorem exists_pairs (hsound : graph.Sound) (hfull : graph.FullDrafts below)
    (hnames : graph.ScalarNames) {waiting : List Handle} {forest : Forest Handle}
    (hu : Unfolded (fun h => (graph.element h).successors) waiting forest)
    {pairs : List (Nat × Handle)} (hpairs : pairs.map (·.2) = waiting)
    (hs : ∀ pair ∈ pairs, graph.StandsFor store below pair.1 pair.2) :
    ∃ forest, Unfolded (graph.nextPair store) pairs forest := by
  induction hu generalizing pairs with
  | done =>
    obtain rfl := List.map_eq_nil_iff.mp hpairs
    exact ⟨.nil, .done⟩
  | node _ _ ihBelow ihLater =>
    obtain _ | ⟨pair, pairs⟩ := pairs
    · cases hpairs
    rw [List.map_cons, List.cons.injEq] at hpairs
    obtain ⟨rfl, hpairs⟩ := hpairs
    obtain ⟨-, hsnd, hnext⟩ := (hs pair List.mem_cons_self).nextPair hsound hfull hnames
    obtain ⟨inside, hinside⟩ := ihBelow hsnd hnext
    obtain ⟨rest, hrest⟩ := ihLater hpairs fun other hother => hs other (List.mem_cons_of_mem _ hother)
    exact ⟨.node pair inside rest, .node hinside hrest⟩

/-- **The maps of the unfolding** are among those that stand for the drafts, each as often. -/
theorem maps_le (hsound : graph.Sound) (hfull : graph.FullDrafts below) (hnames : graph.ScalarNames)
    {pairs : List (Nat × Handle)} {forest : Forest (Nat × Handle)}
    (hu : Unfolded (graph.nextPair store) pairs forest)
    (hs : ∀ pair ∈ pairs, graph.StandsFor store below pair.1 pair.2) :
    (forest.preorder.map (·.1) : Multiset Nat)
      ≤ store.mapsOfItems (pairs.map fun pair => below pair.2) (pairs.map fun pair => .map pair.1) := by
  induction hu with
  | done => simp [Store.mapsOfItems]
  | @node waiting pair inside rest _ _ ihBelow ihLater =>
    have hpair := hs pair List.mem_cons_self
    obtain ⟨-, -, -, hmaps⟩ := hpair.spells hsound hfull hnames
    obtain ⟨hfst, hsnd, hnext⟩ := hpair.nextPair hsound hfull hnames
    have hinside := ihBelow hnext
    have hrest := ihLater fun other hother => hs other (List.mem_cons_of_mem _ hother)
    have hdrafts : (graph.nextPair store pair).map (fun pair => below pair.2)
        = (graph.element pair.2).successors.map below := by
      rw [← hsnd, List.map_map]
      rfl
    have hvalues : (graph.nextPair store pair).map (fun pair => Value.map pair.1)
        = (spelledIn store pair.1).successors.map Value.map := by
      rw [← hfst, List.map_map]
      rfl
    rw [hdrafts, hvalues] at hinside
    -- the maps below a map stand for its fields
    have hbelow := hinside.trans hmaps.maps_le
    have hhead : store.mapsOf (below pair.2) (.map pair.1) = {pair.1}
        + store.mapsOfEntries ((graph.element pair.2).draft below) (store.entries pair.1) := by
      rw [hfull pair.2 hpair.1, Store.mapsOf]
    rw [List.map_cons, List.map_cons, Store.mapsOfItems, hhead, Forest.preorder_node, List.map_cons,
      List.map_append, ← Multiset.cons_coe, ← Multiset.coe_add, ← Multiset.singleton_add, ← add_assoc]
    exact add_le_add (add_le_add le_rfl hbelow) hrest

/-- In pairs that have different first parts, the first part tells the second one. -/
theorem getD_idxOf_of_mem {pairs : List (Nat × Handle)} (hnodup : (pairs.map (·.1)).Nodup)
    {pair : Nat × Handle} (h : pair ∈ pairs) :
    (pairs.map (·.2)).getD ((pairs.map (·.1)).idxOf pair.1) 0 = pair.2 := by
  induction pairs with
  | nil => exact absurd h List.not_mem_nil
  | cons other pairs ih =>
    rw [List.map_cons, List.nodup_cons] at hnodup
    rcases List.mem_cons.mp h with rfl | h
    · simp
    · have hne : other.1 ≠ pair.1 := fun heq => hnodup.1 (heq ▸ List.mem_map_of_mem h)
      rw [List.map_cons, List.map_cons, List.idxOf_cons_ne _ hne, List.getD_cons_succ]
      exact ih hnodup.2 h

/-- The maps of the unfolding are different, if those that stand for the drafts are. -/
theorem nodup_maps (hsound : graph.Sound) (hfull : graph.FullDrafts below)
    (hnames : graph.ScalarNames) {pairs : List (Nat × Handle)} {sides : Forest (Nat × Handle)}
    (hsides : Unfolded (graph.nextPair store) pairs sides)
    (hs : ∀ pair ∈ pairs, graph.StandsFor store below pair.1 pair.2) {maps : Multiset Nat}
    (hpairs : store.Pairs below (pairs.map (·.2)) (pairs.map (·.1)) maps) (hnodup : maps.Nodup) :
    (sides.preorder.map (·.1)).Nodup := by
  have hle := maps_le hsound hfull hnames hsides hs
  have hbelow := hpairs.maps_le
  rw [List.map_map, List.map_map] at hbelow
  exact Multiset.coe_nodup.mp (Multiset.nodup_of_le (hle.trans hbelow) hnodup)

/-! ## The copy -/

/-- **A copy whose elements are spelled** by the maps of a list, each at the place of its map. -/
structure SpelledAt (copy : Graph) (spelled : Nat → Element) (exports : Members)
    (refs : List Nat) : Prop where
  element (r : Nat) : r ∈ refs → copy.element (refs.idxOf r) = (spelled r).map refs.idxOf
  exports : copy.exports = exports.rename refs.idxOf

namespace SpelledAt

variable {copy : Graph} {spelled : Nat → Element} {exports : Members} {forest : Forest Nat}

/-- What can be reached in the copy is the place of one of the maps. -/
theorem exists_ref (hc : copy.SpelledAt spelled exports forest.preorder)
    (hu : Unfolded (fun r => (spelled r).successors) (exports.map (·.2)) forest) {k : Handle}
    (hk : copy.Reachable k) : ∃ r ∈ forest.preorder, k = forest.preorder.idxOf r := by
  have hfound : k ∈ forest.preorder.map forest.preorder.idxOf := by
    refine hk.mem_of_closed (fun b hb => ?_) fun b hb c hc' => ?_
    · rw [hc.exports, Members.map_snd_rename] at hb
      obtain ⟨r, hr, rfl⟩ := List.mem_map.mp hb
      exact List.mem_map_of_mem (hu.mem_of_waiting hr)
    · obtain ⟨r, hr, rfl⟩ := List.mem_map.mp hb
      rw [hc.element r hr, Element.successors_map] at hc'
      obtain ⟨s, hs, rfl⟩ := List.mem_map.mp hc'
      exact List.mem_map_of_mem (hu.next_mem hr hs)
  obtain ⟨r, hr, rfl⟩ := List.mem_map.mp hfound
  exact ⟨r, hr, rfl⟩

/-- **The copy contains nothing at two places**, so it is `Unshared`, if the maps are unfolded
without showing one twice. -/
theorem unshared (hc : copy.SpelledAt spelled exports forest.preorder)
    (hu : Unfolded (fun r => (spelled r).successors) (exports.map (·.2)) forest)
    (hnodup : forest.preorder.Nodup) : copy.Unshared := by
  refine ⟨forest.map forest.preorder.idxOf, ?_, ?_⟩
  · rw [hc.exports, Members.map_snd_rename]
    refine hu.map forest.preorder.idxOf (S := (· ∈ forest.preorder))
      (fun r hr s hs => hu.next_mem hr hs) (fun r hr => ?_) fun r hr => hu.mem_of_waiting hr
    rw [hc.element r hr, Element.successors_map]
  · rw [Forest.preorder_map]
    exact List.Nodup.map_on (fun r hr s hs heq => (List.idxOf_inj hr).mp heq) hnodup

/-- **The copy is renamed into the graph**, if the maps and the elements of the graph are unfolded
side by side: the place of a map stands for the element beside it. -/
theorem renames {sides : Forest (Nat × Handle)} {pairs : List (Nat × Handle)}
    (hc : copy.SpelledAt (spelledIn store) exports (sides.map (·.1)).preorder)
    (hu : Unfolded (fun r => (spelledIn store r).successors) (exports.map (·.2))
      (sides.map (·.1)))
    (hsides : Unfolded (graph.nextPair store) pairs sides)
    (hfst : pairs.map (·.1) = exports.map (·.2)) (hsnd : pairs.map (·.2) = graph.exports.map (·.2))
    (hsame : ∀ pair ∈ sides.preorder,
      (graph.nextPair store pair).map (·.1) = (spelledIn store pair.1).successors ∧
      (graph.nextPair store pair).map (·.2) = (graph.element pair.2).successors ∧
      (spelledIn store pair.1).shape = (graph.element pair.2).shape)
    (hnodup : (sides.preorder.map (·.1)).Nodup) (hshape : exports.shape = graph.exports.shape)
    (hwidth : copy.is64Bit = graph.is64Bit) :
    Renames (fun k => (sides.preorder.map (·.2)).getD k 0) copy graph := by
  let places := (sides.map (·.1)).preorder.idxOf
  let f : Handle → Handle := fun k => (sides.preorder.map (·.2)).getD k 0
  have hplace {pair : Nat × Handle} (hpair : pair ∈ sides.preorder) :
      f (places pair.1) = pair.2 := by
    simpa [f, places, Forest.preorder_map] using getD_idxOf_of_mem hnodup hpair
  -- side by side, the places of maps stand for handles
  have hbeside {others : List (Nat × Handle)} (h : ∀ pair ∈ others, pair ∈ sides.preorder) :
      others.map (·.2) = (others.map (·.1)).map fun r => f (places r) := by
    rw [List.map_map]
    exact List.map_congr_left fun pair hpair => (hplace (h pair hpair)).symm
  refine ⟨fun {k} hk => ?_, ?_, hwidth.symm⟩
  · obtain ⟨r, hr, rfl⟩ := hc.exists_ref hu hk
    have hmem := hr
    rw [Forest.preorder_map] at hmem
    obtain ⟨pair, hpair, rfl⟩ := List.mem_map.mp hmem
    obtain ⟨hnextFst, hnextSnd, hshapes⟩ := hsame pair hpair
    have helement : copy.element (places pair.1) = (spelledIn store pair.1).map places :=
      hc.element pair.1 hr
    show graph.element (f (places pair.1)) = (copy.element (places pair.1)).map f
    rw [hplace hpair, helement, Element.map_map]
    refine Element.eq_map_of_shape hshapes.symm ?_
    rw [← hnextFst, ← hnextSnd]
    exact hbeside fun other hother => hsides.next_mem hpair hother
  · rw [hc.exports, Members.rename_rename]
    refine Members.eq_rename_of_shape hshape.symm ?_
    rw [← hfst, ← hsnd]
    exact hbeside fun pair hpair => hsides.mem_of_waiting hpair

end SpelledAt

/-- **What is read from the tree of a graph** contains nothing at two places, and it is renamed into
the graph: `Renames f copy graph`. -/
theorem exists_copy_of_holds (hsound : graph.Sound) (hfull : graph.FullDrafts below)
    (hnames : graph.ScalarNames) {forest : Forest Handle}
    (hu : Unfolded (fun h => (graph.element h).successors) (graph.exports.map (·.2)) forest)
    {document : Document} (hholds : document.store.Holds (graph.rootDraft below) document.root)
    (hnodup : (document.store.mapsOf (graph.rootDraft below) document.root).Nodup) :
    ∃ (copy : Graph) (f : Handle → Handle), ofDocument document = .ok copy ∧ Renames f copy graph ∧
      copy.Unshared := by
  obtain ⟨ref, exports, hroot, hexports, hshape, hpairs, hwidth⟩ :=
    Store.exists_root (fun a ha => .inr ⟨_, hfull a (.root ha)⟩) hholds
  have hstands : List.Forall₂ (graph.StandsFor document.store below) (exports.map (·.2))
      (graph.exports.map (·.2)) :=
    (forall₂_imp_of_mem hpairs.holds fun a ha s hholds => ⟨.root ha, hholds⟩).flip
  obtain ⟨copy, search, hread, hsearch, -, -, helement, hcopy, hcopyWidth⟩ :=
    ofDocument_of_spelled (spelled_of_standsFor hsound hfull hnames) hroot hexports fun r hr => by
      obtain ⟨a, -, ha⟩ := exists_of_mem_forall₂ hstands hr
      exact ⟨a, ha⟩
  -- the unfolding goes through the maps and the elements side by side
  let pairs := (exports.map (·.2)).zip (graph.exports.map (·.2))
  have hfst : pairs.map (·.1) = exports.map (·.2) := List.map_fst_zip hstands.length_eq.le
  have hsnd : pairs.map (·.2) = graph.exports.map (·.2) := List.map_snd_zip hstands.length_eq.ge
  have hpairsStand : ∀ pair ∈ pairs, graph.StandsFor document.store below pair.1 pair.2 :=
    fun pair hpair => List.forall₂_zip hstands hpair
  obtain ⟨sides, hsides⟩ := exists_pairs hsound hfull hnames hu hsnd hpairsStand
  have hstand : ∀ pair ∈ sides.preorder, graph.StandsFor document.store below pair.1 pair.2 :=
    fun pair hpair => (hsides.reached hpair).mem_of_closed hpairsStand fun _ hs =>
      (hs.nextPair hsound hfull hnames).2.2
  have hrefs : Unfolded (fun r => (spelledIn document.store r).successors) (exports.map (·.2))
      (sides.map (·.1)) := by
    rw [← hfst]
    refine hsides.map (·.1) (fun pair hs => ?_) (fun pair hs => ?_) hpairsStand
    · exact (hs.nextPair hsound hfull hnames).2.2
    · exact (hs.nextPair hsound hfull hnames).1.symm
  have hrefsNodup : (sides.preorder.map (·.1)).Nodup := by
    rw [← hsnd, ← hfst] at hpairs
    exact nodup_maps hsound hfull hnames hsides hpairsStand hpairs hnodup
  have hforestNodup : (sides.map (·.1)).preorder.Nodup := by rwa [Forest.preorder_map]
  -- so the search that reading makes is the unfolding of the maps
  obtain rfl : sides.map (·.1) = search := (hrefs.depthFirst hforestNodup).unique hsearch
  have hspelled : copy.SpelledAt (spelledIn document.store) exports (sides.map (·.1)).preorder :=
    ⟨helement, hcopy⟩
  refine ⟨copy, _, hread, hspelled.renames hrefs hsides hfst hsnd (fun pair hpair => ?_) hrefsNodup
    hshape (hcopyWidth.trans hwidth), hspelled.unshared hrefs hforestNodup⟩
  obtain ⟨hnextFst, hnextSnd, -⟩ := (hstand pair hpair).nextPair hsound hfull hnames
  obtain ⟨-, -, hshapes, -⟩ := (hstand pair hpair).spells hsound hfull hnames
  exact ⟨hnextFst, hnextSnd, hshapes⟩

end Graph

end ModuleSurface
