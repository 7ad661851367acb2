import ModuleSurface.Proofs.Walk

/-! # What a build declares

A build that succeeds declares the elements that are reached from the exports through compiled
members and instances, each once and in the order of first visits, and the lines of each declared
element stand in one piece around those of what is declared inside it. -/

namespace ModuleSurface

namespace Graph

variable {graph : Graph} {dialect : Dialect} {found waiting : List Handle} {forest : Forest Handle}
  {h : Handle}

/-- **The lines of a declared element** among other lines: its opening lines, the lines of what is
declared inside it, which is what a search from there finds first, and its closing lines. -/
structure Stands (graph : Graph) (dialect : Dialect) (h : Handle) (lines : List Line) : Prop where
  intro ::
  segment : ∃ (level : Nat) (found : List Handle) (inside : Forest Handle)
      (before opening within after : List Line),
    graph.opening dialect h = .ok opening ∧
    DepthFirst (graph.next dialect) found (graph.next dialect h) inside ∧
    graph.lines dialect (level + 1) inside = .ok within ∧
    lines = before ++ (opening.map (Line.deeper level) ++ within
      ++ (graph.closing dialect h).map (Line.deeper level)) ++ after

/-- Lines that stand among others stand there with more lines around. -/
theorem Stands.between {lines : List Line} (hstands : graph.Stands dialect h lines)
    (before after : List Line) : graph.Stands dialect h (before ++ lines ++ after) := by
  obtain ⟨level, found, inside, front, opening, within, back, hopening, hinside, hwithin, rfl⟩ :=
    hstands.segment
  refine ⟨level, found, inside, before ++ front, opening, within, back ++ after, hopening, hinside,
    hwithin, ?_⟩
  simp only [List.append_assoc]

/-- **Every element of a forest stands among its lines**, as `Stands` has it. -/
theorem stands_of_mem (hforest : DepthFirst (graph.next dialect) found waiting forest)
    (hmem : h ∈ forest.preorder) {level : Nat} {lines : List Line}
    (hlines : graph.lines dialect level forest = .ok lines) : graph.Stands dialect h lines := by
  induction hforest generalizing level lines with
  | done => simp at hmem
  | again _ _ ih => exact ih hmem hlines
  | @fresh found _ a inside rest _ below _ ihBelow ihLater =>
    rw [lines_node] at hlines
    obtain ⟨opening, hopening, hlines⟩ := bind_eq_ok_iff.mp hlines
    obtain ⟨within, hwithin, hlines⟩ := bind_eq_ok_iff.mp hlines
    obtain ⟨after, hafter, hlines⟩ := bind_eq_ok_iff.mp hlines
    cases hlines
    rw [Forest.preorder_node, List.mem_cons, List.mem_append] at hmem
    rcases hmem with rfl | hmem | hmem
    · exact ⟨level, found ++ [h], inside, [], opening, within, after, hopening, below, hwithin, rfl⟩
    · exact ((ihBelow hmem hwithin).between (opening.map (Line.deeper level))
        ((graph.closing dialect a).map (Line.deeper level))).between [] after
    · simpa using (ihLater hmem hafter).between (opening.map (Line.deeper level) ++ within
        ++ (graph.closing dialect a).map (Line.deeper level)) []

/-- The word in front of the name of an enum. -/
def enumWord : Dialect → String
  | .webidl => "interface "
  | .typescript => "enum "

/-- **An enum lists its values**: behind its header there is one line for each entry that is an enum
value, in the order of the map, and what else it declares comes after them. -/
structure ListsValues (graph : Graph) (dialect : Dialect) (h : Handle) (lines : List Line) :
    Prop where
  intro ::
  segment : ∃ (level : Nat) (found : List Handle) (inside : Forest Handle)
      (words : List (List Fragment)) (before between within after : List Line),
    List.Forall₂ (fun entry pieces => graph.valueWords dialect entry = .ok pieces)
      (graph.enumValues (graph.element h).memberItems) words ∧
    DepthFirst (graph.next dialect) found (graph.next dialect h) inside ∧
    graph.lines dialect (level + 1) inside = .ok within ∧
    lines = before ++ Line.opener level [some (enumWord dialect), (graph.element h).name.text?]
      :: words.map (Line.mk (level + 1)) ++ between ++ within ++ after

/-- An enum that stands among lines lists its values there, as `ListsValues` has it. -/
theorem Stands.listsValues {lines : List Line} (hstands : graph.Stands dialect h lines)
    (hbody : (graph.element h).body = .enumeration) : graph.ListsValues dialect h lines := by
  obtain ⟨level, found, inside, before, opening, within, after, hopening, hinside, hwithin, rfl⟩ :=
    hstands.segment
  cases dialect with
  | webidl =>
    simp only [opening_webidl, WebIdl.opening, hbody] at hopening
    obtain ⟨words, hwords, hopening⟩ := bind_eq_ok_iff.mp hopening
    cases hopening
    refine ⟨level, found, inside, words, before, [], within,
      (graph.closing .webidl h).map (Line.deeper level) ++ after, forall₂_of_mapM hwords, hinside,
      hwithin, ?_⟩
    simp [List.map_map, Function.comp_def, enumWord]
  | typescript =>
    simp only [opening_typescript, TypeScript.opening, hbody] at hopening
    obtain ⟨words, hwords, hopening⟩ := bind_eq_ok_iff.mp hopening
    cases hopening
    refine ⟨level, found, inside, words, before, Line.closer.deeper level
      :: (TypeScript.membersHeader (graph.element h)
        (graph.otherMembers (graph.element h).memberItems)).map (Line.deeper level), within,
      (graph.closing .typescript h).map (Line.deeper level) ++ after, forall₂_of_mapM hwords,
      hinside, hwithin, ?_⟩
    simp [List.map_map, Function.comp_def, enumWord]

/-- A namespace without members has no lines in TypeScript. -/
theorem TypeScript.lines_of_memberless (hbody : (graph.element h).body = .nameSpace)
    (hmembers : (graph.element h).memberItems = []) :
    graph.opening .typescript h = .ok [] ∧ graph.next .typescript h = [] ∧
      graph.closing .typescript h = [] := by
  simp [TypeScript.opening, TypeScript.closing, TypeScript.membersHeader, next, expanded, hbody,
    hmembers]

/-- **What a build has declared** that left these marks and this text: exactly what is reached from
the exports, each element once and in the order of a depth-first search; every declared element
stands among the lines of the text, an enum with a line for each of its values, and a namespace
without members with no lines in TypeScript. -/
structure Covers (graph : Graph) (dialect : Dialect) (marked : List Handle) (text : String)
    (forest : Forest Handle) (lines : List Line) : Prop where
  search : DepthFirst (graph.next dialect) [] graph.roots forest
  order : graph.declared marked = forest.preorder
  once : marked.Nodup
  reached (h : Handle) : h ∈ graph.declared marked ↔ Reached (graph.next dialect) graph.roots h
  written : graph.lines dialect 1 forest = .ok lines
  joined : joined? (fragmentsOf (page dialect 0 lines)) = some text
  stands (h : Handle) : h ∈ graph.declared marked → graph.Stands dialect h lines
  values (h : Handle) : h ∈ graph.declared marked → (graph.element h).body = .enumeration →
    graph.ListsValues dialect h lines
  silent (h : Handle) : dialect = .typescript → (graph.element h).body = .nameSpace →
    (graph.element h).memberItems = [] → graph.opening .typescript h = .ok [] ∧
      graph.next .typescript h = [] ∧ graph.closing .typescript h = []

/-- Marking by `markIn` keeps what is marked once. -/
theorem nodup_foldl_markIn (handles : List Handle) {visited : List Handle}
    (hvisited : visited.Nodup) : (handles.foldl markIn visited).Nodup := by
  induction handles generalizing visited with
  | nil => exact hvisited
  | cons h handles ih =>
    refine ih ?_
    unfold markIn
    split
    · exact hvisited
    · rename_i hnew
      exact List.nodup_append.mpr ⟨hvisited, List.nodup_singleton h, by grind⟩

/-- **A build that succeeds declares exactly what is reached**, whatever was built before: its text
and what it marks are what `Covers` says of a forest and its lines. -/
theorem build_covers (hs : graph.WellSorted) {before after : BuildState} {text : String}
    (hbuild : graph.build dialect before = .ok text after) :
    ∃ forest lines, graph.Covers dialect after.visited text forest lines := by
  obtain ⟨forest, hforest⟩ := graph.exists_forest dialect
  have hresult := build_apply hs hforest before
  cases hlines : graph.lines dialect 1 forest with
  | error cause =>
    rw [hlines] at hresult
    obtain ⟨_, hfail⟩ := hresult
    rw [hfail] at hbuild
    cases hbuild
  | ok lines =>
    rw [hlines] at hresult
    obtain ⟨last, hdeclared, hvisited, hresult⟩ := hresult
    rw [hresult] at hbuild
    cases htext : joined? (fragmentsOf (page dialect 0 lines)) with
    | none => rw [htext] at hbuild; cases hbuild
    | some joined =>
      rw [htext] at hbuild
      cases hbuild
      -- each declared element has its lines somewhere in the forest
      have hstands : ∀ h ∈ graph.declared after.visited, graph.Stands dialect h lines :=
        fun h hmem => stands_of_mem hforest (hdeclared ▸ hmem) hlines
      exact ⟨forest, lines, {
        search := hforest
        order := hdeclared
        once := hvisited ▸ nodup_foldl_markIn _ List.nodup_nil
        reached := fun h => by rw [hdeclared, hforest.mem_preorder_iff]
        written := hlines
        joined := htext
        stands := hstands
        values := fun h hmem hbody => (hstands h hmem).listsValues hbody
        silent := fun h _ => TypeScript.lines_of_memberless }⟩

/-- A namespace that holds an enum and itself, and the enum once more. -/
def shared : Graph where
  elements := #[
    { name := .text "Color", flags := { compiled := true }, members := some [(.text "Red", 1)],
      body := .enumeration },
    { name := .text "Red", body := .enumValue (.int 0) },
    { name := .text "all", flags := { compiled := true },
      members := some [(.text "Color", 0), (.text "all", 2)], body := .nameSpace }]
  exports := [(.text "all", 2), (.text "Color", 0)]

/-- The enum is declared at its first place, and the namespace not again inside itself. -/
theorem build_covers_shared : ∃ after text,
    shared.build .typescript {} = .ok text after ∧
      ∃ forest lines, shared.Covers .typescript after.visited text forest lines := by
  have hrender : (shared.render .typescript).toOption.isSome = true := by decide +kernel
  cases htext : shared.render .typescript with
  | error cause => rw [htext] at hrender; cases hrender
  | ok text =>
    obtain ⟨after, hbuild⟩ := exists_build htext
    exact ⟨after, text, hbuild, build_covers (.of_all (by decide +kernel)) hbuild⟩

end Graph

end ModuleSurface
