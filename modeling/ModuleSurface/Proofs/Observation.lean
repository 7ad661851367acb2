import ModuleSurface.Proofs.Likeness
import ModuleSurface.Proofs.Refusals
import ModuleSurface.Proofs.Walk

/-! # What a rendering observes

Two graphs that look alike to a dialect have the same definitions in it, or fail alike. Their
elements are matched along the exports, the members that the dialect goes on to and the instances of
prototypes, and a matched pair need only look alike in what the dialect shows: nothing of elements
that are not compiled, nothing of a prototype but its instances, no key but those of the values of an
enum. How the builders were left before does not matter either.

* **`Graph.Matching`** — a matching of the elements of two graphs.
* **`Graph.Matching.builds_eq`** — matched graphs have the same definitions. -/

namespace ModuleSurface

namespace Graph

/-! ## Matchings -/

section Matching

variable (dialect : Dialect) (graph graph' : Graph) (same : Handle → Handle → Prop)

/-- **Two elements match**: both are skipped, or stand for matched instances, or are enum values that
are refused in the same words, or are declared and look alike. -/
inductive Matches (h h' : Handle) : Prop
  | skipped (sort : (graph.element h).body.sort? ≠ none)
      (sort' : (graph'.element h').body.sort? ≠ none)
      (uncompiled : (graph.element h).isCompiled = false)
      (uncompiled' : (graph'.element h').isCompiled = false)
  | prototype (instances instances' : List Handle)
      (body : (graph.element h).body = .functionPrototype instances ∨
        (graph.element h).body = .classPrototype instances)
      (body' : (graph'.element h').body = .functionPrototype instances' ∨
        (graph'.element h').body = .classPrototype instances')
      (each : List.Forall₂ same instances instances')
  | enumValue (kind : (graph.element h).kind = .enumValue)
      (kind' : (graph'.element h').kind = .enumValue)
      (name : (graph'.element h').name = (graph.element h).name)
      (sentence : graph'.store.inSentence? (graph.element h).name
        = graph.store.inSentence? (graph.element h).name)
  | declared (compiled : (graph.element h).isCompiled = true)
      (compiled' : (graph'.element h').isCompiled = true)
      (name : (graph'.element h').name.text? = (graph.element h).name.text?)
      (alike : LooksAlike dialect graph graph' same (graph.element h) (graph'.element h'))

/-- Whether an element may be declared, or refused, for itself. -/
def StandsAlone (graph : Graph) (h : Handle) : Prop :=
  (graph.element h).kind = .enumValue ∨
    (graph.element h).isCompiled = true ∧ (graph.element h).body.sort? ≠ none

/-- **A matching of two graphs** along their exports, under any names. Elements that stand for
themselves are matched one to one. -/
structure Matching : Prop where
  exports : List.Forall₂ same (graph.exports.map (·.2)) (graph'.exports.map (·.2))
  elements {h h' : Handle} : same h h' → Matches dialect graph graph' same h h'
  oneToOne {h h' k k' : Handle} : same h h' → same k k' → graph.StandsAlone h →
    graph.StandsAlone k → (h = k ↔ h' = k')

end Matching

variable {dialect : Dialect} {graph graph' : Graph} {same : Handle → Handle → Prop} {h h' : Handle}

namespace Matching

/-- A matched pair of elements that stand for themselves. -/
def Pair (graph : Graph) (same : Handle → Handle → Prop) (h h' : Handle) : Prop :=
  same h h' ∧ graph.StandsAlone h

/-! ## The search -/

/-- A prototype calls for no declaration: `body.sort? = none`. -/
theorem sort?_of_prototype {body : Body} {instances : List Handle}
    (h : body = .functionPrototype instances ∨ body = .classPrototype instances) :
    body.sort? = none := by
  rcases h with rfl | rfl <;> rfl

/-- An enum value calls for no declaration: `element.body.sort? = none`. -/
theorem sort?_of_enumValue {element : Element} (h : element.kind = .enumValue) :
    element.body.sort? = none := by
  unfold Element.kind at h
  cases hbody : element.body <;> rw [hbody] at h <;> first | rfl | cases h

/-- Of two matched elements that are declared if they are compiled, both are compiled or neither
is. -/
theorem isCompiled_eq (hmatch : Matches dialect graph graph' same h h')
    (hsort : (graph.element h).isCompiled = true → (graph.element h).body.sort? ≠ none)
    (hsort' : (graph'.element h').isCompiled = true → (graph'.element h').body.sort? ≠ none) :
    (graph.element h).isCompiled = (graph'.element h').isCompiled := by
  have hneither (hnone : (graph.element h).body.sort? = none)
      (hnone' : (graph'.element h').body.sort? = none) :
      (graph.element h).isCompiled = (graph'.element h').isCompiled := by
    rw [Bool.eq_false_iff.mpr fun hc => hsort hc hnone,
      Bool.eq_false_iff.mpr fun hc => hsort' hc hnone']
  cases hmatch with
  | skipped _ _ uncompiled uncompiled' => rw [uncompiled, uncompiled']
  | declared compiled compiled' => rw [compiled, compiled']
  | prototype _ _ body body' => exact hneither (sort?_of_prototype body) (sort?_of_prototype body')
  | enumValue kind kind' => exact hneither (sort?_of_enumValue kind) (sort?_of_enumValue kind')

/-- The compiled ones among matched instances are matched. -/
theorem filter_instances (hm : Matching dialect graph graph' same) {instances instances' : List Handle}
    (heach : List.Forall₂ same instances instances')
    (hsort : ∀ i ∈ instances, (graph.element i).isCompiled = true →
      (graph.element i).body.sort? ≠ none)
    (hsort' : ∀ i ∈ instances', (graph'.element i).isCompiled = true →
      (graph'.element i).body.sort? ≠ none) :
    List.Forall₂ (Pair graph same) (instances.filter fun i => (graph.element i).isCompiled)
      (instances'.filter fun i => (graph'.element i).isCompiled) := by
  induction heach with
  | nil => exact .nil
  | @cons i i' instances instances' hsame _ ih =>
    have hrest := ih (fun j hj => hsort j (List.mem_cons_of_mem _ hj))
      fun j hj => hsort' j (List.mem_cons_of_mem _ hj)
    have hi := hsort i List.mem_cons_self
    have heq := isCompiled_eq (hm.elements hsame) hi (hsort' i' List.mem_cons_self)
    rw [List.filter_cons, List.filter_cons, ← heq]
    split
    · rename_i hcompiled
      exact .cons ⟨hsame, .inr ⟨hcompiled, hi hcompiled⟩⟩ hrest
    · exact hrest

/-- A compiled instance calls for a declaration. -/
theorem sort?_of_instance (hs : graph.CompiledSorted) {instances : List Handle}
    (hbody : (graph.element h).body = .functionPrototype instances ∨
      (graph.element h).body = .classPrototype instances) :
    ∀ i ∈ instances, (graph.element i).isCompiled = true →
      (graph.element i).body.sort? ≠ none := by
  intro i hi hcompiled
  rcases hbody with hbody | hbody
  · rw [(hs.sort? hi hcompiled).1 hbody]; simp
  · rw [(hs.sort? hi hcompiled).2 hbody]; simp

/-- An element that calls for a declaration stands for itself if it is compiled, and for nothing
otherwise: `graph.resolved h` is `[h]` or empty. -/
theorem resolved_of_sort? (hsort : (graph.element h).body.sort? ≠ none) :
    graph.resolved h = if (graph.element h).isCompiled then [h] else [] := by
  unfold resolved
  cases hbody : (graph.element h).body <;> rw [hbody] at hsort <;> first
    | rfl
    | exact absurd rfl hsort

/-- A prototype stands for its compiled instances. -/
theorem resolved_of_prototype {instances : List Handle}
    (hbody : (graph.element h).body = .functionPrototype instances ∨
      (graph.element h).body = .classPrototype instances) :
    graph.resolved h = instances.filter fun i => (graph.element i).isCompiled := by
  unfold resolved
  rcases hbody with hbody | hbody <;> rw [hbody]

/-- **What stands for matched elements is matched**: `graph.resolved h` and `graph'.resolved h'`
item by item. -/
theorem resolved (hm : Matching dialect graph graph' same) (hs : graph.CompiledSorted)
    (hs' : graph'.CompiledSorted) (hsame : same h h') :
    List.Forall₂ (Pair graph same) (graph.resolved h) (graph'.resolved h') := by
  cases hm.elements hsame with
  | skipped sort sort' uncompiled uncompiled' =>
    rw [resolved_of_sort? sort, resolved_of_sort? sort', uncompiled, uncompiled']
    exact .nil
  | prototype instances instances' body body' each =>
    rw [resolved_of_prototype body, resolved_of_prototype body']
    exact hm.filter_instances each (sort?_of_instance hs body) (sort?_of_instance hs' body')
  | enumValue kind kind' =>
    rw [resolved_of_enumValue kind, resolved_of_enumValue kind']
    exact .cons ⟨hsame, .inl kind⟩ .nil
  | declared compiled compiled' _ alike =>
    obtain ⟨sort, sort'⟩ := alike.sort?
    rw [resolved_of_sort? sort, resolved_of_sort? sort', if_pos compiled, if_pos compiled']
    exact .cons ⟨hsame, .inr ⟨compiled, sort⟩⟩ .nil

/-- What stands for itself is refused or declared on both sides. -/
theorem Pair.cases (hm : Matching dialect graph graph' same) (hpair : Pair graph same h h') :
    ((graph.element h).kind = .enumValue ∧ (graph'.element h').kind = .enumValue ∧
        (graph'.element h').name = (graph.element h).name ∧
        graph'.store.inSentence? (graph.element h).name
          = graph.store.inSentence? (graph.element h).name) ∨
      (graph'.element h').name.text? = (graph.element h).name.text? ∧
        LooksAlike dialect graph graph' same (graph.element h) (graph'.element h') := by
  obtain ⟨hsame, halone⟩ := hpair
  cases hm.elements hsame with
  | enumValue kind kind' name sentence => exact .inl ⟨kind, kind', name, sentence⟩
  | declared _ _ name alike => exact .inr ⟨name, alike⟩
  | skipped sort _ uncompiled =>
    rcases halone with kind | ⟨compiled, _⟩
    · exact absurd (sort?_of_enumValue kind) sort
    · rw [uncompiled] at compiled
      cases compiled
  | prototype _ _ body =>
    rcases halone with kind | ⟨_, sort⟩
    · rcases body with body | body <;> simp [Element.kind, body, Body.kind] at kind
    · exact absurd (sort?_of_prototype body) sort

/-- A declaration goes on to no members of an enum value: `graph.expanded dialect h = []`. -/
theorem expanded_of_enumValue (hkind : (graph.element h).kind = .enumValue) :
    graph.expanded dialect h = [] := by
  unfold Graph.expanded
  cases hbody : (graph.element h).body <;> simp [Element.kind, hbody, Body.kind] at hkind ⊢

/-- A declaration goes on to no members of a class or an interface:
`graph.expanded dialect h = []`. -/
theorem expanded_of_classLinks? {links : ClassLinks}
    (hlinks : (graph.element h).body.classLinks? = some links) : graph.expanded dialect h = [] := by
  unfold Graph.expanded
  cases hbody : (graph.element h).body <;> simp [hbody, Body.classLinks?] at hlinks ⊢

/-- The members that declarations go on to are matched. -/
theorem expanded (hm : Matching dialect graph graph' same) (hpair : Pair graph same h h') :
    List.Forall₂ same (graph.expanded dialect h) (graph'.expanded dialect h') := by
  rcases Pair.cases hm hpair with ⟨kind, kind', -⟩ | ⟨-, alike⟩
  · rw [expanded_of_enumValue kind, expanded_of_enumValue kind']
    exact .nil
  · cases alike with
    | classLike _ _ body body' =>
      rw [expanded_of_classLinks? body, expanded_of_classLinks? body']
      exact .nil
    -- members of globals are declared in TypeScript only, so they are matched only there
    | global _ _ _ _ body body' _ _ _ members =>
      simp only [Graph.expanded, body, body']
      split
      · rename_i hdialect
        exact members hdialect
      · exact .nil
    | enumeration body body' _ members =>
      simp only [Graph.expanded, body, body']
      exact members
    | function _ _ body body' _ members =>
      simp only [Graph.expanded, body, body']
      exact members
    | nameSpace body body' members =>
      simp only [Graph.expanded, body, body']
      exact members

/-- What is declared inside matched elements is matched. -/
theorem next (hm : Matching dialect graph graph' same) (hs : graph.CompiledSorted)
    (hs' : graph'.CompiledSorted) (hpair : Pair graph same h h') :
    List.Forall₂ (Pair graph same) (graph.next dialect h) (graph'.next dialect h') :=
  -- matched members resolve to matched elements
  List.rel_flatMap (hm.expanded hpair) fun _ _ hsame => hm.resolved hs hs' hsame

/-- What is declared at the top level is matched. -/
theorem roots (hm : Matching dialect graph graph' same) (hs : graph.CompiledSorted)
    (hs' : graph'.CompiledSorted) :
    List.Forall₂ (Pair graph same) graph.roots graph'.roots := by
  have hsplit (g : Graph) : g.roots = (g.exports.map (·.2)).flatMap g.resolved := by
    rw [List.flatMap_map, Graph.roots]
  rw [hsplit, hsplit]
  exact List.rel_flatMap hm.exports fun _ _ hsame => hm.resolved hs hs' hsame

/-- **The searches are matched**: their forests are `Related` by `Pair`. -/
theorem forest (hm : Matching dialect graph graph' same) (hs : graph.CompiledSorted)
    (hs' : graph'.CompiledSorted) {forest : Forest Handle}
    (hforest : DepthFirst (graph.next dialect) [] graph.roots forest) :
    ∃ forest', forest.Related (Pair graph same) forest' ∧
      DepthFirst (graph'.next dialect) [] graph'.roots forest' :=
  hforest.related (fun _ _ hpair => hm.next hs hs' hpair)
    (fun _ _ _ _ hpair hpair' => hm.oneToOne hpair.1 hpair'.1 hpair.2 hpair'.2) .nil
    (hm.roots hs hs')

/-! ## The lines -/

/-- **The opening lines of a pair are the same**:
`graph'.opening dialect h' = graph.opening dialect h`. -/
theorem opening (hm : Matching dialect graph graph' same) (hpair : Pair graph same h h') :
    graph'.opening dialect h' = graph.opening dialect h := by
  rcases Pair.cases hm hpair with ⟨kind, kind', name, -⟩ | ⟨name, alike⟩
  · rw [opening_of_enumValue kind, opening_of_enumValue kind', kind, kind', name]
  · exact alike.opening name

/-- The closing lines of a pair are the same, if it has opening lines:
`graph'.closing dialect h' = graph.closing dialect h`. -/
theorem closing (hm : Matching dialect graph graph' same) (hpair : Pair graph same h h')
    {opening : List Line} (hopening : graph.opening dialect h = .ok opening) :
    graph'.closing dialect h' = graph.closing dialect h := by
  rcases Pair.cases hm hpair with ⟨kind, -⟩ | ⟨-, alike⟩
  · rw [opening_of_enumValue kind] at hopening
    cases hopening
  · exact alike.closing

/-- **The lines of matched forests are the same** at every `level`. -/
theorem lines (hm : Matching dialect graph graph' same) {forest forest' : Forest Handle}
    (hforest : forest.Related (Pair graph same) forest') (level : Nat) :
    graph'.lines dialect level forest' = graph.lines dialect level forest := by
  induction hforest generalizing level with
  | nil => rfl
  | @node h h' _ _ _ _ hpair _ _ ihBelow ihLater =>
    rw [lines_node, lines_node, hm.opening hpair, ihBelow, ihLater]
    cases hopening : graph.opening dialect h with
    | error cause => rfl
    | ok opening => rw [hm.closing hpair hopening]

/-! ## The definitions -/

/-- **A failure of matched forests is reported in the same words**, since only enum values are
refused by their names. -/
theorem message? (hm : Matching dialect graph graph' same) {forest forest' : Forest Handle}
    (hforest : forest.Related (Pair graph same) forest') {level : Nat} {cause : RenderError}
    (hlines : graph.lines dialect level forest = .error cause) :
    cause.message? graph'.store = cause.message? graph.store := by
  obtain ⟨h, hmem, hopening⟩ := exists_of_lines_error hlines
  obtain ⟨h', -, hpair⟩ := exists_of_mem_forall₂ hforest.preorder hmem
  by_cases hkind : (graph.element h).kind = .enumValue
  · obtain ⟨-, -, -, sentence⟩ := (Pair.cases hm hpair).resolve_right fun hdeclared =>
      hdeclared.2.sort?.1 (sort?_of_enumValue hkind)
    rw [opening_of_enumValue hkind] at hopening
    cases hopening
    simp only [RenderError.message?, sentence]
  · cases cause with
    | unsupportedElement kind name =>
      exact absurd ⟨kind, name, hopening⟩ (not_refuses_opening hkind)
    | _ => rfl

/-- **Matched graphs have the same definitions**, or fail alike and with the same message, whatever
was built before. -/
theorem builds_eq (hm : Matching dialect graph graph' same) (hs : graph.CompiledSorted)
    (hs' : graph'.CompiledSorted) (before before' : BuildState) :
    graph'.built dialect before' = graph.built dialect before ∧
      ∀ cause, graph.built dialect before = .error cause →
        cause.message? graph'.store = cause.message? graph.store := by
  obtain ⟨forest, hforest⟩ := graph.exists_forest dialect
  obtain ⟨forest', hrelated, hforest'⟩ := hm.forest hs hs' hforest
  rw [Graph.built_eq hs' hforest', Graph.built_eq hs hforest, hm.lines hrelated]
  refine ⟨rfl, fun cause hbuilt => ?_⟩
  rcases bind_eq_error_iff.mp hbuilt with hlines | ⟨lines, -, htext⟩
  · exact hm.message? hrelated hlines
  · cases hjoined : joined? (fragmentsOf (page dialect 0 lines)) <;> rw [hjoined] at htext <;>
      cases htext
    rfl

/-- A constant, a class that is not compiled, and a function with its prototype. -/
def watched : Graph where
  elements := #[
    { name := .text "limit", flags := { compiled := true, inlined := true },
      body := .global (some (.plain .i32)) (some ⟨.integer, .int 5⟩) },
    { name := .text "Old", members := some [(.text "limit", 0)], body := .classType {} },
    { name := .text "max", body := .functionPrototype [3] },
    { name := .text "max", flags := { compiled := true },
      body := .function ⟨[some (.plain .i32)], [.text "a"], some (.plain .void)⟩ }]
  exports := [(.text "limit", 0), (.text "Old", 1), (.text "max", 2)]

/-- The same surface in other places and under other keys. Where the class was stands a namespace,
the global has members, the function has a name for no parameter. -/
def disguised : Graph where
  elements := #[
    { name := .text "unused", body := .nameSpace },
    { name := .text "pick", flags := { compiled := true }, members := some [(.text "unused", 0)],
      body := .functionPrototype [2] },
    { name := .text "max", flags := ⟨true, false, true⟩,
      body := .function ⟨[some (.plain .i32)], [.text "a", .text "b"], some (.plain .void)⟩ },
    { name := .text "limit", flags := { compiled := true, inlined := true },
      members := some [(.text "max", 2)],
      body := .global (some (.plain .i32)) (some ⟨.integer, .int 5⟩) }]
  exports := [(.text "a", 3), (.text "b", 0), (.text "c", 1)]

/-- The places of the same elements. -/
def samePlace (h h' : Handle) : Prop := (h, h') ∈ [(0, 3), (1, 0), (2, 1), (3, 2)]

/-- The two graphs are matched place by place. -/
theorem matching_disguised : Matching .webidl watched disguised samePlace where
  exports := by
    have hexports : watched.exports.map (·.2) = [0, 1, 2] := rfl
    have hexports' : disguised.exports.map (·.2) = [3, 0, 1] := rfl
    rw [hexports, hexports']
    simp [samePlace]
  elements {h h'} hsame := by
    simp only [samePlace, List.mem_cons, Prod.mk.injEq, List.not_mem_nil, or_false] at hsame
    rcases hsame with ⟨rfl, rfl⟩ | ⟨rfl, rfl⟩ | ⟨rfl, rfl⟩ | ⟨rfl, rfl⟩
    · exact .declared rfl rfl rfl (.global _ _ _ _ rfl rfl rfl rfl (fun _ _ => rfl) nofun)
    · exact .skipped (by decide) (by decide) rfl rfl
    · exact .prototype [3] [2] (.inl rfl) (.inl rfl) (.cons (by simp [samePlace]) .nil)
    · exact .declared rfl rfl rfl (.function _ _ rfl rfl ⟨.cons rfl .nil, rfl, rfl⟩ .nil)
  oneToOne {h h' k k'} hsame hsame' _ _ := by
    simp only [samePlace, List.mem_cons, Prod.mk.injEq, List.not_mem_nil, or_false] at hsame hsame'
    grind

/-- The two have one text, the second one also where a builder was left in the middle of another
build. -/
theorem builds_eq_disguised :
    Matching .webidl watched disguised samePlace ∧ watched.CompiledSorted ∧
      disguised.CompiledSorted ∧
      disguised.built .webidl { visited := [2], text := { depth := 3 } }
        = watched.built .webidl {} := by
  have hs : watched.WellSorted := .of_all (by decide)
  have hs' : disguised.WellSorted := .of_all (by decide)
  exact ⟨matching_disguised, hs, hs', (matching_disguised.builds_eq hs hs' {} _).1⟩

end Matching

end Graph

end ModuleSurface
