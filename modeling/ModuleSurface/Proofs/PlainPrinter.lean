import ModuleSurface.Proofs.OneParent
import ModuleSurface.Proofs.UnsharedDocuments

/-! # Printing without a state

A plain printer of definitions goes down the elements and joins what it prints on the way: the opening
lines of an element, its members one level deeper, its closing lines. It neither remembers which
elements it has printed nor collects fragments, and the depth is an argument. What is read from a
document without sharing is built as the plain printer prints it, and no element is met twice on the
way.

* **`Graph.plain`** — the plain printer.
* **`Graph.build_of_unshared`** — building what was read from a document without sharing. -/

namespace ModuleSurface

namespace Graph

/-! ## The plain printer -/

/-- One text after another; there is none if either is none, because of a name that is no text. -/
def andThen (first second : Option String) : Option String := do return (← first) ++ (← second)

/-- The text of lines at a depth. -/
def linesText (depth : Nat) (lines : List Line) : Option String :=
  joined? (fragmentsOf (lines.map (Line.deeper depth)))

/-- The text of items, printed in order. -/
def printEach {α : Type} (print : α → Except RenderError (Option String)) :
    List α → Except RenderError (Option String)
  | [] => .ok (some "")
  | a :: rest => do
    let first ← print a
    let others ← printEach print rest
    return andThen first others

/-- **Printing an element** at a depth: what is declared for it, which are the compiled instances of a
prototype, each with its opening lines, its members one deeper and its closing lines. -/
def printed (graph : Graph) (dialect : Dialect) : Nat → Nat → Handle →
    Except RenderError (Option String)
  | 0, _, _ => .error .nestedTooDeep
  | fuel + 1, depth, h =>
    printEach (fun a => do
      let opening ← graph.opening dialect a
      let inside ← printEach (graph.printed dialect fuel (depth + 1)) (graph.expanded dialect a)
      return andThen (linesText depth opening)
        (andThen inside (linesText depth (graph.closing dialect a)))) (graph.resolved h)

/-- **The plain printer**: the header of the module with the aliases, the exports, and the closing
line. -/
def plain (graph : Graph) (dialect : Dialect) : Except RenderError String := do
  let exports ← printEach (graph.printed dialect (graph.size + 1) 1) (graph.exports.map (·.2))
  let header := Line.opener 0 [some dialect.moduleHeader, some Dialect.moduleName]
    :: dialect.aliases.map (aliasLine 1)
  match andThen (linesText 0 header) (andThen exports (linesText 0 [Line.closer])) with
  | some text => .ok text
  | none => .error .notText

/-! ## What it prints -/

variable {graph : Graph} {dialect : Dialect} {forest : Forest Handle}

/-- The text of fragments is that of the first ones before that of the others, where `joined?` finds
both. -/
theorem joined?_append (first second : List Fragment) :
    joined? (first ++ second) = andThen (joined? first) (joined? second) := by
  simp only [joined?, andThen, List.mapM_append]
  cases first.mapM id <;> cases second.mapM id <;> simp

/-- Texts are put behind each other in any grouping. -/
@[simp] theorem andThen_assoc (first second third : Option String) :
    andThen (andThen first second) third = andThen first (andThen second third) := by
  cases first <;> cases second <;> cases third <;> simp [andThen, String.append_assoc]

/-- The text of lines, or what stands against them. -/
def printedLines (lines : Except RenderError (List Line)) : Except RenderError (Option String) := do
  return joined? (fragmentsOf (← lines))

/-- **Printing items** by `printEach` prints the unfoldings of what they stand for. -/
theorem printEach_eq {α : Type} {print : α → Except RenderError (Option String)}
    {stands : α → List Handle} {depth : Nat} (bound : Nat) (items : List α)
    (hprint : ∀ a ∈ items, ∀ forest : Forest Handle, Unfolded (graph.next dialect) (stands a) forest →
      forest.height ≤ bound → print a = printedLines (graph.lines dialect depth forest))
    (hforest : Unfolded (graph.next dialect) (items.flatMap stands) forest)
    (hheight : forest.height ≤ bound) :
    printEach print items = printedLines (graph.lines dialect depth forest) := by
  induction items generalizing forest with
  | nil =>
    cases hforest
    rfl
  | cons a items ih =>
    rw [List.flatMap_cons] at hforest
    obtain ⟨first, second, rfl, hfirst, hsecond⟩ := hforest.exists_of_append
    rw [Forest.height_append] at hheight
    rw [printEach, hprint a List.mem_cons_self first hfirst (by omega),
      ih (fun b hb => hprint b (List.mem_cons_of_mem a hb)) hsecond (by omega), lines_append]
    cases graph.lines dialect depth first with
    | error cause => rfl
    | ok lines =>
      cases graph.lines dialect depth second with
      | error cause => rfl
      | ok others => simp [printedLines, pure_eq_ok, joined?_append]

/-- **An element is printed** by `printed` as the lines of its unfolding. -/
theorem printed_eq (fuel depth : Nat) (h : Handle)
    (hforest : Unfolded (graph.next dialect) (graph.resolved h) forest)
    (hheight : forest.height < fuel) :
    graph.printed dialect fuel depth h = printedLines (graph.lines dialect depth forest) := by
  induction fuel generalizing depth h forest with
  | zero => omega
  | succ fuel ih =>
    rw [printed]
    -- what the element stands for is printed one by one
    have hsingles : Unfolded (graph.next dialect) ((graph.resolved h).flatMap fun a => [a]) forest := by
      simpa using hforest
    refine printEach_eq fuel _ (fun a _ forest hforest hheight => ?_) hsingles (by omega)
    cases hforest with
    | @node _ _ inside _ below later =>
      cases later
      rw [Forest.height_node] at hheight
      have hinside := printEach_eq (fuel - 1) (graph.expanded dialect a)
        (fun m _ forest hforest hlow => ih (depth + 1) m hforest (by omega)) below (by omega)
      rw [hinside, lines_node]
      cases graph.opening dialect a with
      | error cause => rfl
      | ok opening =>
        cases graph.lines dialect (depth + 1) inside with
        | error cause => rfl
        | ok within => simp [printedLines, linesText, pure_eq_ok, joined?_append]

/-- **What the plain printer prints**, `graph.plain dialect`, are the lines of the unfolding of the
exports. -/
theorem plain_eq (hforest : Unfolded (graph.next dialect) graph.roots forest)
    (hheight : forest.height ≤ graph.size) :
    graph.plain dialect = (do
      let lines ← graph.lines dialect 1 forest
      match joined? (fragmentsOf (page dialect 0 lines)) with
      | some text => .ok text
      | none => .error .notText) := by
  have hexports := printEach_eq graph.size (graph.exports.map (·.2))
    (fun h _ forest hforest hlow => printed_eq (graph.size + 1) 1 h hforest (by omega))
    (by rwa [List.flatMap_map]) hheight
  rw [plain, hexports]
  cases graph.lines dialect 1 forest with
  | error cause => rfl
  | ok lines =>
    -- the head, the lines and the foot are joined apart by the printer, and at once by a build
    have hpage : joined? (fragmentsOf (page dialect 0 lines))
        = andThen (linesText 0 (Line.opener 0 [some dialect.moduleHeader, some Dialect.moduleName]
          :: dialect.aliases.map (aliasLine 1)))
          (andThen (joined? (fragmentsOf lines)) (linesText 0 [Line.closer])) := by
      simp [page, linesText, ← joined?_append, Function.comp_def]
    rw [ok_bind, hpage]
    rfl

/-! ## Documents without sharing -/

/-- **Building what was read from a document without sharing** gives what the plain printer prints,
the same text or the same failure, whatever was built before. No element is marked twice on the way:
a build that fails where one is does not differ, whatever it fails with. The documents of trees, such
as JSON texts have, are of this sort. -/
theorem build_of_unshared :
    (∀ tree : Tree, (Document.ofTree tree).Unshared) ∧
      ∀ (document : Document) (graph : Graph), document.Unshared → ofDocument document = .ok graph →
        ∀ (dialect : Dialect) (before : BuildState),
          graph.built dialect before = graph.plain dialect ∧
          ∀ cause, graph.strictBuild cause dialect before = graph.build dialect before := by
  refine ⟨Document.ofTree_unshared, fun document graph hunshared hread dialect before => ?_⟩
  obtain ⟨visits, hmade⟩ := exists_madeOf hread
  have hs := (sound_of_ofDocument hread).1.wellSorted
  obtain ⟨walk, hwalk, hdepthFirst, hnodup⟩ :=
    (hmade.unshared hunshared).exists_marked_walk hs dialect
  -- the unfolding is a search, so it nests no deeper than there are elements
  have hheight := height_le_size hdepthFirst
  exact ⟨(built_eq hs hdepthFirst before).trans (plain_eq hwalk hheight).symm,
    fun cause => strictBuild_eq hs hwalk hheight hnodup cause before⟩

/-- A tree with a compiled enum and its value. -/
def enumTree : Tree := .map [(.text "exports", .map [(.text "Mode", .map [
  (.text "kind", .scalar (.text "enum")), (.text "flags", .list [.scalar (.text "compiled")]),
  (.text "members", .map [(.text "Fast", .map [(.text "kind", .scalar (.text "enum_value"))])])])])]

/-- The graph of the tree. -/
def enumGraph : Graph where
  store := (Document.ofTree enumTree).store
  elements := #[
    { name := .text "Mode", flags := { compiled := true }, members := some [(.text "Fast", 1)],
      body := .enumeration },
    { name := .text "Fast", body := .enumValue (.int 0) }]
  exports := [(.text "Mode", 0)]

/-- The enum is built as the plain printer prints it, and its value is marked once. -/
theorem build_of_unshared_enum : ofDocument (Document.ofTree enumTree) = .ok enumGraph ∧
    ∀ (dialect : Dialect) (before : BuildState),
      enumGraph.built dialect before = enumGraph.plain dialect ∧
      ∀ cause, enumGraph.strictBuild cause dialect before = enumGraph.build dialect before := by
  have hread : ofDocument (Document.ofTree enumTree) = .ok enumGraph := rfl
  exact ⟨hread, build_of_unshared.2 (Document.ofTree enumTree) enumGraph
    (build_of_unshared.1 enumTree) hread⟩

end Graph

end ModuleSurface
