import ModuleSurface.Proofs.PlainPrinter

/-! # Exports that declare different elements

A build goes through the exports one after the other and passes over what it has declared before. So
an export leaves its traces for those behind it, but only on the elements that it declares itself:
where the exports declare different elements, however these refer to each other, each export is
written as if it stood alone.

* **`DepthFirst.elsewhere`** — a search does not depend on what was found out of its reach.
* **`Graph.Declares`**, **`Graph.Independent`** — the elements that an export declares, and exports
  that declare different ones.
* **`Graph.lines_of_independent`** — the lines of independent exports are those of each.
* **`Graph.render_of_independent`** — so are their definitions. -/

namespace ModuleSurface

/-- **A search does not depend on what was found out of its reach.** What was found counts only where
the search comes to it. -/
theorem DepthFirst.elsewhere {α : Type} {next : α → List α} {found waiting : List α}
    {forest : Forest α} (h : DepthFirst next found waiting forest) {found' : List α}
    (hfound : ∀ a, Reached next waiting a → (a ∈ found' ↔ a ∈ found)) :
    DepthFirst next found' waiting forest := by
  induction h generalizing found' with
  | done => exact .done
  | @again found waiting a _ old _ ih =>
    have hlater : ∀ b, Reached next waiting b → (b ∈ found' ↔ b ∈ found) := fun b hb =>
      hfound b (Reached.trans (fun c hc => .root (List.mem_cons_of_mem a hc)) hb)
    exact .again ((hfound a (.root List.mem_cons_self)).mpr old) (ih hlater)
  | @fresh found waiting a inside _ new _ _ ihBelow ihLater =>
    have ha : Reached next (a :: waiting) a := .root List.mem_cons_self
    refine .fresh (fun hmem => new ((hfound a ha).mp hmem)) (ihBelow fun b hb => ?_)
      (ihLater fun b hb => ?_)
    · have hb := hfound b (Reached.trans (fun c hc => .step ha hc) hb)
      simp only [List.mem_append, hb]
    · have hb := hfound b (Reached.trans (fun c hc => .root (List.mem_cons_of_mem a hc)) hb)
      simp only [List.mem_append, hb]

/-- What is done with each result may be done with all of them at the end. -/
theorem mapM_map_result {α β γ ε : Type} (f : α → Except ε β) (g : β → γ)
    (items : List α) :
    (items.mapM fun a => g <$> f a) = List.map g <$> items.mapM f := by
  induction items with
  | nil => rfl
  | cons a items ih =>
    rw [List.mapM_cons, List.mapM_cons, ih]
    cases f a with
    | error cause => rfl
    | ok b => cases items.mapM f <;> rfl

/-- The first item that fails decides how all of them fail. -/
theorem mapM_eq_error {α β ε : Type} {f : α → Except ε β} {before after : List α} {a : α}
    {cause : ε} (hbefore : ∀ earlier ∈ before, ∃ b, f earlier = .ok b) (ha : f a = .error cause) :
    (before ++ a :: after).mapM f = .error cause := by
  obtain ⟨results, hresults⟩ := exists_mapM_iff.mpr hbefore
  rw [List.mapM_append, hresults, ok_bind, List.mapM_cons, ha]
  rfl

namespace Graph

variable {graph : Graph} {dialect : Dialect} {level : Nat}

/-! ## Other exports -/

/-- **The graph with other exports**; its elements and its addressing width stay. -/
def withExports (graph : Graph) (exports : Members) : Graph := { graph with exports := exports }

/-- Other exports leave the elements as they are:
`(graph.withExports exports).element h = graph.element h`. -/
@[simp] theorem element_withExports (graph : Graph) (exports : Members) (h : Handle) :
    (graph.withExports exports).element h = graph.element h := rfl

/-- The walk of other exports starts from these. -/
@[simp] theorem roots_withExports (graph : Graph) (exports : Members) :
    (graph.withExports exports).roots = exports.flatMap fun entry => graph.resolved entry.2 := rfl

/-- Other exports leave what is next to an element as it is. -/
@[simp] theorem next_withExports (graph : Graph) (exports : Members) (dialect : Dialect) :
    (graph.withExports exports).next dialect = graph.next dialect := rfl

/-- A declaration is written alike whatever else is exported. -/
@[simp] theorem lines_withExports (graph : Graph) (exports : Members) (dialect : Dialect)
    (level : Nat) (forest : Forest Handle) :
    (graph.withExports exports).lines dialect level forest = graph.lines dialect level forest := by
  have hopening (h : Handle) :
      (graph.withExports exports).opening dialect h = graph.opening dialect h := by
    cases dialect <;> rfl
  have hclosing (h : Handle) :
      (graph.withExports exports).closing dialect h = graph.closing dialect h := by
    cases dialect <;> rfl
  induction forest generalizing level with
  | nil => rfl
  | node h inside rest ihInside ihRest =>
    simp only [lines_node, hopening, hclosing, ihInside, ihRest]

/-- Other exports leave a graph sorted. -/
theorem CompiledSorted.withExports (hs : graph.CompiledSorted) (exports : Members) :
    (graph.withExports exports).CompiledSorted :=
  ⟨fun hbody => hs.functions hbody, fun hbody => hs.classes hbody⟩

/-! ## What an export declares -/

/-- **What is declared for an element** that is exported: all that is reached from what it stands
for. Enum values are not among it; one dialect marks them, but none declares them. -/
def Declares (graph : Graph) (dialect : Dialect) (h a : Handle) : Prop :=
  Reached (graph.next dialect) (graph.resolved h) a ∧ graph.isEnumValue a = false

/-- **Independent exports** declare different elements. -/
def Independent (graph : Graph) (dialect : Dialect) (exports : Members) : Prop :=
  exports.Pairwise fun entry other =>
    ∀ a, graph.Declares dialect entry.2 a → ¬ graph.Declares dialect other.2 a

/-- **Exports whose names are texts**: all pieces of what is declared are. -/
def PrintsTexts (graph : Graph) (dialect : Dialect) (exports : Members) : Prop :=
  ∀ entry ∈ exports, ∀ a, graph.Declares dialect entry.2 a →
    ∀ opening, graph.opening dialect a = .ok opening → TextLines opening

/-- The order of exports does not matter for whether they are `Independent`. -/
theorem Independent.perm {exports others : Members} (h : graph.Independent dialect exports)
    (hperm : others.Perm exports) : graph.Independent dialect others :=
  (List.Perm.pairwise_iff (fun hdisjoint a ha hb => hdisjoint a hb ha) hperm).mpr h

/-- What has lines holds no enum values: `graph.isEnumValue a = false`. -/
theorem isEnumValue_of_lines {forest : Forest Handle} {lines : List Line}
    (hlines : graph.lines dialect level forest = .ok lines) {a : Handle}
    (ha : a ∈ forest.preorder) : graph.isEnumValue a = false := by
  induction forest generalizing level lines with
  | nil => cases ha
  | node h inside rest ihInside ihRest =>
    obtain ⟨opening, within, after, hopening, hwithin, hafter, -⟩ := exists_of_lines_node hlines
    simp only [Forest.preorder_node, List.mem_cons, List.mem_append] at ha
    rcases ha with rfl | ha | ha
    · exact isEnumValue_of_opening hopening
    · exact ihInside hwithin ha
    · exact ihRest hafter ha

/-- A forest of texts has lines of texts: `TextLines` holds of its `lines`. -/
theorem textLines_lines {forest : Forest Handle} {lines : List Line}
    (htexts : ∀ a ∈ forest.preorder, ∀ opening, graph.opening dialect a = .ok opening →
      TextLines opening)
    (hlines : graph.lines dialect level forest = .ok lines) : TextLines lines := by
  induction forest generalizing level lines with
  | nil =>
    cases hlines
    exact textLines_nil
  | node h inside rest ihInside ihRest =>
    obtain ⟨opening, within, after, hopening, hwithin, hafter, rfl⟩ := exists_of_lines_node hlines
    simp only [Forest.preorder_node, List.mem_cons, List.mem_append] at htexts
    have hhead := htexts h (.inl rfl) opening hopening
    have hinside := ihInside (fun a ha => htexts a (.inr (.inl ha))) hwithin
    have hrest := ihRest (fun a ha => htexts a (.inr (.inr ha))) hafter
    simp [hhead, hinside, hrest, textLines_closing]

/-! ## Lines of independent exports -/

/-- **The lines of independent exports** are those of each, one after the other. What was `found`
before may be anything that is declared for none of them. -/
theorem lines_of_independent {own : Handle → Forest Handle}
    (hown : ∀ h, DepthFirst (graph.next dialect) [] (graph.resolved h) (own h)) (exports : Members)
    (hindependent : graph.Independent dialect exports) {found : List Handle} {forest : Forest Handle}
    (hfound : ∀ a ∈ found, graph.isEnumValue a = false ∧
      ∀ entry ∈ exports, ¬ graph.Declares dialect entry.2 a)
    (hforest : DepthFirst (graph.next dialect) found
      (exports.flatMap fun entry => graph.resolved entry.2) forest) :
    graph.lines dialect level forest
      = List.flatten <$> exports.mapM fun entry => graph.lines dialect level (own entry.2) := by
  induction exports generalizing found forest with
  | nil =>
    cases hforest
    rfl
  | cons entry exports ih =>
    rw [List.flatMap_cons, DepthFirst.append_iff] at hforest
    obtain ⟨first, second, rfl, hfirst, hsecond⟩ := hforest
    -- nothing that was found is within reach, so the forest is that of the export alone
    have halone : DepthFirst (graph.next dialect) [] (graph.resolved entry.2) first := by
      refine hfirst.elsewhere fun a hreached => iff_of_false List.not_mem_nil fun ha => ?_
      obtain ⟨hkind, hnone⟩ := hfound a ha
      exact hnone entry List.mem_cons_self ⟨hreached, hkind⟩
    obtain rfl := halone.unique (hown entry.2)
    rw [lines_append, List.mapM_cons]
    cases hlines : graph.lines dialect level (own entry.2) with
    | error cause => rfl
    | ok lines =>
      obtain ⟨hapart, hindependent⟩ := List.pairwise_cons.mp hindependent
      -- what the export has declared is declared for none of those behind it
      have hfound : ∀ a ∈ found ++ (own entry.2).preorder, graph.isEnumValue a = false ∧
          ∀ other ∈ exports, ¬ graph.Declares dialect other.2 a := by
        intro a ha
        rcases List.mem_append.mp ha with ha | ha
        · obtain ⟨hkind, hnone⟩ := hfound a ha
          exact ⟨hkind, fun other hother => hnone other (List.mem_cons_of_mem entry hother)⟩
        · have hkind := isEnumValue_of_lines hlines ha
          exact ⟨hkind, fun other hother => hapart other hother a ⟨halone.reached ha, hkind⟩⟩
      rw [ok_bind, ok_bind, ih hindependent hfound hsecond]
      cases exports.mapM fun entry => graph.lines dialect level (own entry.2) <;> rfl

end Graph

/-! ## Texts -/

/-- The text of lines whose pieces are texts. -/
def joinedText (lines : List Line) : String := (Graph.joined? (fragmentsOf lines)).getD ""

/-- Lines whose pieces are texts are joined to their text. -/
theorem TextLines.joined? {lines : List Line} (h : TextLines lines) :
    Graph.joined? (fragmentsOf lines) = some (joinedText lines) := by
  have hsome := Graph.isSome_joined?.mpr (Graph.texts_fragmentsOf.mpr h)
  obtain ⟨text, htext⟩ := Option.isSome_iff_exists.mp hsome
  rw [joinedText, htext, Option.getD_some]

/-- The text of lines in groups. -/
theorem joinedText_flatten {groups : List (List Line)} (h : ∀ lines ∈ groups, TextLines lines) :
    joinedText groups.flatten = String.join (groups.map joinedText) := by
  induction groups with
  | nil => rfl
  | cons lines groups ih =>
    rw [List.forall_mem_cons] at h
    have hlater : TextLines groups.flatten := by
      intro line hline
      obtain ⟨others, hothers, hline⟩ := List.mem_flatten.mp hline
      exact h.2 others hothers line hline
    rw [List.flatten_cons, List.map_cons, String.join_cons, ← ih h.2, joinedText, fragmentsOf_append,
      Graph.joined?_append, h.1.joined?, hlater.joined?]
    rfl

/-- The line that defines an alias in a module. -/
def aliasText (entry : String × String) : String :=
  "  type " ++ entry.1 ++ " = " ++ entry.2 ++ ";\n"

/-- **The text of a module** around that of its declarations: the line that opens it, the aliases of
the dialect, and the line that closes it. -/
def Dialect.moduleText (dialect : Dialect) (body : String) : String :=
  dialect.moduleHeader ++ moduleName ++ " \x7b\n" ++ String.join (dialect.aliases.map aliasText)
    ++ body ++ "\x7d\n"

/-- The lines of the aliases are joined to their texts. -/
theorem joined?_aliases (entries : List (String × String)) :
    Graph.joined? (fragmentsOf (entries.map (Graph.aliasLine 1)))
      = some (String.join (entries.map aliasText)) := by
  induction entries with
  | nil => rfl
  | cons entry entries ih =>
    have hline : Graph.joined? (Graph.aliasLine 1 entry).fragments = some (aliasText entry) := by
      have hindent : Graph.joined? (Line.indentation 1) = some "  " := by decide
      have hpieces : Graph.joined? (Graph.aliasLine 1 entry).pieces
          = some ("type " ++ entry.1 ++ " = " ++ entry.2 ++ ";\n") := by
        simp [Graph.joined?, Graph.aliasLine, String.append_assoc]
      have hlevel : (Graph.aliasLine 1 entry).level = 1 := rfl
      rw [Line.fragments, Graph.joined?_append, hlevel, hindent, hpieces, aliasText]
      show some ("  " ++ ("type " ++ entry.1 ++ " = " ++ entry.2 ++ ";\n")) = _
      simp only [← String.append_assoc]
      rfl
    rw [List.map_cons, fragmentsOf_cons, Graph.joined?_append, hline, ih, List.map_cons,
      String.join_cons]
    rfl

/-- The lines of the definitions are joined to the text of a module around those of the
declarations. -/
theorem joined?_page (dialect : Dialect) {lines : List Line} (h : TextLines lines) :
    Graph.joined? (fragmentsOf (Graph.page dialect 0 lines))
      = some (dialect.moduleText (joinedText lines)) := by
  have hhead : Graph.joined?
        (Line.opener 0 [some dialect.moduleHeader, some Dialect.moduleName]).fragments
      = some (dialect.moduleHeader ++ Dialect.moduleName ++ " \x7b\n") := by
    cases dialect <;> decide
  have hfoot : Graph.joined? (fragmentsOf [Line.closer.deeper 0]) = some "\x7d\n" := by decide
  rw [Graph.page, Nat.zero_add, List.cons_append, fragmentsOf_cons, fragmentsOf_append,
    fragmentsOf_append, Graph.joined?_append, Graph.joined?_append, Graph.joined?_append, hhead,
    joined?_aliases, h.joined?, hfoot]
  simp only [Graph.andThen, Option.bind_eq_bind, Option.bind_some, Option.pure_def,
    Dialect.moduleText, String.append_assoc]

namespace Graph

variable {graph : Graph} {dialect : Dialect}

/-- **The definitions of independent exports** are those of each around one after the other. -/
theorem render_withExports (hs : graph.CompiledSorted) {own : Handle → Forest Handle}
    (hown : ∀ h, DepthFirst (graph.next dialect) [] (graph.resolved h) (own h)) {exports : Members}
    (hindependent : graph.Independent dialect exports) (htexts : graph.PrintsTexts dialect exports) :
    (graph.withExports exports).render dialect
      = (fun bodies => dialect.moduleText (String.join bodies)) <$>
        exports.mapM fun entry => joinedText <$> graph.lines dialect 1 (own entry.2) := by
  obtain ⟨forest, hforest⟩ := (graph.withExports exports).exists_forest dialect
  rw [render_eq (hs.withExports exports) hforest, lines_withExports,
    lines_of_independent hown exports hindependent (fun _ ha => absurd ha List.not_mem_nil) hforest]
  rw [mapM_map_result]
  cases hlines : exports.mapM fun entry => graph.lines dialect 1 (own entry.2) with
  | error cause => rfl
  | ok groups =>
    have hgroup : ∀ lines ∈ groups, TextLines lines := by
      intro lines hmem
      obtain ⟨entry, hentry, hline⟩ := exists_of_mem_forall₂ (forall₂_of_mapM hlines).flip hmem
      refine textLines_lines (fun a ha => ?_) hline
      exact htexts entry hentry a ⟨(hown entry.2).reached ha, isEnumValue_of_lines hline ha⟩
    have htext : TextLines groups.flatten := by
      intro line hline
      obtain ⟨lines, hmem, hline⟩ := List.mem_flatten.mp hline
      exact hgroup lines hmem line hline
    rw [map_ok, ok_bind, joined?_page dialect htext, joinedText_flatten hgroup]
    rfl

/-- **Independent exports render independently.** Where the exports declare different elements and
print texts, each has a body that it gives alone, or a cause for which it fails alone; and in whatever
order they are exported, the body of the definitions is that of each, one after the other, or the
definitions fail for the cause of the first export that fails alone. -/
theorem render_of_independent (hs : graph.CompiledSorted)
    (hindependent : graph.Independent dialect graph.exports)
    (htexts : graph.PrintsTexts dialect graph.exports) :
    ∃ body : Scalar × Handle → Except RenderError String,
      (∀ entry ∈ graph.exports,
        (graph.withExports [entry]).render dialect = dialect.moduleText <$> body entry) ∧
      ∀ exports : Members, exports.Perm graph.exports →
        (graph.withExports exports).render dialect
          = (fun bodies => dialect.moduleText (String.join bodies)) <$> exports.mapM body ∧
        ∀ before entry after cause, exports = before ++ entry :: after →
          (∀ earlier ∈ before, ∃ text,
            (graph.withExports [earlier]).render dialect = .ok text) →
          (graph.withExports [entry]).render dialect = .error cause →
          (graph.withExports exports).render dialect = .error cause := by
  have hforests : ∀ h, ∃ forest, DepthFirst (graph.next dialect) [] (graph.resolved h) forest := by
    intro h
    obtain ⟨forest, hforest⟩ := (graph.withExports [(.null, h)]).exists_forest dialect
    exact ⟨forest, by simpa using hforest⟩
  choose own hown using hforests
  let body (entry : Scalar × Handle) := joinedText <$> graph.lines dialect 1 (own entry.2)
  have halone : ∀ entry ∈ graph.exports,
      (graph.withExports [entry]).render dialect = dialect.moduleText <$> body entry := by
    intro entry hentry
    have htexts : graph.PrintsTexts dialect [entry] := by
      intro other hother
      rw [List.mem_singleton] at hother
      exact hother ▸ htexts entry hentry
    rw [render_withExports hs hown (List.pairwise_singleton _ entry) htexts, List.mapM_cons]
    show _ = dialect.moduleText <$> joinedText <$> graph.lines dialect 1 (own entry.2)
    cases graph.lines dialect 1 (own entry.2) with
    | error cause => rfl
    | ok lines => simp [pure_eq_ok, String.join_cons]
  refine ⟨body, halone, fun exports hperm => ?_⟩
  have hmem : ∀ entry ∈ exports, entry ∈ graph.exports := fun entry hentry =>
    hperm.mem_iff.mp hentry
  have hall : (graph.withExports exports).render dialect
      = (fun bodies => dialect.moduleText (String.join bodies)) <$> exports.mapM body :=
    render_withExports hs hown (hindependent.perm hperm) fun entry hentry =>
      htexts entry (hmem entry hentry)
  refine ⟨hall, fun before entry after cause hsplit hbefore hentry => ?_⟩
  subst hsplit
  -- each export before the failing one has a body, so that the first failure is its own
  have hbodies : ∀ earlier ∈ before, ∃ text, body earlier = .ok text := by
    intro earlier hearlier
    obtain ⟨text, htext⟩ := hbefore earlier hearlier
    rw [halone earlier (hmem earlier (List.mem_append_left _ hearlier)), map_eq_ok_iff] at htext
    obtain ⟨own, hown, -⟩ := htext
    exact ⟨own, hown⟩
  have hcause : body entry = .error cause := by
    rw [halone entry (hmem entry (by simp))] at hentry
    cases hbody : body entry with
    | ok text =>
      rw [hbody] at hentry
      cases hentry
    | error other =>
      rw [hbody] at hentry
      cases hentry
      rfl
  rw [hall, mapM_eq_error hbodies hcause]
  rfl

/-- A namespace that holds itself and a number, and two enums that share a value. -/
def loopAndEnums : Graph where
  elements := #[
    { name := .text "Loop", flags := { compiled := true },
      members := some [(.text "again", 0), (.text "size", 1)], body := .nameSpace },
    { name := .text "size", flags := { compiled := true },
      body := .global (some { kind := .i32 }) none },
    { name := .text "Mode", flags := { compiled := true }, members := some [(.text "Fast", 4)],
      body := .enumeration },
    { name := .text "Speed", flags := { compiled := true }, members := some [(.text "Fast", 4)],
      body := .enumeration },
    { name := .text "Fast", flags := { compiled := true }, body := .enumValue (.int 0) }]
  exports := [(.text "Loop", 0), (.text "Mode", 2), (.text "Speed", 3)]

/-- The namespace declares itself and its number, and each enum itself. -/
theorem declares_loopAndEnums {dialect : Dialect} {h a : Handle} (hexport : h = 0 ∨ h = 2 ∨ h = 3)
    (hdeclares : loopAndEnums.Declares dialect h a) : a = h ∨ h = 0 ∧ a = 1 := by
  have hresolved : loopAndEnums.resolved h = [h] := by
    rcases hexport with rfl | rfl | rfl <;> rfl
  refine hdeclares.1.mem_of_closed (S := fun a => a = h ∨ h = 0 ∧ a = 1) (fun b hb => ?_)
    fun b hb c hc => ?_
  · rw [hresolved] at hb
    exact .inl (List.mem_singleton.mp hb)
  · rcases hb with rfl | ⟨rfl, rfl⟩
    · rcases hexport with rfl | rfl | rfl
      · have hnext : loopAndEnums.next dialect 0 = [0, 1] := by cases dialect <;> rfl
        rw [hnext] at hc
        simpa using hc
      · have hnext : loopAndEnums.next dialect 2 = [] := by cases dialect <;> rfl
        rw [hnext] at hc
        cases hc
      · have hnext : loopAndEnums.next dialect 3 = [] := by cases dialect <;> rfl
        rw [hnext] at hc
        cases hc
    · have hnext : loopAndEnums.next dialect 1 = [] := by cases dialect <;> rfl
      rw [hnext] at hc
      cases hc

/-- All that the exports print are texts. -/
theorem printsTexts_loopAndEnums (dialect : Dialect) :
    loopAndEnums.PrintsTexts dialect loopAndEnums.exports := by
  intro entry hentry a hdeclares opening hopening
  have hexport : entry.2 = 0 ∨ entry.2 = 2 ∨ entry.2 = 3 := by
    simp only [loopAndEnums, List.mem_cons, List.not_mem_nil, or_false] at hentry
    rcases hentry with rfl | rfl | rfl <;> simp
  have helement : a = 0 ∨ a = 1 ∨ a = 2 ∨ a = 3 := by
    rcases declares_loopAndEnums hexport hdeclares with rfl | ⟨-, rfl⟩
    · rcases hexport with h | h | h <;> simp [h]
    · simp
  rcases helement with rfl | rfl | rfl | rfl <;> cases dialect <;> cases hopening <;>
    simp only [TextLines, Texts] <;> decide

/-- The namespace and the enums declare different elements, though the namespace holds itself and the
enums share a value. -/
theorem independent_loopAndEnums (dialect : Dialect) :
    loopAndEnums.Independent dialect loopAndEnums.exports := by
  have hapart {h other : Handle} (hexport : h = 0 ∨ h = 2 ∨ h = 3)
      (hother : other = 2 ∨ other = 3) (hne : h ≠ other) (a : Handle)
      (ha : loopAndEnums.Declares dialect h a) : ¬ loopAndEnums.Declares dialect other a := by
    intro hboth
    have hfirst := declares_loopAndEnums hexport ha
    have hsecond := declares_loopAndEnums (.inr hother) hboth
    grind
  refine .cons ?_ (.cons ?_ (.cons ?_ .nil))
  · simp only [List.mem_cons, List.not_mem_nil, or_false]
    rintro entry (rfl | rfl)
    · exact hapart (.inl rfl) (.inl rfl) (by decide)
    · exact hapart (.inl rfl) (.inr rfl) (by decide)
  · simp only [List.mem_cons, List.not_mem_nil, or_false]
    rintro entry rfl
    exact hapart (.inr (.inl rfl)) (.inr rfl) (by decide)
  · intro entry hentry
    exact absurd hentry List.not_mem_nil

/-- The namespace and the enums are written in any order as each is written alone. -/
theorem render_of_independent_loop :
    loopAndEnums.CompiledSorted ∧ loopAndEnums.Independent .typescript loopAndEnums.exports ∧
      loopAndEnums.PrintsTexts .typescript loopAndEnums.exports ∧
      ∃ body : Scalar × Handle → Except RenderError String,
        (∀ entry ∈ loopAndEnums.exports, (loopAndEnums.withExports [entry]).render .typescript
          = Dialect.typescript.moduleText <$> body entry) ∧
        ∀ exports : Members, exports.Perm loopAndEnums.exports →
          (loopAndEnums.withExports exports).render .typescript
            = (fun bodies => Dialect.typescript.moduleText (String.join bodies))
              <$> exports.mapM body := by
  have hs : loopAndEnums.CompiledSorted := (WellSorted.of_all (by decide)).compiledSorted
  have hindependent := independent_loopAndEnums .typescript
  have htexts := printsTexts_loopAndEnums .typescript
  obtain ⟨body, halone, hall⟩ := render_of_independent hs hindependent htexts
  refine ⟨hs, hindependent, htexts, body, halone, ?_⟩
  intro exports hperm
  exact (hall exports hperm).1

end Graph

end ModuleSurface
