import Mathlib.Data.List.Flatten
import ModuleSurface.Proofs.Offences
import ModuleSurface.Proofs.Unfolded

/-! # What is lost when everything is written again

A walk declares an element where it meets it first, and passes over it wherever it meets it again.
If the graph could be unfolded, the lines of the unfolding would be the same ones, and once more
those of every element that is met again. So the two texts agree exactly when all that is met again
has no lines.

* **`Graph.Silent`** — an element that has no lines.
* **`Graph.DeclaresOnce`** — no element that has lines is met twice.
* **`Graph.lines_sublist`** — the lines of the walk are among those of the unfolding.
* **`Graph.textOf_unfolded_eq_iff`** — when the two have the same definitions. -/

namespace ModuleSurface

variable {α : Type}

/-! ## Meeting twice -/

/-- **What a search meets**: what waits, and what is next to each node that it finds. -/
def Forest.met (next : α → List α) (waiting : List α) (forest : Forest α) : List α :=
  waiting ++ forest.preorder.flatMap next

/-- All that a search finds is met: `b ∈ forest.met next waiting`. -/
theorem DepthFirst.mem_met {next : α → List α} {found waiting : List α} {forest : Forest α}
    (h : DepthFirst next found waiting forest) {b : α} (hb : b ∈ forest.preorder) :
    b ∈ forest.met next waiting := by
  simp only [Forest.met, List.mem_append, List.mem_flatMap]
  induction h with
  | done => exact absurd hb List.not_mem_nil
  | again _ _ ih => exact (ih hb).imp_left (List.mem_cons_of_mem _)
  | fresh _ _ _ ihBelow ihLater =>
    simp only [Forest.preorder_node, List.mem_cons, List.mem_append] at hb ⊢
    rcases hb with rfl | hb | hb
    · exact .inl (.inl rfl)
    · rcases ihBelow hb with hnext | ⟨c, hc, hnext⟩
      · exact .inr ⟨_, .inl rfl, hnext⟩
      · exact .inr ⟨c, .inr (.inl hc), hnext⟩
    · rcases ihLater hb with hwaits | ⟨c, hc, hnext⟩
      · exact .inl (.inr hwaits)
      · exact .inr ⟨c, .inr (.inr hc), hnext⟩

section MeetsOnce

variable [DecidableEq α] {next : α → List α} {loud : α → Prop} {found waiting : List α} {a : α}

/-- **No loud node is met twice**, and none is met that was found before. -/
def MeetsOnce (loud : α → Prop) (found met : List α) : Prop :=
  ∀ b, loud b → met.count b ≤ if b ∈ found then 0 else 1

/-- Where nothing is met nothing is met twice. -/
theorem meetsOnce_nil (loud : α → Prop) (found : List α) : MeetsOnce loud found [] := by
  intro b _
  simp

/-- A node that is met again must not be loud. -/
theorem meetsOnce_again {forest : Forest α} (old : a ∈ found) :
    MeetsOnce loud found (forest.met next (a :: waiting)) ↔
      ¬ loud a ∧ MeetsOnce loud found (forest.met next waiting) := by
  constructor
  · intro h
    refine ⟨fun hloud => ?_, fun b hb => ?_⟩
    · have hcount := h a hloud
      rw [if_pos old, Forest.met, List.cons_append, List.count_cons_self] at hcount
      omega
    · refine le_trans (List.Sublist.count_le b ?_) (h b hb)
      exact List.sublist_cons_self a _
  · rintro ⟨hquiet, h⟩ b hb
    have hne : a ≠ b := fun heq => hquiet (heq ▸ hb)
    rw [Forest.met, List.cons_append, List.count_cons_of_ne hne]
    exact h b hb

/-- A node that is new is met by itself, and what is below it and what waits behind it are met
apart. -/
theorem meetsOnce_fresh {inside rest : Forest α} (new : a ∉ found)
    (below : DepthFirst next (found ++ [a]) (next a) inside) :
    MeetsOnce loud found ((Forest.node a inside rest).met next (a :: waiting)) ↔
      MeetsOnce loud (found ++ [a]) (inside.met next (next a)) ∧
        MeetsOnce loud (found ++ a :: inside.preorder) (rest.met next waiting) := by
  have hcount (b : α) : ((Forest.node a inside rest).met next (a :: waiting)).count b
      = (if a = b then 1 else 0) + (inside.met next (next a)).count b
        + (rest.met next waiting).count b := by
    simp only [Forest.met, Forest.preorder_node, List.cons_append, List.flatMap_cons,
      List.flatMap_append, List.count_append, List.count_cons, beq_iff_eq]
    omega
  -- what is met below is found, and what is found there is met
  have hbelow (b : α) (hb : b ∉ found ++ [a]) (hb' : b ∉ inside.preorder) :
      (inside.met next (next a)).count b = 0 := by
    refine List.count_eq_zero.mpr fun hmet => ?_
    rcases List.mem_append.mp hmet with hmet | hmet
    · exact (below.waiting_found hmet).elim hb hb'
    · obtain ⟨c, hc, hmet⟩ := List.mem_flatMap.mp hmet
      exact (below.next_found hc hmet).elim hb hb'
  have hinside (b : α) (hb : b ∈ inside.preorder) : 0 < (inside.met next (next a)).count b :=
    List.count_pos_iff.mpr (below.mem_met hb)
  simp only [MeetsOnce, hcount, List.mem_append, List.mem_cons]
  constructor
  · intro h
    refine ⟨fun b hb => ?_, fun b hb => ?_⟩
    · have hsum := h b hb
      split_ifs at hsum ⊢ <;> grind
    · have hsum := h b hb
      have hpos := hinside b
      split_ifs at hsum ⊢ <;> grind
  · rintro ⟨h, h'⟩ b hb
    have hfirst := h b hb
    have hsecond := h' b hb
    have hzero := hbelow b
    split_ifs at hfirst hsecond ⊢ <;> grind

end MeetsOnce

namespace Graph

variable {graph : Graph} {dialect : Dialect} {h : Handle} {level : Nat}

/-! ## Elements without lines -/

/-- **An element that has no lines**: in TypeScript, a namespace without members. -/
def Silent (graph : Graph) (dialect : Dialect) (h : Handle) : Prop :=
  dialect = .typescript ∧ (graph.element h).body = .nameSpace ∧ (graph.element h).memberItems = []

namespace Silent

/-- A silent element has no opening lines: `graph.opening dialect h = .ok []`. -/
theorem opening (hs : graph.Silent dialect h) : graph.opening dialect h = .ok [] := by
  obtain ⟨rfl, hbody, hmembers⟩ := hs
  simp [TypeScript.opening, hbody, hmembers, TypeScript.membersHeader]

/-- A silent element has no closing lines: `graph.closing dialect h = []`. -/
theorem closing (hs : graph.Silent dialect h) : graph.closing dialect h = [] := by
  obtain ⟨rfl, hbody, hmembers⟩ := hs
  simp [TypeScript.closing, hbody, hmembers]

/-- Nothing is declared inside a silent element: `graph.next dialect h = []`. -/
theorem next (hs : graph.Silent dialect h) : graph.next dialect h = [] := by
  obtain ⟨rfl, hbody, hmembers⟩ := hs
  simp [Graph.next, expanded, hbody, hmembers]

end Silent

/-- Every element that is not `Silent` has an opening line. -/
theorem opening_ne_nil (hs : ¬ graph.Silent dialect h) {opening : List Line}
    (hopening : graph.opening dialect h = .ok opening) : opening ≠ [] := by
  rintro rfl
  cases dialect with
  | webidl =>
    rw [opening_webidl, WebIdl.opening] at hopening
    cases hbody : (graph.element h).body <;>
      simp [hbody, bind_eq_ok_iff, pure_eq_ok] at hopening
  | typescript =>
    rw [opening_typescript, TypeScript.opening] at hopening
    cases hbody : (graph.element h).body with
    | nameSpace =>
      refine hs ⟨rfl, hbody, ?_⟩
      simpa [hbody, TypeScript.membersHeader] using hopening
    | _ => simp [hbody, bind_eq_ok_iff, pure_eq_ok] at hopening

/-! ## The lines of a walk and those of the unfolding -/

/-- **The lines of a search are among those of the unfolding**, as a `Sublist`, and they are all of
them exactly when no element that has lines is met twice. -/
theorem lines_sublist {found waiting : List Handle} {search unfolding : Forest Handle}
    (hsearch : DepthFirst (graph.next dialect) found waiting search)
    (hunfolded : Unfolded (graph.next dialect) waiting unfolding) {lines all : List Line}
    (hlines : graph.lines dialect level search = .ok lines)
    (hall : graph.lines dialect level unfolding = .ok all) :
    lines.Sublist all ∧ (lines = all ↔ MeetsOnce (fun h => ¬ graph.Silent dialect h) found
      (search.met (graph.next dialect) waiting)) := by
  induction hsearch generalizing level unfolding lines all with
  | done =>
    cases hunfolded
    rw [hlines] at hall
    cases hall
    exact ⟨.refl _, iff_of_true rfl (meetsOnce_nil _ _)⟩
  | @again found waiting a forest old _ ih =>
    cases hunfolded with
    | node below later =>
      obtain ⟨opening, within, after, hopening, hwithin, hafter, rfl⟩ := exists_of_lines_node hall
      obtain ⟨hsublist, heq⟩ := ih later hlines hafter
      refine ⟨hsublist.trans (List.sublist_append_right _ _), ?_⟩
      rw [meetsOnce_again old, not_not, ← heq]
      by_cases hsilent : graph.Silent dialect a
      · -- an element without lines adds none when it is met again
        rw [hsilent.opening] at hopening
        cases hopening
        rw [hsilent.next] at below
        cases below
        cases hwithin
        simp [hsilent, hsilent.closing]
      -- an element with lines makes the unfolding longer when it is met again
      · have hne := opening_ne_nil hsilent hopening
        refine iff_of_false (fun hsame => ?_) fun hboth => hsilent hboth.1
        have hlength := hsublist.length_le
        rw [hsame] at hlength
        simp only [List.length_append, List.length_map] at hlength
        have hpos := List.length_pos_of_ne_nil hne
        omega
  | @fresh found waiting a inside rest new below _ ihBelow ihLater =>
    cases hunfolded with
    | node below' later' =>
      obtain ⟨opening, within, after, hopening, hwithin, hafter, rfl⟩ := exists_of_lines_node hlines
      obtain ⟨opening', within', after', hopening', hwithin', hafter', rfl⟩ :=
        exists_of_lines_node hall
      rw [hopening] at hopening'
      cases hopening'
      obtain ⟨hinside, hinsideEq⟩ := ihBelow below' hwithin hwithin'
      obtain ⟨hrest, hrestEq⟩ := ihLater later' hafter hafter'
      refine ⟨((hinside.append_left _).append_right _).append hrest, ?_⟩
      rw [meetsOnce_fresh new below, ← hinsideEq, ← hrestEq]
      refine ⟨fun hsame => ?_, fun ⟨hw, ha⟩ => by rw [hw, ha]⟩
      -- equal lengths of the whole leave no room for a shorter part
      have hlength := congrArg List.length hsame
      have hlengthInside := hinside.length_le
      have hlengthRest := hrest.length_le
      simp only [List.length_append, List.length_map] at hlength
      exact ⟨hinside.eq_of_length (by omega), hrest.eq_of_length (by omega)⟩

/-- A forest has lines unless something stands against them. -/
theorem exists_lines {forest : Forest Handle} (level : Nat)
    (h : forest.preorder.findSome? (graph.failure? dialect) = none) :
    ∃ lines, graph.lines dialect level forest = .ok lines := by
  cases hlines : graph.lines dialect level forest with
  | ok lines => exact ⟨lines, rfl⟩
  | error cause =>
    rw [lines_eq_error_iff.mp hlines] at h
    cases h

/-- The pieces of a line of one element. -/
def HasPieces (graph : Graph) (dialect : Dialect) (pieces : List Fragment) (h : Handle) : Prop :=
  ∃ opening, graph.opening dialect h = .ok opening ∧
    ∃ line ∈ opening ++ graph.closing dialect h, line.pieces = pieces

/-- The pieces of the lines of a forest are those of its elements. -/
theorem exists_line_iff {forest : Forest Handle} {lines : List Line}
    (hlines : graph.lines dialect level forest = .ok lines) {pieces : List Fragment} :
    (∃ line ∈ lines, line.pieces = pieces) ↔
      ∃ h ∈ forest.preorder, graph.HasPieces dialect pieces h := by
  induction forest generalizing level lines with
  | nil =>
    cases hlines
    simp
  | node h inside rest ihInside ihRest =>
    obtain ⟨opening, within, after, hopening, hwithin, hafter, rfl⟩ := exists_of_lines_node hlines
    have hhead : graph.HasPieces dialect pieces h ↔ (∃ line ∈ opening, line.pieces = pieces) ∨
        ∃ line ∈ graph.closing dialect h, line.pieces = pieces := by
      simp only [HasPieces, hopening, Except.ok.injEq, exists_eq_left', List.mem_append, or_and_right,
        exists_or]
    have hbelow : (∃ a ∈ (Forest.node h inside rest).preorder, graph.HasPieces dialect pieces a) ↔
        graph.HasPieces dialect pieces h ∨ (∃ line ∈ within, line.pieces = pieces) ∨
          ∃ line ∈ after, line.pieces = pieces := by
      rw [ihInside hwithin, ihRest hafter]
      simp only [Forest.preorder_node, List.mem_cons, List.mem_append, or_and_right, exists_or,
        exists_eq_left]
    have hdeeper (lines : List Line) : (∃ line ∈ lines.map (Line.deeper level), line.pieces = pieces)
        ↔ ∃ line ∈ lines, line.pieces = pieces := by
      simp
    rw [hbelow, hhead]
    simp only [List.mem_append, or_and_right, exists_or, hdeeper, or_assoc, or_left_comm]

end Graph

/-! ## Texts -/

namespace Line

/-- **A line that shows**: one of its pieces is a text that is not empty. -/
def Shows (line : Line) : Prop := ∃ text, some text ∈ line.pieces ∧ text ≠ ""

/-- An opening line shows its brace. -/
theorem shows_opener (level : Nat) (header : List Fragment) : (opener level header).Shows :=
  ⟨"\n", by simp [opener], by decide⟩

/-- A closing line shows its brace. -/
theorem shows_closer : closer.Shows := ⟨"\n", by simp [closer], by decide⟩

/-- A line that ends in a text shows. -/
theorem shows_append (level : Nat) (pieces : List Fragment) {text : String} (h : text ≠ "") :
    Shows ⟨level, pieces ++ [some text]⟩ :=
  ⟨text, by simp, h⟩

end Line

namespace Graph

variable {graph : Graph} {dialect : Dialect} {h : Handle} {level : Nat}

/-- The entries of an enum show. -/
theorem shows_values {words : Scalar × Handle → Except RenderError (List Fragment)}
    (hwords : ∀ entry pieces, words entry = .ok pieces → Line.Shows ⟨1, pieces⟩) {members : Members}
    {values : List (List Fragment)} (h : members.mapM words = .ok values) :
    ∀ line ∈ values.map (Line.mk 1), line.Shows := by
  intro line hline
  obtain ⟨pieces, hpieces, rfl⟩ := List.mem_map.mp hline
  obtain ⟨entry, -, hentry⟩ := exists_of_mem_mapM h hpieces
  exact hwords entry pieces hentry

/-- An entry of an enum that comes out by its `valueWords` shows. -/
theorem shows_value (dialect : Dialect) (entry : Scalar × Handle) (pieces : List Fragment)
    (h : graph.valueWords dialect entry = .ok pieces) : Line.Shows ⟨1, pieces⟩ := by
  have hend : ∃ text, some text ∈ valueEnd dialect ∧ text ≠ "" := by
    cases dialect with
    | webidl => exact ⟨"\n", by decide, by decide⟩
    | typescript => exact ⟨",\n", by decide, by decide⟩
  obtain ⟨text, hmem, htext⟩ := hend
  refine ⟨text, ?_, htext⟩
  rw [valueWords] at h
  split at h
  · obtain ⟨payload, -, h⟩ := bind_eq_ok_iff.mp h
    cases h
    simp [hmem]
  · cases h
    simp [hmem]

/-- All opening lines in WebIDL show. -/
theorem WebIdl.shows_opening {element : Element} {opening : List Line}
    (h : WebIdl.opening graph element = .ok opening) : ∀ line ∈ opening, line.Shows := by
  have hheader := Line.shows_opener 0 [some "interface ", element.name.text?]
  rw [WebIdl.opening] at h
  cases hbody : element.body with
  | global type constant =>
    simp only [hbody, WebIdl.globalWords, bind_eq_ok_iff, pure_eq_ok, Except.ok.injEq] at h
    obtain ⟨_, ⟨spelled, -, payload, -, rfl⟩, rfl⟩ := h
    exact List.forall_mem_cons.mpr ⟨Line.shows_append 0 _ (by decide), by simp⟩
  | enumeration =>
    simp only [hbody, bind_eq_ok_iff, pure_eq_ok, Except.ok.injEq] at h
    obtain ⟨values, hvalues, rfl⟩ := h
    exact List.forall_mem_cons.mpr ⟨hheader, shows_values (shows_value .webidl) hvalues⟩
  | function signature =>
    simp only [hbody, WebIdl.functionWords, bind_eq_ok_iff, pure_eq_ok, Except.ok.injEq] at h
    obtain ⟨_, ⟨result, -, parameters, -, rfl⟩, rfl⟩ := h
    refine List.forall_mem_cons.mpr ⟨Line.shows_append 0 _ (by decide), ?_⟩
    split
    · simp
    · simpa using hheader
  | _ =>
    simp only [hbody] at h
    cases h <;> simpa using hheader

/-- The header of a namespace for members shows. -/
theorem TypeScript.shows_membersHeader (element : Element) (members : List Handle) :
    ∀ line ∈ TypeScript.membersHeader element members, line.Shows := by
  rw [TypeScript.membersHeader]
  split
  · simp
  · simpa using Line.shows_opener 0 _

/-- All opening lines in TypeScript show. -/
theorem TypeScript.shows_opening {element : Element} {opening : List Line}
    (h : TypeScript.opening graph element = .ok opening) : ∀ line ∈ opening, line.Shows := by
  have hmembers := TypeScript.shows_membersHeader element
  rw [TypeScript.opening] at h
  cases hbody : element.body with
  | global type constant =>
    simp only [hbody, TypeScript.globalWords, bind_eq_ok_iff, pure_eq_ok, Except.ok.injEq] at h
    obtain ⟨_, ⟨spelled, -, rfl⟩, rfl⟩ := h
    exact List.forall_mem_cons.mpr ⟨⟨";\n", by simp, by decide⟩, hmembers _⟩
  | enumeration =>
    simp only [hbody, bind_eq_ok_iff, pure_eq_ok, Except.ok.injEq] at h
    obtain ⟨values, hvalues, rfl⟩ := h
    rw [List.cons_append, List.forall_mem_cons, List.forall_mem_append, List.forall_mem_cons]
    exact ⟨Line.shows_opener 0 _, shows_values (shows_value .typescript) hvalues, Line.shows_closer,
      hmembers _⟩
  | function signature =>
    simp only [hbody, TypeScript.functionWords, bind_eq_ok_iff, pure_eq_ok, Except.ok.injEq] at h
    obtain ⟨_, ⟨parameters, -, result, -, rfl⟩, rfl⟩ := h
    exact List.forall_mem_cons.mpr ⟨⟨";\n", by simp, by decide⟩, hmembers _⟩
  | classType links | interfaceType links =>
    simp only [hbody] at h
    cases h
    simpa using Line.shows_opener 0 _
  | nameSpace =>
    simp only [hbody] at h
    cases h
    exact hmembers _
  | _ =>
    simp only [hbody] at h
    cases h

/-- **All lines of a forest show**: `Line.Shows` holds of each. -/
theorem shows_lines {forest : Forest Handle} {lines : List Line}
    (hlines : graph.lines dialect level forest = .ok lines) : ∀ line ∈ lines, line.Shows := by
  intro line hline
  obtain ⟨h, -, opening, hopening, other, hother, hpieces⟩ :=
    (exists_line_iff hlines).mp ⟨line, hline, rfl⟩
  obtain ⟨text, htext, hne⟩ : other.Shows := by
    rcases List.mem_append.mp hother with hmem | hmem
    · cases dialect with
      | webidl => exact WebIdl.shows_opening hopening other hmem
      | typescript => exact TypeScript.shows_opening hopening other hmem
    · rcases graph.closing_eq dialect h with hclosing | hclosing
      · simp [hclosing] at hmem
      · rw [hclosing, List.mem_singleton] at hmem
        rw [hmem]
        exact Line.shows_closer
  exact ⟨text, hpieces ▸ htext, hne⟩

/-- All lines around them show as well. -/
theorem shows_page {lines : List Line} (hlines : ∀ line ∈ lines, line.Shows) :
    ∀ line ∈ page dialect level lines, line.Shows := by
  have haliases : ∀ line ∈ dialect.aliases.map (aliasLine (level + 1)), line.Shows := by
    intro line hline
    obtain ⟨entry, -, rfl⟩ := List.mem_map.mp hline
    exact ⟨"\n", by simp [aliasLine], by decide⟩
  rw [page, List.cons_append, List.forall_mem_cons, List.forall_mem_append, List.forall_mem_append]
  exact ⟨Line.shows_opener _ _, ⟨haliases, hlines⟩, by simpa [Line.Shows] using Line.shows_closer⟩

/-! ### Joining -/

/-- The characters of a joined text are those of its fragments. -/
theorem toList_of_joined? {fragments : List Fragment} {text : String}
    (h : joined? fragments = some text) :
    text.toList = fragments.flatMap fun fragment => (fragment.getD "").toList := by
  obtain ⟨texts, htexts, rfl⟩ := Option.map_eq_some_iff.mp h
  rw [String.toList_join]
  clear h
  induction fragments generalizing texts with
  | nil =>
    cases htexts
    rfl
  | cons fragment fragments ih =>
    cases fragment with
    | none => simp [List.mapM_cons] at htexts
    | some first =>
      rw [List.mapM_cons] at htexts
      obtain ⟨_, hfirst, htexts⟩ := Option.bind_eq_some_iff.mp htexts
      cases hfirst
      obtain ⟨others, hothers, htexts⟩ := Option.bind_eq_some_iff.mp htexts
      cases htexts
      simp [ih others hothers]

/-- Fragments have a joined text by `joined?` unless one of them is no text. -/
theorem joined?_eq_none_iff {fragments : List Fragment} :
    joined? fragments = none ↔ none ∈ fragments := by
  rw [← Option.not_isSome_iff_eq_none, isSome_joined?, Texts]
  constructor
  · intro hnot
    by_contra hmem
    refine hnot fun piece hpiece => Option.isSome_iff_ne_none.mpr fun hnone => ?_
    exact hmem (hnone ▸ hpiece)
  · intro hmem htexts
    cases htexts none hmem

/-- **Fewer lines make a shorter text**, if all of them show. -/
theorem eq_of_joined {lines all : List Line} (hsublist : lines.Sublist all)
    (hshows : ∀ line ∈ all, line.Shows) {text : String} (h : joined? (fragmentsOf lines) = some text)
    (h' : joined? (fragmentsOf all) = some text) : lines = all := by
  have hchars := (toList_of_joined? h).symm.trans (toList_of_joined? h')
  clear h h'
  simp only [fragmentsOf, List.flatMap_assoc] at hchars
  induction hsublist with
  | slnil => rfl
  | @cons lines all line hrest ih =>
    -- the characters of the line that is left out are missing
    obtain ⟨piece, hpiece, hne⟩ := hshows line List.mem_cons_self
    have hshort := (hrest.flatMap fun line => line.fragments.flatMap fun fragment =>
      (fragment.getD "").toList).length_le
    have hpos : 0 < (line.fragments.flatMap fun fragment => (fragment.getD "").toList).length := by
      refine List.length_pos_of_ne_nil fun hnil => hne ?_
      have hempty := List.flatMap_eq_nil_iff.mp hnil (some piece) (List.mem_append_right _ hpiece)
      simpa using hempty
    rw [hchars, List.flatMap_cons, List.length_append] at hshort
    omega
  | cons_cons line hrest ih =>
    rw [List.flatMap_cons, List.flatMap_cons] at hchars
    rw [ih (fun other hother => hshows other (List.mem_cons_of_mem line hother))
      (List.append_cancel_left hchars)]

/-! ## The definitions of the unfolding -/

/-- The definitions that lines make, or what stands against them. -/
def textOf (dialect : Dialect) (lines : Except RenderError (List Line)) :
    Except RenderError String := do
  match joined? (fragmentsOf (page dialect 0 (← lines))) with
  | some text => .ok text
  | none => .error .notText

/-- Lines that fail have no text, but the cause: `textOf dialect (.error cause) = .error cause`. -/
@[simp] theorem textOf_error (dialect : Dialect) (cause : RenderError) :
    textOf dialect (.error cause) = .error cause := rfl

/-- Lines have the text of their page, if all pieces are texts. -/
theorem textOf_ok (dialect : Dialect) (lines : List Line) :
    textOf dialect (.ok lines) = match joined? (fragmentsOf (page dialect 0 lines)) with
      | some text => .ok text
      | none => .error .notText := rfl

/-- **No element that has lines is met twice** by a walk: not at the top level, and not inside the
elements that it declares. -/
def DeclaresOnce (graph : Graph) (dialect : Dialect) (forest : Forest Handle) : Prop :=
  MeetsOnce (fun h => ¬ graph.Silent dialect h) [] (forest.met (graph.next dialect) graph.roots)

/-- A walk and the unfolding find a piece that is no text in the same graphs. -/
theorem none_mem_iff {search unfolding : Forest Handle}
    (hsame : ∀ h, h ∈ unfolding.preorder ↔ h ∈ search.preorder) {lines all : List Line}
    (hlines : graph.lines dialect level search = .ok lines)
    (hall : graph.lines dialect level unfolding = .ok all) :
    none ∈ fragmentsOf (page dialect 0 all) ↔ none ∈ fragmentsOf (page dialect 0 lines) := by
  have hpieces (pieces : List Fragment) : (∃ line ∈ all, line.pieces = pieces) ↔
      ∃ line ∈ lines, line.pieces = pieces := by
    rw [exists_line_iff hlines, exists_line_iff hall]
    simp only [hsame]
  have hfragments (line : Line) : none ∈ line.fragments ↔ none ∈ line.pieces := by
    rw [Line.fragments, List.mem_append, Line.indentation]
    split <;> simp
  have hnone (others : List Line) : none ∈ fragmentsOf others ↔
      ∃ pieces, none ∈ pieces ∧ ∃ line ∈ others, line.pieces = pieces := by
    simp only [fragmentsOf, List.mem_flatMap, hfragments]
    constructor
    · rintro ⟨line, hline, hmem⟩
      exact ⟨line.pieces, hmem, line, hline, rfl⟩
    · rintro ⟨pieces, hmem, line, hline, rfl⟩
      exact ⟨line, hline, hmem⟩
  simp only [page, fragmentsOf_append, fragmentsOf_cons, List.cons_append, List.mem_append]
  rw [hnone all, hnone lines]
  simp only [hpieces]

/-- **Some of the lines have the text of all of them**, by `textOf`, exactly when they have none, or
they are all. -/
theorem textOf_eq_iff_of_sublist {lines all : List Line} (hsublist : lines.Sublist all)
    (hshows : ∀ line ∈ all, line.Shows)
    (hnone : none ∈ fragmentsOf (page dialect 0 all) ↔
      none ∈ fragmentsOf (page dialect 0 lines)) :
    textOf dialect (.ok all) = textOf dialect (.ok lines) ↔
      (∀ text, textOf dialect (.ok lines) ≠ .ok text) ∨ lines = all := by
  rw [textOf_ok, textOf_ok]
  cases hjoined : joined? (fragmentsOf (page dialect 0 lines)) with
  | none =>
    rw [joined?_eq_none_iff.mpr (hnone.mpr (joined?_eq_none_iff.mp hjoined))]
    simp
  | some text =>
    have hall : joined? (fragmentsOf (page dialect 0 all)) ≠ none := fun hmissing => by
      rw [joined?_eq_none_iff.mpr (hnone.mp (joined?_eq_none_iff.mp hmissing))] at hjoined
      cases hjoined
    obtain ⟨text', hjoined'⟩ := Option.ne_none_iff_exists'.mp hall
    rw [hjoined']
    constructor
    · intro htext
      cases htext
      -- a line that is left out takes characters with it
      have hpage : (page dialect 0 lines).Sublist (page dialect 0 all) :=
        ((hsublist.append_left _).cons_cons _).append_right _
      have hsame := eq_of_joined hpage (shows_page hshows) hjoined hjoined'
      simp only [page, List.cons_append, List.cons.injEq, true_and, List.append_assoc] at hsame
      exact .inr (List.append_cancel_right (List.append_cancel_left hsame))
    · rintro (hnot | rfl)
      · exact absurd rfl (hnot text)
      · rw [hjoined] at hjoined'
        cases hjoined'
        rfl

/-- **The unfolding has the definitions of the walk** exactly when there are none, or `DeclaresOnce`
holds: no element that has lines is met twice. -/
theorem textOf_unfolded_eq_iff (hs : graph.WellSorted) {search unfolding : Forest Handle}
    (hsearch : DepthFirst (graph.next dialect) [] graph.roots search)
    (hunfolded : Unfolded (graph.next dialect) graph.roots unfolding) :
    textOf dialect (graph.lines dialect 1 unfolding) = graph.render dialect ↔
      (∀ text, graph.render dialect ≠ .ok text) ∨ graph.DeclaresOnce dialect search := by
  have hrender : graph.render dialect = textOf dialect (graph.lines dialect 1 search) :=
    render_eq hs hsearch
  -- the first element that something stands against is the same in both
  have hfailure : search.preorder.findSome? (graph.failure? dialect)
      = unfolding.preorder.findSome? (graph.failure? dialect) := by
    rw [hsearch.preorder_eq_firsts hunfolded (.nil _ _)]
    exact findSome?_firsts nofun _
  rw [hrender]
  cases hcause : search.preorder.findSome? (graph.failure? dialect) with
  | some cause =>
    rw [lines_eq_error_iff.mpr hcause, lines_eq_error_iff.mpr (hfailure ▸ hcause)]
    simp
  | none =>
    obtain ⟨lines, hlines⟩ := exists_lines 1 hcause
    obtain ⟨all, hall⟩ := exists_lines 1 (hfailure ▸ hcause)
    obtain ⟨hsublist, heq⟩ := lines_sublist hsearch hunfolded hlines hall
    have hnone := none_mem_iff (fun h => by
      rw [hunfolded.mem_preorder_iff, hsearch.mem_preorder_iff]) hlines hall
    rw [hlines, hall, DeclaresOnce, ← heq]
    exact textOf_eq_iff_of_sublist hsublist (shows_lines hall) hnone

end Graph

end ModuleSurface
