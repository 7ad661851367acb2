import ModuleSurface.Proofs.Blocks

/-! # How definitions are indented

A reader of definitions can follow their blocks without knowing what is declared: a line that ends
in an opening brace opens a block, a line that is a closing brace closes one, and the number of
blocks that are open says how far a line is indented. Everything stands in one block, that of the
module.

* **`opensBlock`**, **`closesBlock`**, **`openBlocks`** — how the blocks are counted, line by line.
* **`WellNested`** — the lines are indented by the count, and the count comes back to zero at the
  end and not before.
* **`Graph.wellNested_of_render`** — the definitions of a graph that was read are well nested. -/

namespace ModuleSurface

/-! ## Counting blocks -/

/-- Whether a line opens a block: it ends in a space and an opening brace. -/
def opensBlock (line : List Char) : Bool := [' ', '\x7b'].isSuffixOf line

/-- Whether a line closes a block: it is a closing brace behind spaces. -/
def closesBlock (line : List Char) : Bool := line.dropWhile (· == ' ') == ['\x7d']

/-- How many blocks are open behind a line, given how many are open in front of it. -/
def countLine (count : Nat) (line : List Char) : Nat :=
  if opensBlock line then count + 1 else if closesBlock line then count - 1 else count

/-- **How many blocks are open** behind some lines. -/
def openBlocks (lines : List (List Char)) : Nat := lines.foldl countLine 0

/-- **The depth of a line** behind other ones: how many blocks are open there, not counting the block
that the line closes. -/
def depthBehind (before : List (List Char)) (line : List Char) : Nat :=
  if closesBlock line then openBlocks before - 1 else openBlocks before

/-- **Lines that are well nested.** -/
structure WellNested (lines : List (List Char)) : Prop where
  /-- A line begins with two spaces for each block that is open, and goes on with no space. -/
  indented {before after : List (List Char)} {line : List Char} :
    lines = before ++ line :: after → ∃ c rest, c ≠ ' ' ∧
      line = List.replicate (2 * depthBehind before line) ' ' ++ c :: rest
  /-- A line opens a block, or closes one, or does neither and ends in a semicolon or a comma. -/
  ends : ∀ line ∈ lines, (opensBlock line = true ∧ closesBlock line = false) ∨
    (opensBlock line = false ∧ closesBlock line = true) ∨
    (opensBlock line = false ∧ closesBlock line = false ∧
      (line.getLast? = some ';' ∨ line.getLast? = some ','))
  /-- Behind every line but the last one a block is open. -/
  inside {before after : List (List Char)} :
    lines = before ++ after → before ≠ [] → after ≠ [] → 1 ≤ openBlocks before
  /-- Behind the last line none is. -/
  closed : openBlocks lines = 0
  /-- Only the first and the last line are not indented. -/
  outer {before after : List (List Char)} {line : List Char} :
    lines = before ++ line :: after → (depthBehind before line = 0 ↔ before = [] ∨ after = [])

/-! ## Scanning lines -/

/-- The characters of a line with its indentation and without its line break. -/
def Line.shown (line : Line) : List Char :=
  List.replicate (2 * line.level) ' ' ++ (charsOf line.pieces).dropLast

/-- **A scan of lines** from one count of open blocks to another one, which never falls below a
floor. A line that opens a block stands at the count in front of it, one that closes a block at the
count behind it. -/
inductive Scans (floor : Nat) : Nat → List Line → Nat → Prop
  | nil {count : Nat} (above : floor ≤ count) : Scans floor count [] count
  | stands {count finish : Nat} {line : Line} {rest : List Line} (at_count : line.level = count)
      (reads : line.Reads .stands) (above : floor ≤ count) (later : Scans floor count rest finish) :
      Scans floor count (line :: rest) finish
  | opens {count finish : Nat} {line : Line} {rest : List Line} (at_count : line.level = count)
      (reads : line.Reads .opens) (above : floor ≤ count)
      (later : Scans floor (count + 1) rest finish) : Scans floor count (line :: rest) finish
  | closes {count finish : Nat} {line : Line} {rest : List Line} (at_count : line.level = count)
      (reads : line.Reads .closes) (above : floor ≤ count)
      (later : Scans floor count rest finish) : Scans floor (count + 1) (line :: rest) finish

namespace Scans

variable {floor start middle finish : Nat} {lines others : List Line}

/-- The count is never below the floor: `floor ≤ start`. -/
theorem le_start (h : Scans floor start lines finish) : floor ≤ start := by
  cases h with
  | nil above => exact above
  | stands _ _ above _ => exact above
  | opens _ _ above _ => exact above
  | closes _ _ above _ => omega

/-- A scan goes on where another one ends. -/
theorem append (h : Scans floor start lines middle) (hothers : Scans floor middle others finish) :
    Scans floor start (lines ++ others) finish := by
  induction h with
  | nil _ => exact hothers
  | stands hat hreads habove _ ih => exact .stands hat hreads habove (ih hothers)
  | opens hat hreads habove _ ih => exact .opens hat hreads habove (ih hothers)
  | closes hat hreads habove _ ih => exact .closes hat hreads habove (ih hothers)

/-- A scan may be taken apart anywhere. -/
theorem split (h : Scans floor start (lines ++ others) finish) :
    ∃ middle, Scans floor start lines middle ∧ Scans floor middle others finish := by
  induction lines generalizing start with
  | nil => exact ⟨start, .nil h.le_start, h⟩
  | cons line lines ih =>
    cases h with
    | stands hat hreads habove hlater =>
      obtain ⟨middle, hfirst, hsecond⟩ := ih hlater
      exact ⟨middle, .stands hat hreads habove hfirst, hsecond⟩
    | opens hat hreads habove hlater =>
      obtain ⟨middle, hfirst, hsecond⟩ := ih hlater
      exact ⟨middle, .opens hat hreads habove hfirst, hsecond⟩
    | closes hat hreads habove hlater =>
      obtain ⟨middle, hfirst, hsecond⟩ := ih hlater
      exact ⟨middle, .closes hat hreads habove hfirst, hsecond⟩

end Scans

/-- **Nested lines are scanned** from their level back to it, and never fall below it:
`Scans floor level lines level`. -/
theorem Nested.scans {level : Nat} {lines : List Line} (h : Nested level lines) {floor : Nat}
    (hfloor : floor ≤ level) : Scans floor level lines level := by
  induction h with
  | nil => exact .nil hfloor
  | line hlevel hreads _ ih => exact .stands hlevel hreads hfloor (ih hfloor)
  | block hfirst hopens _ hlast hcloses _ ihBelow ihLater =>
    have hbelow := ihBelow (Nat.le_succ_of_le hfloor)
    exact .opens hfirst hopens hfloor
      (hbelow.append (.closes hlast hcloses hfloor (ihLater hfloor)))

/-! ## Sorts of lines in a text -/

/-- What a line reads can stand on it. -/
theorem ReadsLine.onLine {sort : LineSort} {chars : List Char} (h : ReadsLine sort chars) :
    OnLine chars := by
  cases h with
  | opens h => exact h.append (by decide)
  | closes => decide
  | stands h _ => exact h

/-- A line that does not end in an opening brace opens no block, so `opensBlock` denies it. -/
theorem opensBlock_eq_false {line : List Char} (h : line.getLast? ≠ some '\x7b') :
    opensBlock line = false := by
  rw [opensBlock, Bool.eq_false_iff, Ne, List.isSuffixOf_iff_suffix]
  rintro ⟨front, rfl⟩
  exact h (by simp)

/-- Spaces in front of a line do not matter for whether it closes a block. -/
theorem closesBlock_append (count : Nat) {chars : List Char} (h : OnLine chars) :
    closesBlock (List.replicate count ' ' ++ chars) = (chars == ['\x7d']) := by
  have hdrop : (List.replicate count ' ' ++ chars).dropWhile (· == ' ') = chars := by
    induction count with
    | zero =>
      obtain ⟨hne, hhead, -⟩ := h
      obtain ⟨c, rest, rfl⟩ := List.exists_cons_of_ne_nil hne
      have hc : c ≠ ' ' := fun heq => hhead (by rw [heq]; rfl)
      simp [hc]
    | succ count ih => simpa [List.replicate_succ, List.dropWhile_cons] using ih
  rw [closesBlock, hdrop]

namespace LineSort

/-- **The sort of a line shows** in how it ends. -/
def Shows (sort : LineSort) (line : List Char) : Prop :=
  match sort with
  | .opens => opensBlock line = true ∧ closesBlock line = false
  | .closes => opensBlock line = false ∧ closesBlock line = true
  | .stands => opensBlock line = false ∧ closesBlock line = false ∧
      (line.getLast? = some ';' ∨ line.getLast? = some ',')

/-- How many blocks are open behind a line of a sort. -/
theorem Shows.countLine {sort : LineSort} {line : List Char} (h : sort.Shows line) (count : Nat) :
    countLine count line = match sort with
      | .opens => count + 1
      | .closes => count - 1
      | .stands => count := by
  cases sort with
  | opens => simp [ModuleSurface.countLine, h.1]
  | closes => simp [ModuleSurface.countLine, h.1, h.2]
  | stands => simp [ModuleSurface.countLine, h.1, h.2.1]

end LineSort

/-- What is read on a line shows its sort, whatever the indentation. -/
theorem ReadsLine.shows {sort : LineSort} {chars : List Char} (h : ReadsLine sort chars)
    (count : Nat) : sort.Shows (List.replicate count ' ' ++ chars) := by
  have hcloses := closesBlock_append count h.onLine
  cases h with
  | @opens header honLine =>
    refine ⟨?_, ?_⟩
    · rw [opensBlock, List.isSuffixOf_iff_suffix, ← List.append_assoc]
      exact List.suffix_append _ _
    · rw [hcloses, beq_eq_false_iff_ne]
      intro heq
      have hlength := congrArg List.length heq
      simp at hlength
  | closes => exact ⟨opensBlock_eq_false (by simp), by rw [hcloses]; rfl⟩
  | @stands body last _ hlast =>
    have hend : (List.replicate count ' ' ++ (body ++ [last])).getLast? = some last := by simp
    refine ⟨opensBlock_eq_false ?_, ?_, ?_⟩
    · rw [hend]
      rcases hlast with rfl | rfl <;> decide
    · rw [hcloses, beq_eq_false_iff_ne]
      intro heq
      have hlast' := congrArg List.getLast? heq
      rw [List.getLast?_concat] at hlast'
      rcases hlast with rfl | rfl <;> cases hlast'
    · rw [hend]
      exact hlast.imp (congrArg some) (congrArg some)

namespace Line

variable {sort : LineSort} {line : Line}

/-- The indentation of a line is two spaces for each level, `2 * level` of them. -/
theorem charsOf_indentation (level : Nat) :
    charsOf (indentation level) = List.replicate (2 * level) ' ' := by
  have hrepeated (n : Nat) : (IndentedText.repeated "  " n).toList = List.replicate (2 * n) ' ' := by
    rw [IndentedText.repeated, String.toList_join, Int.toNat_natCast]
    induction n with
    | zero => rfl
    | succ n ih =>
      rw [List.replicate_succ, List.flatMap_cons, ih, Nat.mul_succ, Nat.add_comm,
        List.replicate_add]
      rfl
  unfold indentation
  split
  · rename_i hlevel
    rw [hlevel]
    rfl
  · simp [hrepeated]

/-- **What is shown of a line**: its indentation and what it reads. -/
theorem Reads.shown_eq (h : line.Reads sort) : ∃ chars, ReadsLine sort chars ∧
    line.shown = List.replicate (2 * line.level) ' ' ++ chars := by
  obtain ⟨chars, hreads, hpieces⟩ := h
  exact ⟨chars, hreads, by rw [shown, hpieces, List.dropLast_concat]⟩

/-- The fragments of a line are what is shown of it and the line break:
`charsOf line.fragments = line.shown ++ ['\n']`. -/
theorem Reads.charsOf_fragments (h : line.Reads sort) :
    charsOf line.fragments = line.shown ++ ['\n'] := by
  obtain ⟨chars, -, hpieces⟩ := h
  rw [fragments, charsOf_append, charsOf_indentation, shown, hpieces, List.dropLast_concat,
    List.append_assoc]

/-- What is shown of a line is something, and does not end the line. -/
theorem Reads.shown_ne_nil (h : line.Reads sort) : line.shown ≠ [] ∧ '\n' ∉ line.shown := by
  obtain ⟨chars, hreads, hshown⟩ := h.shown_eq
  obtain ⟨hne, -, hunbroken⟩ := hreads.onLine
  rw [hshown]
  refine ⟨List.append_ne_nil_of_right_ne_nil _ hne, ?_⟩
  rw [List.mem_append]
  rintro (hspace | hmem)
  · exact absurd (List.eq_of_mem_replicate hspace) (by decide)
  · exact hunbroken hmem

/-- What is shown of a line shows its sort. -/
theorem Reads.shows (h : line.Reads sort) : sort.Shows line.shown := by
  obtain ⟨chars, hreads, hshown⟩ := h.shown_eq
  rw [hshown]
  exact hreads.shows _

end Line

namespace Scans

variable {floor start finish : Nat} {lines : List Line}

/-- A scan counts the open blocks, one line after the other by `countLine`. -/
theorem foldl_countLine (h : Scans floor start lines finish) :
    (lines.map Line.shown).foldl countLine start = finish := by
  induction h with
  | nil _ => rfl
  | stands _ hreads _ _ ih => rw [List.map_cons, List.foldl_cons, hreads.shows.countLine]; exact ih
  | opens _ hreads _ _ ih => rw [List.map_cons, List.foldl_cons, hreads.shows.countLine]; exact ih
  | closes _ hreads _ _ ih => rw [List.map_cons, List.foldl_cons, hreads.shows.countLine]; exact ih

/-- The first line of a scan stands at its depth, which is not below the floor. -/
theorem first_line {line : Line} {rest : List Line} (h : Scans floor start (line :: rest) finish) :
    (∃ sort, line.Reads sort) ∧ floor ≤ line.level ∧
      (if closesBlock line.shown then start - 1 else start) = line.level := by
  cases h with
  | stands hat hreads habove _ =>
    have hshows := hreads.shows
    exact ⟨⟨_, hreads⟩, hat ▸ habove, by rw [hshows.2.1, hat]; rfl⟩
  | opens hat hreads habove _ =>
    have hshows := hreads.shows
    exact ⟨⟨_, hreads⟩, hat ▸ habove, by rw [hshows.2, hat]; rfl⟩
  | closes hat hreads habove _ =>
    have hshows := hreads.shows
    exact ⟨⟨_, hreads⟩, hat ▸ habove, by rw [hshows.2, hat]; rfl⟩

end Scans

/-- The characters of lines of some sort: what is shown of each, and a line break. -/
theorem charsOf_fragmentsOf {lines : List Line} (h : ∀ line ∈ lines, ∃ sort, line.Reads sort) :
    charsOf (fragmentsOf lines) = (lines.map Line.shown).flatMap (· ++ ['\n']) := by
  induction lines with
  | nil => rfl
  | cons line lines ih =>
    rw [List.forall_mem_cons] at h
    obtain ⟨⟨sort, hreads⟩, hlines⟩ := h
    rw [fragmentsOf_cons, charsOf_append, hreads.charsOf_fragments, ih hlines, List.map_cons,
      List.flatMap_cons]

/-! ## Lines in one block -/

/-- **Lines in one block** at level zero, around others that are nested. -/
structure OneBlock (first : Line) (inside : List Line) (last : Line) : Prop where
  first_level : first.level = 0
  opens : first.Reads .opens
  nested : Nested 1 inside
  last_level : last.level = 0
  closes : last.Reads .closes

namespace OneBlock

variable {first last line : Line} {inside before after : List Line}

/-- Behind the first line, and some of those inside, as many blocks are open as a scan counts. -/
theorem openBlocks_eq (h : OneBlock first inside last) {others : List Line} {count : Nat}
    (hscan : Scans 1 1 others count) :
    openBlocks ((first :: others).map Line.shown) = count := by
  rw [openBlocks, List.map_cons, List.foldl_cons, h.opens.shows.countLine]
  exact hscan.foldl_countLine

/-- **The place of a line**: it is of some sort and stands at its depth, which is zero for the first
and the last line only. In front of it a block is open, unless it is the first line. -/
theorem place (h : OneBlock first inside last)
    (hsplit : first :: (inside ++ [last]) = before ++ line :: after) :
    (∃ sort, line.Reads sort) ∧
      depthBehind (before.map Line.shown) line.shown = line.level ∧
      (line.level = 0 ↔ before = [] ∨ after = []) ∧
      (before ≠ [] → 1 ≤ openBlocks (before.map Line.shown)) := by
  have hscan := h.nested.scans le_rfl
  cases before with
  | nil =>
    cases hsplit
    refine ⟨⟨_, h.opens⟩, ?_, by simp [h.first_level], fun hne => absurd rfl hne⟩
    rw [depthBehind, h.opens.shows.2, h.first_level]
    rfl
  | cons other before =>
    obtain rfl : first = other := (List.cons.inj hsplit).1
    have hrest : inside ++ [last] = before ++ line :: after := (List.cons.inj hsplit).2
    rcases List.eq_nil_or_concat after with rfl | ⟨front, final, rfl⟩
    · -- the last line closes the block of the first one
      obtain ⟨rfl, hlast⟩ := List.append_inj' hrest rfl
      cases hlast
      have hcount := h.openBlocks_eq hscan
      refine ⟨⟨_, h.closes⟩, ?_, by simp [h.last_level], fun _ => hcount.ge⟩
      rw [depthBehind, h.closes.shows.2, hcount, h.last_level]
      rfl
    · -- any other line is inside, where the scan does not fall below one
      have hinside : inside = before ++ line :: front := by
        rw [List.concat_eq_append, ← List.cons_append, ← List.append_assoc] at hrest
        exact (List.append_inj' hrest rfl).1
      rw [hinside] at hscan
      obtain ⟨count, hbefore, hafter⟩ := hscan.split
      obtain ⟨hreads, habove, hdepth⟩ := hafter.first_line
      have hcount := h.openBlocks_eq hbefore
      refine ⟨hreads, ?_, ?_, fun _ => ?_⟩
      · rw [depthBehind, hcount]
        exact hdepth
      · refine iff_of_false (by omega) ?_
        simp
      · rw [hcount]
        exact hafter.le_start

/-- Every line is of some sort. -/
theorem exists_sort (h : OneBlock first inside last) :
    ∀ line ∈ first :: (inside ++ [last]), ∃ sort, line.Reads sort := by
  intro line hline
  obtain ⟨before, after, hsplit⟩ := List.append_of_mem hline
  exact (h.place hsplit).1

/-- **Lines in one block are well nested**: `WellNested` holds of what is shown of them. -/
theorem wellNested (h : OneBlock first inside last) :
    WellNested ((first :: (inside ++ [last])).map Line.shown) := by
  have hplace {front back : List (List Char)} {shown : List Char}
      (hsplit : (first :: (inside ++ [last])).map Line.shown = front ++ shown :: back) :
      ∃ before line after, first :: (inside ++ [last]) = before ++ line :: after ∧
        before.map Line.shown = front ∧ line.shown = shown ∧ after.map Line.shown = back := by
    obtain ⟨before, rest, hlines, hbefore, hrest⟩ := List.map_eq_append_iff.mp hsplit
    obtain ⟨line, after, rfl, hline, hafter⟩ := List.map_eq_cons_iff.mp hrest
    exact ⟨before, line, after, hlines, hbefore, hline, hafter⟩
  constructor
  · intro front back shown hsplit
    obtain ⟨before, line, after, hlines, rfl, rfl, rfl⟩ := hplace hsplit
    obtain ⟨⟨sort, hreads⟩, hdepth, -, -⟩ := h.place hlines
    obtain ⟨chars, hchars, hshown⟩ := hreads.shown_eq
    obtain ⟨hne, hhead, -⟩ := hchars.onLine
    obtain ⟨c, rest, rfl⟩ := List.exists_cons_of_ne_nil hne
    exact ⟨c, rest, fun heq => hhead (by rw [heq]; rfl), by rw [hdepth, hshown]⟩
  · intro shown hshown
    obtain ⟨front, back, hsplit⟩ := List.append_of_mem hshown
    obtain ⟨before, line, after, hlines, -, rfl, -⟩ := hplace hsplit
    obtain ⟨⟨sort, hreads⟩, -⟩ := h.place hlines
    have hshows := hreads.shows
    cases sort with
    | opens => exact .inl hshows
    | closes => exact .inr (.inl hshows)
    | stands => exact .inr (.inr hshows)
  · intro front back hsplit hfront hback
    obtain ⟨shown, back, rfl⟩ := List.exists_cons_of_ne_nil hback
    obtain ⟨before, line, after, hlines, rfl, -, -⟩ := hplace hsplit
    exact (h.place hlines).2.2.2 fun hnil => hfront (by rw [hnil]; rfl)
  · rw [← List.cons_append, List.map_append, openBlocks, List.foldl_append]
    have hcount := h.openBlocks_eq (h.nested.scans le_rfl)
    rw [openBlocks] at hcount
    rw [hcount, List.map_singleton, List.foldl_cons, h.closes.shows.countLine]
    rfl
  · intro front back shown hsplit
    obtain ⟨before, line, after, hlines, rfl, rfl, rfl⟩ := hplace hsplit
    obtain ⟨-, hdepth, houter, -⟩ := h.place hlines
    rw [hdepth, houter, List.map_eq_nil_iff, List.map_eq_nil_iff]

end OneBlock

namespace Graph

variable {graph : Graph} {dialect : Dialect} {document : Document}

/-- **The definitions are lines in one block**, if the words of what is declared can stand on a
line. -/
theorem oneBlock_page {forest : Forest Handle}
    (hforest : DepthFirst (graph.next dialect) [] graph.roots forest)
    (hwords : ∀ a ∈ forest.preorder, ∀ word ∈ graph.words dialect a, word.Inline) {lines : List Line}
    (hlines : graph.lines dialect 1 forest = .ok lines) :
    OneBlock (.opener 0 [some dialect.moduleHeader, some Dialect.moduleName])
      (dialect.aliases.map (aliasLine 1) ++ lines) (Line.closer.deeper 0) where
  first_level := rfl
  opens := Line.reads_opener 0 (by cases dialect <;> decide)
  nested := (nested_aliases dialect).append (nested_lines hforest hwords hlines)
  last_level := rfl
  closes := Line.reads_closer 0

/-- The line that opens the module. -/
def headerLine (dialect : Dialect) : List Char :=
  (dialect.moduleHeader ++ Dialect.moduleName ++ " \x7b").toList

/-- **The definitions of a graph that was read are well nested**, if all words that are printed can
stand on a line: they are lines, the first one opens the module, and blocks and indentation agree. -/
theorem wellNested_of_render (hread : ofDocument document = .ok graph)
    (hwords : ∀ a, Reached (graph.next dialect) graph.roots a →
      ∀ word ∈ graph.words dialect a, word.Inline) {text : String}
    (hrender : graph.render dialect = .ok text) :
    ∃ lines : List (List Char), text.toList = lines.flatMap (· ++ ['\n']) ∧
      (∀ line ∈ lines, line ≠ [] ∧ '\n' ∉ line) ∧ lines.head? = some (headerLine dialect) ∧
      WellNested lines := by
  obtain ⟨hsound, -⟩ := sound_of_ofDocument hread
  obtain ⟨forest, hforest⟩ := graph.exists_forest dialect
  rw [render_eq hsound.wellSorted.compiledSorted hforest] at hrender
  obtain ⟨lines, hlines, hjoined⟩ := bind_eq_ok_iff.mp hrender
  have hblock := oneBlock_page hforest (fun a ha => hwords a (hforest.mem_preorder_iff.mp ha)) hlines
  have hsorts := hblock.exists_sort
  refine ⟨(page dialect 0 lines).map Line.shown, ?_, ?_, ?_, hblock.wellNested⟩
  · split at hjoined
    · rename_i joined htext
      cases hjoined
      exact (toList_of_joined? htext).trans (charsOf_fragmentsOf hsorts)
    · cases hjoined
  · intro shown hshown
    obtain ⟨line, hline, rfl⟩ := List.mem_map.mp hshown
    obtain ⟨sort, hreads⟩ := hsorts line hline
    exact hreads.shown_ne_nil
  · cases dialect <;> rfl

/-- A document with an enum that has one value. -/
def colorDocument : Document where
  store := { lists := #[[.text "compiled"], [.text "inlined"]], maps := #[
    [(.text "kind", .text "enum_value"), (.text "flags", .list 1), (.text "value", .int 1)],
    [(.text "Red", .map 0)],
    [(.text "kind", .text "enum"), (.text "flags", .list 0), (.text "members", .map 1)],
    [(.text "Color", .map 2)],
    [(.text "exports", .map 3)]] }
  root := .map 4

/-- The graph of the document. -/
def colorGraph : Graph where
  store := colorDocument.store
  elements := #[
    { name := .text "Color", flags := { compiled := true }, body := .enumeration,
      members := some [(.text "Red", 1)] },
    { name := .text "Red", flags := { inlined := true }, body := .enumValue (.int 1) }]
  exports := [(.text "Color", 0)]

/-- The enum is a block in the block of the module. -/
theorem wellNested_color :
    ofDocument colorDocument = .ok colorGraph ∧
      (∀ a, Reached (colorGraph.next .webidl) colorGraph.roots a →
        ∀ word ∈ colorGraph.words .webidl a, word.Inline) ∧
      ∃ text lines, colorGraph.render .webidl = .ok text ∧
        text.toList = List.flatMap (· ++ ['\n']) lines ∧ WellNested lines := by
  have hread : ofDocument colorDocument = .ok colorGraph := rfl
  have hwords : ∀ a, Reached (colorGraph.next .webidl) colorGraph.roots a →
      ∀ word ∈ colorGraph.words .webidl a, word.Inline := by
    intro a ha
    have hplace : a = 0 := by
      refine ha.mem_of_closed (S := fun b => b = 0) (by decide) ?_
      rintro _ rfl
      decide
    subst hplace
    intro word hword
    have hmem : word = .text "Color" ∨ word = .text "Red" := by
      have hall : colorGraph.words .webidl 0 = [.text "Color", .text "Red"] := rfl
      rw [hall] at hword
      simpa using hword
    rcases hmem with rfl | rfl
    · exact ⟨"Color", rfl, by decide⟩
    · exact ⟨"Red", rfl, by decide⟩
  have hrender : colorGraph.render .webidl = .ok ("interface ASModule \x7b\n  interface Color \x7b\n"
      ++ "    const unsigned long Red = 1;\n  \x7d\n\x7d\n") := by
    decide +kernel
  obtain ⟨lines, htext, -, -, hnested⟩ := wellNested_of_render hread hwords hrender
  exact ⟨hread, hwords, _, lines, hrender, htext, hnested⟩

end Graph

end ModuleSurface
