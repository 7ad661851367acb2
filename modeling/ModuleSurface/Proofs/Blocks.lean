import ModuleSurface.Proofs.JsonNumber
import ModuleSurface.Proofs.Repeats

/-! # Definitions as nested blocks

The lines of definitions are of three sorts: one opens a block, one closes it, and any other one
stands between. A declaration closes the blocks that it opens, at the level at which it opened them,
and what is declared inside it stands one level deeper; where it opens no block, nothing is inside.

* **`Value.Inline`** — a name that can stand on a line, such as an identifier.
* **`Line.Reads`** — what a line of a sort reads.
* **`Nested`** — lines that are blocks within blocks.
* **`Graph.nested_lines`** — the lines of definitions are nested. -/

namespace ModuleSurface

/-! ## Characters -/

/-- The characters of pieces; what is no text has none. -/
def charsOf (pieces : List Fragment) : List Char := pieces.flatMap fun piece => (piece.getD "").toList

/-- No pieces have no characters: `charsOf [] = []`. -/
@[simp] theorem charsOf_nil : charsOf [] = [] := rfl

/-- A piece stands in front of the others, where a piece that is no text has no characters. -/
@[simp] theorem charsOf_cons (piece : Fragment) (pieces : List Fragment) :
    charsOf (piece :: pieces) = (piece.getD "").toList ++ charsOf pieces := by
  simp [charsOf]

/-- The characters of pieces stand behind each other. -/
@[simp] theorem charsOf_append (pieces others : List Fragment) :
    charsOf (pieces ++ others) = charsOf pieces ++ charsOf others := by
  simp [charsOf]

/-- **Characters that can stand on a line**: there are some, the first one is no space, and none of
them ends the line. -/
def OnLine (chars : List Char) : Prop := chars ≠ [] ∧ chars.head? ≠ some ' ' ∧ '\n' ∉ chars

instance (chars : List Char) : Decidable (OnLine chars) :=
  inferInstanceAs (Decidable (chars ≠ [] ∧ chars.head? ≠ some ' ' ∧ '\n' ∉ chars))

/-- What stands on a line may go on without a line break. -/
theorem OnLine.append {chars others : List Char} (h : OnLine chars) (hothers : '\n' ∉ others) :
    OnLine (chars ++ others) := by
  obtain ⟨hne, hhead, hunbroken⟩ := h
  refine ⟨List.append_ne_nil_of_left_ne_nil hne _, ?_, ?_⟩
  · rwa [List.head?_append_of_ne_nil _ hne]
  · rw [List.mem_append]
    exact not_or.mpr ⟨hunbroken, hothers⟩

/-- **A name that can stand on a line**: a text that is not empty, does not begin with a space and
has no line break. Identifiers are such names. -/
def Value.Inline (v : Value) : Prop := ∃ s, v.text? = some s ∧ OnLine s.toList

/-- The characters of such a name stand on a line. -/
theorem Value.Inline.onLine {v : Value} (h : v.Inline) : OnLine (v.text?.getD "").toList := by
  obtain ⟨s, hs, honLine⟩ := h
  rwa [hs]

/-- The characters of a name that is `Inline` do not end a line. -/
theorem Value.Inline.unbroken {v : Value} (h : v.Inline) : '\n' ∉ (v.text?.getD "").toList :=
  h.onLine.2.2

/-! ## Numbers and types -/

/-- Digits do not end a line. -/
theorem unbroken_digits {chars : List Char} (h : ∀ c ∈ chars, c.isDigit = true) : '\n' ∉ chars :=
  fun hmem => absurd (h _ hmem) (by decide)

/-- The text of an integer does not end a line: `'\n' ∉ (toString n).toList`. -/
theorem unbroken_toString (n : Int) : '\n' ∉ (toString n).toList := by
  have hdigits : '\n' ∉ Nat.toDigits 10 n.natAbs :=
    unbroken_digits fun _ hc => Json.isDigit_of_mem_toDigits hc
  have hsign : '\n' ∉ (Json.NumberText.ofInt n).signChars := by
    unfold Json.NumberText.signChars
    split <;> decide
  rw [← Json.NumberText.chars_ofInt]
  show '\n' ∉ (Json.NumberText.ofInt n).signChars ++ (Nat.toDigits 10 n.natAbs ++ ([] ++ []))
  simp [hsign, hdigits]

namespace NumberLayout

/-- Zeros do not end a line: `'\n' ∉ zeros n`. -/
theorem unbroken_zeros (n : Nat) : '\n' ∉ zeros n :=
  unbroken_digits fun _ hc => Json.isDigit_of_mem_zeros hc

/-- The digits of a number do not end a line: `'\n' ∉ Decimal.digitChars n`. -/
theorem unbroken_digitChars (n : Nat) : '\n' ∉ Decimal.digitChars n :=
  unbroken_digits fun _ hc => Json.isDigit_of_mem_toDigits hc

variable (layout : NumberLayout)

/-- Digits that do not end a line do not end it in positional notation:
`'\n' ∉ layout.plain digits point`. -/
theorem unbroken_plain {digits : List Char} (h : '\n' ∉ digits) (point : Int) :
    '\n' ∉ layout.plain digits point := by
  unfold plain
  split
  · split <;> simp [h, unbroken_zeros]
  · split
    · have htake : '\n' ∉ digits.take point.toNat := fun hmem => h (List.mem_of_mem_take hmem)
      have hdrop : '\n' ∉ digits.drop point.toNat := fun hmem => h (List.mem_of_mem_drop hmem)
      simp [htake, hdrop]
    · simp [h, unbroken_zeros]

/-- Digits that do not end a line do not end it in scientific notation:
`'\n' ∉ layout.scientific digits exponent`. -/
theorem unbroken_scientific {digits : List Char} (h : '\n' ∉ digits) (exponent : Int) :
    '\n' ∉ layout.scientific digits exponent := by
  have hexponent : '\n' ∉ layout.exponentChars exponent := by
    unfold exponentChars
    split <;> simp [unbroken_zeros, unbroken_digitChars]
  unfold scientific
  split
  · split <;> simp_all
  · simp_all
  · simpa using hexponent

/-- **A layout writes every double on one line**, if its words are on one line: `layout.render x`
has no line break. -/
theorem unbroken_render (hwords : ∀ word ∈ [layout.zeroText, layout.negativeZeroText, layout.nanText,
      layout.infinityText, layout.negativeInfinityText], '\n' ∉ word.toList) (x : Double) :
    '\n' ∉ (layout.render x).toList := by
  have hdecimal (d : Decimal) : '\n' ∉ layout.decimal d := by
    rw [decimal]
    split
    · exact layout.unbroken_plain (unbroken_digitChars _) _
    · exact layout.unbroken_scientific (unbroken_digitChars _) _
  cases x with
  | nan => exact hwords _ (by simp)
  | infinity negative => cases negative <;> exact hwords _ (by simp)
  | finite negative mantissa exponent hc =>
    rw [render]
    by_cases hzero : mantissa = 0
    · rw [if_pos hzero]
      cases negative <;> exact hwords _ (by simp)
    · rw [if_neg hzero, String.toList_ofList]
      split <;> simp [hdecimal]

end NumberLayout

/-- The payload of an integer does not end a line. -/
theorem unbroken_integerText {payload : Scalar} {text : String} (h : integerText payload = .ok text) :
    '\n' ∉ text.toList := by
  unfold integerText at h
  split at h
  · cases h
  · rename_i n _
    unfold Numeral.intText? at h
    by_cases hlong : integerDigitLimit < (toString n.natAbs).length
    · rw [if_pos hlong] at h
      cases h
    · rw [if_neg hlong] at h
      cases h
      exact unbroken_toString n

/-- The payload of a double does not end a line: `definitionsLayout` writes it on one. -/
theorem unbroken_floatText {payload : Scalar} {text : String} (h : floatText payload = .ok text) :
    '\n' ∉ text.toList := by
  unfold floatText at h
  split at h
  · cases h
  · cases h
    exact definitionsLayout.unbroken_render (by decide) _

/-- The payload of a constant does not end a line. -/
theorem unbroken_constantText {constant : Constant} {text : String}
    (h : constantText constant = .ok text) : '\n' ∉ text.toList := by
  unfold constantText at h
  cases hkind : constant.kind with
  | integer =>
    rw [hkind] at h
    exact unbroken_integerText (mapError_eq_ok_iff.mp h)
  | float =>
    rw [hkind] at h
    exact unbroken_floatText (mapError_eq_ok_iff.mp h)

/-- The payload of an enum value does not end a line. -/
theorem unbroken_enumValueText {body : Body} {text : String} (h : enumValueText body = .ok text) :
    '\n' ∉ text.toList := by
  cases body with
  | enumValue value => exact unbroken_integerText (mapError_eq_ok_iff.mp h)
  | _ => cases h

/-- The spelling of a type stands on a line. -/
theorem onLine_spelling {dialect : Dialect} {kind : PrimitiveKind} {spelled : String}
    (h : dialect.spelling? kind = some spelled) : OnLine spelled.toList := by
  cases dialect <;> cases kind <;> cases h <;> decide

/-- What `spellType` answers stands on a line. -/
theorem onLine_spellType {dialect : Dialect} {is64Bit : Bool} {type : Option ValueType}
    {spelled : String} (h : dialect.spellType is64Bit type = .ok spelled) : OnLine spelled.toList := by
  cases type with
  | none => cases h
  | some t =>
    simp only [Dialect.spellType] at h
    split at h
    · split at h <;> cases h
    · split at h
      · rename_i hspelling
        cases h
        exact onLine_spelling hspelling
      · cases h

/-! ## Lines -/

/-- **The sorts of lines**: those that open a block, those that close one, and those that stand
between. -/
inductive LineSort
  | opens | closes | stands

/-- **What a line of a sort reads**, without its indentation and its line break. -/
inductive ReadsLine : LineSort → List Char → Prop
  | opens {header : List Char} (h : OnLine header) : ReadsLine .opens (header ++ [' ', '\x7b'])
  | closes : ReadsLine .closes ['\x7d']
  | stands {body : List Char} {last : Char} (h : OnLine (body ++ [last]))
      (hlast : last = ';' ∨ last = ',') : ReadsLine .stands (body ++ [last])

namespace Line

/-- **A line of a sort.** -/
def Reads (sort : LineSort) (line : Line) : Prop :=
  ∃ chars, ReadsLine sort chars ∧ charsOf line.pieces = chars ++ ['\n']

/-- A header that stands on a line opens a block: `opener level header` reads as `opens`. -/
theorem reads_opener (level : Nat) {header : List Fragment} (h : OnLine (charsOf header)) :
    (opener level header).Reads .opens := by
  refine ⟨_, .opens h, ?_⟩
  simp [opener]

/-- A closing brace closes a block: `closer` reads as `closes` at every level. -/
theorem reads_closer (level : Nat) : (closer.deeper level).Reads .closes := by
  refine ⟨_, .closes, ?_⟩
  simp [closer]

/-- A line that ends in a semicolon or a comma behind some pieces. -/
theorem reads_stands (level : Nat) (front : List Fragment) {pieces : List Fragment} {last : Char}
    (hpieces : charsOf pieces = charsOf front ++ [last, '\n']) (hfront : OnLine (charsOf front))
    (hlast : last = ';' ∨ last = ',') : Reads .stands ⟨level, pieces⟩ := by
  refine ⟨charsOf front ++ [last], .stands (hfront.append ?_) hlast, ?_⟩
  · rcases hlast with rfl | rfl <;> decide
  · rw [hpieces, List.append_assoc]
    rfl

end Line

/-! ## Nesting -/

/-- **Nested lines** at a level: lines that stand there, and blocks whose first and last lines are
there and whose other lines are nested one level deeper. -/
inductive Nested : Nat → List Line → Prop
  | nil {level : Nat} : Nested level []
  | line {level : Nat} {line : Line} {rest : List Line} (at_level : line.level = level)
      (reads : line.Reads .stands) (later : Nested level rest) : Nested level (line :: rest)
  | block {level : Nat} {first last : Line} {inside rest : List Line}
      (first_at : first.level = level) (opens : first.Reads .opens)
      (below : Nested (level + 1) inside) (last_at : last.level = level)
      (closes : last.Reads .closes) (later : Nested level rest) :
      Nested level (first :: (inside ++ last :: rest))

namespace Nested

variable {level : Nat} {lines others inside : List Line}

/-- Nested lines may follow each other at one level. -/
theorem append (h : Nested level lines) (hothers : Nested level others) :
    Nested level (lines ++ others) := by
  induction h with
  | nil => exact hothers
  | line hlevel hreads _ ih => exact .line hlevel hreads (ih hothers)
  | block hfirst hopens hbelow hlast hcloses _ _ ih =>
    rw [List.cons_append, List.append_assoc, List.cons_append]
    exact .block hfirst hopens hbelow hlast hcloses (ih hothers)

/-- Lines that all read as `stands` at a level are nested there. -/
theorem of_stands (h : ∀ line ∈ lines, line.level = level ∧ line.Reads .stands) :
    Nested level lines := by
  induction lines with
  | nil => exact .nil
  | cons line lines ih =>
    rw [List.forall_mem_cons] at h
    exact .line h.1.1 h.1.2 (ih h.2)

/-- A block around nested lines, between `Line.opener` and `Line.closer`, is nested one level
further out. -/
theorem around {header : List Fragment} (hheader : OnLine (charsOf header))
    (hinside : Nested (level + 1) inside) :
    Nested level (Line.opener level header :: (inside ++ [Line.closer.deeper level])) :=
  .block rfl (Line.reads_opener level hheader) hinside rfl (Line.reads_closer level) .nil

end Nested

namespace Graph

variable {graph : Graph} {dialect : Dialect} {h : Handle} {level : Nat} {within : List Line}

/-! ## Words -/

/-- An element prints its name, so `words` has it, except for namespaces without members in
TypeScript. -/
theorem name_mem_words (hprints : ¬ ((graph.element h).body = .nameSpace ∧ dialect = .typescript ∧
    (graph.element h).memberItems = [])) : (graph.element h).name ∈ graph.words dialect h := by
  have hname : (graph.element h).name ∈ graph.names dialect h := by
    cases hbody : (graph.element h).body with
    | nameSpace =>
      have hnot : ¬ (dialect = .typescript ∧ (graph.element h).memberItems = []) :=
        fun hempty => hprints ⟨hbody, hempty⟩
      simp [names, hbody, hnot]
    | _ => simp [names, hbody]
  exact List.mem_append_left _ hname

/-- A function prints the names of its parameters. -/
theorem parameter_mem_words {signature : Signature}
    (hbody : (graph.element h).body = .function signature) {name : Value}
    (hname : name ∈ signature.parameterNames) : name ∈ graph.words dialect h := by
  simp [words, names, hbody, hname]

/-- An enum prints the keys of its values: `.scalar entry.1 ∈ graph.words dialect h`. -/
theorem key_mem_words (hbody : (graph.element h).body = .enumeration) {entry : Scalar × Handle}
    (hentry : entry ∈ graph.enumValues (graph.element h).memberItems) :
    .scalar entry.1 ∈ graph.words dialect h := by
  have hkey : .scalar entry.1 ∈ graph.keys h := by
    simp only [keys, hbody]
    exact List.mem_map.mpr ⟨entry, hentry, rfl⟩
  exact List.mem_append_right _ hkey

/-- In TypeScript a class prints the name of its base:
`(graph.element b).name ∈ graph.words .typescript h`. -/
theorem base_mem_words {links : ClassLinks} {b : Handle}
    (hbody : (graph.element h).body = .classType links ∨
      (graph.element h).body = .interfaceType links) (hbase : links.base = some b) :
    (graph.element b).name ∈ graph.words .typescript h := by
  rcases hbody with hbody | hbody <;> simp [words, names, hbody, baseName, hbase]

/-! ## Openings -/

/-- A word in front of a line leaves it on its line. -/
theorem onLine_const (element : Element) {pieces : List Fragment} (h : OnLine (charsOf pieces)) :
    OnLine (charsOf (constWords element ++ pieces)) := by
  unfold constWords
  split
  · rw [charsOf_append]
    exact OnLine.append (by decide) h.2.2
  · exact h

/-- The comma before a parameter does not end a line: `'\n' ∉ charsOf (commaBefore place)`. -/
theorem unbroken_commaBefore (place : Nat) : '\n' ∉ charsOf (commaBefore place) := by
  unfold commaBefore
  split <;> decide

/-- The name of a parameter does not end a line. -/
theorem unbroken_parameterName {signature : Signature}
    (hnames : ∀ name ∈ signature.parameterNames, name.Inline) (place : Nat) :
    '\n' ∉ ((signature.parameterName place).text?.getD "").toList := by
  unfold Signature.parameterName
  rw [List.getD_eq_getElem?_getD]
  cases hname : signature.parameterNames[place]? with
  | none =>
    have hplace : '\n' ∉ (toString place).toList := unbroken_toString place
    have htext : ((Value.text s!"arg{place}").text?.getD "").toList
        = "arg".toList ++ (toString place).toList := by
      simp [String.toList_append]
      rfl
    rw [Option.getD_none, htext, List.mem_append]
    exact not_or.mpr ⟨by decide, hplace⟩
  | some name => exact (hnames name (List.mem_of_getElem? hname)).unbroken

/-- A block for members, which is left out where there are none. -/
theorem nested_members (empty : Prop) [Decidable empty] {header : List Fragment}
    (hheader : ¬ empty → OnLine (charsOf header)) (hwithin : Nested (level + 1) within)
    (hempty : empty → within = []) :
    Nested level ((if empty then [] else [Line.opener level header]) ++ within
      ++ (if empty then [] else [Line.closer.deeper level])) := by
  by_cases h : empty
  · rw [if_pos h, if_pos h, hempty h]
    exact .nil
  · rw [if_neg h, if_neg h]
    exact Nested.around (hheader h) hwithin

/-- The values of an enum stand on lines of their own. -/
theorem nested_values (level : Nat) {words : Scalar × Handle → Except RenderError (List Fragment)}
    {entries : Members} {values : List (List Fragment)} (hvalues : entries.mapM words = .ok values)
    (hwords : ∀ entry ∈ entries, ∀ pieces, words entry = .ok pieces →
      Line.Reads .stands ⟨level, pieces⟩) : Nested level (values.map (Line.mk level)) := by
  refine Nested.of_stands fun line hline => ?_
  obtain ⟨pieces, hpieces, rfl⟩ := List.mem_map.mp hline
  obtain ⟨entry, hentry, hresult⟩ := exists_of_mem_mapM hvalues hpieces
  exact ⟨rfl, hwords entry hentry pieces hresult⟩

/-- The parameters do not end a line. -/
theorem unbroken_parameters {is64Bit : Bool} {signature : Signature}
    (hnames : ∀ name ∈ signature.parameterNames, name.Inline) {types : List (Option ValueType)}
    {place : Nat} {pieces : List Fragment}
    (hpieces : parameterWords dialect is64Bit signature place types = .ok pieces) :
    '\n' ∉ charsOf pieces := by
  induction types generalizing place pieces with
  | nil =>
    cases hpieces
    simp
  | cons type types ih =>
    obtain ⟨spelled, hspelled, hpieces⟩ := bind_eq_ok_iff.mp hpieces
    obtain ⟨others, hothers, hpieces⟩ := bind_eq_ok_iff.mp hpieces
    cases hpieces
    have hrest := ih hothers
    have hspelling := (onLine_spellType hspelled).2.2
    cases dialect <;>
      simp [Dialect.parameterPieces, unbroken_commaBefore, hspelling, unbroken_parameterName hnames,
        hrest]

/-- An entry of an enum that comes out by its `valueWords` is a line of its own. -/
theorem reads_value {entry : Scalar × Handle} (hkey : (Value.scalar entry.1).Inline)
    {pieces : List Fragment} (hpieces : graph.valueWords dialect entry = .ok pieces) :
    Line.Reads .stands ⟨level, pieces⟩ := by
  have hline (inlined : Bool) (payload : List Fragment) (hpayload : '\n' ∉ charsOf payload) :
      Line.Reads .stands ⟨level, valueFront dialect inlined
        ++ (Value.scalar entry.1).text? :: payload ++ valueEnd dialect⟩ := by
    cases dialect with
    | webidl =>
      refine Line.reads_stands level
        (valueFront .webidl inlined ++ (Value.scalar entry.1).text? :: payload)
        (by simp [valueEnd]) ?_ (.inl rfl)
      cases inlined <;> rw [valueFront, List.singleton_append, charsOf_cons] <;>
        exact OnLine.append (by decide) (by simp [hkey.unbroken, hpayload])
    | typescript =>
      refine Line.reads_stands level ((Value.scalar entry.1).text? :: payload)
        (by simp [valueFront, valueEnd]) ?_ (.inr rfl)
      rw [charsOf_cons]
      exact hkey.onLine.append hpayload
  unfold valueWords at hpieces
  split at hpieces
  · obtain ⟨payload, hpayload, hpieces⟩ := bind_eq_ok_iff.mp hpieces
    cases hpieces
    exact hline true [some " = ", some payload] (by simp [unbroken_enumValueText hpayload])
  · cases hpieces
    exact hline false [] (by simp)

namespace WebIdl

/-- The line of a global in WebIDL stands for itself. -/
theorem reads_global {element : Element} {type : Option ValueType} {constant : Option Constant}
    (hname : element.name.Inline) {pieces : List Fragment}
    (hpieces : globalWords graph element type constant = .ok pieces) :
    Line.Reads .stands ⟨level, pieces⟩ := by
  obtain ⟨spelled, hspelled, hpieces⟩ := bind_eq_ok_iff.mp hpieces
  obtain ⟨payload, hpayload, hpieces⟩ := bind_eq_ok_iff.mp hpieces
  cases hpieces
  have hunbroken : '\n' ∉ charsOf payload := by
    unfold payloadWords at hpayload
    split at hpayload
    · obtain ⟨text, htext, hpayload⟩ := bind_eq_ok_iff.mp hpayload
      cases hpayload
      simp [unbroken_constantText htext]
    · cases hpayload
      simp
  refine Line.reads_stands level
    (constWords element ++ ([some spelled, some " ", element.name.text?] ++ payload))
    (by simp) (onLine_const element ?_) (.inl rfl)
  simp only [List.cons_append, charsOf_cons]
  exact (onLine_spellType hspelled).append (by simp [hname.unbroken, hunbroken])

/-- The line of a function in WebIDL stands for itself. -/
theorem reads_function (level : Nat) {element : Element} {signature : Signature}
    (hname : element.name.Inline) (hnames : ∀ name ∈ signature.parameterNames, name.Inline)
    {pieces : List Fragment} (hpieces : functionWords graph element signature = .ok pieces) :
    Line.Reads .stands ⟨level, pieces⟩ := by
  obtain ⟨result, hresult, hpieces⟩ := bind_eq_ok_iff.mp hpieces
  obtain ⟨parameters, hparameters, hpieces⟩ := bind_eq_ok_iff.mp hpieces
  cases hpieces
  have hunbroken := unbroken_parameters hnames hparameters
  refine Line.reads_stands level
    (some result :: ([some " ", element.name.text?, some "("] ++ parameters ++ [some ")"]))
    (by simp) ?_ (.inl rfl)
  rw [charsOf_cons]
  exact (onLine_spellType hresult).append (by simp [hname.unbroken, hunbroken])

/-- **A declaration is nested** around what is inside it, between `WebIdl.opening` and
`WebIdl.closing`. -/
theorem nested_around {lines : List Line}
    (hopening : WebIdl.opening graph (graph.element h) = .ok lines)
    (hwords : ∀ word ∈ graph.words .webidl h, word.Inline) (hwithin : Nested (level + 1) within)
    (hempty : graph.expanded .webidl h = [] → within = []) :
    Nested level (lines.map (Line.deeper level) ++ within
      ++ (WebIdl.closing (graph.element h)).map (Line.deeper level)) := by
  have hname : (graph.element h).name.Inline := hwords _ (name_mem_words (by simp))
  have hheader : OnLine (charsOf [some "interface ", (graph.element h).name.text?]) := by
    rw [charsOf_cons]
    exact OnLine.append (by decide) (by simp [hname.unbroken])
  rw [opening] at hopening
  unfold closing
  cases hbody : (graph.element h).body with
  | global type constant =>
    rw [hbody] at hopening
    obtain ⟨pieces, hpieces, heq⟩ := bind_eq_ok_iff.mp hopening
    cases heq
    rw [hempty (by simp [expanded, hbody])]
    exact .line rfl (reads_global hname hpieces) .nil
  | enumeration =>
    rw [hbody] at hopening
    obtain ⟨values, hvalues, heq⟩ := bind_eq_ok_iff.mp hopening
    cases heq
    have hlines := nested_values (level + 1) hvalues fun entry hentry pieces hpieces =>
      reads_value (hwords _ (key_mem_words hbody hentry)) hpieces
    have hblock := Nested.around hheader (hlines.append hwithin)
    simpa [Function.comp_def] using hblock
  | function signature =>
    rw [hbody] at hopening
    obtain ⟨pieces, hpieces, heq⟩ := bind_eq_ok_iff.mp hopening
    cases heq
    have hline := reads_function level hname
      (fun name hparameter => hwords _ (parameter_mem_words hbody hparameter)) hpieces
    have hmembers := nested_members ((graph.element h).memberItems = []) (fun _ => hheader) hwithin
      fun hnone => hempty (by simp [expanded, hbody, hnone])
    have hboth := Nested.line rfl hline hmembers
    by_cases hnone : (graph.element h).memberItems = [] <;> simpa [hnone] using hboth
  | classType links | interfaceType links | nameSpace =>
    rw [hbody] at hopening
    cases hopening
    simpa using Nested.around hheader hwithin
  | enumValue _ | functionPrototype _ | classPrototype _ =>
    rw [hbody] at hopening
    cases hopening

end WebIdl

namespace TypeScript

/-- The line of a global in TypeScript stands for itself. -/
theorem reads_global (level : Nat) {element : Element} {type : Option ValueType}
    (hname : element.name.Inline) {pieces : List Fragment}
    (hpieces : globalWords graph element type = .ok pieces) :
    Line.Reads .stands ⟨level, pieces⟩ := by
  obtain ⟨spelled, hspelled, hpieces⟩ := bind_eq_ok_iff.mp hpieces
  cases hpieces
  refine Line.reads_stands level (constWords element ++ [element.name.text?, some ": ", some spelled])
    (by simp) (onLine_const element ?_) (.inl rfl)
  rw [charsOf_cons]
  exact hname.onLine.append (by simp [(onLine_spellType hspelled).2.2])

/-- The line of a function in TypeScript stands for itself. -/
theorem reads_function (level : Nat) {element : Element} {signature : Signature}
    (hname : element.name.Inline) (hnames : ∀ name ∈ signature.parameterNames, name.Inline)
    {pieces : List Fragment} (hpieces : functionWords graph element signature = .ok pieces) :
    Line.Reads .stands ⟨level, pieces⟩ := by
  obtain ⟨parameters, hparameters, hpieces⟩ := bind_eq_ok_iff.mp hpieces
  obtain ⟨result, hresult, hpieces⟩ := bind_eq_ok_iff.mp hpieces
  cases hpieces
  have hunbroken := unbroken_parameters hnames hparameters
  refine Line.reads_stands level
    (some "function " :: ([element.name.text?, some "("] ++ parameters ++ [some "): ", some result]))
    (by simp) ?_ (.inl rfl)
  rw [charsOf_cons]
  exact OnLine.append (by decide) (by simp [hname.unbroken, hunbroken, (onLine_spellType hresult).2.2])

/-- The header of a class stands on a line, its `classWords`, name and `baseWords`. -/
theorem onLine_classHeader (graph : Graph) (base : Option Handle) {element : Element}
    (hname : element.name.Inline)
    (hbase : ∀ b, base = some b → (graph.element b).name.Inline) :
    OnLine (charsOf (classWords element ++ [element.name.text?] ++ baseWords graph base)) := by
  have hwords : OnLine (charsOf (classWords element)) := by
    unfold classWords
    split
    · decide
    · split <;> decide
  have hextends : '\n' ∉ charsOf (baseWords graph base) := by
    cases base with
    | none => simp [baseWords]
    | some b => simp [baseWords, (hbase b rfl).unbroken]
  rw [charsOf_append, charsOf_append]
  exact (hwords.append (by simp [hname.unbroken])).append hextends

/-- **The members of a declaration** stand in a namespace, if there are any. -/
theorem nested_namespace (element : Element) (members : List Handle)
    (hname : members ≠ [] → element.name.Inline) (hwithin : Nested (level + 1) within)
    (hempty : members = [] → within = []) {closing : List Line}
    (hclosing : closing = if members = [] then [] else [Line.closer]) :
    Nested level ((membersHeader element members).map (Line.deeper level) ++ within
      ++ closing.map (Line.deeper level)) := by
  have hheader (hmembers : members ≠ []) :
      OnLine (charsOf [some "namespace ", element.name.text?]) := by
    rw [charsOf_cons]
    exact OnLine.append (by decide) (by simp [(hname hmembers).unbroken])
  have hnested := nested_members (members = []) hheader hwithin hempty
  unfold membersHeader
  rw [hclosing]
  by_cases hmembers : members = [] <;> simpa [hmembers] using hnested

/-- **A declaration is nested** around what is inside it, between `TypeScript.opening` and
`TypeScript.closing`. -/
theorem nested_around {lines : List Line}
    (hopening : TypeScript.opening graph (graph.element h) = .ok lines)
    (hwords : ∀ word ∈ graph.words .typescript h, word.Inline) (hwithin : Nested (level + 1) within)
    (hempty : graph.expanded .typescript h = [] → within = []) :
    Nested level (lines.map (Line.deeper level) ++ within
      ++ (TypeScript.closing graph (graph.element h)).map (Line.deeper level)) := by
  have hname (hprints : ¬ ((graph.element h).body = .nameSpace ∧
      (graph.element h).memberItems = [])) : (graph.element h).name.Inline :=
    hwords _ (name_mem_words fun hnot => hprints ⟨hnot.1, hnot.2.2⟩)
  rw [opening] at hopening
  unfold closing
  cases hbody : (graph.element h).body with
  | global type constant =>
    rw [hbody] at hopening
    obtain ⟨pieces, hpieces, heq⟩ := bind_eq_ok_iff.mp hopening
    cases heq
    have hgiven := hname (by simp [hbody])
    refine .line rfl (reads_global level hgiven hpieces) (nested_namespace _ _ (fun _ => hgiven) hwithin
      (fun hnone => hempty ?_) (by simp))
    simpa [expanded, hbody] using hnone
  | enumeration =>
    rw [hbody] at hopening
    obtain ⟨values, hvalues, heq⟩ := bind_eq_ok_iff.mp hopening
    cases heq
    have hgiven := hname (by simp [hbody])
    have hlines := nested_values (level + 1) hvalues fun entry hentry pieces hpieces =>
      reads_value (hwords _ (key_mem_words hbody hentry)) hpieces
    have hheader : OnLine (charsOf [some "enum ", (graph.element h).name.text?]) := by
      rw [charsOf_cons]
      exact OnLine.append (by decide) (by simp [hgiven.unbroken])
    have hothers := nested_namespace (graph.element h)
      (graph.otherMembers (graph.element h).memberItems) (fun _ => hgiven) hwithin
      (fun hnone => hempty (by simpa [expanded, hbody] using hnone)) rfl
    have hblock := (Nested.around hheader hlines).append hothers
    simpa [Function.comp_def] using hblock
  | function signature =>
    rw [hbody] at hopening
    obtain ⟨pieces, hpieces, heq⟩ := bind_eq_ok_iff.mp hopening
    cases heq
    have hgiven := hname (by simp [hbody])
    have hline := reads_function level hgiven
      (fun name hparameter => hwords _ (parameter_mem_words hbody hparameter)) hpieces
    refine .line rfl hline (nested_namespace _ _ (fun _ => hgiven) hwithin (fun hnone => hempty ?_)
      (by simp))
    simpa [expanded, hbody] using hnone
  | classType links | interfaceType links =>
    rw [hbody] at hopening
    cases hopening
    have hheader := onLine_classHeader graph links.base
      (hname (by simp [hbody])) fun b hb => hwords _ (base_mem_words (by simp [hbody]) hb)
    simpa using Nested.around hheader hwithin
  | nameSpace =>
    rw [hbody] at hopening
    cases hopening
    refine nested_namespace _ _ (fun hmembers => hname fun hnot => hmembers (by simp [hnot.2])) hwithin
      (fun hnone => hempty ?_) (by simp)
    simpa [expanded, hbody] using hnone
  | enumValue _ | functionPrototype _ | classPrototype _ =>
    rw [hbody] at hopening
    cases hopening

end TypeScript

/-! ## Forests -/

/-- **A declaration is nested** around what is inside it, in both dialects. -/
theorem nested_around {lines : List Line} (hopening : graph.opening dialect h = .ok lines)
    (hwords : ∀ word ∈ graph.words dialect h, word.Inline) (hwithin : Nested (level + 1) within)
    (hempty : graph.expanded dialect h = [] → within = []) :
    Nested level (lines.map (Line.deeper level) ++ within
      ++ (graph.closing dialect h).map (Line.deeper level)) := by
  cases dialect with
  | webidl => exact WebIdl.nested_around hopening hwords hwithin hempty
  | typescript => exact TypeScript.nested_around hopening hwords hwithin hempty

/-- **The lines of a search are nested**, if the words of what it finds can stand on a line. -/
theorem nested_lines {found waiting : List Handle} {forest : Forest Handle}
    (hforest : DepthFirst (graph.next dialect) found waiting forest)
    (hwords : ∀ a ∈ forest.preorder, ∀ word ∈ graph.words dialect a, word.Inline) {lines : List Line}
    (hlines : graph.lines dialect level forest = .ok lines) : Nested level lines := by
  induction hforest generalizing level lines with
  | done =>
    cases hlines
    exact .nil
  | again _ _ ih => exact ih hwords hlines
  | @fresh found waiting a inside rest _ hbelow _ ihBelow ihLater =>
    obtain ⟨opening, within, after, hopening, hwithin, hafter, rfl⟩ := exists_of_lines_node hlines
    simp only [Forest.preorder_node, List.mem_cons, List.mem_append] at hwords
    have hnested := ihBelow (fun b hb => hwords b (.inr (.inl hb))) hwithin
    -- where a declaration goes on to nothing, nothing is found inside it
    have hempty (hexpanded : graph.expanded dialect a = []) : within = [] := by
      rw [next, hexpanded, List.flatMap_nil] at hbelow
      cases hbelow
      cases hwithin
      rfl
    exact (nested_around hopening (hwords a (.inl rfl)) hnested hempty).append
      (ihLater (fun b hb => hwords b (.inr (.inr hb))) hafter)

/-- The aliases stand at level one, where each dialect opens its module. -/
theorem nested_aliases (dialect : Dialect) : Nested 1 (dialect.aliases.map (aliasLine 1)) := by
  have haliases : ∀ entry ∈ dialect.aliases,
      OnLine (charsOf [some "type ", some entry.1, some " = ", some entry.2]) := by
    cases dialect <;> decide
  refine Nested.of_stands fun line hline => ?_
  obtain ⟨entry, hentry, rfl⟩ := List.mem_map.mp hline
  exact ⟨rfl, Line.reads_stands 1 [some "type ", some entry.1, some " = ", some entry.2] (by simp)
    (haliases entry hentry) (.inl rfl)⟩

end Graph

end ModuleSurface
