import ModuleSurface.Proofs.DecimalText
import ModuleSurface.Proofs.JsonText
import ModuleSurface.Proofs.Outcome

/-! # Trees in JSON

A tree that is written as JSON is read back when JSON carries it: the scalars are nothing, truth
values, numbers and texts, no text has two halves that stand as a pair, no integer is too long, and
the keys of a map are different texts. Every part of a text is read from its own characters only, so
it does not matter what follows, as long as the part ends there.

* **`Json.Carries`** — a tree that JSON carries.
* **`Json.IsTextOf`** — characters from which a tree is read.
* **`Json.read_write`** — a tree that is carried is read back. -/

namespace ModuleSurface

/-! ## Keys -/

namespace Entries

variable {α : Type}

/-- An entry under a text that is no key yet goes to the end, `entries ++ [(.text name, value)]`. -/
theorem put_of_not_mem {entries : List (Scalar × α)} {names : List String}
    (hkeys : entries.map (·.1) = names.map .text) {name : String} (hnew : name ∉ names) (value : α) :
    put (.text name) value entries = entries ++ [(.text name, value)] := by
  induction entries generalizing names with
  | nil => rfl
  | cons entry entries ih =>
    obtain _ | ⟨other, names⟩ := names
    · cases hkeys
    rw [List.map_cons, List.map_cons, List.cons.injEq] at hkeys
    rw [List.mem_cons, not_or] at hnew
    have hdifferent : ¬ entry.1.sameKey (.text name) = true := by
      rw [hkeys.1, Scalar.sameKey_text]
      simpa using Ne.symm hnew.1
    rw [put, if_neg hdifferent, ih hkeys.2 hnew.2, List.cons_append]

/-- **Pairs under different texts** are all kept by `ofPairs`. -/
theorem ofPairs_of_nodup {pairs : List (Scalar × α)} {names : List String}
    (hkeys : pairs.map (·.1) = names.map .text) (hnodup : names.Nodup) : ofPairs pairs = pairs := by
  have hfold (pairs entries : List (Scalar × α)) (names before : List String)
      (hkeys : pairs.map (·.1) = names.map .text) (hbefore : entries.map (·.1) = before.map .text)
      (hnodup : (before ++ names).Nodup) :
      pairs.foldl (fun entries pair => put pair.1 pair.2 entries) entries = entries ++ pairs := by
    induction pairs generalizing entries names before with
    | nil => simp
    | cons pair pairs ih =>
      obtain _ | ⟨name, names⟩ := names
      · cases hkeys
      rw [List.map_cons, List.map_cons, List.cons.injEq] at hkeys
      have hnew : name ∉ before := fun hmem =>
        (List.nodup_append.mp hnodup).2.2 name hmem name List.mem_cons_self rfl
      rw [List.foldl_cons, hkeys.1, put_of_not_mem hbefore hnew,
        ih _ names (before ++ [name]) hkeys.2 (by simp [hbefore]) (by simpa using hnodup),
        ← hkeys.1, List.append_assoc, List.singleton_append]
  exact hfold pairs [] names [] hkeys rfl hnodup

end Entries

namespace Json

/-! ## What is carried -/

/-- **A scalar that JSON carries.** -/
def CarriesScalar : Scalar → Prop
  | .null | .bool _ | .float _ => True
  | .int n => (Numeral.intText? n).isSome = true
  | .text s => Unpaired s.toList
  | .moment .. | .bytes _ => False

/-- **Keys that JSON carries**: different texts. -/
def CarriesKeys (keys : List Scalar) : Prop :=
  ∃ names : List String, keys = names.map .text ∧ names.Nodup ∧ ∀ name ∈ names, Unpaired name.toList

/-- **A tree that JSON carries.** -/
inductive Carries : Tree → Prop
  | scalar {s : Scalar} (h : CarriesScalar s) : Carries (.scalar s)
  | list {items : List Tree} (h : ∀ tree ∈ items, Carries tree) : Carries (.list items)
  | map {entries : List (Scalar × Tree)} (keys : CarriesKeys (entries.map (·.1)))
      (h : ∀ entry ∈ entries, Carries entry.2) : Carries (.map entries)

/-! ## Texts of trees -/

/-- The characters with which a value may start: no white space, not the end of a list, and not a
mark of the byte order. -/
def startsValue (c : Char) : Bool := !Cursor.isSpace c && c != ']' && c != '\ufeff'

/-- **Characters from which a tree is read**, whatever follows. Each nested call takes at most two
units of fuel for a character. -/
structure IsTextOf (tree : Tree) (chars : List Char) : Prop where
  starts : ∃ c more, chars = c :: more ∧ startsValue c = true
  reads {fuel : Nat} (place : Nat) {rest : List Char} : Ends rest → 2 * chars.length ≤ fuel →
    readValue fuel ⟨place, chars ++ rest⟩ = .ok (tree, ⟨place + chars.length, rest⟩)

section Parts

variable {fuel place : Nat} {rest : List Char} {c : Char}

/-- Where there is no white space none is passed over:
`Cursor.skipSpace ⟨place, rest⟩ = ⟨place, rest⟩`. -/
theorem Cursor.skipSpace_of_stops (place : Nat) (h : Stops Cursor.isSpace rest) :
    Cursor.skipSpace ⟨place, rest⟩ = ⟨place, rest⟩ := by
  have hnone : rest.takeWhile Cursor.isSpace = [] := by
    simpa using takeWhile_append (List.forall_mem_nil _) h
  rw [Cursor.skipSpace, hnone]
  rfl

/-- A blank is passed over. -/
theorem Cursor.skipSpace_blank (place : Nat) (h : Stops Cursor.isSpace rest) :
    Cursor.skipSpace ⟨place, ' ' :: rest⟩ = ⟨place + 1, rest⟩ := by
  have hblank : ([' '] ++ rest).takeWhile Cursor.isSpace = [' '] :=
    takeWhile_append (List.forall_mem_singleton.mpr rfl) h
  rw [List.singleton_append] at hblank
  rw [Cursor.skipSpace, hblank]
  rfl

/-! ### Words and numbers -/

/-- A value that is no text, map or list is a word, if `readWord` finds one. -/
theorem readValue_word (hc : c ≠ '"' ∧ c ≠ '\x7b' ∧ c ≠ '[') {found : Tree × Cursor}
    (hword : readWord ⟨place, c :: rest⟩ = some found) :
    readValue (fuel + 1) ⟨place, c :: rest⟩ = .ok found := by
  rw [readValue]
  split
  · next h => exact absurd (List.cons.inj h).1 hc.1
  · next h => exact absurd (List.cons.inj h).1 hc.2.1
  · next h => exact absurd (List.cons.inj h).1 hc.2.2
  · rw [hword]

/-- A value that is nothing else is a number, which `readNumber` reads. -/
theorem readValue_number (hc : c ≠ '"' ∧ c ≠ '\x7b' ∧ c ≠ '[')
    (hword : readWord ⟨place, c :: rest⟩ = none) :
    readValue (fuel + 1) ⟨place, c :: rest⟩ = readNumber ⟨place, c :: rest⟩ := by
  rw [readValue]
  split
  · next h => exact absurd (List.cons.inj h).1 hc.1
  · next h => exact absurd (List.cons.inj h).1 hc.2.1
  · next h => exact absurd (List.cons.inj h).1 hc.2.2
  · rw [hword]

/-- A word is found where it stands. -/
theorem readWord_append {word : String × Scalar} (hword : word ∈ words) (place : Nat)
    (rest : List Char) : readWord ⟨place, word.1.toList ++ rest⟩
      = some (.scalar word.2, ⟨place + word.1.toList.length, rest⟩) := by
  simp only [words, List.mem_cons, List.not_mem_nil, or_false] at hword
  rcases hword with rfl | rfl | rfl | rfl | rfl | rfl <;> rfl

/-- **A word is a text** of its value. -/
theorem isTextOf_word {word : String × Scalar} (hword : word ∈ words) :
    IsTextOf (.scalar word.2) word.1.toList := by
  obtain ⟨c, more, hchars, hc, hstarts⟩ : ∃ c more, word.1.toList = c :: more ∧
      (c ≠ '"' ∧ c ≠ '\x7b' ∧ c ≠ '[') ∧ startsValue c = true := by
    simp only [words, List.mem_cons, List.not_mem_nil, or_false] at hword
    rcases hword with rfl | rfl | rfl | rfl | rfl | rfl <;> exact ⟨_, _, rfl, by decide, by decide⟩
  refine ⟨⟨c, more, hchars, hstarts⟩, fun {fuel} place rest _ hfuel => ?_⟩
  have hread := readWord_append hword place rest
  rw [hchars] at hread hfuel ⊢
  obtain ⟨fuel, rfl⟩ := Nat.exists_eq_add_one_of_ne_zero (n := fuel) (by
    rw [List.length_cons] at hfuel
    omega)
  exact readValue_word hc hread

/-- No word starts with a digit: `readWord ⟨place, c :: rest⟩ = none`. -/
theorem readWord_digit (hc : c.isDigit = true) (place : Nat) (rest : List Char) :
    readWord ⟨place, c :: rest⟩ = none := by
  have hdifferent (letter : Char) (h : letter.isDigit = false) : (letter == c) = false := by
    rw [beq_eq_false_iff_ne]
    rintro rfl
    rw [h] at hc
    cases hc
  have hnone : (words.find? fun word => word.1.toList.isPrefixOf (c :: rest)) = none := by
    rw [List.find?_eq_none]
    intro word hword
    simp only [words, List.mem_cons, List.not_mem_nil, or_false] at hword
    rcases hword with rfl | rfl | rfl | rfl | rfl | rfl <;>
      simp [List.isPrefixOf, hdifferent]
  rw [readWord, hnone]
  rfl

/-- No word goes on with a digit behind a minus sign:
`readWord ⟨place, '-' :: c :: rest⟩ = none`. -/
theorem readWord_minus (hc : c.isDigit = true) (place : Nat) (rest : List Char) :
    readWord ⟨place, '-' :: c :: rest⟩ = none := by
  have hdifferent : ('I' == c) = false := by
    rw [beq_eq_false_iff_ne]
    rintro rfl
    exact absurd hc (by decide)
  have hnone : (words.find? fun word => word.1.toList.isPrefixOf ('-' :: c :: rest)) = none := by
    rw [List.find?_eq_none]
    intro word hword
    simp only [words, List.mem_cons, List.not_mem_nil, or_false] at hword
    rcases hword with rfl | rfl | rfl | rfl | rfl | rfl <;>
      simp [List.isPrefixOf, hdifferent]
  rw [readWord, hnone]
  rfl

/-- A digit is nothing else. -/
theorem digit_ne (hc : c.isDigit = true) : (c ≠ '"' ∧ c ≠ '\x7b' ∧ c ≠ '[') ∧
    startsValue c = true := by
  have hne (other : Char) (h : other.isDigit = false) : c ≠ other := by
    rintro rfl
    rw [h] at hc
    cases hc
  refine ⟨⟨hne _ (by decide), hne _ (by decide), hne _ (by decide)⟩, ?_⟩
  simp [startsValue, Cursor.isSpace, hne]

/-- **The parts of a number are a text** of its value. -/
theorem isTextOf_number (number : NumberText)
    (hlimit : number.fraction = [] ∧ number.exponent = none →
      number.whole.length ≤ integerDigitLimit) : IsTextOf (.scalar number.value) number.chars := by
  obtain ⟨digit, whole, hwhole⟩ := List.exists_cons_of_ne_nil number.whole_ne_nil
  have hdigit := number.whole_isDigit digit (by rw [hwhole]; exact List.mem_cons_self)
  obtain ⟨c, more, hchars, hc, hstarts, hword⟩ : ∃ c more, number.chars = c :: more ∧
      (c ≠ '"' ∧ c ≠ '\x7b' ∧ c ≠ '[') ∧ startsValue c = true ∧
      ∀ place rest, readWord ⟨place, c :: more ++ rest⟩ = none := by
    rw [NumberText.chars, NumberText.signChars, hwhole]
    cases number.negative with
    | true =>
      exact ⟨_, _, rfl, by decide, by decide, fun place rest => readWord_minus hdigit place _⟩
    | false =>
      exact ⟨_, _, rfl, (digit_ne hdigit).1, (digit_ne hdigit).2,
        fun place rest => readWord_digit hdigit place _⟩
  refine ⟨⟨c, more, hchars, hstarts⟩, fun {fuel} place rest hends hfuel => ?_⟩
  rw [← readNumber_chars number hends place hlimit]
  rw [hchars] at hfuel ⊢
  obtain ⟨fuel, rfl⟩ := Nat.exists_eq_add_one_of_ne_zero (n := fuel) (by
    rw [List.length_cons] at hfuel
    omega)
  exact readValue_number hc (hword place rest)

/-! ### Scalars -/

/-- An integer that is written is not too long to be read:
`(Nat.toDigits 10 n.natAbs).length ≤ integerDigitLimit`. -/
theorem length_toDigits_le {n : Int} (h : (Numeral.intText? n).isSome = true) :
    (Nat.toDigits 10 n.natAbs).length ≤ integerDigitLimit := by
  rw [Numeral.intText?, Option.isSome_iff_ne_none] at h
  have hle : (toString n.natAbs).length ≤ integerDigitLimit := by
    by_contra hlt
    exact h (if_pos (Nat.lt_of_not_le hlt))
  rwa [Nat.toString_eq_repr, ← String.length_toList, Nat.toList_repr] at hle

/-- A text is a text of itself. -/
theorem isTextOf_text {s : String} (h : Unpaired s.toList) :
    IsTextOf (.scalar (.text s)) (text s).toList := by
  refine ⟨⟨_, _, toList_text s, by decide⟩, fun {fuel} place rest _ hfuel => ?_⟩
  have hread := readTextAt_text h place rest
  rw [toList_text] at hread hfuel ⊢
  obtain ⟨fuel, rfl⟩ := Nat.exists_eq_add_one_of_ne_zero (n := fuel) (by
    rw [List.length_cons] at hfuel
    omega)
  rw [List.cons_append, readValue]
  rw [List.cons_append] at hread
  simp only [hread]
  rfl

/-- **A scalar that is carried is written as a text** of it: `writeScalar s`. -/
theorem isTextOf_scalar {s : Scalar} (h : CarriesScalar s) :
    IsTextOf (.scalar s) (writeScalar s).toList := by
  have hword {s : Scalar} (hmem : (writeScalar s, s) ∈ words) :
      IsTextOf (.scalar s) (writeScalar s).toList := isTextOf_word hmem
  cases s with
  | null => exact hword (by decide)
  | bool b => cases b <;> exact hword (by decide)
  | int n =>
    have htext := isTextOf_number (.ofInt n) fun _ => length_toDigits_le h
    rwa [NumberText.value_ofInt, NumberText.chars_ofInt] at htext
  | float x =>
    cases x with
    | nan => exact hword (by decide)
    | infinity negative => cases negative <;> exact hword (by decide)
    | finite negative mantissa exponent canonical =>
      obtain ⟨number, hfloat, hchars, hvalue⟩ := exists_numberText canonical
      have htext := isTextOf_number number fun hint => absurd hint hfloat
      rwa [hvalue, hchars] at htext
  | text s => exact isTextOf_text h
  | moment => exact h.elim
  | bytes => exact h.elim

/-! ### Lists -/

/-- A comma and the closing brackets end a number. -/
theorem ends_cons (h : c = ',' ∨ c = ']' ∨ c = '\x7d') : Ends (c :: rest) := by
  rintro _ ⟨⟩
  exact h

/-- The characters of texts with a comma and a blank between them. -/
def joined (texts : List (List Char)) : List Char := [',', ' '].intercalate texts

/-- One text alone is joined as it is: `joined [text] = text`. -/
@[simp] theorem joined_singleton (text : List Char) : joined [text] = text :=
  List.intercalate_singleton

/-- Texts are joined with a comma and a blank between them. -/
theorem joined_cons_cons (first second : List Char) (texts : List (List Char)) :
    joined (first :: second :: texts) = first ++ ',' :: ' ' :: joined (second :: texts) := by
  rw [joined, List.intercalate_cons_cons, List.append_assoc]
  rfl

/-- The text of a tree is not empty. -/
theorem IsTextOf.ne_nil {tree : Tree} {chars : List Char} (h : IsTextOf tree chars) : chars ≠ [] := by
  obtain ⟨c, more, rfl, -⟩ := h.starts
  exact List.cons_ne_nil c more

/-- The text of a tree starts with no white space, and with no closing bracket. -/
theorem IsTextOf.stops {tree : Tree} {chars : List Char} (h : IsTextOf tree chars)
    (rest : List Char) :
    Stops Cursor.isSpace (chars ++ rest) ∧ Stops (· == ']') (chars ++ rest) := by
  obtain ⟨c, more, rfl, hstarts⟩ := h.starts
  simp only [startsValue, Bool.and_eq_true, Bool.not_eq_true', bne_iff_ne] at hstarts
  constructor
  · rintro _ ⟨⟩
    exact hstarts.1.1
  · rintro _ ⟨⟩
    exact beq_eq_false_iff_ne.mpr hstarts.1.2

/-- Texts that are joined start as the first one does. -/
theorem stops_joined {test : Char → Bool} {text : List Char} (texts : List (List Char))
    (h : Stops test (text ++ rest)) (hne : text ≠ []) : Stops test (joined (text :: texts) ++ rest) := by
  obtain ⟨c, more, rfl⟩ := List.exists_cons_of_ne_nil hne
  cases texts with
  | nil => rwa [joined_singleton]
  | cons second texts =>
    rw [joined_cons_cons]
    rintro _ ⟨⟩
    exact h c rfl

/-- What separates values is a comma and a blank. -/
theorem skipSpace_separator (place : Nat) (h : Stops Cursor.isSpace rest) :
    Cursor.skipSpace (Cursor.skip ⟨place, ',' :: ' ' :: rest⟩ 1) = ⟨place + 2, rest⟩ :=
  Cursor.skipSpace_blank (place + 1) h

/-- The last item of a list is read with the closing bracket. -/
theorem readItems_last {cursor : Cursor} {item : Tree}
    (hitem : readValue fuel cursor = .ok (item, ⟨place, ']' :: rest⟩)) :
    readItems (fuel + 1) cursor = .ok ([item], ⟨place + 1, rest⟩) := by
  have hstops : Stops Cursor.isSpace (']' :: rest) := (ends_cons (by decide)).stops (by decide)
  rw [readItems, hitem]
  simp only [ok_bind, Cursor.skipSpace_of_stops _ hstops]
  rfl

/-- An item with a comma behind it is read before the others. -/
theorem readItems_more {cursor last : Cursor} {item : Tree} {items : List Tree}
    (hitem : readValue fuel cursor = .ok (item, ⟨place, ',' :: ' ' :: rest⟩))
    (hrest : Stops Cursor.isSpace rest)
    (hlater : readItems fuel ⟨place + 2, rest⟩ = .ok (items, last)) :
    readItems (fuel + 1) cursor = .ok (item :: items, last) := by
  have hstops : Stops Cursor.isSpace (',' :: ' ' :: rest) := (ends_cons (by decide)).stops (by decide)
  rw [readItems, hitem]
  simp only [ok_bind, Cursor.skipSpace_of_stops _ hstops, skipSpace_separator _ hrest, hlater]
  rfl

/-- **The items of a list are read** by `readItems` from their texts, and the closing bracket with
them. -/
theorem readItems_joined {items : List Tree} {texts : List (List Char)}
    (h : List.Forall₂ IsTextOf items texts) (hne : items ≠ []) (place : Nat) (rest : List Char)
    (hfuel : 2 * ((joined texts).length + 1) ≤ fuel) :
    readItems fuel ⟨place, joined texts ++ ']' :: rest⟩
      = .ok (items, ⟨place + ((joined texts).length + 1), rest⟩) := by
  induction h generalizing fuel place with
  | nil => exact absurd rfl hne
  | @cons item chars items texts hitem hitems ih =>
    obtain ⟨fuel, rfl⟩ := Nat.exists_eq_add_one_of_ne_zero (n := fuel) (by omega)
    cases hitems with
    | nil =>
      rw [joined_singleton] at hfuel ⊢
      exact readItems_last (hitem.reads place (ends_cons (by decide)) (by omega))
    | @cons second chars' items texts hsecond hitems =>
      rw [joined_cons_cons, List.length_append, List.length_cons, List.length_cons] at hfuel
      have hlater : readItems fuel ⟨place + chars.length + 2, joined (chars' :: texts) ++ ']' :: rest⟩
          = _ := ih (List.cons_ne_nil _ _) _ (by omega)
      rw [joined_cons_cons, List.append_assoc, List.cons_append, List.cons_append]
      have hread := readItems_more (hitem.reads place (ends_cons (by decide)) (by omega))
        (stops_joined texts (hsecond.stops _).1 hsecond.ne_nil) hlater
      rw [hread, List.length_append, List.length_cons, List.length_cons]
      congr 3
      omega

/-- **The texts of the items in brackets** are a text of the list. -/
theorem isTextOf_list {items : List Tree} {texts : List (List Char)}
    (h : List.Forall₂ IsTextOf items texts) : IsTextOf (.list items) ('[' :: (joined texts ++ [']'])) := by
  refine ⟨⟨_, _, rfl, by decide⟩, fun {fuel} place rest _ hfuel => ?_⟩
  rw [List.length_cons, List.length_append, List.length_singleton] at hfuel
  obtain ⟨fuel, rfl⟩ := Nat.exists_eq_add_one_of_ne_zero (n := fuel) (by omega)
  rw [List.cons_append, List.append_assoc, List.singleton_append, readValue]
  have hinside (hspace : Stops Cursor.isSpace (joined texts ++ ']' :: rest)) :
      Cursor.skipSpace (Cursor.skip ⟨place, '[' :: (joined texts ++ ']' :: rest)⟩ 1)
        = ⟨place + 1, joined texts ++ ']' :: rest⟩ := Cursor.skipSpace_of_stops (place + 1) hspace
  -- the reader looks for the closing bracket before it reads an item
  cases h with
  | nil =>
    simp only [hinside ((ends_cons (by decide)).stops (by decide))]
    rfl
  | @cons item chars items texts hitem hitems =>
    obtain ⟨hspace, hclosing⟩ := hitem.stops (']' :: rest)
    have hopen : ¬ (joined (chars :: texts) ++ ']' :: rest).head? = some ']' := fun hhead =>
      absurd (stops_joined texts hclosing hitem.ne_nil ']' hhead) (by decide)
    have hplace : place + 1 + ((joined (chars :: texts)).length + 1)
        = place + ('[' :: (joined (chars :: texts) ++ [']'])).length := by
      rw [List.length_cons, List.length_append, List.length_singleton]
      omega
    simp only [hinside (stops_joined texts hspace hitem.ne_nil), if_neg hopen]
    rw [readItems_joined (.cons hitem hitems) (List.cons_ne_nil _ _) (place + 1) rest (by omega),
      ok_bind, hplace]
    rfl

/-! ### Maps -/

/-- The characters of an entry. -/
def pairChars (name : String) (value : List Char) : List Char :=
  (text name).toList ++ ':' :: ' ' :: value

/-- **A key is read** up to the value that follows it. -/
theorem readKey {name : String} (hname : Unpaired name.toList) (place : Nat) {value : List Char}
    (hvalue : Stops Cursor.isSpace value) :
    readTextAt ⟨place, pairChars name value⟩
        = .ok (name, ⟨place + (text name).toList.length, ':' :: ' ' :: value⟩) ∧
      Cursor.skipSpace ⟨place + (text name).toList.length, ':' :: ' ' :: value⟩
        = ⟨place + (text name).toList.length, ':' :: ' ' :: value⟩ ∧
      Cursor.skipSpace (Cursor.skip ⟨place + (text name).toList.length, ':' :: ' ' :: value⟩ 1)
        = ⟨place + (text name).toList.length + 2, value⟩ := by
  refine ⟨readTextAt_text hname place _, Cursor.skipSpace_of_stops _ ?_,
    Cursor.skipSpace_blank _ hvalue⟩
  rintro _ ⟨⟩
  rfl

/-- An entry of a map starts with the quote of its key:
`(pairChars name value).head? = some '"'`. -/
theorem head?_pairChars (name : String) (value : List Char) :
    (pairChars name value).head? = some '"' := by
  rw [pairChars, toList_text]
  rfl

/-- The last entry of a map is read with the closing brace. -/
theorem readPairs_last {name : String} {tree : Tree} {value : List Char} {after : Nat}
    (hname : Unpaired name.toList) (hspace : Stops Cursor.isSpace value)
    (hvalue : readValue fuel ⟨place + (text name).toList.length + 2, value⟩
      = .ok (tree, ⟨after, '\x7d' :: rest⟩)) :
    readPairs (fuel + 1) ⟨place, pairChars name value⟩
      = .ok ([(.text name, tree)], ⟨after + 1, rest⟩) := by
  obtain ⟨hread, hcolon, hblank⟩ := readKey hname place hspace
  have hstops : Stops Cursor.isSpace ('\x7d' :: rest) := (ends_cons (by decide)).stops (by decide)
  rw [readPairs, if_neg (by simp [head?_pairChars]), hread]
  simp only [ok_bind, hcolon, hblank, hvalue, Cursor.skipSpace_of_stops _ hstops]
  rfl

/-- An entry with a comma behind it is read before the others. -/
theorem readPairs_more {name : String} {tree : Tree} {value : List Char} {after : Nat}
    {pairs : List (Scalar × Tree)} {last : Cursor}
    (hname : Unpaired name.toList) (hspace : Stops Cursor.isSpace value)
    (hvalue : readValue fuel ⟨place + (text name).toList.length + 2, value⟩
      = .ok (tree, ⟨after, ',' :: ' ' :: rest⟩))
    (hrest : Stops Cursor.isSpace rest) (hlater : readPairs fuel ⟨after + 2, rest⟩ = .ok (pairs, last)) :
    readPairs (fuel + 1) ⟨place, pairChars name value⟩ = .ok ((.text name, tree) :: pairs, last) := by
  obtain ⟨hread, hcolon, hblank⟩ := readKey hname place hspace
  have hstops : Stops Cursor.isSpace (',' :: ' ' :: rest) := (ends_cons (by decide)).stops (by decide)
  rw [readPairs, if_neg (by simp [head?_pairChars]), hread]
  simp only [ok_bind, hcolon, hblank, hvalue, Cursor.skipSpace_of_stops _ hstops,
    skipSpace_separator _ hrest, hlater]
  rfl

/-- What follows an entry follows its value. -/
theorem pairChars_append (name : String) (value rest : List Char) :
    pairChars name value ++ rest = pairChars name (value ++ rest) :=
  List.append_assoc _ _ _

/-- An entry is as long as its key, the colon and blank, and its value. -/
theorem length_pairChars (name : String) (value : List Char) :
    (pairChars name value).length = (text name).toList.length + 2 + value.length := by
  rw [pairChars, List.length_append, List.length_cons, List.length_cons]
  omega

/-- **An entry and its characters.** -/
inductive IsPairOf : Scalar × Tree → List Char → Prop
  | mk {name : String} {tree : Tree} {value : List Char} (hname : Unpaired name.toList)
      (hvalue : IsTextOf tree value) : IsPairOf (.text name, tree) (pairChars name value)

/-- The characters of an entry start with a quote. -/
theorem IsPairOf.starts {entry : Scalar × Tree} {chars : List Char} (h : IsPairOf entry chars) :
    chars.head? = some '"' := by
  cases h
  exact head?_pairChars _ _

/-- The characters of an entry are not empty. -/
theorem IsPairOf.ne_nil {entry : Scalar × Tree} {chars : List Char} (h : IsPairOf entry chars) :
    chars ≠ [] := by
  rintro rfl
  cases h.starts

/-- The characters of an entry stop every run that has no quotes. -/
theorem IsPairOf.stops {entry : Scalar × Tree} {chars : List Char} (h : IsPairOf entry chars)
    (rest : List Char) {test : Char → Bool} (htest : test '"' = false) :
    Stops test (chars ++ rest) := by
  obtain ⟨c, more, rfl⟩ := List.exists_cons_of_ne_nil h.ne_nil
  cases h.starts
  rintro _ ⟨⟩
  exact htest

/-- **The entries of a map are read** by `readPairs` from their characters, and the closing brace
with them. -/
theorem readPairs_joined {entries : List (Scalar × Tree)} {texts : List (List Char)}
    (h : List.Forall₂ IsPairOf entries texts) (hne : entries ≠ []) (place : Nat) (rest : List Char)
    (hfuel : 2 * ((joined texts).length + 1) ≤ fuel) :
    readPairs fuel ⟨place, joined texts ++ '\x7d' :: rest⟩
      = .ok (entries, ⟨place + ((joined texts).length + 1), rest⟩) := by
  induction h generalizing fuel place with
  | nil => exact absurd rfl hne
  | @cons entry chars entries texts hentry hentries ih =>
    obtain ⟨fuel, rfl⟩ := Nat.exists_eq_add_one_of_ne_zero (n := fuel) (by omega)
    obtain @⟨name, tree, value, hname, hvalue⟩ := hentry
    have hread {tail : List Char} (hends : Ends tail) (hle : 2 * value.length ≤ fuel) :
        readValue fuel ⟨place + (text name).toList.length + 2, value ++ tail⟩
          = .ok (tree, ⟨place + (pairChars name value).length, tail⟩) := by
      rw [hvalue.reads _ hends hle, length_pairChars]
      simp only [Nat.add_assoc]
    -- behind an entry stands the closing brace, or a comma and the entries of the induction
    cases hentries with
    | nil =>
      rw [joined_singleton, length_pairChars] at hfuel
      rw [joined_singleton, pairChars_append]
      have hends : Ends ('\x7d' :: rest) := ends_cons (by decide)
      rw [readPairs_last hname (hvalue.stops _).1 (hread hends (by omega)), Nat.add_assoc]
    | @cons second chars' entries texts hsecond hentries =>
      rw [joined_cons_cons, List.length_append, List.length_cons, List.length_cons,
        length_pairChars] at hfuel
      have hlater : readPairs fuel ⟨place + (pairChars name value).length + 2,
          joined (chars' :: texts) ++ '\x7d' :: rest⟩ = _ := ih (List.cons_ne_nil _ _) _ (by omega)
      have hspace : Stops Cursor.isSpace (joined (chars' :: texts) ++ '\x7d' :: rest) :=
        stops_joined texts (hsecond.stops _ (by decide)) hsecond.ne_nil
      rw [joined_cons_cons, List.append_assoc, List.cons_append, List.cons_append, pairChars_append]
      have hends : Ends (',' :: ' ' :: (joined (chars' :: texts) ++ '\x7d' :: rest)) :=
        ends_cons (by decide)
      rw [readPairs_more hname (hvalue.stops _).1 (hread hends (by omega)) hspace hlater]
      rw [List.length_append, List.length_cons, List.length_cons]
      congr 3
      omega

/-- **The entries in braces** are a text of the map, where the keys are different. -/
theorem isTextOf_map {entries : List (Scalar × Tree)} {texts : List (List Char)}
    (h : List.Forall₂ IsPairOf entries texts) {names : List String}
    (hkeys : entries.map (·.1) = names.map .text) (hnodup : names.Nodup) :
    IsTextOf (.map entries) ('\x7b' :: (joined texts ++ ['\x7d'])) := by
  refine ⟨⟨_, _, rfl, by decide⟩, fun {fuel} place rest _ hfuel => ?_⟩
  rw [List.length_cons, List.length_append, List.length_singleton] at hfuel
  obtain ⟨fuel, rfl⟩ := Nat.exists_eq_add_one_of_ne_zero (n := fuel) (by omega)
  rw [List.cons_append, List.append_assoc, List.singleton_append, readValue]
  have hinside (hspace : Stops Cursor.isSpace (joined texts ++ '\x7d' :: rest)) :
      Cursor.skipSpace (Cursor.skip ⟨place, '\x7b' :: (joined texts ++ '\x7d' :: rest)⟩ 1)
        = ⟨place + 1, joined texts ++ '\x7d' :: rest⟩ := Cursor.skipSpace_of_stops (place + 1) hspace
  cases h with
  | nil =>
    simp only [hinside ((ends_cons (by decide)).stops (by decide))]
    rfl
  | @cons entry chars entries texts hentry hentries =>
    have hspace : Stops Cursor.isSpace (joined (chars :: texts) ++ '\x7d' :: rest) :=
      stops_joined texts (hentry.stops _ (by decide)) hentry.ne_nil
    have hclosing : Stops (· == '\x7d') (joined (chars :: texts) ++ '\x7d' :: rest) :=
      stops_joined texts (hentry.stops _ (by decide)) hentry.ne_nil
    have hopen : ¬ (joined (chars :: texts) ++ '\x7d' :: rest).head? = some '\x7d' := fun hhead =>
      absurd (hclosing '\x7d' hhead) (by decide)
    have hplace : place + 1 + ((joined (chars :: texts)).length + 1)
        = place + ('\x7b' :: (joined (chars :: texts) ++ ['\x7d'])).length := by
      rw [List.length_cons, List.length_append, List.length_singleton]
      omega
    -- the keys are different, so no entry replaces another one
    simp only [hinside hspace, if_neg hopen]
    rw [readPairs_joined (.cons hentry hentries) (List.cons_ne_nil _ _) (place + 1) rest (by omega),
      ok_bind, hplace, Entries.ofPairs_of_nodup hkeys hnodup]
    rfl

/-! ### Whole texts -/

/-- The items of a list are written one by one: `writeItems items = items.map write`. -/
theorem writeItems_eq (items : List Tree) : writeItems items = items.map write := by
  induction items with
  | nil => rfl
  | cons tree items ih => rw [writeItems, ih, List.map_cons]

/-- The entries of a map are written one by one, each as its key and its value. -/
theorem writeEntries_eq (entries : List (Scalar × Tree)) :
    writeEntries entries = entries.map fun entry => writeKey entry.1 ++ ": " ++ write entry.2 := by
  induction entries with
  | nil => rfl
  | cons entry entries ih => rw [writeEntries, ih, List.map_cons]

/-- The text of a list is that of its items between brackets. -/
theorem toList_write_list (items : List Tree) : (write (.list items)).toList
    = '[' :: (joined (items.map fun tree => (write tree).toList) ++ [']']) := by
  rw [write, writeItems_eq, String.toList_append, String.toList_append, String.toList_intercalate,
    List.map_map]
  rfl

/-- The characters of an entry that is written. -/
def entryChars (entry : Scalar × Tree) : List Char :=
  (writeKey entry.1).toList ++ ':' :: ' ' :: (write entry.2).toList

/-- The text of a map is that of its entries between braces. -/
theorem toList_write_map (entries : List (Scalar × Tree)) : (write (.map entries)).toList
    = '\x7b' :: (joined (entries.map entryChars) ++ ['\x7d']) := by
  have hentries : (entries.map fun entry => writeKey entry.1 ++ ": " ++ write entry.2).map String.toList
      = entries.map entryChars := by
    rw [List.map_map]
    refine List.map_congr_left fun entry _ => ?_
    show (writeKey entry.1 ++ ": " ++ write entry.2).toList = _
    rw [String.toList_append, String.toList_append, List.append_assoc]
    rfl
  rw [write, writeEntries_eq, String.toList_append, String.toList_append, String.toList_intercalate,
    hentries]
  rfl

/-- **A tree that is carried is written as a text** of it: `IsTextOf tree` holds of `write tree`. -/
theorem isTextOf_write {tree : Tree} (h : Carries tree) : IsTextOf tree (write tree).toList := by
  induction h with
  | @scalar s hs =>
    rw [write]
    exact isTextOf_scalar hs
  | @list items _ ih =>
    rw [toList_write_list]
    exact isTextOf_list (List.forall₂_map_right_iff.mpr (List.forall₂_same.mpr ih))
  | @map entries keys _ ih =>
    obtain ⟨names, hkeys, hnodup, hnames⟩ := keys
    rw [toList_write_map]
    refine isTextOf_map (List.forall₂_map_right_iff.mpr (List.forall₂_same.mpr ?_)) hkeys hnodup
    rintro ⟨key, tree⟩ hentry
    have hkey : key ∈ names.map .text := hkeys ▸ List.mem_map_of_mem hentry
    obtain ⟨name, hname, rfl⟩ := List.mem_map.mp hkey
    exact .mk (hnames name hname) (ih _ hentry)

/-- **A tree that is carried is read back** from its JSON text: `read (write tree) = .ok tree`. -/
theorem read_write {tree : Tree} (h : Carries tree) : read (write tree) = .ok tree := by
  have htext := isTextOf_write h
  have hmark : ¬ (write tree).toList.head? = some '\ufeff' := by
    obtain ⟨c, more, hchars, hstarts⟩ := htext.starts
    rw [hchars]
    rintro ⟨⟩
    exact absurd hstarts (by decide)
  have hread := htext.reads 0 ends_nil (Nat.le_add_right _ 2)
  have hspace := Cursor.skipSpace_of_stops 0 (htext.stops []).1
  rw [List.append_nil] at hread hspace
  rw [read]
  simp only [if_neg hmark, hspace, hread, ok_bind]
  rfl

end Parts

end Json

end ModuleSurface
