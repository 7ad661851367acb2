import Mathlib.Data.List.Chain
import ModuleSurface.Json.Reader
import ModuleSurface.Json.Writer
import ModuleSurface.Proofs.JsonNumber

/-! # Texts in JSON

A text that is written between quotes is read back, character by character, but for one thing: the
escape of the first half of a surrogate pair joins with that of a second half that follows it. So a
text is carried when no two halves in it stand as a pair does.

* **`Json.Unpaired`** — no second half follows a first half.
* **`Json.readText_escape`** — a character is read from its escape.
* **`Json.readTextAt_text`** — a text is read back. -/

namespace ModuleSurface

/-! ## Hexadecimal digits -/

/-- Hexadecimal digits one after the other. -/
theorem hexNumber?_append (digits : List Char) (c : Char) :
    hexNumber? (digits ++ [c])
      = (hexNumber? digits).bind fun n => (hexValue? c).map (16 * n + ·) := by
  rw [hexNumber?, List.foldlM_append]
  cases hdigits : hexNumber? digits with
  | none =>
    rw [hexNumber?] at hdigits
    rw [hdigits]
    rfl
  | some n =>
    rw [hexNumber?] at hdigits
    rw [hdigits]
    simp

/-- The digit of a value below sixteen has this value: `hexValue? n.digitChar = some n`. -/
theorem hexValue?_digitChar {n : Nat} (h : n < 16) : hexValue? n.digitChar = some n := by
  have hall : ∀ n < 16, hexValue? n.digitChar = some n := by decide
  exact hall n h

/-- The hexadecimal digits of a number are read back. -/
theorem hexNumber?_toDigits (n : Nat) : hexNumber? (Nat.toDigits 16 n) = some n := by
  induction n using Nat.strongRecOn with
  | _ n ih =>
    rw [Nat.toDigits_eq_if (by decide)]
    split
    · next hlt =>
      show hexNumber? ([] ++ [n.digitChar]) = some n
      rw [hexNumber?_append, hexValue?_digitChar hlt]
      simp [hexNumber?]
    · next hge =>
      rw [hexNumber?_append, ih (n / 16) (by omega), hexValue?_digitChar (Nat.mod_lt n (by decide))]
      simp only [Option.bind_some, Option.map_some, Option.some.injEq]
      omega

/-- Leading zeros keep the number. -/
theorem hexNumber?_zeros (count : Nat) (digits : List Char) :
    hexNumber? (List.replicate count '0' ++ digits) = hexNumber? digits := by
  induction count with
  | zero => rfl
  | succ count ih => exact ih

/-- Padding keeps the number: `hexNumber? (hexPadded width code) = some code`. -/
theorem hexNumber?_hexPadded (width code : Nat) : hexNumber? (hexPadded width code) = some code := by
  rw [hexPadded, hexNumber?_zeros, hexNumber?_toDigits]

/-- A code that fits into `width` digits is written in as many. -/
theorem length_hexPadded {width code : Nat} (hwidth : 0 < width) (h : code < 16 ^ width) :
    (hexPadded width code).length = width := by
  have hle : (Nat.toDigits 16 code).length ≤ width :=
    (Nat.length_toDigits_le_iff (by decide) hwidth).mpr h
  rw [hexPadded, List.length_append, List.length_replicate]
  omega

/-! ## Codes -/

/-- The code of a half lies `halfDistance` before its character. -/
theorem codeOf_of_isHalf {c : Char} (h : isHalf c = true) : codeOf c = c.toNat - halfDistance := by
  rw [codeOf, if_pos h]

/-- The halves hold 2048 places, from `0xD800 + 0xF0000` on. -/
theorem isHalf_iff {c : Char} :
    isHalf c = true ↔ 0xD800 + 0xF0000 ≤ c.toNat ∧ c.toNat < 0xE000 + 0xF0000 := by
  rw [isHalf, Bool.and_eq_true, decide_eq_true_iff, decide_eq_true_iff]
  rfl

/-- The code of a character that is no half is none of a half. -/
theorem not_half_of_not_isHalf {c : Char} (h : isHalf c = false) :
    ¬ (0xD800 ≤ codeOf c ∧ codeOf c < 0xE000) := by
  have hvalid : c.toNat < 0xD800 ∨ (0xDFFF < c.toNat ∧ c.toNat < 0x110000) := c.valid
  rw [codeOf_of_not_isHalf h]
  omega

/-- **The character of the code of a character** is this character: `charOfCode (codeOf c) = c`. -/
@[simp] theorem charOfCode_codeOf (c : Char) : charOfCode (codeOf c) = c := by
  cases hhalf : isHalf c with
  | true =>
    have hbounds := isHalf_iff.mp hhalf
    have hcode : 0xD800 ≤ codeOf c ∧ codeOf c < 0xE000 := by
      rw [codeOf_of_isHalf hhalf, halfDistance]
      omega
    have hback : codeOf c + halfDistance = c.toNat := by
      rw [codeOf_of_isHalf hhalf, halfDistance]
      omega
    rw [charOfCode, if_pos hcode, hback, Char.ofNat_toNat]
  | false =>
    rw [charOfCode, if_neg (not_half_of_not_isHalf hhalf), codeOf_of_not_isHalf hhalf,
      Char.ofNat_toNat]

/-- A code that is beyond 16 bits is that of a character of two units. -/
theorem codeOf_bounds {c : Char} (h : 0x10000 ≤ codeOf c) :
    codeOf c = c.toNat ∧ c.toNat < 0x110000 := by
  have hvalid : c.toNat < 0xD800 ∨ (0xDFFF < c.toNat ∧ c.toNat < 0x110000) := c.valid
  cases hhalf : isHalf c with
  | true =>
    have hbounds := isHalf_iff.mp hhalf
    rw [codeOf_of_isHalf hhalf, halfDistance] at h
    omega
  | false => exact ⟨codeOf_of_not_isHalf hhalf, by omega⟩

/-- The units of a character beyond 16 bits join to this character. -/
theorem joinUnits_codeOf {c : Char} (h : 0x10000 ≤ codeOf c) :
    joinUnits (0xD800 + (codeOf c - 0x10000) / 0x400) (0xDC00 + (codeOf c - 0x10000) % 0x400) = c := by
  obtain ⟨hcode, -⟩ := codeOf_bounds h
  have hsum : 0x10000 + (0xD800 + (codeOf c - 0x10000) / 0x400 - 0xD800) * 0x400
      + (0xDC00 + (codeOf c - 0x10000) % 0x400 - 0xDC00) = c.toNat := by
    omega
  rw [joinUnits, hsum, Char.ofNat_toNat]

namespace Json

/-- **No second half follows a first half**: no two characters would join when they are read from
their escapes. -/
def Unpaired (text : List Char) : Prop :=
  text.IsChain fun c d => ¬ (isHighUnit (codeOf c) = true ∧ isLowUnit (codeOf d) = true)

instance (text : List Char) : Decidable (Unpaired text) := inferInstanceAs (Decidable (List.IsChain _ _))

/-! ## Units -/

section Units

variable {opening fuel place unit : Nat} {rest : List Char}

/-- The digits of a unit are read, where something follows them. -/
theorem unitDigits?_append (hunit : unit < 0x10000) (hrest : rest ≠ []) :
    unitDigits? (hexPadded 4 unit ++ rest) = some (unit, rest) := by
  have hlength : (hexPadded 4 unit).length = 4 := length_hexPadded (by decide) (by simpa using hunit)
  have hnumber := hexNumber?_hexPadded 4 unit
  obtain ⟨c, rest, rfl⟩ := List.exists_cons_of_ne_nil hrest
  generalize hexPadded 4 unit = digits at hlength hnumber ⊢
  match digits, hlength with
  | [_, _, _, _], _ =>
    rw [List.cons_append, List.cons_append, List.cons_append, List.cons_append, List.nil_append,
      unitDigits?, hnumber]
    rfl

/-- The escape of a unit has six characters: `(unitEscape unit).length = 6`. -/
theorem length_unitEscape (hunit : unit < 0x10000) : (unitEscape unit).length = 6 := by
  rw [unitEscape, List.length_cons, List.length_cons,
    length_hexPadded (by decide) (by simpa using hunit)]

/-- **No second half is read** where a text goes on. -/
def NoSecond (rest : List Char) : Prop :=
  startsSecond rest = true →
    ∃ second after, unitDigits? (rest.drop 2) = some (second, after) ∧ isLowUnit second = false

/-- A quote is no second half. -/
theorem noSecond_quote (rest : List Char) : NoSecond ('"' :: rest) := nofun

/-- A plain character is read by `readText` as it is. -/
theorem readText_plain {c : Char} (hquote : c ≠ '"') (hslash : c ≠ '\\')
    (hcontrol : ¬ c.toNat < 0x20) : readText opening (fuel + 1) ⟨place, c :: rest⟩ = (do
      let (chars, cursor) ← readText opening fuel ⟨place + 1, rest⟩
      return (c :: chars, cursor)) := by
  rw [readText]
  split
  · next heq => cases heq
  · next heq => cases heq; exact absurd rfl hquote
  · next heq => cases heq; exact absurd rfl hslash
  · next heq => cases heq; exact absurd rfl hslash
  · next heq => cases heq; exact absurd rfl hslash
  · next heq =>
    cases heq
    rw [if_neg hcontrol]
    rfl

/-- A letter behind a backslash is read as what `unescape?` answers. -/
theorem readText_letter {letter c : Char} (h : unescape? letter = some c) (hu : letter ≠ 'u') :
    readText opening (fuel + 1) ⟨place, '\\' :: letter :: rest⟩ = (do
      let (chars, cursor) ← readText opening fuel ⟨place + 2, rest⟩
      return (c :: chars, cursor)) := by
  rw [readText]
  simp only [h]
  rfl

/-- A unit is read from its `unitEscape`, where no second half joins it. -/
theorem readText_unit (hunit : unit < 0x10000) (hrest : rest ≠ [])
    (hsecond : isHighUnit unit = true → NoSecond rest) :
    readText opening (fuel + 1) ⟨place, unitEscape unit ++ rest⟩ = (do
      let (chars, cursor) ← readText opening fuel ⟨place + (unitEscape unit).length, rest⟩
      return (charOfCode unit :: chars, cursor)) := by
  have hlength := length_unitEscape hunit
  have hskip : Cursor.skip ⟨place, unitEscape unit ++ rest⟩ 6 = ⟨place + 6, rest⟩ :=
    Cursor.skip_append _ _ _ hlength
  rw [hlength, ← hskip, unitEscape, List.cons_append, List.cons_append, readText]
  simp only [unitDigits?_append hunit hrest]
  split
  · next hboth =>
    rw [Bool.and_eq_true] at hboth
    obtain ⟨second, after, hdigits, hlow⟩ := hsecond hboth.1 hboth.2
    simp only [hdigits, hlow]
    rfl
  · rfl

/-- Two units that stand as a pair are read as one character. -/
theorem readText_pair {second : Nat} (hunit : unit < 0x10000) (hsecond : second < 0x10000)
    (hrest : rest ≠ []) (hhigh : isHighUnit unit = true) (hlow : isLowUnit second = true) :
    readText opening (fuel + 1) ⟨place, unitEscape unit ++ (unitEscape second ++ rest)⟩ = (do
      let (chars, cursor) ←
        readText opening fuel ⟨place + (unitEscape unit ++ unitEscape second).length, rest⟩
      return (joinUnits unit second :: chars, cursor)) := by
  have hlength : (unitEscape unit ++ unitEscape second).length = 12 := by
    rw [List.length_append, length_unitEscape hunit, length_unitEscape hsecond]
  have hskip : Cursor.skip ⟨place, unitEscape unit ++ (unitEscape second ++ rest)⟩ 12
      = ⟨place + 12, rest⟩ := by
    rw [← List.append_assoc]
    exact Cursor.skip_append _ _ _ hlength
  -- twelve characters are read at once: the look-ahead must see the whole second escape
  have hstarts : startsSecond (unitEscape second ++ rest) = true := by
    have hpos : 0 < rest.length := List.length_pos_of_ne_nil hrest
    have hdigits : (hexPadded 4 second).length = 4 :=
      length_hexPadded (by decide) (by simpa using hsecond)
    rw [unitEscape, List.cons_append, List.cons_append, startsSecond, decide_eq_true_iff,
      List.length_append]
    omega
  have hfirst : unitDigits? (hexPadded 4 unit ++ (unitEscape second ++ rest))
      = some (unit, unitEscape second ++ rest) :=
    unitDigits?_append hunit (List.append_ne_nil_of_left_ne_nil (List.cons_ne_nil _ _) rest)
  have hdigits : unitDigits? ((unitEscape second ++ rest).drop 2) = some (second, rest) :=
    unitDigits?_append hsecond hrest
  rw [hlength, ← hskip, unitEscape, List.cons_append, List.cons_append, readText]
  simp only [hfirst, hhigh, hstarts, Bool.and_self, if_true, hdigits, hlow]

/-- A unit that is no second half joins nothing. -/
theorem noSecond_unitEscape (hunit : unit < 0x10000) (hlow : isLowUnit unit = false)
    (hrest : rest ≠ []) : NoSecond (unitEscape unit ++ rest) :=
  fun _ => ⟨unit, rest, unitDigits?_append hunit hrest, hlow⟩

end Units

/-! ## Characters -/

section Characters

variable {opening fuel place : Nat} {rest : List Char}

/-- **How a character is written**: by a letter behind a backslash, as it is, by its unit, or by its
two units. -/
inductive Escaped (c : Char) : List Char → Prop
  | letter {letter : Char} (h : unescape? letter = some c) (hu : letter ≠ 'u') :
      Escaped c ['\\', letter]
  | plain (hquote : c ≠ '"') (hslash : c ≠ '\\') (hcontrol : ¬ c.toNat < 0x20) : Escaped c [c]
  | unit (h : codeOf c < 0x10000) : Escaped c (unitEscape (codeOf c))
  | pair (h : 0x10000 ≤ codeOf c) : Escaped c (unitEscape (0xD800 + (codeOf c - 0x10000) / 0x400)
      ++ unitEscape (0xDC00 + (codeOf c - 0x10000) % 0x400))

/-- Each character is written in one of the ways of `Escaped`. -/
theorem escaped (c : Char) : Escaped c (escape c) := by
  unfold escape
  split
  case h_8 hquote hslash _ _ _ _ _ =>
    dsimp only
    split
    · next hprintable =>
      refine .plain hquote hslash fun hcontrol => ?_
      have hnot : isHalf c = false := by
        rw [← Bool.not_eq_true, isHalf_iff]
        omega
      rw [codeOf_of_not_isHalf hnot] at hprintable
      omega
    split
    · next hlt => exact .unit hlt
    · next hge => exact .pair (Nat.le_of_not_lt hge)
  all_goals exact .letter rfl (by decide)

/-- What a second half is read from is the escape of one. -/
theorem noSecond_escape {c : Char} (hlow : isLowUnit (codeOf c) = false) (hrest : rest ≠ []) :
    NoSecond (escape c ++ rest) := by
  have h := escaped c
  generalize escape c = chars at h
  cases h with
  | letter h hu =>
    intro hstarts
    unfold startsSecond at hstarts
    split at hstarts
    · next heq =>
      cases heq
      exact absurd rfl hu
    · cases hstarts
  | plain hquote hslash hcontrol =>
    intro hstarts
    unfold startsSecond at hstarts
    split at hstarts
    · next heq =>
      cases heq
      exact absurd rfl hslash
    · cases hstarts
  | unit h => exact noSecond_unitEscape h hlow hrest
  -- a pair begins with a first half, which is no second one
  | pair h =>
    obtain ⟨hcode, hbound⟩ := codeOf_bounds h
    rw [List.append_assoc]
    refine noSecond_unitEscape (by omega) ?_
      (List.append_ne_nil_of_left_ne_nil (List.cons_ne_nil _ _) rest)
    rw [isLowUnit, Bool.and_eq_false_iff, decide_eq_false_iff_not]
    omega

/-- **A character is read from its escape**: `readText` takes `escape c` for `c`. -/
theorem readText_escape (c : Char) (hrest : rest ≠ [])
    (hsecond : isHighUnit (codeOf c) = true → NoSecond rest) :
    readText opening (fuel + 1) ⟨place, escape c ++ rest⟩ = (do
      let (chars, cursor) ← readText opening fuel ⟨place + (escape c).length, rest⟩
      return (c :: chars, cursor)) := by
  have h := escaped c
  generalize escape c = chars at h
  cases h with
  | letter h hu => exact readText_letter h hu
  | plain hquote hslash hcontrol => exact readText_plain hquote hslash hcontrol
  | unit h =>
    rw [readText_unit h hrest hsecond, charOfCode_codeOf]
  | pair h =>
    obtain ⟨hcode, hbound⟩ := codeOf_bounds h
    rw [List.append_assoc, readText_pair (by omega) (by omega) hrest ?_ ?_, joinUnits_codeOf h]
    · rw [isHighUnit, Bool.and_eq_true, decide_eq_true_iff, decide_eq_true_iff]
      omega
    · rw [isLowUnit, Bool.and_eq_true, decide_eq_true_iff, decide_eq_true_iff]
      omega

/-- No character is written as nothing: `escape c ≠ []`. -/
theorem escape_ne_nil (c : Char) : escape c ≠ [] := by
  have h := escaped c
  generalize escape c = chars at h
  cases h with
  | pair => exact List.append_ne_nil_of_left_ne_nil (List.cons_ne_nil _ _) _
  | _ => exact List.cons_ne_nil _ _

/-- What stands behind a first half joins nothing. -/
theorem Unpaired.noSecond {c : Char} {chars : List Char} (h : Unpaired (c :: chars))
    (hhigh : isHighUnit (codeOf c) = true) (rest : List Char) :
    NoSecond (chars.flatMap escape ++ '"' :: rest) := by
  cases chars with
  | nil => exact noSecond_quote rest
  | cons d chars =>
    have hpair := (List.isChain_cons_cons.mp h).1
    have hlow : isLowUnit (codeOf d) = false := Bool.eq_false_iff.mpr fun hlow => hpair ⟨hhigh, hlow⟩
    rw [List.flatMap_cons, List.append_assoc]
    exact noSecond_escape hlow (List.append_ne_nil_of_right_ne_nil _ (List.cons_ne_nil _ _))

end Characters

/-! ## Texts -/

/-- The characters of a text are read up to its closing quote. -/
theorem readText_chars {chars : List Char} (h : Unpaired chars) (opening place : Nat)
    (rest : List Char) {fuel : Nat} (hfuel : (chars.flatMap escape).length < fuel) :
    readText opening fuel ⟨place, chars.flatMap escape ++ '"' :: rest⟩
      = .ok (chars, ⟨place + (chars.flatMap escape).length + 1, rest⟩) := by
  induction chars generalizing place fuel with
  | nil =>
    obtain _ | fuel := fuel
    · exact absurd hfuel (Nat.not_lt_zero _)
    rfl
  | cons c chars ih =>
    obtain _ | fuel := fuel
    · exact absurd hfuel (Nat.not_lt_zero _)
    have hpos : 0 < (escape c).length := List.length_pos_of_ne_nil (escape_ne_nil c)
    rw [List.flatMap_cons, List.length_append] at hfuel
    rw [List.flatMap_cons, List.append_assoc, readText_escape c
      (List.append_ne_nil_of_right_ne_nil _ (List.cons_ne_nil _ _)) fun hhigh => h.noSecond hhigh rest,
      ih (List.IsChain.tail h) _ (by omega), List.length_append, Nat.add_assoc place]
    rfl

/-- The text in JSON is the escapes of the characters between quotes. -/
theorem toList_text (s : String) : (text s).toList = '"' :: (s.toList.flatMap escape ++ ['"']) := by
  rw [text, String.toList_ofList]

/-- **A text is read back** from its JSON text by `readTextAt`, where no two halves of it stand as a
pair. -/
theorem readTextAt_text {s : String} (h : Unpaired s.toList) (place : Nat) (rest : List Char) :
    readTextAt ⟨place, (text s).toList ++ rest⟩
      = .ok (s, ⟨place + (text s).toList.length, rest⟩) := by
  have hskip : Cursor.skip ⟨place, (text s).toList ++ rest⟩ 1
      = ⟨place + 1, s.toList.flatMap escape ++ '"' :: rest⟩ := by
    rw [toList_text]
    simp [Cursor.skip]
  have hfuel : (s.toList.flatMap escape).length < ((text s).toList ++ rest).length + 1 := by
    rw [toList_text, List.length_append, List.length_cons, List.length_append]
    omega
  rw [readTextAt, hskip, readText_chars h place (place + 1) rest hfuel]
  have hplace : place + 1 + (s.toList.flatMap escape).length + 1
      = place + (text s).toList.length := by
    rw [toList_text, List.length_cons, List.length_append, List.length_singleton]
    omega
  show Except.ok (String.ofList s.toList, _) = _
  rw [String.ofList_toList, hplace]

end Json

end ModuleSurface
