import Mathlib.Data.List.TakeWhile
import Mathlib.Tactic.IntervalCases
import ModuleSurface.Proofs.DecimalText

/-! # Numbers read as doubles

The text of a number, whatever layout it is written in, is one that the reader of doubles takes: it
has no blanks and no underscores, its digits are those of the first script, and nothing but the
exponent stands behind the fraction.

* **`Json.NumberText.readDouble_chars`** — the double that is read from the parts of a number.
* **`Json.NumberText.parts_eq_of_chars_eq`** — the text of a number says what it denotes. -/

namespace ModuleSurface

/-! ## Digits of the first script -/

/-- The digits of the first script. -/
theorem mem_digits_of_isDigit {c : Char} (h : c.isDigit = true) : c ∈ "0123456789".toList := by
  obtain ⟨hle, hge⟩ : 48 ≤ c.toNat ∧ c.toNat ≤ 57 := by
    rw [Char.isDigit, Bool.and_eq_true, decide_eq_true_iff, decide_eq_true_iff] at h
    exact h
  rw [← Char.ofNat_toNat c]
  generalize c.toNat = n at hle hge
  interval_cases n <;> decide

/-- The digits of the first script have the value of `digitOf`. -/
theorem digitValue?_of_isDigit {c : Char} (h : c.isDigit = true) :
    digitValue? c = some (Json.digitOf c) := by
  have hall : "0123456789".toList.all (fun c => digitValue? c == some (Json.digitOf c)) = true := by
    decide
  exact beq_iff_eq.mp (List.all_eq_true.mp hall c (mem_digits_of_isDigit h))

namespace Numeral

/-- No digits are read where none stands: `spanDigits rest = ([], rest)`. -/
theorem spanDigits_of_stops {rest : List Char} (h : ∀ c ∈ rest.head?, digitValue? c = none) :
    spanDigits rest = ([], rest) := by
  cases rest with
  | nil => rfl
  | cons c rest => rw [spanDigits, h c rfl]

/-- A run of digits ends where no digit follows. -/
theorem spanDigits_append {digits rest : List Char} (hdigits : ∀ c ∈ digits, c.isDigit = true)
    (hrest : ∀ c ∈ rest.head?, digitValue? c = none) :
    spanDigits (digits ++ rest) = (digits.map Json.digitOf, rest) := by
  induction digits with
  | nil => exact spanDigits_of_stops hrest
  | cons c digits ih =>
    have hc := digitValue?_of_isDigit (hdigits c List.mem_cons_self)
    have htail := ih fun c' hc' => hdigits c' (List.mem_cons_of_mem c hc')
    rw [List.cons_append, spanDigits, hc, htail]
    rfl

/-- A text without underscores is kept by `dropUnderscores`. -/
theorem dropUnderscores_eq_self {text : List Char} (h : '_' ∉ text) (afterDigit : Bool) :
    dropUnderscores afterDigit text = some text := by
  induction text generalizing afterDigit with
  | nil => rfl
  | cons c text ih =>
    obtain ⟨hc, htext⟩ := List.ne_and_not_mem_of_not_mem_cons h
    rw [dropUnderscores, if_neg hc.symm, ih htext]
    rfl

end Numeral

/-- A text without blanks is kept by `stripBlanks`. -/
theorem stripBlanks_eq_self {text : List Char} (h : ∀ c ∈ text, isBlank c = false) :
    stripBlanks text = text := by
  have hdrop : ∀ {l : List Char}, (∀ c ∈ l, isBlank c = false) → l.dropWhile isBlank = l := by
    intro l hl
    rw [List.dropWhile_eq_self_iff]
    intro hlength
    rw [hl _ (List.getElem_mem hlength)]
    exact Bool.false_ne_true
  rw [stripBlanks, hdrop h, hdrop fun c hc => h c (List.mem_reverse.mp hc), List.reverse_reverse]

namespace Json

namespace NumberText

variable (number : NumberText)

/-! ## The characters of a number -/

/-- A number is written with digits, signs, a point and the letter of the exponent. -/
theorem mem_chars {c : Char} (h : c ∈ number.chars) : c ∈ "0123456789-+.e".toList := by
  have hdigit : ∀ {c : Char}, c.isDigit = true → c ∈ "0123456789-+.e".toList := by
    intro c hc
    have hmem := mem_digits_of_isDigit hc
    have hsub : "0123456789".toList ⊆ "0123456789-+.e".toList := by decide
    exact hsub hmem
  have hsign : number.signChars ⊆ "0123456789-+.e".toList := by
    rw [signChars]
    cases number.negative <;> decide
  have hfraction : number.fractionChars ⊆ "0123456789-+.e".toList := by
    rw [fractionChars]
    split
    · exact List.nil_subset _
    · exact List.cons_subset.mpr ⟨by decide, fun c hc => hdigit (number.fraction_isDigit c hc)⟩
  have hexponent : number.exponentChars ⊆ "0123456789-+.e".toList := by
    rw [exponentChars]
    split
    · exact List.nil_subset _
    · next negative digits he =>
      refine List.cons_subset.mpr ⟨by decide, List.cons_subset.mpr ⟨?_, fun c hc => ?_⟩⟩
      · cases negative <;> decide
      · exact hdigit ((number.exponent_isDigit _ he).2 c hc)
  rcases List.mem_append.mp h with h | h
  · exact hsign h
  rcases List.mem_append.mp h with h | h
  · exact hdigit (number.whole_isDigit c h)
  rcases List.mem_append.mp h with h | h
  · exact hfraction h
  · exact hexponent h

/-- The text behind the sign starts with a digit. -/
theorem exists_unsignedChars_eq_cons : ∃ c rest, number.unsignedChars = c :: rest ∧
    c.isDigit = true := by
  obtain ⟨c, whole, hwhole⟩ := List.exists_cons_of_ne_nil number.whole_ne_nil
  refine ⟨c, whole ++ (number.fractionChars ++ number.exponentChars), ?_, ?_⟩
  · rw [unsignedChars, hwhole, List.cons_append]
  · exact number.whole_isDigit c (by rw [hwhole]; exact List.mem_cons_self)

/-! ## Reading the parts as a double -/

/-- The double that is nearest to what a number denotes. -/
def nearest : Double :=
  Double.ofDecimal number.negative
    (Numeral.ofDigits ((number.whole ++ number.fraction).map digitOf))
    (number.power - number.fraction.length)

/-- A text that denotes what a decimal denotes is nearest to the same double. -/
theorem nearest_of_magnitude {d : Decimal} (h : number.magnitude = d.value) :
    number.nearest = Double.ofDecimal number.negative d.digits d.exponent :=
  Double.ofDecimal_congr number.negative h

/-- An exponent is introduced by its letter. -/
theorem exponentChars_eq :
    number.exponentChars = [] ∨ ∃ rest, number.exponentChars = 'e' :: rest := by
  rw [exponentChars]
  split
  · exact .inl rfl
  · exact .inr ⟨_, rfl⟩

/-- An exponent starts with no digit. -/
theorem digitValue?_head_exponentChars (c : Char) (h : c ∈ number.exponentChars.head?) :
    digitValue? c = none := by
  rcases number.exponentChars_eq with hexponent | ⟨rest, hexponent⟩
  · rw [hexponent] at h
    cases h
  · rw [hexponent] at h
    cases h
    decide

/-- What stands behind the whole part starts with no digit. -/
theorem digitValue?_head_fractionChars (c : Char)
    (h : c ∈ (number.fractionChars ++ number.exponentChars).head?) : digitValue? c = none := by
  rw [fractionChars] at h
  split at h
  · exact number.digitValue?_head_exponentChars c h
  · cases h
    decide

/-- The sign is taken off by `takeSign`. -/
theorem takeSign_chars : Numeral.takeSign number.chars = (number.negative, number.unsignedChars) := by
  rw [chars_eq_append, signChars]
  cases hnegative : number.negative with
  | true => rfl
  | false =>
    obtain ⟨c, rest, hunsigned, hc⟩ := number.exists_unsignedChars_eq_cons
    rw [if_neg Bool.false_ne_true, List.nil_append, hunsigned, Numeral.takeSign]
    · rintro other ⟨⟩
      exact absurd hc (by decide)
    · rintro other ⟨⟩
      exact absurd hc (by decide)

/-- The exponent is read as `number.power`. -/
theorem readExponent_exponentChars : Numeral.readExponent number.exponentChars = some number.power := by
  rw [exponentChars, power]
  cases hexponent : number.exponent with
  | none => rfl
  | some e =>
    obtain ⟨negative, digits⟩ := e
    obtain ⟨hne, hdigits⟩ := number.exponent_isDigit (negative, digits) hexponent
    have hspan : Numeral.spanDigits digits = (digits.map digitOf, []) := by
      have happend := @Numeral.spanDigits_append digits [] hdigits (by simp)
      rwa [List.append_nil] at happend
    obtain ⟨c, rest, rfl⟩ := List.exists_cons_of_ne_nil hne
    cases negative <;>
      simp [Numeral.readExponent, Numeral.takeSign, hspan]

/-- The digits, the point and the exponent are read by `readDecimal` as `number.nearest`. -/
theorem readDecimal_unsignedChars :
    Numeral.readDecimal number.negative number.unsignedChars = some number.nearest := by
  have hwhole : Numeral.spanDigits number.unsignedChars
      = (number.whole.map digitOf, number.fractionChars ++ number.exponentChars) :=
    Numeral.spanDigits_append number.whole_isDigit number.digitValue?_head_fractionChars
  have hne : number.whole.map digitOf ≠ [] := by
    rw [Ne, List.map_eq_nil_iff]
    exact number.whole_ne_nil
  rw [Numeral.readDecimal, hwhole]
  -- a point is written when there is a fraction, and only then
  by_cases hfraction : number.fraction = []
  · have hnone : number.fractionChars = [] := by rw [fractionChars, if_pos hfraction]
    have hread := number.readExponent_exponentChars
    rw [hnone, List.nil_append, nearest, hfraction, List.append_nil]
    rcases number.exponentChars_eq with hexponent | ⟨rest, hexponent⟩
    · rw [hexponent] at hread ⊢
      simp [hread, hne]
    · rw [hexponent] at hread ⊢
      simp [hread, hne]
  · have hpoint : number.fractionChars = '.' :: number.fraction := by
      rw [fractionChars, if_neg hfraction]
    have hspan := Numeral.spanDigits_append number.fraction_isDigit
      number.digitValue?_head_exponentChars
    rw [hpoint, List.cons_append]
    simp only [hspan, hne, false_and, if_false, number.readExponent_exponentChars, Option.map_some,
      List.length_map, ← List.map_append]
    rfl

/-- **The text of a number is read** by `readDouble` as the double nearest to what it denotes. -/
theorem readDouble_chars :
    Numeral.readDouble (String.ofList number.chars) = some number.nearest := by
  have hblank : ∀ c ∈ number.chars, isBlank c = false := by
    intro c hc
    have hall : "0123456789-+.e".toList.all (fun c => !isBlank c) = true := by decide
    simpa only [Bool.not_eq_true'] using List.all_eq_true.mp hall c (number.mem_chars hc)
  have hunderscore : '_' ∉ number.chars := fun h => absurd (number.mem_chars h) (by decide)
  -- the names of the infinities and of what is no number start with no digit
  have hname : ∀ name : List Char, name.head?.any Char.isDigit = false →
      Numeral.lowerAscii number.unsignedChars ≠ name := by
    intro name hhead heq
    obtain ⟨c, rest, hunsigned, hc⟩ := number.exists_unsignedChars_eq_cons
    have hall : "0123456789".toList.all (fun c => c.toLower == c) = true := by decide
    have hlower : c.toLower = c :=
      beq_iff_eq.mp (List.all_eq_true.mp hall c (mem_digits_of_isDigit hc))
    rw [hunsigned, Numeral.lowerAscii, List.map_cons, hlower] at heq
    subst heq
    exact absurd (hc.symm.trans hhead) nofun
  rw [Numeral.readDouble, String.toList_ofList, stripBlanks_eq_self hblank,
    Numeral.dropUnderscores_eq_self hunderscore]
  simp only [number.takeSign_chars]
  rw [if_neg, if_neg, number.readDecimal_unsignedChars]
  · exact hname _ (by decide)
  · rintro (h | h)
    · exact hname _ (by decide) h
    · exact hname _ (by decide) h

/-! ## The parts are in the text -/

/-- The whole part of the text is `number.whole`. -/
theorem wholeDigits_unsignedChars : wholeDigits number.unsignedChars = number.whole := by
  have hstops := stops_behind_whole number ends_nil
  rw [List.append_nil] at hstops
  exact wholeDigits_append number hstops

/-- The fraction of the text is `number.fraction`. -/
theorem fractionDigits_fractionChars :
    fractionDigits (number.fractionChars ++ number.exponentChars) = number.fraction := by
  have hdigit := @stops_behind_fraction _ number ends_nil Char.isDigit (by decide)
  have hpoint := @stops_behind_fraction _ number ends_nil (· == '.') (by decide)
  rw [List.append_nil] at hdigit hpoint
  exact fractionDigits_append number hdigit hpoint

/-- **The text of a number says what it denotes.** -/
theorem parts_eq_of_chars_eq {number number' : NumberText} (h : number.chars = number'.chars) :
    number.negative = number'.negative ∧ number.magnitude = number'.magnitude := by
  have htake : (number.negative, number.unsignedChars) = (number'.negative, number'.unsignedChars) := by
    rw [← takeSign_chars, ← takeSign_chars, h]
  obtain ⟨hnegative, hunsigned⟩ := Prod.mk.inj htake
  have hwhole : number.whole = number'.whole := by
    rw [← number.wholeDigits_unsignedChars, hunsigned, number'.wholeDigits_unsignedChars]
  have hbehind : number.fractionChars ++ number.exponentChars
      = number'.fractionChars ++ number'.exponentChars := by
    rw [unsignedChars, unsignedChars, hwhole] at hunsigned
    exact List.append_cancel_left hunsigned
  have hfraction : number.fraction = number'.fraction := by
    rw [← number.fractionDigits_fractionChars, hbehind, number'.fractionDigits_fractionChars]
  have hexponent : number.exponentChars = number'.exponentChars := by
    rw [fractionChars, fractionChars, hfraction] at hbehind
    exact List.append_cancel_left hbehind
  have hpower : number.power = number'.power := by
    refine Option.some.inj ?_
    rw [← number.readExponent_exponentChars, hexponent, number'.readExponent_exponentChars]
  exact ⟨hnegative, by rw [magnitude, magnitude, hwhole, hfraction, hpower]⟩

end NumberText

end Json

end ModuleSurface
