import Mathlib.Algebra.Ring.Nat
import Mathlib.Data.List.Basic
import ModuleSurface.Double.Layout
import ModuleSurface.Json.Reader

/-! # Numbers in JSON

A number in JSON has a sign, a whole part, and perhaps a fraction and an exponent. What is read from
these parts is known, so a text is read back when the parts of it are named.

* **`Json.NumberText`** — the parts of a number.
* **`Json.readNumber_chars`** — what is read from the parts.
* **`Json.NumberText.ofInt`** — the parts of the text of an integer. -/

namespace ModuleSurface

namespace Json

/-! ## What follows -/

/-- **What follows a value**: nothing, or what separates or closes. -/
def Ends (rest : List Char) : Prop := ∀ c ∈ rest.head?, c = ',' ∨ c = ']' ∨ c = '\x7d'

/-- The end of a text ends a number. -/
theorem ends_nil : Ends [] := nofun

/-- A test fails where a text goes on. -/
def Stops (test : Char → Bool) (rest : List Char) : Prop := ∀ c ∈ rest.head?, test c = false

/-- What ends a number stops every run of characters other than commas and closing brackets. -/
theorem Ends.stops {rest : List Char} (h : Ends rest) {test : Char → Bool}
    (htest : test ',' = false ∧ test ']' = false ∧ test '\x7d' = false) : Stops test rest := by
  intro c hc
  rcases h c hc with rfl | rfl | rfl
  · exact htest.1
  · exact htest.2.1
  · exact htest.2.2

/-- A run ends where its test fails: `(run ++ rest).takeWhile test = run`. -/
theorem takeWhile_append {test : Char → Bool} {run rest : List Char} (hrun : ∀ c ∈ run, test c = true)
    (hrest : Stops test rest) : (run ++ rest).takeWhile test = run := by
  have hnil : rest.takeWhile test = [] := by
    cases rest with
    | nil => rfl
    | cons c rest => exact List.takeWhile_cons_of_neg (by simp [hrest c rfl])
  rw [List.takeWhile_append_of_pos hrun, hnil, List.append_nil]

namespace Cursor

/-- What is skipped is dropped from the rest:
`(cursor.skip count).rest = cursor.rest.drop count`. -/
@[simp] theorem skip_rest (cursor : Cursor) (count : Nat) :
    (cursor.skip count).rest = cursor.rest.drop count := rfl

/-- Skipping nothing leaves the cursor where it is: `cursor.skip 0 = cursor`. -/
@[simp] theorem skip_zero (cursor : Cursor) : cursor.skip 0 = cursor := rfl

/-- The cursor behind a part of a text:
`skip ⟨place, part ++ rest⟩ count = ⟨place + count, rest⟩`. -/
theorem skip_append (place : Nat) (part rest : List Char) {count : Nat} (h : part.length = count) :
    skip ⟨place, part ++ rest⟩ count = ⟨place + count, rest⟩ := by
  rw [skip, ← h, List.drop_left]

end Cursor

/-! ## Digits -/

/-- The value of digits does not depend on when they are turned into numbers by `digitOf`. -/
theorem ofDigits_map_digitOf (digits : List Char) :
    Numeral.ofDigits (digits.map digitOf) = Nat.ofDigitChars 10 digits 0 := by
  rw [Numeral.ofDigits, List.foldl_map]
  rfl

/-- The digits of a number are read back:
`Numeral.ofDigits ((Nat.toDigits 10 n).map digitOf) = n`. -/
theorem ofDigits_toDigits (n : Nat) : Numeral.ofDigits ((Nat.toDigits 10 n).map digitOf) = n := by
  rw [ofDigits_map_digitOf, Nat.ofDigitChars_ten_toDigits]

/-- Digits one after the other. -/
theorem ofDigits_append (first second : List Char) :
    Numeral.ofDigits ((first ++ second).map digitOf)
      = 10 ^ second.length * Numeral.ofDigits (first.map digitOf)
        + Numeral.ofDigits (second.map digitOf) := by
  simp only [ofDigits_map_digitOf]
  rw [Nat.ofDigitChars_append, Nat.ofDigitChars_eq_ofDigitChars_zero]

/-- Zeros stand for zero. -/
theorem ofDigits_zeros (n : Nat) : Numeral.ofDigits ((NumberLayout.zeros n).map digitOf) = 0 := by
  rw [ofDigits_map_digitOf, NumberLayout.zeros, Nat.ofDigitChars_replicate_zero, Nat.mul_zero]

/-- Zeros are digits. -/
theorem isDigit_of_mem_zeros {n : Nat} {c : Char} (h : c ∈ NumberLayout.zeros n) :
    c.isDigit = true := by
  rw [List.eq_of_mem_replicate h]
  rfl

/-- The digits of a number are digits. -/
theorem isDigit_of_mem_toDigits {n : Nat} {c : Char} (h : c ∈ Nat.toDigits 10 n) :
    c.isDigit = true :=
  Nat.isDigit_of_mem_toDigits (by decide) (by decide) h

/-- Only zero starts with a zero: `(Nat.toDigits 10 n).head? ≠ some '0'`. -/
theorem head?_toDigits {n : Nat} (hn : n ≠ 0) : (Nat.toDigits 10 n).head? ≠ some '0' := by
  induction n using Nat.strongRecOn with
  | _ n ih =>
    rw [Nat.toDigits_eq_if (by decide)]
    split
    · next hlt =>
      have hdigit : ∀ m < 10, m ≠ 0 → m.digitChar ≠ '0' := by decide
      simpa using hdigit n hlt hn
    · next hge =>
      have hne : Nat.toDigits 10 (n / 10) ≠ [] := Nat.toDigits_ne_nil
      rw [List.head?_append_of_ne_nil _ hne]
      exact ih (n / 10) (Nat.div_lt_self (by omega) (by decide)) (by omega)

/-! ## The parts of a number -/

/-- **The parts of a number** as they are written. The whole part starts with a zero only when it is
one. -/
structure NumberText where
  /-- Whether a minus sign is written. -/
  negative : Bool
  /-- The digits before the point. -/
  whole : List Char
  /-- The digits behind the point; there is no point without them. -/
  fraction : List Char := []
  /-- Whether the exponent has a minus sign, and its digits. -/
  exponent : Option (Bool × List Char) := none
  whole_isDigit : ∀ c ∈ whole, c.isDigit = true
  whole_ne_nil : whole ≠ []
  whole_zero : whole.head? = some '0' → whole = ['0']
  fraction_isDigit : ∀ c ∈ fraction, c.isDigit = true := by simp
  exponent_isDigit : ∀ e ∈ exponent, e.2 ≠ [] ∧ ∀ c ∈ e.2, c.isDigit = true := by simp

namespace NumberText

variable (number : NumberText)

/-- The sign as it is written. -/
def signChars : List Char := if number.negative then ['-'] else []

/-- The fraction with its point. -/
def fractionChars : List Char := if number.fraction = [] then [] else '.' :: number.fraction

/-- The exponent with its letter and its sign. -/
def exponentChars : List Char :=
  match number.exponent with
  | none => []
  | some (negative, digits) => 'e' :: (if negative then '-' else '+') :: digits

/-- **The text of a number.** -/
def chars : List Char :=
  number.signChars ++ (number.whole ++ (number.fractionChars ++ number.exponentChars))

/-- The exponent that is written, or zero. -/
def power : Int :=
  match number.exponent with
  | none => 0
  | some (true, digits) => -(Numeral.ofDigits (digits.map digitOf) : Int)
  | some (false, digits) => Numeral.ofDigits (digits.map digitOf)

/-- **The value of a number**: an integer without fraction and exponent, and a double with one of
them. -/
def value : Scalar :=
  if number.fraction = [] ∧ number.exponent = none then
    .int (if number.negative then -(Numeral.ofDigits (number.whole.map digitOf) : Int)
      else Numeral.ofDigits (number.whole.map digitOf))
  else .float (Double.ofDecimal number.negative
    (Numeral.ofDigits ((number.whole ++ number.fraction).map digitOf))
    (number.power - number.fraction.length))

end NumberText

/-! ## Reading the parts -/

section Reading

variable {number : NumberText} {rest : List Char}

/-- Behind a character other than a zero the whole part is a run of digits. -/
theorem wholeDigits_of_ne {c : Char} (h : c ≠ '0') (rest : List Char) :
    wholeDigits (c :: rest) = (c :: rest).takeWhile Char.isDigit := by
  rw [wholeDigits]
  rintro other ⟨⟩
  exact h rfl

/-- The whole part of a number is read in front of what is no digit:
`wholeDigits (number.whole ++ rest) = number.whole`. -/
theorem wholeDigits_append (number : NumberText) (hrest : Stops Char.isDigit rest) :
    wholeDigits (number.whole ++ rest) = number.whole := by
  obtain ⟨c, whole, hwhole⟩ := List.exists_cons_of_ne_nil number.whole_ne_nil
  by_cases hzero : c = '0'
  · have hall := number.whole_zero (by rw [hwhole, hzero, List.head?_cons])
    rw [hall]
    rfl
  · have hrun := takeWhile_append number.whole_isDigit hrest
    rw [hwhole] at hrun ⊢
    rw [List.cons_append, wholeDigits_of_ne hzero]
    exact hrun

/-- The fraction of a number is read in front of what is no digit, and no point where there is no
fraction. -/
theorem fractionDigits_append (number : NumberText) (hrest : Stops Char.isDigit rest)
    (hpoint : Stops (· == '.') rest) :
    fractionDigits (number.fractionChars ++ rest) = number.fraction := by
  rw [NumberText.fractionChars]
  split
  · next hnil =>
    rw [hnil, List.nil_append]
    cases rest with
    | nil => rfl
    | cons c rest =>
      have hne : c ≠ '.' := by simpa using hpoint c rfl
      rw [fractionDigits]
      rintro other ⟨⟩
      exact hne rfl
  · rw [List.cons_append, fractionDigits, takeWhile_append number.fraction_isDigit hrest]

/-- There is no exponent without the letter for it: `exponentPart (c :: rest) = none`. -/
theorem exponentPart_of_ne {c : Char} (h : ¬ (c = 'e' ∨ c = 'E')) (rest : List Char) :
    exponentPart (c :: rest) = none := if_neg h

/-- A negative exponent is read with its length. -/
theorem exponentPart_minus {digits : List Char} (hrun : rest.takeWhile Char.isDigit = digits)
    (hne : digits ≠ []) : exponentPart ('e' :: '-' :: rest)
      = some (digits.length + 2, -(Numeral.ofDigits (digits.map digitOf) : Int)) := by
  subst hrun
  exact if_neg hne

/-- A positive exponent is read with its length. -/
theorem exponentPart_plus {digits : List Char} (hrun : rest.takeWhile Char.isDigit = digits)
    (hne : digits ≠ []) : exponentPart ('e' :: '+' :: rest)
      = some (digits.length + 2, (Numeral.ofDigits (digits.map digitOf) : Int)) := by
  subst hrun
  exact if_neg hne

/-- The exponent of a number is read with its length and its `power`. -/
theorem exponentPart_append (number : NumberText) (hends : Ends rest) :
    exponentPart (number.exponentChars ++ rest)
      = number.exponent.map fun e => (e.2.length + 2, number.power) := by
  rw [NumberText.exponentChars, NumberText.power]
  cases hexponent : number.exponent with
  | none =>
    cases rest with
    | nil => rfl
    | cons c rest =>
      refine exponentPart_of_ne ?_ rest
      rcases hends c rfl with rfl | rfl | rfl <;> decide
  | some e =>
    obtain ⟨negative, digits⟩ := e
    obtain ⟨hne, hdigits⟩ := number.exponent_isDigit (negative, digits) hexponent
    have hrun : (digits ++ rest).takeWhile Char.isDigit = digits :=
      takeWhile_append hdigits (hends.stops (by decide))
    cases negative with
    | true => exact exponentPart_minus hrun hne
    | false => exact exponentPart_plus hrun hne

/-- The sign is seen before the whole part. -/
theorem head?_chars_append (number : NumberText) (rest : List Char) :
    (number.chars ++ rest).head? = some '-' ↔ number.negative = true := by
  rw [NumberText.chars, NumberText.signChars]
  cases hnegative : number.negative with
  | true => simp
  | false =>
    obtain ⟨c, whole, hwhole⟩ := List.exists_cons_of_ne_nil number.whole_ne_nil
    have hdigit := number.whole_isDigit c (by rw [hwhole]; exact List.mem_cons_self)
    have hne : c ≠ '-' := by
      rintro rfl
      exact absurd hdigit (by decide)
    simp [hwhole, hne]

/-- What stands behind the whole part is no digit. -/
theorem stops_behind_whole (number : NumberText) (hends : Ends rest) :
    Stops Char.isDigit (number.fractionChars ++ (number.exponentChars ++ rest)) := by
  rw [NumberText.fractionChars, NumberText.exponentChars]
  split
  · cases number.exponent with
    | none => exact hends.stops (by decide)
    | some e =>
      rintro c ⟨⟩
      rfl
  · rintro c ⟨⟩
    rfl

/-- What stands behind the fraction is no digit, and no point. -/
theorem stops_behind_fraction (number : NumberText) (hends : Ends rest) {test : Char → Bool}
    (htest : test 'e' = false ∧ test ',' = false ∧ test ']' = false ∧ test '\x7d' = false) :
    Stops test (number.exponentChars ++ rest) := by
  rw [NumberText.exponentChars]
  cases number.exponent with
  | none => exact hends.stops htest.2
  | some e =>
    rintro c ⟨⟩
    exact htest.1

/-- **A number is read from its parts**: `readNumber` answers `number.value` and the cursor behind
`number.chars`. -/
theorem readNumber_chars (number : NumberText) (hends : Ends rest) (place : Nat)
    (hlimit : number.fraction = [] ∧ number.exponent = none →
      number.whole.length ≤ integerDigitLimit) : readNumber ⟨place, number.chars ++ rest⟩
      = .ok (.scalar number.value, ⟨place + number.chars.length, rest⟩) := by
  -- the places behind the sign, the whole part and the fraction
  let unsigned := number.whole ++ (number.fractionChars ++ (number.exponentChars ++ rest))
  let start : Cursor := ⟨place + number.signChars.length, unsigned⟩
  let afterWhole : Cursor :=
    ⟨start.place + number.whole.length, number.fractionChars ++ (number.exponentChars ++ rest)⟩
  let afterFraction : Cursor :=
    ⟨afterWhole.place + number.fractionChars.length, number.exponentChars ++ rest⟩
  have hstart : (if number.negative = true then
      Cursor.skip ⟨place, number.chars ++ rest⟩ 1 else ⟨place, number.chars ++ rest⟩) = start := by
    simp only [start, unsigned, NumberText.chars, NumberText.signChars, List.append_assoc]
    cases number.negative <;> rfl
  have hwhole : wholeDigits start.rest = number.whole :=
    wholeDigits_append number (stops_behind_whole number hends)
  have hskipWhole : start.skip number.whole.length = afterWhole := Cursor.skip_append _ _ _ rfl
  have hfraction : fractionDigits afterWhole.rest = number.fraction :=
    fractionDigits_append number (stops_behind_fraction number hends (by decide))
      (stops_behind_fraction number hends (by decide))
  have hskipFraction : (if number.fraction = [] then afterWhole
      else afterWhole.skip (number.fraction.length + 1)) = afterFraction := by
    simp only [afterWhole, afterFraction, NumberText.fractionChars]
    split
    · rfl
    · exact Cursor.skip_append _ _ _ rfl
  have hexponent : exponentPart afterFraction.rest
      = number.exponent.map fun e => (e.2.length + 2, number.power) :=
    exponentPart_append number hends
  unfold readNumber
  simp only [head?_chars_append, Bool.decide_eq_true, hstart, hwhole, number.whole_ne_nil, if_false,
    hskipWhole, hfraction, hskipFraction, hexponent, Option.map_eq_none_iff]
  -- an integer ends behind its whole part, a float behind its exponent
  by_cases hint : number.fraction = [] ∧ number.exponent = none
  · have hend : afterWhole = ⟨place + number.chars.length, rest⟩ := by
      simp [afterWhole, start, NumberText.chars, NumberText.fractionChars, NumberText.exponentChars,
        hint.1, hint.2, Nat.add_assoc]
    rw [if_pos hint, if_neg (Nat.not_lt.mpr (hlimit hint)), hend, NumberText.value, if_pos hint]
  · have hend : afterFraction.skip number.exponentChars.length
        = ⟨place + number.chars.length, rest⟩ := by
      rw [Cursor.skip_append _ _ _ rfl]
      simp [afterWhole, start, NumberText.chars, Nat.add_assoc]
    rw [if_neg hint, NumberText.value, if_neg hint, ← hend]
    rw [NumberText.power, NumberText.exponentChars]
    cases number.exponent <;> rfl

end Reading

/-! ## Integers -/

namespace NumberText

/-- **The parts of an integer.** -/
def ofInt (n : Int) : NumberText where
  negative := decide (n < 0)
  whole := Nat.toDigits 10 n.natAbs
  whole_isDigit _ hc := isDigit_of_mem_toDigits hc
  whole_ne_nil := Nat.toDigits_ne_nil
  whole_zero hzero := by
    have hnatAbs : n.natAbs = 0 := by
      by_contra hne
      exact head?_toDigits hne hzero
    rw [hnatAbs]
    rfl

/-- The text of an integer is that of `toString`. -/
theorem chars_ofInt (n : Int) : (ofInt n).chars = (toString n).toList := by
  show (ofInt n).signChars ++ (Nat.toDigits 10 n.natAbs ++ ([] ++ [])) = _
  rw [List.append_nil, List.append_nil, ← Nat.toList_repr]
  cases n with
  | ofNat n =>
    have hsign : (ofInt n).signChars = [] := by simp [signChars, ofInt]
    rw [Int.ofNat_eq_natCast, hsign]
    rfl
  | negSucc n =>
    have hsign : (ofInt (Int.negSucc n)).signChars = ['-'] := by simp [signChars, ofInt]
    rw [hsign]
    exact (String.toList_append (s := "-")).symm

/-- An integer is read as itself: `(ofInt n).value = .int n`. -/
theorem value_ofInt (n : Int) : (ofInt n).value = .int n := by
  rw [value, if_pos ⟨rfl, rfl⟩]
  simp only [ofInt, ofDigits_toDigits, decide_eq_true_eq]
  split <;> congr 1 <;> omega

end NumberText

end Json

end ModuleSurface
