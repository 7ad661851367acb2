import ModuleSurface.Json.Writer
import ModuleSurface.Proofs.JsonNumber
import ModuleSurface.Proofs.Rounding

/-! # Decimals as they are laid out

A layout decides where the point of a decimal stands and when an exponent is written. Whatever it
decides, its text is that of a number, and this number denotes the decimal.

* **`Json.NumberText.magnitude`** — what the parts of a number denote, whatever the sign.
* **`Json.Writes`** — the parts in which a layout writes a decimal.
* **`Json.exists_writes`** — every decimal but zero is written in such parts.
* **`Json.exists_numberText`** — the parts of the text of a double. -/

namespace ModuleSurface

/-- **What a decimal denotes.** -/
def Decimal.value (d : Decimal) : ℚ := d.digits * 10 ^ d.exponent

/-- The exponent of the leading digit. -/
def Decimal.lead (d : Decimal) : Int := d.exponent + (Decimal.digitChars d.digits).length - 1

namespace Json

/-! ## What a number denotes -/

namespace NumberText

variable (number : NumberText)

/-- The text behind the sign. -/
def unsignedChars : List Char := number.whole ++ (number.fractionChars ++ number.exponentChars)

/-- **What the parts denote**, whatever the sign. -/
def magnitude : ℚ :=
  (Numeral.ofDigits ((number.whole ++ number.fraction).map digitOf) : Nat)
    * 10 ^ (number.power - number.fraction.length)

/-- The characters of a number are its sign and the rest:
`number.chars = number.signChars ++ number.unsignedChars`. -/
theorem chars_eq_append : number.chars = number.signChars ++ number.unsignedChars := rfl

/-- What has a fraction or an exponent is read as the double nearest to what it denotes. -/
theorem value_of_magnitude {d : Decimal} (hfloat : ¬ (number.fraction = [] ∧ number.exponent = none))
    (h : number.magnitude = d.value) :
    number.value = .float (Double.ofDecimal number.negative d.digits d.exponent) := by
  rw [value, if_neg hfloat, Double.ofDecimal_congr number.negative h]

end NumberText

/-! ## Digits -/

/-- **The digits of a positive number**: they start with no zero. -/
structure DigitsOf (n : Nat) (digits : List Char) : Prop where
  value : Numeral.ofDigits (digits.map digitOf) = n
  isDigit : ∀ c ∈ digits, c.isDigit = true
  ne_nil : digits ≠ []
  head : digits.head? ≠ some '0'

/-- The digits that are written for a number are its digits. -/
theorem digitsOf_digitChars {n : Nat} (hn : n ≠ 0) : DigitsOf n (Decimal.digitChars n) :=
  ⟨ofDigits_toDigits n, fun _ hc => isDigit_of_mem_toDigits hc, Nat.toDigits_ne_nil,
    head?_toDigits hn⟩

/-- Zeros behind digits multiply their number by a power of ten, `10 ^ k`. -/
theorem ofDigits_append_zeros (digits : List Char) (k : Nat) :
    Numeral.ofDigits ((digits ++ NumberLayout.zeros k).map digitOf)
      = 10 ^ k * Numeral.ofDigits (digits.map digitOf) := by
  rw [ofDigits_append, ofDigits_zeros, Nat.add_zero, NumberLayout.zeros, List.length_replicate]

/-- Zeros before digits change nothing. -/
theorem ofDigits_zeros_append (k : Nat) (digits : List Char) :
    Numeral.ofDigits ((NumberLayout.zeros k ++ digits).map digitOf)
      = Numeral.ofDigits (digits.map digitOf) := by
  rw [ofDigits_append, ofDigits_zeros, Nat.mul_zero, Nat.zero_add]

/-! ## The parts of a decimal -/

/-- The digits behind the point of a whole number. -/
def wholeFraction (layout : NumberLayout) : List Char := if layout.pointZero then ['0'] else []

/-- **Positional notation.** A whole number is followed by what the layout wants behind a point, and
any other number ends in its digits. -/
structure Positional (layout : NumberLayout) (exponent : Int) (digits : List Char)
    (number : NumberText) : Prop where
  exponent_none : number.exponent = none
  fraction_of_nonneg : 0 ≤ exponent → number.fraction = wholeFraction layout
  fraction_ne_nil : exponent < 0 → number.fraction ≠ []
  getLast?_fraction : exponent < 0 → number.fraction.getLast? = digits.getLast?

/-- **Scientific notation.** One digit stands before the point, and the exponent of this digit is
padded to the width of the layout. -/
structure Scientific (layout : NumberLayout) (lead : Int) (digits : List Char)
    (number : NumberText) : Prop where
  length_whole : number.whole.length = 1
  digits_eq : number.whole ++ number.fraction = digits
  exponent_eq : number.exponent = some (decide (lead < 0),
    NumberLayout.zeros (layout.exponentWidth - (Decimal.digitChars lead.natAbs).length)
      ++ Decimal.digitChars lead.natAbs)

/-- A layout writes a decimal in positional notation. -/
def IsPlain (layout : NumberLayout) (d : Decimal) : Prop :=
  layout.plainFrom ≤ d.lead ∧ d.lead < layout.plainBelow

/-- **A layout writes a decimal** in the parts of a number. -/
structure Writes (layout : NumberLayout) (negative : Bool) (d : Decimal) (number : NumberText) :
    Prop where
  negative_eq : number.negative = negative
  unsignedChars_eq : number.unsignedChars = layout.decimal d
  magnitude_eq : number.magnitude = d.value
  positional : IsPlain layout d → Positional layout d.exponent (Decimal.digitChars d.digits) number
  scientific : ¬ IsPlain layout d → Scientific layout d.lead (Decimal.digitChars d.digits) number

/-- The text with its sign is `layout.decimal d` behind a minus sign or nothing. -/
theorem Writes.chars_eq {layout : NumberLayout} {negative : Bool} {d : Decimal} {number : NumberText}
    (h : Writes layout negative d number) :
    number.chars = if negative then '-' :: layout.decimal d else layout.decimal d := by
  rw [number.chars_eq_append, h.unsignedChars_eq, NumberText.signChars, h.negative_eq]
  cases negative <;> rfl

namespace DigitsOf

variable (layout : NumberLayout) (negative : Bool) {d : Decimal} {digits : List Char} {k : Nat}

/-- All digits stand before the point. -/
theorem exists_whole (hd : DigitsOf d.digits digits) (hk : d.exponent = k) : ∃ number : NumberText,
    number.negative = negative ∧
    number.unsignedChars = digits ++ NumberLayout.zeros k
      ++ (if layout.pointZero then ['.', '0'] else []) ∧
    number.magnitude = d.value ∧
    Positional layout d.exponent digits number := by
  refine ⟨
    { negative
      whole := digits ++ NumberLayout.zeros k
      fraction := wholeFraction layout
      whole_isDigit := ?_
      whole_ne_nil := List.append_ne_nil_of_left_ne_nil hd.ne_nil _
      whole_zero := ?_
      fraction_isDigit := ?_ }, rfl, ?_, ?_, rfl, fun _ => rfl, by omega, by omega⟩
  · intro c hc
    exact (List.mem_append.mp hc).elim (hd.isDigit c) isDigit_of_mem_zeros
  · rw [List.head?_append_of_ne_nil _ hd.ne_nil]
    exact fun hzero => absurd hzero hd.head
  · rw [wholeFraction]
    cases layout.pointZero <;> simp
  · simp only [NumberText.unsignedChars, NumberText.fractionChars, NumberText.exponentChars,
      wholeFraction]
    by_cases hzero : layout.pointZero = true <;> simp [hzero]
  · simp only [NumberText.magnitude, Decimal.value, NumberText.power, hk, wholeFraction]
    cases layout.pointZero with
    | false =>
      rw [if_neg Bool.false_ne_true, List.append_nil, ofDigits_append_zeros, hd.value]
      push_cast
      simp [mul_comm]
    | true =>
      have hzero : ['0'] = NumberLayout.zeros 1 := rfl
      rw [if_pos rfl, List.append_assoc, hzero, ofDigits_append, ofDigits_append_zeros, hd.value,
        ofDigits_zeros]
      simp [NumberLayout.zeros, pow_succ]
      field_simp

/-- The point stands between digits. -/
theorem exists_point (hd : DigitsOf d.digits digits) (hpos : 0 < k) (hlt : k < digits.length)
    (hk : d.exponent = k - digits.length) : ∃ number : NumberText,
    number.negative = negative ∧
    number.unsignedChars = digits.take k ++ '.' :: digits.drop k ∧
    number.magnitude = d.value ∧
    Positional layout d.exponent digits number := by
  have hdrop : digits.drop k ≠ [] := by
    rw [Ne, List.drop_eq_nil_iff]
    omega
  have hlast : (digits.drop k).getLast? = digits.getLast? := by
    rw [List.getLast?_drop, if_neg (by omega)]
  refine ⟨
    { negative
      whole := digits.take k
      fraction := digits.drop k
      whole_isDigit := fun c hc => hd.isDigit c (List.mem_of_mem_take hc)
      whole_ne_nil := ?_
      whole_zero := ?_
      fraction_isDigit := fun c hc => hd.isDigit c (List.mem_of_mem_drop hc) }, rfl, ?_, ?_, rfl,
    by omega, fun _ => hdrop, fun _ => hlast⟩
  · rw [Ne, List.take_eq_nil_iff]
    rintro (rfl | hnil)
    · exact absurd hpos (lt_irrefl 0)
    · exact hd.ne_nil hnil
  · rw [List.head?_take, if_neg hpos.ne']
    exact fun hzero => absurd hzero hd.head
  · simp [NumberText.unsignedChars, NumberText.fractionChars, NumberText.exponentChars, hdrop]
  · show ((Numeral.ofDigits ((digits.take k ++ digits.drop k).map digitOf) : Nat) : ℚ)
      * 10 ^ ((0 : Int) - ((digits.drop k).length : Nat)) = _
    rw [List.take_append_drop, hd.value, Decimal.value, hk, List.length_drop, Nat.cast_sub hlt.le]
    congr 2
    ring

/-- Zeros stand between the point and the digits. -/
theorem exists_fraction (hd : DigitsOf d.digits digits)
    (hk : d.exponent = -(k : Int) - digits.length) : ∃ number : NumberText,
    number.negative = negative ∧
    number.unsignedChars = '0' :: '.' :: (NumberLayout.zeros k ++ digits) ∧
    number.magnitude = d.value ∧
    Positional layout d.exponent digits number := by
  have hfraction : NumberLayout.zeros k ++ digits ≠ [] :=
    List.append_ne_nil_of_right_ne_nil _ hd.ne_nil
  have hlength : 0 < digits.length := List.length_pos_of_ne_nil hd.ne_nil
  refine ⟨
    { negative
      whole := ['0']
      fraction := NumberLayout.zeros k ++ digits
      whole_isDigit := by simp
      whole_ne_nil := by simp
      whole_zero := fun _ => rfl
      fraction_isDigit := ?_ }, rfl, ?_, ?_, rfl, by omega, fun _ => hfraction, fun _ => ?_⟩
  · intro c hc
    exact (List.mem_append.mp hc).elim isDigit_of_mem_zeros (hd.isDigit c)
  · simp [NumberText.unsignedChars, NumberText.fractionChars, NumberText.exponentChars, hd.ne_nil]
  · have hvalue : Numeral.ofDigits ((['0'] ++ (NumberLayout.zeros k ++ digits)).map digitOf)
        = d.digits := by
      have hzero : ['0'] = NumberLayout.zeros 1 := rfl
      rw [hzero, ofDigits_zeros_append, ofDigits_zeros_append, hd.value]
    show ((Numeral.ofDigits ((['0'] ++ (NumberLayout.zeros k ++ digits)).map digitOf) : Nat) : ℚ)
      * 10 ^ ((0 : Int) - ((NumberLayout.zeros k ++ digits).length : Nat)) = _
    rw [hvalue, Decimal.value, hk, List.length_append, NumberLayout.zeros, List.length_replicate,
      Nat.cast_add]
    congr 2
    ring
  · exact List.getLast?_append_of_ne_nil _ hd.ne_nil

/-- The digits of an exponent are read back. -/
theorem power_exponent (exponent : Int) :
    Numeral.ofDigits ((NumberLayout.zeros
        (layout.exponentWidth - (Decimal.digitChars exponent.natAbs).length)
      ++ Decimal.digitChars exponent.natAbs).map digitOf) = exponent.natAbs := by
  rw [ofDigits_zeros_append]
  exact ofDigits_toDigits _

/-- An exponent stands behind the digits. -/
theorem exists_scientific (hlayout : layout.mantissaPointZero = false)
    (hd : DigitsOf d.digits digits) {exponent : Int}
    (hk : d.exponent = exponent + 1 - digits.length) : ∃ number : NumberText,
    number.negative = negative ∧
    number.unsignedChars = layout.scientific digits exponent ∧
    number.magnitude = d.value ∧
    Scientific layout exponent digits number := by
  obtain ⟨c, rest, rfl⟩ := List.exists_cons_of_ne_nil hd.ne_nil
  refine ⟨
    { negative
      whole := [c]
      fraction := rest
      exponent := some (decide (exponent < 0), NumberLayout.zeros
        (layout.exponentWidth - (Decimal.digitChars exponent.natAbs).length)
          ++ Decimal.digitChars exponent.natAbs)
      whole_isDigit := fun c' hc => hd.isDigit c' (List.mem_of_mem_take (i := 1) hc)
      whole_ne_nil := List.cons_ne_nil _ _
      whole_zero := fun hzero => absurd hzero hd.head
      fraction_isDigit := fun c' hc => hd.isDigit c' (List.mem_cons_of_mem c hc)
      exponent_isDigit := ?_ }, rfl, ?_, ?_, rfl, rfl, rfl⟩
  · rintro _ ⟨⟩
    refine ⟨List.append_ne_nil_of_right_ne_nil _ Nat.toDigits_ne_nil, fun c' hc => ?_⟩
    exact (List.mem_append.mp hc).elim isDigit_of_mem_zeros isDigit_of_mem_toDigits
  · simp only [NumberText.unsignedChars, NumberText.fractionChars, NumberText.exponentChars,
      NumberLayout.scientific, NumberLayout.exponentChars, hlayout]
    by_cases hneg : exponent < 0
    · have hnot : ¬ 0 ≤ exponent := by omega
      cases rest <;> simp [hneg, hnot]
    · have hle : 0 ≤ exponent := by omega
      cases rest <;> simp [hneg, hle]
  · have hlength : exponent - (rest.length : Int) = d.exponent := by
      rw [hk, List.length_cons]
      push_cast
      ring
    rw [NumberText.magnitude, Decimal.value, List.singleton_append, hd.value, ← hlength]
    congr 3
    -- the sign is a character of its own, so the digits are those of the absolute value
    by_cases hneg : exponent < 0
    · simp only [NumberText.power, hneg, decide_true, power_exponent]
      omega
    · simp only [NumberText.power, hneg, decide_false, power_exponent]
      omega

end DigitsOf

/-- **Decimals are numbers** as they are laid out: some number is what `layout` writes for `d`. -/
theorem exists_writes {layout : NumberLayout} (hlayout : layout.mantissaPointZero = false)
    (negative : Bool) {d : Decimal} (hd : d.digits ≠ 0) :
    ∃ number, Writes layout negative d number := by
  have hdigits := digitsOf_digitChars hd
  -- the layout is plain or scientific; where the point stands tells the plain ones apart
  by_cases hplain : IsPlain layout d
  · suffices ∃ number : NumberText, number.negative = negative ∧
        number.unsignedChars = layout.plain (Decimal.digitChars d.digits) (d.lead + 1) ∧
        number.magnitude = d.value ∧
        Positional layout d.exponent (Decimal.digitChars d.digits) number by
      obtain ⟨number, hnegative, hchars, hmagnitude, hpositional⟩ := this
      refine ⟨number, hnegative, ?_, hmagnitude, fun _ => hpositional, fun h => absurd hplain h⟩
      rw [hchars, NumberLayout.decimal, Decimal.lead, Int.sub_add_cancel]
      exact (if_pos hplain).symm
    rw [Decimal.lead, Int.sub_add_cancel, NumberLayout.plain]
    generalize Decimal.digitChars d.digits = digits at hdigits
    by_cases hwhole : (digits.length : Int) ≤ d.exponent + digits.length
    · obtain ⟨k, hk⟩ := Int.eq_ofNat_of_zero_le (show 0 ≤ d.exponent by omega)
      have htoNat : (d.exponent + digits.length - digits.length).toNat = k := by omega
      rw [if_pos hwhole, htoNat]
      exact hdigits.exists_whole layout negative hk
    rw [if_neg hwhole]
    by_cases hpoint : 0 < d.exponent + digits.length
    · obtain ⟨k, hk⟩ := Int.eq_ofNat_of_zero_le hpoint.le
      have htoNat : (d.exponent + digits.length).toNat = k := by omega
      rw [if_pos hpoint, htoNat]
      exact hdigits.exists_point layout negative (by omega) (by omega) (by omega)
    · obtain ⟨k, hk⟩ := Int.eq_ofNat_of_zero_le (show 0 ≤ -(d.exponent + digits.length) by omega)
      have htoNat : (-(d.exponent + digits.length)).toNat = k := by omega
      rw [if_neg hpoint, htoNat]
      exact hdigits.exists_fraction layout negative (by omega)
  · have hexponent : d.exponent = d.lead + 1 - (Decimal.digitChars d.digits).length := by
      rw [Decimal.lead]
      omega
    obtain ⟨number, hnegative, hchars, hmagnitude, hscientific⟩ :=
      hdigits.exists_scientific layout negative hlayout hexponent
    refine ⟨number, hnegative, ?_, hmagnitude, fun h => absurd h hplain, fun _ => hscientific⟩
    rw [hchars, NumberLayout.decimal]
    exact (if_neg hplain).symm

/-! ## Doubles -/

/-- Doubles are displayed with a point or an exponent, so `numberLayout` writes no integers. -/
theorem Writes.isFloat {negative : Bool} {d : Decimal} {number : NumberText}
    (h : Writes numberLayout negative d number) :
    ¬ (number.fraction = [] ∧ number.exponent = none) := by
  rintro ⟨hfraction, hexponent⟩
  by_cases hplain : IsPlain numberLayout d
  · have hpositional := h.positional hplain
    rcases lt_or_ge d.exponent 0 with hneg | hnonneg
    · exact hpositional.fraction_ne_nil hneg hfraction
    · have hzero := hpositional.fraction_of_nonneg hnonneg
      rw [hfraction] at hzero
      cases hzero
  · have hscientific := (h.scientific hplain).exponent_eq
    rw [hexponent] at hscientific
    cases hscientific

/-- The shortest decimal of a double other than zero is not zero:
`(Double.shortestDecimal mantissa exponent).digits ≠ 0`. -/
theorem digits_shortestDecimal_ne_zero {mantissa : Nat} {exponent : Int}
    (hc : Canonical mantissa exponent) (hm : mantissa ≠ 0) :
    (Double.shortestDecimal mantissa exponent).digits ≠ 0 := by
  have hread := Double.toDouble_shortestDecimal hc hm
  intro hzero
  rw [Decimal.toDouble, Double.ofDecimal, if_pos hzero, Double.zeroOf] at hread
  cases hread
  exact hm rfl

/-- **The text of a finite double other than zero**, `layout.render`, has the parts of its shortest
decimal. -/
theorem chars_render_finite {layout : NumberLayout} {negative : Bool} {mantissa : Nat} {exponent : Int}
    (hc : Canonical mantissa exponent) (hm : mantissa ≠ 0) {number : NumberText}
    (h : Writes layout negative (Double.shortestDecimal mantissa exponent) number) :
    number.chars = (layout.render (.finite negative mantissa exponent hc)).toList := by
  rw [NumberLayout.render, if_neg hm, h.chars_eq, String.toList_ofList]

/-- The shortest decimal of a double with its sign is read back by `Double.ofDecimal`. -/
theorem ofDecimal_shortestDecimal (negative : Bool) {mantissa : Nat} {exponent : Int}
    (hc : Canonical mantissa exponent) (hm : mantissa ≠ 0) :
    Double.ofDecimal negative (Double.shortestDecimal mantissa exponent).digits
      (Double.shortestDecimal mantissa exponent).exponent
      = .finite negative mantissa exponent hc := by
  have hread := Double.toDouble_shortestDecimal hc hm
  cases negative with
  | false => exact hread
  | true =>
    rw [Double.ofDecimal_true]
    exact congrArg Double.neg hread

/-- **The text of a finite double** is that of a number, and the `value` of the number is the
double. -/
theorem exists_numberText {negative : Bool} {mantissa : Nat} {exponent : Int}
    (hc : Canonical mantissa exponent) : ∃ number : NumberText,
      ¬ (number.fraction = [] ∧ number.exponent = none) ∧
      number.chars = (numberLayout.render (.finite negative mantissa exponent hc)).toList ∧
      number.value = .float (.finite negative mantissa exponent hc) := by
  -- zero has no shortest decimal, and it has one canonical exponent only
  by_cases hm : mantissa = 0
  · subst hm
    have hexponent : exponent = -1074 := by
      rcases hc with ⟨-, heq⟩ | ⟨hge, -⟩
      · exact heq
      · exact absurd hge (by decide)
    subst hexponent
    refine ⟨
      { negative
        whole := ['0']
        fraction := ['0']
        whole_isDigit := by simp
        whole_ne_nil := by simp
        whole_zero := fun _ => rfl
        fraction_isDigit := by simp }, by simp, ?_, ?_⟩
    · rw [NumberLayout.render, if_pos rfl]
      cases negative <;> rfl
    · rw [NumberText.value, if_neg (by simp)]
      rfl
  · have hlayout : numberLayout.mantissaPointZero = false := rfl
    obtain ⟨number, hnumber⟩ :=
      exists_writes hlayout negative (digits_shortestDecimal_ne_zero hc hm)
    refine ⟨number, hnumber.isFloat, chars_render_finite hc hm hnumber, ?_⟩
    rw [number.value_of_magnitude hnumber.isFloat hnumber.magnitude_eq, hnumber.negative_eq,
      ofDecimal_shortestDecimal negative hc hm]

end Json

end ModuleSurface
