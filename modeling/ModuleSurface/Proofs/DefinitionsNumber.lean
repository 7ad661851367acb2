import ModuleSurface.Definitions.Dialect
import ModuleSurface.Proofs.NumeralText

/-! # Numbers in definitions

A double is written in definitions by the digits that it is displayed with, and where they stand
depends on the number that they denote and on nothing else: positional from a millionth on and below
the power of ten with twenty-one zeros, and with an exponent outside.

* **`SignificantDigits`**, **`LaidOut`** — the digits of a number, and how they are laid out.
* **`Decimal.lead_eq_log`** — the exponent of the leading digit is the logarithm of the number.
* **`Decimal.eq_of_value_eq`** — a number has one decimal without trailing zeros.
* **`floatText_laidOut`** — what is written for doubles, and that different ones are told apart. -/

namespace ModuleSurface

/-! ## Decimals without trailing zeros -/

namespace Decimal

/-- A number is below the power of ten with as many zeros as it has digits:
`n < 10 ^ digitCount n`. -/
theorem lt_ten_pow_digitCount (n : Nat) : n < 10 ^ digitCount n :=
  (Nat.length_toDigits_le_iff (by decide) Nat.length_toDigits_pos).mp le_rfl

/-- A number is no less than the power of ten with as many digits. -/
theorem ten_pow_le_of_digitCount {n k : Nat} (hn : n ≠ 0) (h : digitCount n = k + 1) :
    10 ^ k ≤ n := by
  rcases Nat.eq_zero_or_pos k with rfl | hk
  · exact Nat.one_le_iff_ne_zero.mpr hn
  · by_contra hlt
    have hle : digitCount n ≤ k :=
      (Nat.length_toDigits_le_iff (by decide) hk).mpr (Nat.lt_of_not_le hlt)
    omega

/-- No zero is left at the end when as many are moved as there are digits:
`(d.stripZeros fuel).digits % 10 ≠ 0`. -/
theorem digits_stripZeros_mod (fuel : Nat) (d : Decimal) (h : d.digits < 10 ^ fuel)
    (hne : (d.stripZeros fuel).digits ≠ 0) : (d.stripZeros fuel).digits % 10 ≠ 0 := by
  induction fuel generalizing d with
  | zero =>
    have hzero : d.digits = 0 := by simpa using h
    exact absurd hzero hne
  | succ fuel ih =>
    rw [stripZeros] at hne ⊢
    split at hne
    · next hzero =>
      rw [if_pos hzero]
      refine ih _ ?_ hne
      rw [pow_succ] at h
      exact Nat.div_lt_of_lt_mul (by omega)
    · next hzero =>
      rw [if_neg hzero]
      exact fun hmod => hzero ⟨hne, hmod⟩

/-- A decimal with digits other than zero denotes a number above zero: `0 < d.value`. -/
theorem value_pos {d : Decimal} (hd : d.digits ≠ 0) : 0 < d.value :=
  mul_pos (Nat.cast_pos.mpr (Nat.pos_of_ne_zero hd)) (zpow_pos (by norm_num) _)

/-- **The exponent of the leading digit** is the logarithm of the number:
`d.lead = Int.log 10 d.value`. -/
theorem lead_eq_log {d : Decimal} (hd : d.digits ≠ 0) : d.lead = Int.log 10 d.value := by
  have hpos := value_pos hd
  have hpow : (0 : ℚ) < 10 ^ d.exponent := zpow_pos (by norm_num) _
  obtain ⟨k, hk⟩ := Nat.exists_eq_succ_of_ne_zero
    (Nat.length_toDigits_pos (b := 10) (n := d.digits)).ne'
  have hle : ((10 : ℕ) : ℚ) ^ d.lead ≤ d.value := by
    have hnat : ((10 ^ k : ℕ) : ℚ) ≤ d.digits := Nat.cast_le.mpr (ten_pow_le_of_digitCount hd hk)
    have hlead : d.lead = k + d.exponent := by
      rw [lead, digitChars, hk]
      push_cast
      ring
    rw [hlead, Nat.cast_ofNat, zpow_add₀ (by norm_num), zpow_natCast]
    push_cast at hnat
    exact mul_le_mul_of_nonneg_right hnat hpow.le
  have hlt : d.value < ((10 : ℕ) : ℚ) ^ (d.lead + 1) := by
    have hnat : (d.digits : ℚ) < ((10 ^ digitCount d.digits : ℕ) : ℚ) :=
      Nat.cast_lt.mpr (lt_ten_pow_digitCount d.digits)
    have hlead : d.lead + 1 = digitCount d.digits + d.exponent := by
      rw [lead, digitCount]
      ring
    rw [hlead, Nat.cast_ofNat, zpow_add₀ (by norm_num), zpow_natCast]
    push_cast at hnat
    exact mul_lt_mul_of_pos_right hnat hpow
  have hge := (Int.zpow_le_iff_le_log (by decide) hpos).mp hle
  have hlt' := (Int.lt_zpow_iff_log_lt (by decide) hpos).mp hlt
  omega

/-- A decimal without trailing zeros is whole when it has no digits behind the point,
`0 ≤ d.exponent`. -/
theorem value_isInt_iff {d : Decimal} (hmod : d.digits % 10 ≠ 0) :
    (∃ n : ℤ, d.value = n) ↔ 0 ≤ d.exponent := by
  constructor
  · rintro ⟨n, hn⟩
    by_contra hneg
    obtain ⟨k, hk⟩ := Int.exists_eq_neg_ofNat (le_of_not_ge hneg)
    have hdigits : (d.digits : ℚ) = n * 10 ^ k := by
      rw [← hn, value, hk, zpow_neg, zpow_natCast]
      field_simp
    have hint : (d.digits : ℤ) = n * 10 ^ k := by exact_mod_cast hdigits
    have hdvd : (10 : ℤ) ∣ d.digits := by
      rw [hint]
      exact Dvd.dvd.mul_left (dvd_pow_self 10 (by omega)) n
    exact hmod (Nat.mod_eq_zero_of_dvd (by exact_mod_cast hdvd))
  · intro hnonneg
    obtain ⟨k, hk⟩ := Int.eq_ofNat_of_zero_le hnonneg
    refine ⟨d.digits * 10 ^ k, ?_⟩
    rw [value, hk, zpow_natCast]
    push_cast
    rfl

/-- The last digit of a decimal without trailing zeros is not zero:
`(digitChars n).getLast? ≠ some '0'`. -/
theorem getLast?_digitChars {n : Nat} (hmod : n % 10 ≠ 0) : (digitChars n).getLast? ≠ some '0' := by
  have hdigit : ∀ m < 10, m ≠ 0 → m.digitChar ≠ '0' := by decide
  have hne := hdigit (n % 10) (Nat.mod_lt n (by decide)) hmod
  rw [digitChars, Nat.toDigits_eq_if (by decide)]
  split
  · next hlt =>
    rw [Nat.mod_eq_of_lt hlt] at hne
    simpa using hne
  · simpa using hne

/-- A decimal without trailing zeros has the greatest exponent of those that denote its number. -/
theorem exponent_le_of_value_eq {d d' : Decimal} (hmod : d.digits % 10 ≠ 0)
    (h : d.value = d'.value) : d'.exponent ≤ d.exponent := by
  by_contra hlt
  obtain ⟨k, hk⟩ := Int.eq_ofNat_of_zero_le (show 0 ≤ d'.exponent - d.exponent - 1 by omega)
  have hexponent : d'.exponent = d.exponent + (k + 1 : ℕ) := by omega
  have hpow : (10 : ℚ) ^ d.exponent ≠ 0 := zpow_ne_zero _ (by norm_num)
  have hdigits : (d.digits : ℚ) = d'.digits * 10 ^ (k + 1) := by
    rw [value, value, hexponent, zpow_add₀ (by norm_num), zpow_natCast] at h
    refine mul_right_cancel₀ hpow ?_
    rw [h]
    ring
  have hnat : d.digits = d'.digits * 10 ^ (k + 1) := by exact_mod_cast hdigits
  refine hmod (Nat.mod_eq_zero_of_dvd ?_)
  rw [hnat]
  exact Dvd.dvd.mul_left (dvd_pow_self 10 (Nat.succ_ne_zero k)) _

/-- **A number has one decimal without trailing zeros.** -/
theorem eq_of_value_eq {d d' : Decimal} (hmod : d.digits % 10 ≠ 0) (hmod' : d'.digits % 10 ≠ 0)
    (h : d.value = d'.value) : d = d' := by
  have hexponent : d.exponent = d'.exponent :=
    le_antisymm (exponent_le_of_value_eq hmod' h.symm) (exponent_le_of_value_eq hmod h)
  have hdigits : (d.digits : ℚ) = d'.digits := by
    rw [value, value, hexponent] at h
    exact mul_right_cancel₀ (zpow_ne_zero _ (by norm_num)) h
  obtain ⟨digits, exponent⟩ := d
  obtain ⟨digits', exponent'⟩ := d'
  rw [Decimal.mk.injEq]
  exact ⟨by exact_mod_cast hdigits, hexponent⟩

end Decimal

/-- The shortest decimal of a double other than zero has no trailing zeros. -/
theorem shortestDecimal_mod {mantissa : Nat} {exponent : Int} (hc : Canonical mantissa exponent)
    (hm : mantissa ≠ 0) : (Double.shortestDecimal mantissa exponent).digits % 10 ≠ 0 :=
  Decimal.digits_stripZeros_mod _ _ (Decimal.lt_ten_pow_digitCount _)
    (Json.digits_shortestDecimal_ne_zero hc hm)

/-- **The decimal of a number's text**, without the zeros at its end. -/
def Json.NumberText.decimal (number : Json.NumberText) : Decimal :=
  let digits := Numeral.ofDigits ((number.whole ++ number.fraction).map Json.digitOf)
  Decimal.stripZeros (Decimal.digitCount digits) ⟨digits, number.power - number.fraction.length⟩

namespace Json.NumberText

/-- The decimal of a text denotes what the text denotes:
`number.decimal.value = number.magnitude`. -/
theorem value_decimal (number : Json.NumberText) : number.decimal.value = number.magnitude :=
  Double.stripZeros_value _ _

/-- The decimal of a text that does not denote zero has no trailing zeros:
`number.decimal.digits % 10 ≠ 0`. -/
theorem digits_decimal_mod {number : Json.NumberText} (h : number.magnitude ≠ 0) :
    number.decimal.digits % 10 ≠ 0 := by
  refine Decimal.digits_stripZeros_mod _ _ (Decimal.lt_ten_pow_digitCount _) fun hzero => h ?_
  rw [← number.value_decimal, Decimal.value, decimal, hzero, Nat.cast_zero, zero_mul]

/-- The decimal of a text that denotes what a decimal without trailing zeros denotes is this one. -/
theorem decimal_eq {number : Json.NumberText} {d : Decimal} (hmod : d.digits % 10 ≠ 0)
    (h : number.magnitude = d.value) : number.decimal = d := by
  have hpos : 0 < number.magnitude := h ▸ Decimal.value_pos (by omega)
  exact Decimal.eq_of_value_eq (digits_decimal_mod hpos.ne') hmod (number.value_decimal.trans h)

end Json.NumberText

/-! ## How a number is laid out -/

/-- **The significant digits** of a positive number. Neither the first nor the last is a zero. -/
structure SignificantDigits (q : ℚ) (digits : List Char) : Prop where
  isDigit : ∀ c ∈ digits, c.isDigit = true
  ne_nil : digits ≠ []
  head : digits.head? ≠ some '0'
  last : digits.getLast? ≠ some '0'
  value : ∃ exponent : ℤ, q = Numeral.ofDigits (digits.map Json.digitOf) * 10 ^ exponent

/-- **A positive number as it is laid out in definitions.** What is written in positional notation
has no zero at the end of a fraction, and what is written with an exponent has one digit before the
point, and the exponent of this digit. -/
structure LaidOut (q : ℚ) (number : Json.NumberText) : Prop where
  magnitude_eq : number.magnitude = q
  plain_iff : number.exponent = none ↔ 10 ^ (-6 : ℤ) ≤ q ∧ q < 10 ^ (21 : ℤ)
  last_fraction : number.exponent = none → number.fraction.getLast? ≠ some '0'
  point_iff : number.exponent = none → (number.fraction ≠ [] ↔ ¬ ∃ n : ℤ, q = n)
  length_whole : number.exponent ≠ none → number.whole.length = 1
  digits : number.exponent ≠ none → SignificantDigits q (number.whole ++ number.fraction)
  exponent : number.exponent ≠ none →
    number.exponent = some (decide (Int.log 10 q < 0), Nat.toDigits 10 (Int.log 10 q).natAbs)

/-- The digits of a decimal without trailing zeros are significant. -/
theorem significantDigits_digitChars {d : Decimal} (hmod : d.digits % 10 ≠ 0) :
    SignificantDigits d.value (Decimal.digitChars d.digits) := by
  have hd := Json.digitsOf_digitChars (n := d.digits) (by omega)
  refine ⟨hd.isDigit, hd.ne_nil, hd.head, Decimal.getLast?_digitChars hmod, d.exponent, ?_⟩
  rw [hd.value, Decimal.value]

/-- The plain decimals of `definitionsLayout` lie between two powers of ten:
`10 ^ (-6) ≤ d.value < 10 ^ 21`. -/
theorem isPlain_definitionsLayout_iff {d : Decimal} (hd : d.digits ≠ 0) :
    Json.IsPlain definitionsLayout d ↔ 10 ^ (-6 : ℤ) ≤ d.value ∧ d.value < 10 ^ (21 : ℤ) := by
  have hpos := Decimal.value_pos hd
  have hlower := Int.zpow_le_iff_le_log (b := 10) (by decide) (x := -6) hpos
  have hupper := Int.lt_zpow_iff_log_lt (b := 10) (by decide) (x := 21) hpos
  rw [Nat.cast_ofNat] at hlower hupper
  rw [Json.IsPlain, Decimal.lead_eq_log hd, hlower, hupper]
  rfl

/-- **What definitions write for a decimal** is laid out by its number: `LaidOut d.value number`. -/
theorem laidOut_of_writes {negative : Bool} {d : Decimal} {number : Json.NumberText}
    (hmod : d.digits % 10 ≠ 0) (h : Json.Writes definitionsLayout negative d number) :
    LaidOut d.value number := by
  have hd : d.digits ≠ 0 := by omega
  have hplain_iff : number.exponent = none ↔ Json.IsPlain definitionsLayout d := by
    constructor
    · intro hnone
      by_contra hplain
      rw [(h.scientific hplain).exponent_eq] at hnone
      cases hnone
    · exact fun hplain => (h.positional hplain).exponent_none
  have hpositional := fun hnone => h.positional (hplain_iff.mp hnone)
  have hscientific := fun hsome => h.scientific (mt hplain_iff.mpr hsome)
  have hsign := lt_or_ge d.exponent 0
  refine ⟨h.magnitude_eq, hplain_iff.trans (isPlain_definitionsLayout_iff hd), fun hnone => ?_,
    fun hnone => ?_, fun hsome => (hscientific hsome).length_whole, fun hsome => ?_, fun hsome => ?_⟩
  · rcases hsign with hneg | hnonneg
    · rw [(hpositional hnone).getLast?_fraction hneg]
      exact Decimal.getLast?_digitChars hmod
    · rw [(hpositional hnone).fraction_of_nonneg hnonneg]
      exact nofun
  · rw [Decimal.value_isInt_iff hmod, not_le]
    refine ⟨fun hne => ?_, (hpositional hnone).fraction_ne_nil⟩
    by_contra hnonneg
    exact hne ((hpositional hnone).fraction_of_nonneg (not_lt.mp hnonneg))
  · rw [(hscientific hsome).digits_eq]
    exact significantDigits_digitChars hmod
  · have hwidth : definitionsLayout.exponentWidth
        - (Decimal.digitChars d.lead.natAbs).length = 0 :=
      Nat.sub_eq_zero_of_le (Nat.length_toDigits_pos (b := 10))
    rw [(hscientific hsome).exponent_eq, hwidth, Decimal.lead_eq_log hd]
    rfl

/-- **What definitions write for the decimal of a text** that does not denote zero, however many zeros
stand at its end, is laid out by the number that the text denotes. -/
theorem exists_laidOut (shown : Json.NumberText) (negative : Bool) (h : shown.magnitude ≠ 0) :
    ∃ written, Json.Writes definitionsLayout negative shown.decimal written ∧
      LaidOut shown.magnitude written := by
  have hmod := Json.NumberText.digits_decimal_mod h
  have hlayout : definitionsLayout.mantissaPointZero = false := rfl
  obtain ⟨written, hwritten⟩ :=
    Json.exists_writes hlayout negative (show shown.decimal.digits ≠ 0 by omega)
  refine ⟨written, hwritten, ?_⟩
  rw [← shown.value_decimal]
  exact laidOut_of_writes hmod hwritten

/-! ## Doubles in definitions -/

/-- The text of a finite double is that of a number: of its shortest decimal, or of zero. -/
theorem exists_definitionsText (negative : Bool) {mantissa : Nat} {exponent : Int}
    (hc : Canonical mantissa exponent) : ∃ number : Json.NumberText,
      number.chars = (definitionsLayout.render (.finite negative mantissa exponent hc)).toList ∧
      (mantissa = 0 → number.magnitude = 0) ∧
      (mantissa ≠ 0 → Json.Writes definitionsLayout negative
        (Double.shortestDecimal mantissa exponent) number) := by
  by_cases hm : mantissa = 0
  · refine ⟨.ofInt 0, ?_, fun _ => ?_, fun hne => absurd hm hne⟩
    · rw [NumberLayout.render, if_pos hm]
      cases negative <;> rfl
    · have hdigits : Numeral.ofDigits (((Json.NumberText.ofInt 0).whole
          ++ (Json.NumberText.ofInt 0).fraction).map Json.digitOf) = 0 := by decide
      rw [Json.NumberText.magnitude, hdigits, Nat.cast_zero, zero_mul]
  · have hlayout : definitionsLayout.mantissaPointZero = false := rfl
    obtain ⟨number, hnumber⟩ :=
      Json.exists_writes hlayout negative (Json.digits_shortestDecimal_ne_zero hc hm)
    exact ⟨number, Json.chars_render_finite hc hm hnumber, fun hzero => absurd hzero hm,
      fun _ => hnumber⟩

/-- Finite doubles with one text are equal. -/
theorem numericEq_of_render_finite {negative negative' : Bool} {mantissa mantissa' : Nat}
    {exponent exponent' : Int} (hc : Canonical mantissa exponent) (hc' : Canonical mantissa' exponent')
    (h : definitionsLayout.render (.finite negative mantissa exponent hc)
      = definitionsLayout.render (.finite negative' mantissa' exponent' hc')) :
    Double.numericEq (.finite negative mantissa exponent hc)
      (.finite negative' mantissa' exponent' hc') = true := by
  obtain ⟨number, hchars, hzero, hwrites⟩ := exists_definitionsText negative hc
  obtain ⟨number', hchars', hzero', hwrites'⟩ := exists_definitionsText negative' hc'
  obtain ⟨hnegative, hmagnitude⟩ := Json.NumberText.parts_eq_of_chars_eq
    (hchars.trans ((congrArg String.toList h).trans hchars'.symm))
  have hpos := fun hm => Decimal.value_pos (Json.digits_shortestDecimal_ne_zero hc hm)
  have hpos' := fun hm => Decimal.value_pos (Json.digits_shortestDecimal_ne_zero hc' hm)
  by_cases hm : mantissa = 0 <;> by_cases hm' : mantissa' = 0
  · simp [Double.numericEq, Double.isZero, hm, hm']
  · rw [hzero hm, (hwrites' hm').magnitude_eq] at hmagnitude
    exact absurd hmagnitude (hpos' hm').ne
  · rw [hzero' hm', (hwrites hm).magnitude_eq] at hmagnitude
    exact absurd hmagnitude (hpos hm).ne'
  · rw [(hwrites hm).magnitude_eq, (hwrites' hm').magnitude_eq] at hmagnitude
    rw [(hwrites hm).negative_eq, (hwrites' hm').negative_eq] at hnegative
    have heq : Double.finite negative mantissa exponent hc
        = .finite negative' mantissa' exponent' hc' := by
      rw [← Json.ofDecimal_shortestDecimal negative hc hm,
        ← Json.ofDecimal_shortestDecimal negative' hc' hm', hnegative]
      exact Double.ofDecimal_congr negative' hmagnitude
    simp [Double.numericEq, heq]

/-- The text of a finite double is no name, since `definitionsLayout.render` uses digits, signs,
points and `e` only. -/
theorem render_finite_ne {negative : Bool} {mantissa : Nat} {exponent : Int}
    (hc : Canonical mantissa exponent) {name : String} {c : Char} (hmem : c ∈ name.toList)
    (hc' : c ∉ "0123456789-+.e".toList) :
    definitionsLayout.render (.finite negative mantissa exponent hc) ≠ name := by
  obtain ⟨number, hchars, -, -⟩ := exists_definitionsText negative hc
  rintro rfl
  rw [← hchars] at hmem
  exact hc' (number.mem_chars hmem)

/-- **Doubles that share a text** by `floatText` are equal, or no number at all. -/
theorem numericEq_of_floatText {x y : Double} (h : floatText (.float x) = floatText (.float y)) :
    x.numericEq y = true ∨ x = .nan ∧ y = .nan := by
  rw [floatText_float, floatText_float, Except.ok.injEq] at h
  cases x with
  | nan =>
    cases y with
    | nan => exact .inr ⟨rfl, rfl⟩
    | infinity negative => cases negative <;> exact absurd h (by decide)
    | finite => exact absurd h.symm (render_finite_ne _ (c := 'N') (by decide) (by decide))
  | infinity negative =>
    cases y with
    | nan => cases negative <;> exact absurd h (by decide)
    | infinity negative' =>
      cases negative <;> cases negative' <;> first | exact .inl rfl | exact absurd h (by decide)
    | finite =>
      cases negative <;>
        exact absurd h.symm (render_finite_ne _ (c := 'I') (by decide) (by decide))
  | finite =>
    cases y with
    | nan => exact absurd h (render_finite_ne _ (c := 'N') (by decide) (by decide))
    | infinity negative =>
      cases negative <;> exact absurd h (render_finite_ne _ (c := 'I') (by decide) (by decide))
    | finite => exact .inl (numericEq_of_render_finite _ _ h)

/-- **Doubles in definitions.** What is written from a text that does not denote zero denotes the same
number, and is positional from a millionth on and below the power of ten with twenty-one zeros. The
text of a double other than zero that is finite is written so, with the sign of the double, from the
text that its magnitude is displayed with. Both zeros are written alike, and only equal doubles share
a text. -/
theorem floatText_laidOut :
    (∀ (shown : Json.NumberText) (negative : Bool), shown.magnitude ≠ 0 →
      ∃ written : Json.NumberText, written.negative = negative ∧
        written.unsignedChars = definitionsLayout.decimal shown.decimal ∧
        LaidOut shown.magnitude written) ∧
    (∀ (negative : Bool) (mantissa : Nat) (exponent : Int) (hc : Canonical mantissa exponent),
      mantissa ≠ 0 → ∃ shown written : Json.NumberText,
        shown.chars = (NumberLayout.display.render (.finite false mantissa exponent hc)).toList ∧
        Numeral.readDouble (NumberLayout.display.render (.finite false mantissa exponent hc))
          = some (.finite false mantissa exponent hc) ∧
        shown.negative = false ∧
        floatText (.float (.finite negative mantissa exponent hc))
          = .ok (String.ofList written.chars) ∧
        written.negative = negative ∧
        written.unsignedChars = definitionsLayout.decimal shown.decimal ∧
        LaidOut shown.magnitude written) ∧
    (∀ negative : Bool, floatText (.float (Double.zeroOf negative)) = .ok "0") ∧
    ∀ x y : Double, floatText (.float x) = floatText (.float y) →
      x.numericEq y = true ∨ x = .nan ∧ y = .nan := by
  refine ⟨fun shown negative h => ?_, fun negative mantissa exponent hc hm => ?_,
    fun negative => ?_, fun _ _ h => numericEq_of_floatText h⟩
  · obtain ⟨written, hwritten, hlaidOut⟩ := exists_laidOut shown negative h
    exact ⟨written, hwritten.negative_eq, hwritten.unsignedChars_eq, hlaidOut⟩
  · have hdigits := Json.digits_shortestDecimal_ne_zero hc hm
    have hlayout : NumberLayout.display.mantissaPointZero = false := rfl
    obtain ⟨shown, hshown⟩ := Json.exists_writes hlayout false hdigits
    have hpos : 0 < shown.magnitude := hshown.magnitude_eq ▸ Decimal.value_pos hdigits
    obtain ⟨written, hwritten, hlaidOut⟩ := exists_laidOut shown negative hpos.ne'
    have hdecimal : shown.decimal = Double.shortestDecimal mantissa exponent :=
      Json.NumberText.decimal_eq (shortestDecimal_mod hc hm) hshown.magnitude_eq
    have hchars := Json.chars_render_finite hc hm hshown
    refine ⟨shown, written, hchars, ?_, hshown.negative_eq, ?_, hwritten.negative_eq,
      hwritten.unsignedChars_eq, hlaidOut⟩
    · rw [← String.ofList_toList (s := NumberLayout.display.render _), ← hchars,
        shown.readDouble_chars, shown.nearest_of_magnitude hshown.magnitude_eq, hshown.negative_eq,
        Json.ofDecimal_shortestDecimal false hc hm]
    · rw [hdecimal] at hwritten
      rw [floatText_float, Json.chars_render_finite hc hm hwritten, String.ofList_toList]
  · cases negative <;> rfl

/-- Twelve hundred as it is displayed, with a zero behind the point. -/
def shownHundreds : Json.NumberText :=
  { Json.NumberText.ofInt 1200 with
    fraction := ['0']
    fraction_isDigit := List.forall_mem_singleton.mpr rfl }

/-- Twelve hundred is written without a point, from its text and from the double below zero that is
displayed with this text. Zeros share a text, and are equal. -/
theorem floatText_laidOut_hundreds :
    (∃ written : Json.NumberText, written.unsignedChars = "1200".toList ∧ LaidOut 1200 written) ∧
    (∃ written : Json.NumberText,
      floatText (.float (.ofDecimal true 12 2)) = .ok (String.ofList written.chars) ∧
      written.negative = true ∧ LaidOut 1200 written) ∧
    (Double.zeroOf false).numericEq (Double.zeroOf true) = true := by
  obtain ⟨htext, hdouble, hzero, hequal⟩ := floatText_laidOut
  have hmagnitude : shownHundreds.magnitude = 1200 := by
    have hdigits : Numeral.ofDigits
        ((shownHundreds.whole ++ shownHundreds.fraction).map Json.digitOf) = 12000 := by decide
    have hpower : shownHundreds.power - (shownHundreds.fraction.length : ℤ) = -1 := by decide
    rw [Json.NumberText.magnitude, hdigits, hpower]
    norm_num
  refine ⟨?_, ?_, ?_⟩
  · obtain ⟨written, -, hchars, hlaidOut⟩ :=
      htext shownHundreds false (by rw [hmagnitude]; norm_num)
    exact ⟨written, hchars.trans (by decide +kernel), hmagnitude ▸ hlaidOut⟩
  · have hdisplayed : shownHundreds.chars = (NumberLayout.display.render
        (.finite false 5277655813324800 (-42) (by decide))).toList := by decide +kernel
    have hvalue : Double.ofDecimal true 12 2
        = .finite true 5277655813324800 (-42) (by decide) := by decide +kernel
    obtain ⟨shown, written, hshown, -, -, hchars, hnegative, -, hlaidOut⟩ :=
      hdouble true 5277655813324800 (-42) (by decide) (by decide)
    obtain ⟨-, hsame⟩ := Json.NumberText.parts_eq_of_chars_eq (hshown.trans hdisplayed.symm)
    rw [hvalue]
    exact ⟨written, hchars, hnegative, (hsame.trans hmagnitude) ▸ hlaidOut⟩
  · obtain heq | ⟨hnan, -⟩ := hequal _ _ ((hzero false).trans (hzero true).symm)
    · exact heq
    · cases hnan

/-- The powers of ten on both sides of the bounds. -/
example : floatText (.float (.ofDecimal false 1 20)) = .ok "100000000000000000000" ∧
    floatText (.float (.ofDecimal false 1 21)) = .ok "1e+21" ∧
    floatText (.float (.ofDecimal true 125 (-8))) = .ok "-0.00000125" ∧
    floatText (.float (.ofDecimal true 125 (-9))) = .ok "-1.25e-7" := by decide +kernel

end ModuleSurface
