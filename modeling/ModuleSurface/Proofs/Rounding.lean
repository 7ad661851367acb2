import Mathlib.Data.Int.Log
import Mathlib.Data.Rat.Floor
import Mathlib.Tactic.FieldSimp
import Mathlib.Tactic.Linarith
import Mathlib.Tactic.NormNum
import Mathlib.Tactic.Positivity
import Mathlib.Tactic.Ring
import ModuleSurface.Double.Shortest

/-! # Rounding is decided by the value

The double nearest to a quotient does not depend on how the quotient is written, and the double
nearest to the value of a finite double is this double. So a decimal may be written with any number
of zeros, and the shortest decimal of a double is read back.

* **`Double.ofRatio_congr`** — equal quotients have the same nearest double.
* **`Double.ofRatio_exact`** — a finite double is nearest to its own value.
* **`Double.ofDecimal_congr`** — decimals of one value have the same nearest double.
* **`Double.toDouble_shortestDecimal`** — the shortest decimal is read back. -/

namespace ModuleSurface

namespace Double

variable {numerator denominator : Nat}

/-! ## Binades -/

/-- A power with an exponent of either sign, by powers with natural exponents:
`base ^ exponent.toNat / base ^ (-exponent).toNat`. -/
theorem pow_toNat_div (base : ℚ) (exponent : ℤ) :
    base ^ exponent.toNat / base ^ (-exponent).toNat = base ^ exponent := by
  obtain ⟨n, rfl | rfl⟩ := exponent.eq_nat_or_neg
  · simp
  · simp

/-- The value of a scaled quotient. -/
theorem scaledQuotient_cast (numerator denominator : Nat) (exponent : ℤ) :
    ((scaledQuotient numerator denominator exponent).1 : ℚ)
        / (scaledQuotient numerator denominator exponent).2
      = numerator / denominator / 2 ^ exponent := by
  rw [← pow_toNat_div 2 exponent]
  simp only [scaledQuotient, Nat.pow_eq, Nat.cast_mul, Nat.cast_pow, Nat.cast_ofNat]
  field_simp

/-- A scaled quotient has a denominator above zero:
`0 < (scaledQuotient numerator denominator exponent).2`. -/
theorem scaledQuotient_snd_pos (numerator : Nat) (hd : 0 < denominator) (exponent : ℤ) :
    0 < (scaledQuotient numerator denominator exponent).2 :=
  Nat.mul_pos hd (Nat.two_pow_pos _)

/-- Scaling by a power of two leaves one or more, exactly where the quotient is no smaller. -/
theorem scaledQuotient_le_iff (numerator : Nat) (hd : 0 < denominator) (exponent : ℤ) :
    (scaledQuotient numerator denominator exponent).2
        ≤ (scaledQuotient numerator denominator exponent).1 ↔
      (2 : ℚ) ^ exponent ≤ numerator / denominator := by
  have hpos : (0 : ℚ) < (scaledQuotient numerator denominator exponent).2 := by
    exact_mod_cast scaledQuotient_snd_pos numerator hd exponent
  have hpow : (0 : ℚ) < 2 ^ exponent := zpow_pos two_pos exponent
  rw [← one_le_div hpow, ← scaledQuotient_cast, one_le_div hpos]
  exact Nat.cast_le.symm

/-- A positive number lies between two powers of two: `(2 : ℚ) ^ (n.log2 : ℤ) ≤ n`. -/
theorem two_pow_log2_le {n : Nat} (hn : n ≠ 0) : (2 : ℚ) ^ (n.log2 : ℤ) ≤ n := by
  rw [zpow_natCast]
  exact_mod_cast Nat.log2_self_le hn

/-- A number lies below the power of two behind its logarithm:
`(n : ℚ) < 2 ^ ((n.log2 : ℤ) + 1)`. -/
theorem lt_two_pow_log2 (n : Nat) : (n : ℚ) < 2 ^ ((n.log2 : ℤ) + 1) := by
  have hlt : n < 2 ^ (n.log2 + 1) := Nat.lt_log2_self
  have hcast : (2 : ℚ) ^ ((n.log2 : ℤ) + 1) = ((2 ^ (n.log2 + 1) : ℕ) : ℚ) := by
    rw [Nat.cast_pow, Nat.cast_ofNat, ← zpow_natCast]
    rfl
  rw [hcast]
  exact_mod_cast hlt

/-- **The binade of a quotient** is decided by its value: `Int.log 2 (numerator / denominator)`. -/
theorem binade_eq_log (hn : numerator ≠ 0) (hd : denominator ≠ 0) :
    binade numerator denominator = Int.log 2 ((numerator : ℚ) / denominator) := by
  have hpos : (0 : ℚ) < numerator / denominator := by positivity
  have hdpos : (0 : ℚ) < denominator := by positivity
  -- the lengths leave the guess and the exponent below it
  have hbelow : (numerator : ℚ) / denominator
      < 2 ^ ((numerator.log2 : ℤ) - denominator.log2 + 1) := by
    rw [div_lt_iff₀ hdpos]
    calc (numerator : ℚ) < 2 ^ ((numerator.log2 : ℤ) + 1) := lt_two_pow_log2 numerator
      _ = 2 ^ ((numerator.log2 : ℤ) - denominator.log2 + 1) * 2 ^ (denominator.log2 : ℤ) := by
        rw [← zpow_add₀ two_ne_zero]
        ring_nf
      _ ≤ 2 ^ ((numerator.log2 : ℤ) - denominator.log2 + 1) * denominator := by
        exact mul_le_mul_of_nonneg_left (two_pow_log2_le hd) (zpow_pos two_pos _).le
  have habove : (2 : ℚ) ^ ((numerator.log2 : ℤ) - denominator.log2 - 1)
      ≤ numerator / denominator := by
    rw [le_div_iff₀ hdpos]
    calc (2 : ℚ) ^ ((numerator.log2 : ℤ) - denominator.log2 - 1) * denominator
        ≤ 2 ^ ((numerator.log2 : ℤ) - denominator.log2 - 1) * 2 ^ ((denominator.log2 : ℤ) + 1) := by
          exact mul_le_mul_of_nonneg_left (lt_two_pow_log2 denominator).le (zpow_pos two_pos _).le
      _ = 2 ^ (numerator.log2 : ℤ) := by
        rw [← zpow_add₀ two_ne_zero]
        ring_nf
      _ ≤ numerator := two_pow_log2_le hn
  -- between these two powers only the guess and its predecessor are left
  have hlt {x : ℤ} (h : (numerator : ℚ) / denominator < 2 ^ x) :
      Int.log 2 ((numerator : ℚ) / denominator) < x :=
    (Int.lt_zpow_iff_log_lt one_lt_two hpos).mp h
  have hle {x : ℤ} (h : (2 : ℚ) ^ x ≤ numerator / denominator) :
      x ≤ Int.log 2 ((numerator : ℚ) / denominator) :=
    (Int.zpow_le_iff_le_log one_lt_two hpos).mp h
  have hlt' := hlt hbelow
  have hle' := hle habove
  unfold binade
  simp only [scaledQuotient_le_iff numerator (Nat.pos_of_ne_zero hd)]
  by_cases hguess : (2 : ℚ) ^ ((numerator.log2 : ℤ) - denominator.log2) ≤ numerator / denominator
  · rw [if_pos hguess]
    have hguess' := hle hguess
    omega
  · rw [if_neg hguess]
    have hguess' := hlt (not_le.mp hguess)
    omega

/-! ## Quotients -/

/-- A common factor does not change how a quotient is rounded. -/
theorem roundQuotient_mul_right (numerator denominator : Nat) {factor : Nat} (hf : 0 < factor) :
    roundQuotient (numerator * factor) (denominator * factor)
      = roundQuotient numerator denominator := by
  have hdouble (remainder : Nat) : 2 * (remainder * factor) = 2 * remainder * factor :=
    (Nat.mul_assoc _ _ _).symm
  simp only [roundQuotient, Nat.mul_div_mul_right _ _ hf, Nat.mul_mod_mul_right, hdouble,
    Nat.mul_lt_mul_right hf]

/-- A quotient without remainder is rounded to itself. -/
theorem roundQuotient_self_mul (quotient : Nat) {denominator : Nat} (hd : 0 < denominator) :
    roundQuotient (quotient * denominator) denominator = quotient := by
  simp [roundQuotient, Nat.mul_div_cancel _ hd, hd]

/-- A quotient below one half is rounded to zero: `roundQuotient numerator denominator = 0`. -/
theorem roundQuotient_of_lt (h : 2 * numerator < denominator) :
    roundQuotient numerator denominator = 0 := by
  have hlt : numerator < denominator := by omega
  simp [roundQuotient, Nat.div_eq_of_lt hlt, Nat.mod_eq_of_lt hlt, h]

/-- A quotient may be written with any common factor. -/
theorem ofRatio_mul_right (negative : Bool) (numerator : Nat) (hd : denominator ≠ 0) {factor : Nat}
    (hf : factor ≠ 0) : ofRatio negative (numerator * factor) (denominator * factor)
      = ofRatio negative numerator denominator := by
  by_cases hn : numerator = 0
  · rw [hn, Nat.zero_mul, ofRatio, ofRatio, if_pos rfl, if_pos rfl]
  have hbinade : binade (numerator * factor) (denominator * factor)
      = binade numerator denominator := by
    rw [binade_eq_log (Nat.mul_ne_zero hn hf) (Nat.mul_ne_zero hd hf), binade_eq_log hn hd,
      Nat.cast_mul, Nat.cast_mul, mul_div_mul_right _ _ (Nat.cast_ne_zero.mpr hf)]
  have hscaled (exponent : ℤ) :
      roundQuotient (scaledQuotient (numerator * factor) (denominator * factor) exponent).1
          (scaledQuotient (numerator * factor) (denominator * factor) exponent).2
        = roundQuotient (scaledQuotient numerator denominator exponent).1
          (scaledQuotient numerator denominator exponent).2 := by
    simp only [scaledQuotient, Nat.mul_right_comm _ factor]
    exact roundQuotient_mul_right _ _ (Nat.pos_of_ne_zero hf)
  simp only [ofRatio, hn, Nat.mul_ne_zero hn hf, if_false, hbinade, hscaled]

/-- **Equal quotients** have the same nearest double by `ofRatio`. -/
theorem ofRatio_congr (negative : Bool) {numerator' denominator' : Nat} (hd : denominator ≠ 0)
    (hd' : denominator' ≠ 0)
    (h : (numerator : ℚ) / denominator = (numerator' : ℚ) / denominator') :
    ofRatio negative numerator denominator = ofRatio negative numerator' denominator' := by
  have hcross : numerator * denominator' = numerator' * denominator := by
    rw [div_eq_div_iff (Nat.cast_ne_zero.mpr hd) (Nat.cast_ne_zero.mpr hd')] at h
    exact_mod_cast h
  rw [← ofRatio_mul_right negative numerator hd hd', hcross, Nat.mul_comm denominator,
    ofRatio_mul_right negative numerator' hd' hd]

/-- The value of the ratio of a finite double is `mantissa * 2 ^ exponent`. -/
theorem ratio_cast (mantissa : Nat) (exponent : ℤ) :
    ((ratio mantissa exponent).1 : ℚ) / (ratio mantissa exponent).2
      = mantissa * 2 ^ exponent := by
  rw [← pow_toNat_div 2 exponent]
  simp only [ratio, Nat.pow_eq, Nat.cast_mul, Nat.cast_pow, Nat.cast_ofNat]
  field_simp

/-- The ratio of a finite double has a denominator other than zero:
`(ratio mantissa exponent).2 ≠ 0`. -/
theorem ratio_snd_ne_zero (mantissa : Nat) (exponent : ℤ) : (ratio mantissa exponent).2 ≠ 0 :=
  Nat.ne_of_gt (Nat.two_pow_pos _)

/-- The binade of a value with a mantissa and an exponent. -/
theorem log_mul_two_zpow {mantissa : Nat} (hm : mantissa ≠ 0) (exponent : ℤ) :
    Int.log 2 ((mantissa : ℚ) * 2 ^ exponent) = mantissa.log2 + exponent := by
  have hpow : (0 : ℚ) < 2 ^ exponent := zpow_pos two_pos exponent
  have hpos : (0 : ℚ) < mantissa * 2 ^ exponent :=
    mul_pos (Nat.cast_pos.mpr (Nat.pos_of_ne_zero hm)) hpow
  have hle : ((2 : ℕ) : ℚ) ^ ((mantissa.log2 : ℤ) + exponent) ≤ mantissa * 2 ^ exponent := by
    rw [Nat.cast_ofNat, zpow_add₀ two_ne_zero]
    exact mul_le_mul_of_nonneg_right (two_pow_log2_le hm) hpow.le
  have hlt : mantissa * 2 ^ exponent < ((2 : ℕ) : ℚ) ^ ((mantissa.log2 : ℤ) + 1 + exponent) := by
    rw [Nat.cast_ofNat, zpow_add₀ two_ne_zero]
    exact mul_lt_mul_of_pos_right (lt_two_pow_log2 mantissa) hpow
  have hge := (Int.zpow_le_iff_le_log one_lt_two hpos).mp hle
  have hlt' := (Int.lt_zpow_iff_log_lt one_lt_two hpos).mp hlt
  omega

/-- The exponent of a finite double follows from its binade. -/
theorem Canonical.exponent_eq {mantissa : Nat} {exponent : ℤ} (hc : Canonical mantissa exponent)
    (hm : mantissa ≠ 0) : max ((mantissa.log2 : ℤ) + exponent - 52) (-1074) = exponent := by
  simp only [Canonical, Nat.pow_eq] at hc
  rcases hc with ⟨hlt, rfl⟩ | ⟨hge, hlt, hmin, -⟩
  · have hlog : mantissa.log2 < 52 := (Nat.log2_lt hm).mpr hlt
    omega
  · have hlog : mantissa.log2 < 53 := (Nat.log2_lt hm).mpr hlt
    have hlog' : 52 ≤ mantissa.log2 := (Nat.le_log2 hm).mpr hge
    omega

/-- **A finite double is nearest to its own value**, `mantissa * 2 ^ exponent`. -/
theorem ofRatio_exact (negative : Bool) {mantissa : Nat} {exponent : ℤ}
    (hc : Canonical mantissa exponent) (hm : mantissa ≠ 0) (hd : denominator ≠ 0)
    (h : (numerator : ℚ) / denominator = mantissa * 2 ^ exponent) :
    ofRatio negative numerator denominator = .finite negative mantissa exponent hc := by
  rw [ofRatio_congr negative hd (ratio_snd_ne_zero mantissa exponent)
    (h.trans (ratio_cast mantissa exponent).symm)]
  have hn : (ratio mantissa exponent).1 ≠ 0 := Nat.mul_ne_zero hm (Nat.ne_of_gt (Nat.two_pow_pos _))
  -- the binade of the value gives the exponent back, and then nothing is rounded
  have hbinade : max (binade (ratio mantissa exponent).1 (ratio mantissa exponent).2 - 52) (-1074)
      = exponent := by
    rw [binade_eq_log hn (ratio_snd_ne_zero mantissa exponent), ratio_cast, log_mul_two_zpow hm]
    exact Canonical.exponent_eq hc hm
  have hround : roundQuotient
      (scaledQuotient (ratio mantissa exponent).1 (ratio mantissa exponent).2 exponent).1
      (scaledQuotient (ratio mantissa exponent).1 (ratio mantissa exponent).2 exponent).2
      = mantissa := by
    simp only [scaledQuotient, ratio, Nat.mul_assoc]
    rw [Nat.mul_comm (Nat.pow 2 exponent.toNat)]
    exact roundQuotient_self_mul mantissa (Nat.mul_pos (Nat.two_pow_pos _) (Nat.two_pow_pos _))
  have hbound : mantissa ≠ Nat.pow 2 53 := by
    rintro rfl
    revert hc
    simp only [Canonical, Nat.pow_eq]
    omega
  simp only [ofRatio, hn, if_false, hbinade, hround, hbound]
  exact ofParts_eq_finite negative hc

/-! ## Values beyond the format -/

/-- A mantissa with an exponent above the greatest one is no finite double:
`ofParts negative mantissa exponent = .infinity negative`. -/
theorem ofParts_of_lt (negative : Bool) (mantissa : Nat) {exponent : ℤ} (h : 971 < exponent) :
    ofParts negative mantissa exponent = .infinity negative := by
  have hnot : ¬ Canonical mantissa exponent := by
    rintro (⟨-, heq⟩ | ⟨-, -, -, hle⟩) <;> omega
  rw [ofParts, dif_neg hnot]

/-- A quotient that is too large, `2 ^ 1024` or more, has an infinity as its nearest double. -/
theorem ofRatio_of_large (negative : Bool) (hd : denominator ≠ 0)
    (h : (2 : ℚ) ^ (1024 : ℤ) ≤ numerator / denominator) :
    ofRatio negative numerator denominator = .infinity negative := by
  have hpos : (0 : ℚ) < numerator / denominator := (zpow_pos two_pos _).trans_le h
  have hn : numerator ≠ 0 := by
    rintro rfl
    simp at hpos
  have hbinade : 1024 ≤ binade numerator denominator := by
    rw [binade_eq_log hn hd]
    exact (Int.zpow_le_iff_le_log one_lt_two hpos).mp h
  have hexponent : 971 < max (binade numerator denominator - 52) (-1074) := by omega
  simp only [ofRatio, hn, if_false]
  split
  · exact ofParts_of_lt _ _ (hexponent.trans (Int.lt_succ _))
  · exact ofParts_of_lt _ _ hexponent

/-- A quotient that is too small, below `2 ^ (-1075)`, has a zero as its nearest double. -/
theorem ofRatio_of_small (negative : Bool) (hn : numerator ≠ 0) (hd : denominator ≠ 0)
    (h : (numerator : ℚ) / denominator < 2 ^ (-1075 : ℤ)) :
    ofRatio negative numerator denominator = zeroOf negative := by
  have hpos : (0 : ℚ) < numerator / denominator := by positivity
  have hbinade : binade numerator denominator < -1075 := by
    rw [binade_eq_log hn hd]
    exact (Int.lt_zpow_iff_log_lt one_lt_two hpos).mp h
  have hexponent : max (binade numerator denominator - 52) (-1074) = -1074 := by omega
  -- at the least exponent the quotient is below one half
  have hscaled : 2 * (scaledQuotient numerator denominator (-1074)).1
      < (scaledQuotient numerator denominator (-1074)).2 := by
    have hsnd : (0 : ℚ) < (scaledQuotient numerator denominator (-1074)).2 := by
      exact_mod_cast scaledQuotient_snd_pos numerator (Nat.pos_of_ne_zero hd) (-1074)
    have hhalf : ((scaledQuotient numerator denominator (-1074)).1 : ℚ)
        / (scaledQuotient numerator denominator (-1074)).2 < 1 / 2 := by
      rw [scaledQuotient_cast, div_lt_iff₀ (zpow_pos two_pos _)]
      calc (numerator : ℚ) / denominator < 2 ^ (-1 + -1074 : ℤ) := h
        _ = 1 / 2 * 2 ^ (-1074 : ℤ) := by
          rw [zpow_add₀ two_ne_zero, zpow_neg_one, one_div]
    rw [div_lt_div_iff₀ hsnd two_pos, one_mul, mul_comm] at hhalf
    exact_mod_cast hhalf
  have hzero : (0 : Nat) ≠ Nat.pow 2 53 := by decide
  simp only [ofRatio, hn, if_false, hexponent, roundQuotient_of_lt hscaled, hzero]
  exact ofParts_eq_finite negative (by decide)

/-! ## Decimals -/

/-- The value of a decimal, as a quotient. -/
theorem decimal_cast (digits : Nat) (exponent : ℤ) :
    ((digits * 10 ^ exponent.toNat : ℕ) : ℚ) / ((10 ^ (-exponent).toNat : ℕ) : ℚ)
      = digits * 10 ^ exponent := by
  rw [← pow_toNat_div 10 exponent]
  push_cast
  ring

/-- No power of ten is zero: `10 ^ n ≠ 0`. -/
theorem ten_pow_ne_zero (n : Nat) : 10 ^ n ≠ 0 := Nat.ne_of_gt (Nat.pow_pos (by decide))

/-- A power of ten lies further from one than that of eight:
`(2 : ℚ) ^ (3 * exponent) ≤ 10 ^ exponent`. -/
theorem two_zpow_le_ten_zpow {exponent : ℤ} (h : 0 ≤ exponent) :
    (2 : ℚ) ^ (3 * exponent) ≤ 10 ^ exponent := by
  rw [zpow_mul]
  exact zpow_le_zpow_left₀ h (by norm_num) (by norm_num)

/-- Below one as well, a power of ten lies further from one than that of eight:
`(10 : ℚ) ^ exponent ≤ 2 ^ (3 * exponent)`. -/
theorem ten_zpow_le_two_zpow {exponent : ℤ} (h : exponent ≤ 0) :
    (10 : ℚ) ^ exponent ≤ 2 ^ (3 * exponent) := by
  have hinv : ((10 : ℚ) ^ (-exponent))⁻¹ ≤ ((2 : ℚ) ^ (3 * -exponent))⁻¹ :=
    inv_anti₀ (zpow_pos two_pos _) (two_zpow_le_ten_zpow (by omega))
  rwa [← zpow_neg, ← zpow_neg, Int.neg_neg, Int.mul_neg, Int.neg_neg] at hinv

/-- The nearest double of a decimal, with the exponents that decide alone like all others. -/
theorem ofDecimal_eq_ofRatio (negative : Bool) (digits : Nat) (exponent : ℤ) :
    ofDecimal negative digits exponent
      = ofRatio negative (digits * 10 ^ exponent.toNat) (10 ^ (-exponent).toNat) := by
  by_cases hdigits : digits = 0
  · simp only [hdigits, Nat.zero_mul, ofDecimal, ofRatio, if_true]
  have hnumerator : digits * 10 ^ exponent.toNat ≠ 0 := Nat.mul_ne_zero hdigits (ten_pow_ne_zero _)
  have hdenominator : 10 ^ (-exponent).toNat ≠ 0 := ten_pow_ne_zero _
  have hten : (0 : ℚ) < 10 ^ exponent := zpow_pos (by norm_num) _
  rw [ofDecimal, if_neg hdigits]
  -- ten is more than eight, so three times the exponent bounds that of two
  by_cases hlarge : 400 < exponent
  · rw [if_pos hlarge]
    refine (ofRatio_of_large negative hdenominator ?_).symm
    have hone : (1 : ℚ) ≤ digits := by exact_mod_cast Nat.pos_of_ne_zero hdigits
    calc (2 : ℚ) ^ (1024 : ℤ) ≤ 2 ^ (3 * exponent) := zpow_le_zpow_right₀ one_le_two (by omega)
      _ ≤ 10 ^ exponent := two_zpow_le_ten_zpow (by omega)
      _ ≤ digits * 10 ^ exponent := le_mul_of_one_le_left hten.le hone
      _ = _ := (decimal_cast digits exponent).symm
  rw [if_neg hlarge]
  by_cases hsmall : (digits.log2 : ℤ) + 1100 < -(3 * exponent)
  · rw [if_pos hsmall]
    refine (ofRatio_of_small negative hnumerator hdenominator ?_).symm
    calc _ = (digits : ℚ) * 10 ^ exponent := decimal_cast digits exponent
      _ < 2 ^ ((digits.log2 : ℤ) + 1) * 10 ^ exponent :=
        mul_lt_mul_of_pos_right (lt_two_pow_log2 digits) hten
      _ ≤ 2 ^ ((digits.log2 : ℤ) + 1) * 2 ^ (3 * exponent) :=
        mul_le_mul_of_nonneg_left (ten_zpow_le_two_zpow (by omega)) (zpow_pos two_pos _).le
      _ = 2 ^ ((digits.log2 : ℤ) + 1 + 3 * exponent) := (zpow_add₀ two_ne_zero _ _).symm
      _ ≤ 2 ^ (-1075 : ℤ) := zpow_le_zpow_right₀ one_le_two (by omega)
  · rw [if_neg hsmall]
    rfl

/-- **Decimals of one value** have the same nearest double by `ofDecimal`. -/
theorem ofDecimal_congr (negative : Bool) {digits digits' : Nat} {exponent exponent' : ℤ}
    (h : (digits : ℚ) * 10 ^ exponent = digits' * 10 ^ exponent') :
    ofDecimal negative digits exponent = ofDecimal negative digits' exponent' := by
  rw [ofDecimal_eq_ofRatio, ofDecimal_eq_ofRatio]
  refine ofRatio_congr negative (ten_pow_ne_zero _) (ten_pow_ne_zero _) ?_
  rw [decimal_cast, decimal_cast, h]

/-- **A decimal of the value of a finite double**, `mantissa * 2 ^ exponent`, is read as this
double. -/
theorem ofDecimal_exact (negative : Bool) {mantissa digits : Nat} {exponent power : ℤ}
    (hc : Canonical mantissa exponent) (hm : mantissa ≠ 0)
    (h : (digits : ℚ) * 10 ^ power = mantissa * 2 ^ exponent) :
    ofDecimal negative digits power = .finite negative mantissa exponent hc := by
  rw [ofDecimal_eq_ofRatio]
  exact ofRatio_exact negative hc hm (ten_pow_ne_zero _) ((decimal_cast digits power).trans h)

/-! ## The shortest decimal -/

/-- The sign plays no part in which magnitude is nearest. -/
theorem ofRatio_true (numerator denominator : Nat) :
    ofRatio true numerator denominator = (ofRatio false numerator denominator).neg := by
  have hparts (mantissa : Nat) (exponent : ℤ) :
      ofParts true mantissa exponent = (ofParts false mantissa exponent).neg := by
    unfold ofParts
    split <;> rfl
  unfold ofRatio
  split
  · rfl
  · dsimp only
    split <;> exact hparts _ _

/-- The sign of a decimal plays no part either. -/
theorem ofDecimal_true (digits : Nat) (exponent : ℤ) :
    ofDecimal true digits exponent = (ofDecimal false digits exponent).neg := by
  rw [ofDecimal_eq_ofRatio, ofDecimal_eq_ofRatio, ofRatio_true]

/-- Moving zeros into the exponent by `stripZeros` keeps the value. -/
theorem stripZeros_value (fuel : Nat) (d : Decimal) :
    ((d.stripZeros fuel).digits : ℚ) * 10 ^ (d.stripZeros fuel).exponent
      = d.digits * 10 ^ d.exponent := by
  induction fuel generalizing d with
  | zero => rfl
  | succ fuel ih =>
    rw [Decimal.stripZeros]
    split
    · next hzero =>
      obtain ⟨digits, hdigits⟩ := Nat.dvd_of_mod_eq_zero hzero.2
      rw [ih, hdigits, Nat.mul_div_cancel_left digits (by decide), zpow_add_one₀ (by norm_num)]
      push_cast
      ring
    · rfl

/-- The exact decimal has the value. -/
theorem exactDecimal_value (mantissa : Nat) (exponent : ℤ) :
    ((exactDecimal mantissa exponent).digits : ℚ) * 10 ^ (exactDecimal mantissa exponent).exponent
      = mantissa * 2 ^ exponent := by
  obtain ⟨n, rfl | rfl⟩ := exponent.eq_nat_or_neg
  · simp [exactDecimal]
  · have hten : (10 : ℚ) ^ n = 5 ^ n * 2 ^ n := by
      rw [← mul_pow]
      norm_num
    have hmin : min (-(n : ℤ)) 0 = -n := by omega
    simp only [exactDecimal, hmin, Int.neg_neg, Int.toNat_natCast, Int.toNat_neg_natCast, zpow_neg,
      zpow_natCast, hten, Nat.pow_eq, pow_zero, mul_one, Nat.cast_mul, Nat.cast_pow, Nat.cast_ofNat]
    field_simp

/-- **The shortest decimal of a finite double** is read back: `toDouble` gives the double without
its sign. -/
theorem toDouble_shortestDecimal {mantissa : Nat} {exponent : ℤ} (hc : Canonical mantissa exponent)
    (hm : mantissa ≠ 0) :
    (shortestDecimal mantissa exponent).toDouble = .finite false mantissa exponent hc := by
  have hvalue : ofParts false mantissa exponent = .finite false mantissa exponent hc :=
    ofParts_eq_finite false hc
  unfold shortestDecimal
  dsimp only
  cases hfound : (List.range' 1 17).findSome? (withDigits (ofParts false mantissa exponent)
      (ratio mantissa exponent).1 (ratio mantissa exponent).2) with
  | some d =>
    obtain ⟨count, -, hcount⟩ := List.exists_of_findSome?_eq_some hfound
    rw [Option.getD_some, ← hvalue, ← toDouble_of_withDigits hcount]
    exact ofDecimal_congr false (stripZeros_value _ d)
  | none =>
    rw [Option.getD_none]
    exact ofDecimal_exact false hc hm ((stripZeros_value _ _).trans (exactDecimal_value _ _))

end Double

end ModuleSurface
