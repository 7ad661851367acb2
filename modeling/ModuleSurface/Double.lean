/-! # Double-precision numbers, exactly

A finite double is a sign, a mantissa and a power of two, `± mantissa · 2 ^ exponent`, with the
mantissa and the exponent in the ranges of the 64-bit binary format. Rounding to this format is
done once, from an exact quotient of natural numbers, to the nearest value with ties to the even
mantissa; everything else (decimals, integers, sums, products) computes exactly and rounds last. -/

namespace ModuleSurface

/-- **The finite doubles** have a mantissa of at most 53 bits. Below the smallest binade the
mantissa is short and the exponent is the least one; in every other binade the top bit is set. -/
def Canonical (mantissa : Nat) (exponent : Int) : Prop :=
  (mantissa < Nat.pow 2 52 ∧ exponent = -1074) ∨
    (Nat.pow 2 52 ≤ mantissa ∧ mantissa < Nat.pow 2 53 ∧ -1074 ≤ exponent ∧ exponent ≤ 971)

instance (mantissa : Nat) (exponent : Int) : Decidable (Canonical mantissa exponent) :=
  inferInstanceAs (Decidable (_ ∨ _))

/-- **A double-precision number**: not a number, an infinity, or a finite value in canonical form.
-/
inductive Double
  | nan
  | infinity (negative : Bool)
  | finite (negative : Bool) (mantissa : Nat) (exponent : Int)
      (canonical : Canonical mantissa exponent)
deriving DecidableEq

namespace Double

/-- The zero of a sign. -/
def zeroOf (negative : Bool) : Double := .finite negative 0 (-1074) (by decide)

/-- The positive zero. -/
def zero : Double := zeroOf false

instance : Inhabited Double := ⟨zero⟩

/-! ## Rounding -/

/-- The quotient of two naturals rounded to the nearest integer, a tie to the even neighbour. -/
def roundQuotient (numerator denominator : Nat) : Nat :=
  let quotient := numerator / denominator
  let remainder := numerator % denominator
  if 2 * remainder < denominator then quotient
  else if denominator < 2 * remainder then quotient + 1
  else if quotient % 2 = 0 then quotient else quotient + 1

/-- `numerator / denominator` divided by `2 ^ exponent`, as a quotient of naturals. -/
def scaledQuotient (numerator denominator : Nat) (exponent : Int) : Nat × Nat :=
  (numerator * Nat.pow 2 (-exponent).toNat, denominator * Nat.pow 2 exponent.toNat)

/-- The exponent of the binade of a positive quotient: the greatest `k` with
`2 ^ k ≤ numerator / denominator`. The lengths of the two numbers leave two candidates. -/
def binade (numerator denominator : Nat) : Int :=
  let guess : Int := (numerator.log2 : Int) - denominator.log2
  let scaled := scaledQuotient numerator denominator guess
  if scaled.2 ≤ scaled.1 then guess else guess - 1

/-- The value `± mantissa · 2 ^ exponent` when the parts are canonical, and an infinity when they
are not: after rounding this happens only above the largest finite value. -/
def ofParts (negative : Bool) (mantissa : Nat) (exponent : Int) : Double :=
  if canonical : Canonical mantissa exponent then .finite negative mantissa exponent canonical
  else .infinity negative

/-- **Rounding**: the double nearest to `± numerator / denominator`, a tie to the even mantissa. The
exponent is that of the quotient's binade, no smaller than the least one, and a mantissa that
rounds up to the next power of two moves to the next binade. -/
def ofRatio (negative : Bool) (numerator denominator : Nat) : Double :=
  if numerator = 0 then zeroOf negative
  else
    let exponent := max (binade numerator denominator - 52) (-1074)
    let scaled := scaledQuotient numerator denominator exponent
    let mantissa := roundQuotient scaled.1 scaled.2
    -- rounding up may carry into the next binade
    if mantissa = Nat.pow 2 53 then ofParts negative (Nat.pow 2 52) (exponent + 1)
    else ofParts negative mantissa exponent

/-- The double nearest to an integer; above the largest finite value it is an infinity. -/
def ofInt (n : Int) : Double := ofRatio (n < 0) n.natAbs 1

/-- The double nearest to `± digits · 10 ^ exponent`. Exponents that decide alone are answered
first, so that no power of ten beyond the format is computed. -/
def ofDecimal (negative : Bool) (digits : Nat) (exponent : Int) : Double :=
  if digits = 0 then zeroOf negative
  else if 400 < exponent then .infinity negative
  -- less than half of the least value
  else if (digits.log2 : Int) + 1100 < -(3 * exponent) then zeroOf negative
  else ofRatio negative (digits * Nat.pow 10 exponent.toNat) (Nat.pow 10 (-exponent).toNat)

/-! ## Reading the parts -/

/-- The sign bit; not a number has none. -/
def isNegative : Double → Bool
  | .nan => false
  | .infinity negative => negative
  | .finite negative _ _ _ => negative

/-- The magnitude of a finite double as a quotient of naturals. -/
def ratio (mantissa : Nat) (exponent : Int) : Nat × Nat :=
  (mantissa * Nat.pow 2 exponent.toNat, Nat.pow 2 (-exponent).toNat)

/-- The value with the opposite sign. -/
def neg : Double → Double
  | .nan => .nan
  | .infinity negative => .infinity (!negative)
  | .finite negative mantissa exponent canonical => .finite (!negative) mantissa exponent canonical

/-- Changing the sign twice changes nothing: `x.neg.neg = x`. -/
@[simp] theorem neg_neg (x : Double) : x.neg.neg = x := by
  cases x <;> simp [neg]

/-- Whether a number is one of the two zeros. -/
def isZero : Double → Bool
  | .finite _ mantissa _ _ => mantissa == 0
  | _ => false

/-- The integer part of a finite double, toward zero. -/
def truncate? : Double → Option Int
  | .finite negative mantissa exponent _ =>
    let magnitude := (ratio mantissa exponent).1 / (ratio mantissa exponent).2
    some (if negative then -(magnitude : Int) else magnitude)
  | _ => none

/-- The integer that a finite double equals, when it is whole. -/
def toInt? : Double → Option Int
  | .finite negative mantissa exponent _ =>
    let (numerator, denominator) := ratio mantissa exponent
    if numerator % denominator = 0 then
      let magnitude := numerator / denominator
      some (if negative then -(magnitude : Int) else magnitude)
    else none
  | _ => none

/-! ## Comparison and arithmetic -/

/-- Numeric equality: the two zeros are equal, and not a number equals nothing. -/
def numericEq : Double → Double → Bool
  | .nan, _ => false
  | _, .nan => false
  | x, y => (x.isZero && y.isZero) || x == y

/-- The exact sum of two finite values, rounded once. Zeros of two signs make the positive one. -/
def addFinite (negative negative' : Bool) (a b : Nat × Nat) : Double :=
  let signed (negative : Bool) (n : Nat) : Int := if negative then -(n : Int) else n
  let sum := signed negative (a.1 * b.2) + signed negative' (b.1 * a.2)
  -- a sum of zero is negative only where both terms are
  if sum = 0 then zeroOf (negative && negative') else ofRatio (sum < 0) sum.natAbs (a.2 * b.2)

/-- **The sum** of two doubles. -/
def add : Double → Double → Double
  | .finite s m e _, .finite s' m' e' _ => addFinite s s' (ratio m e) (ratio m' e')
  | .nan, _ | _, .nan => .nan
  | .infinity s, .infinity s' => if s = s' then .infinity s else .nan
  | .infinity s, .finite .. | .finite .., .infinity s => .infinity s

/-- **The product** of two doubles: the exact one, rounded once. -/
def mul : Double → Double → Double
  | .finite s m e _, .finite s' m' e' _ =>
    let (n, d) := ratio m e
    let (n', d') := ratio m' e'
    ofRatio (s != s') (n * n') (d * d')
  | .nan, _ | _, .nan => .nan
  | .infinity s, .infinity s' => .infinity (s != s')
  | .infinity s, .finite s' m _ _ | .finite s' m _ _, .infinity s =>
    if m = 0 then .nan else .infinity (s != s')

/-! ## Laws -/

/-- A zero has the sign that it is made with: `(zeroOf negative).isNegative = negative`. -/
@[simp] theorem isNegative_zeroOf (negative : Bool) : (zeroOf negative).isNegative = negative := rfl

/-- Both values of `zeroOf` are zero. -/
@[simp] theorem isZero_zeroOf (negative : Bool) : (zeroOf negative).isZero = true := rfl

/-- A value in canonical form is built back from its parts by `ofParts`. -/
@[simp] theorem ofParts_eq_finite {mantissa : Nat} {exponent : Int} (negative : Bool)
    (canonical : Canonical mantissa exponent) :
    ofParts negative mantissa exponent = .finite negative mantissa exponent canonical := by
  simp [ofParts, canonical]

end Double

end ModuleSurface
