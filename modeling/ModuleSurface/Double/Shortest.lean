import ModuleSurface.Double

/-! # The fewest digits that read back

A finite double is written with the fewest decimal digits that name it: among the decimals with
that many digits the one nearest to the value. For every number of digits from 1 to 17 the two
neighbours of the value on that decimal grid are rounded back to a double; the first grid with
a neighbour that gives the value again wins. -/

namespace ModuleSurface

/-- **A decimal** `digits · 10 ^ exponent`. -/
structure Decimal where
  digits : Nat
  exponent : Int
deriving DecidableEq, Repr

namespace Decimal

/-- The decimal digits of a natural number as characters. -/
def digitChars (n : Nat) : List Char := Nat.toDigits 10 n

/-- How many decimal digits a natural number is written with. -/
def digitCount (n : Nat) : Nat := (digitChars n).length

/-- The decimal with the trailing zeros of its digits moved into the exponent; at most `fuel` of
them. -/
def stripZeros : Nat → Decimal → Decimal
  | 0, d => d
  | fuel + 1, d =>
    if d.digits ≠ 0 ∧ d.digits % 10 = 0 then stripZeros fuel ⟨d.digits / 10, d.exponent + 1⟩ else d

/-- The double nearest to a decimal. -/
def toDouble (d : Decimal) : Double := Double.ofDecimal false d.digits d.exponent

end Decimal

namespace Double

/-- The exponent of the leading digit, plus one, of a positive quotient: the least `k` with
`numerator / denominator < 10 ^ k`. The quotient is read at 340 places after the point, which
shows a digit of every double other than zero. -/
def decimalScale (numerator denominator : Nat) : Int :=
  (Decimal.digitCount (numerator * Nat.pow 10 340 / denominator) : Int) - 340

/-- The neighbours of a quotient on the grid of `10 ^ exponent`, the nearer one first; at a tie the
even one. -/
def gridNeighbours (numerator denominator : Nat) (exponent : Int) : List Decimal :=
  let scaledNumerator := numerator * Nat.pow 10 (-exponent).toNat
  let scaledDenominator := denominator * Nat.pow 10 exponent.toNat
  let below := scaledNumerator / scaledDenominator
  let nearest := roundQuotient scaledNumerator scaledDenominator
  -- the nearest one is one of the two, and at a tie the even one
  if nearest = below then [⟨below, exponent⟩, ⟨below + 1, exponent⟩]
  else [⟨below + 1, exponent⟩, ⟨below, exponent⟩]

/-- The decimal with a given number of digits that reads back to the value, if there is one. -/
def withDigits (value : Double) (numerator denominator : Nat) (count : Nat) : Option Decimal :=
  (gridNeighbours numerator denominator (decimalScale numerator denominator - count)).find?
    fun d => d.toDouble = value

/-- The exact decimal value of `mantissa · 2 ^ exponent`. -/
def exactDecimal (mantissa : Nat) (exponent : Int) : Decimal :=
  ⟨mantissa * Nat.pow 2 exponent.toNat * Nat.pow 5 (-exponent).toNat, min exponent 0⟩

/-- **The shortest decimal** of a magnitude `mantissa · 2 ^ exponent`, without trailing zeros. The
exact value stands in where no grid has a neighbour that reads back. -/
def shortestDecimal (mantissa : Nat) (exponent : Int) : Decimal :=
  let value := ofParts false mantissa exponent
  let (numerator, denominator) := ratio mantissa exponent
  let found := ((List.range' 1 17).findSome? (withDigits value numerator denominator)).getD
    (exactDecimal mantissa exponent)
  Decimal.stripZeros (Decimal.digitCount found.digits) found

/-- What a grid answers reads back to the value: `d.toDouble = value`. -/
theorem toDouble_of_withDigits {value : Double} {numerator denominator count : Nat} {d : Decimal}
    (h : withDigits value numerator denominator count = some d) : d.toDouble = value := by
  simpa using List.find?_some h

end Double

end ModuleSurface
