import ModuleSurface.Double.Shortest

/-! # How a number is laid out

The digits of a double are a matter of arithmetic; where the point stands, when an exponent is
written and how it looks is a decision of each output format. A `NumberLayout` is such a decision,
and `NumberLayout.render` writes a double by it. -/

namespace ModuleSurface

/-- **The decisions of a number format.** -/
structure NumberLayout where
  /-- The least exponent of the leading digit that is written positionally. -/
  plainFrom : Int
  /-- The least exponent above it that is not written positionally any more. -/
  plainBelow : Int
  /-- Whole numbers end in a point and a zero. -/
  pointZero : Bool
  /-- A lone leading digit before an exponent is followed by a point and a zero. -/
  mantissaPointZero : Bool
  /-- The least number of digits of an exponent. -/
  exponentWidth : Nat
  /-- The text of the positive zero. -/
  zeroText : String
  /-- The text of the negative zero. -/
  negativeZeroText : String
  /-- The text of what is not a number. -/
  nanText : String
  /-- The text of the positive infinity. -/
  infinityText : String
  /-- The text of the negative infinity. -/
  negativeInfinityText : String

namespace NumberLayout

/-- A run of zeros. -/
def zeros (n : Nat) : List Char := List.replicate n '0'

/-- Digits in positional notation; `point` is how many of them stand before the point. -/
def plain (layout : NumberLayout) (digits : List Char) (point : Int) : List Char :=
  if (digits.length : Int) ≤ point then
    digits ++ zeros (point - digits.length).toNat ++ (if layout.pointZero then ['.', '0'] else [])
  else if 0 < point then digits.take point.toNat ++ '.' :: digits.drop point.toNat
  else '0' :: '.' :: (zeros (-point).toNat ++ digits)

/-- An exponent with its sign, padded to the width of the layout. -/
def exponentChars (layout : NumberLayout) (exponent : Int) : List Char :=
  let digits := Decimal.digitChars exponent.natAbs
  (if 0 ≤ exponent then '+' else '-') :: (zeros (layout.exponentWidth - digits.length) ++ digits)

/-- Digits in scientific notation; `exponent` is that of the leading digit. -/
def scientific (layout : NumberLayout) (digits : List Char) (exponent : Int) : List Char :=
  let mantissa := match digits with
    | [d] => if layout.mantissaPointZero then [d, '.', '0'] else [d]
    | d :: rest => d :: '.' :: rest
    | [] => []
  mantissa ++ 'e' :: exponentChars layout exponent

/-- The layout of a decimal: positional while the exponent of the leading digit is in the range of
the layout, and scientific otherwise. -/
def decimal (layout : NumberLayout) (d : Decimal) : List Char :=
  let digits := Decimal.digitChars d.digits
  let point := d.exponent + digits.length
  if layout.plainFrom ≤ point - 1 ∧ point - 1 < layout.plainBelow then layout.plain digits point
  else layout.scientific digits (point - 1)

/-- **The text of a double** in a layout: its sign and the shortest digits that name it. -/
def render (layout : NumberLayout) : Double → String
  | .nan => layout.nanText
  | .infinity false => layout.infinityText
  | .infinity true => layout.negativeInfinityText
  | .finite negative mantissa exponent _ =>
    if mantissa = 0 then (if negative then layout.negativeZeroText else layout.zeroText)
    else
      let text := layout.decimal (Double.shortestDecimal mantissa exponent)
      String.ofList (if negative then '-' :: text else text)

/-- What is not a number is written as `layout.nanText`. -/
@[simp] theorem render_nan (layout : NumberLayout) : layout.render .nan = layout.nanText := rfl

/-- The infinity is written as `layout.infinityText`. -/
@[simp] theorem render_infinity (layout : NumberLayout) :
    layout.render (.infinity false) = layout.infinityText := rfl

/-- The negative infinity is written as `layout.negativeInfinityText`. -/
@[simp] theorem render_negativeInfinity (layout : NumberLayout) :
    layout.render (.infinity true) = layout.negativeInfinityText := rfl

/-- **Display**: how a number is shown in a message. Positional for exponents from -4 to 15, whole
numbers with a zero after the point, exponents of two digits. -/
def display : NumberLayout where
  plainFrom := -4
  plainBelow := 16
  pointZero := true
  mantissaPointZero := false
  exponentWidth := 2
  zeroText := "0.0"
  negativeZeroText := "-0.0"
  nanText := "nan"
  infinityText := "inf"
  negativeInfinityText := "-inf"

end NumberLayout

end ModuleSurface
