import MetricFormula.Binary64.Rounding

/-! # Decimals

A decimal is a natural coefficient times a power of ten, and stands for the double nearest to its
exact value. Coefficients and exponents of any size are allowed, so exponents beyond the range of
doubles are settled without computing the power. -/

namespace MetricFormula

structure Decimal where
  coefficient : Nat
  exponent : Int
  deriving DecidableEq

/-- The number that a run of decimal digits denotes. -/
def digitsValue (digits : List Char) : Nat :=
  digits.foldl (fun n c => 10 * n + (c.toNat - '0'.toNat)) 0

namespace Decimal

def toRat (d : Decimal) : Rat :=
  if 0 ≤ d.exponent then mkRat (d.coefficient * Nat.pow 10 d.exponent.toNat) 1
  else mkRat d.coefficient (Nat.pow 10 (-d.exponent).toNat)

/-- The decimal written as digits, a point, more digits and a power of ten. -/
def ofParts (whole fraction : List Char) (exponent : Int) : Decimal :=
  ⟨digitsValue (whole ++ fraction), exponent - fraction.length⟩

/-- The nearest double. A positive coefficient times `10 ^ 400` is beyond the doubles, and a value
below `2 ^ -1075` is nearest to zero; a power of ten with a negative exponent is below the power
of eight. -/
def toBinary64 (negative : Bool) (d : Decimal) : Binary64 :=
  if d.coefficient = 0 then .finite negative .zero
  else if 400 ≤ d.exponent then .infinity negative
  else if d.coefficient.log2 + 1 + 3 * d.exponent ≤ -1075 then .finite negative .zero
  else .ofRat negative (if negative then -d.toRat else d.toRat)

/-- The same value with no zero at the end of the coefficient. -/
def strip (d : Decimal) : Decimal :=
  if h : d.coefficient ≠ 0 ∧ d.coefficient % 10 = 0 then
    strip ⟨d.coefficient / 10, d.exponent + 1⟩
  else d
  termination_by d.coefficient
  decreasing_by omega

/-- The digits of the coefficient. -/
def digits (d : Decimal) : List Char := Nat.toDigits 10 d.coefficient

/-- The exponent of the first digit. -/
def leading (d : Decimal) : Int := d.exponent + d.digits.length - 1

end Decimal
end MetricFormula
