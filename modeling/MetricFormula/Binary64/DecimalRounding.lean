import MetricFormula.Binary64.Order

/-! # Rounding to decimal places

A number is rounded at a decimal place by scaling it with a power of ten, rounding to an integer
and scaling back. The scaled number is itself rounded, so at a half the sign of what the scaling
has lost decides; only an exact half goes to the even neighbour. -/

namespace MetricFormula.Binary64

def half : Binary64 := ofRat false (1 / 2)

def ten : Binary64 := ofInt 10

/-- The integer nearest to a value that is `approx` and a little more or less, by the sign of
`error`. -/
def roundWithError (approx error : Binary64) : Binary64 :=
  if (approx - approx.trunc).abs ≠ half || error.isZero then approx.roundTiesToEven
  else if zero.below error then approx.ceil
  else approx.floor

/-- The greatest exponent at which the power of ten is a double. -/
def greatestExactExponent : Nat := 22

/-- The number rounded at the decimal place `digits` behind the point, or before it if negative.
A power of ten that is no double leaves no trace of what the scaling has lost. -/
def roundAt (x : Binary64) (digits : Int) : Binary64 :=
  if digits = 0 || !x.isFinite then x.roundTiesToEven
  else
    let factor := ten.powNat digits.natAbs
    let isExact : Bool := digits.natAbs ≤ greatestExactExponent
    if 0 < digits then
      let scaled := x * factor
      let error := if isExact then x.mulAdd factor (-scaled) else zero
      if scaled.isFinite then roundWithError scaled error / factor else x
    else
      let scaled := x / factor
      let excess := if isExact then scaled.mulAdd factor (-x) else zero
      roundWithError scaled (-excess) * factor

end MetricFormula.Binary64
