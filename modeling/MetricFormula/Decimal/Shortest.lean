import MetricFormula.Decimal.Basic

/-! # Shortest decimals

The shortest decimal of a finite double is the one with the fewest digits that reads back as the
double, and of those the nearest. For one digit, two digits and so on up to seventeen, the grid
of decimals with so many digits has two points around the value; the first grid with a point
that reads back wins. What is returned has been read back, or is the exact value. -/

namespace MetricFormula.Decimal

/-- What to do when two decimals of equal length are equally near. -/
inductive Tie where
  | up
  | even
  deriving DecidableEq

/-- A power of ten. -/
def powerOfTen (exponent : Int) : Rat := toRat ⟨1, exponent⟩

/-- The exponent of the first decimal digit of a positive value above `10 ^ -400`. -/
def leadingExponent (q : Rat) : Int :=
  (Nat.toDigits 10 (q * powerOfTen 400).floor.toNat).length - 401

/-- The one of the two decimals around `q` on the grid `10 ^ exponent` that reads back as `x`; the
nearer one when both do. -/
def gridPoint? (tie : Tie) (x : Binary64) (q : Rat) (exponent : Int) : Option Decimal :=
  let position := q / powerOfTen exponent
  let floor := position.floor.toNat
  let lower := strip ⟨floor, exponent⟩
  let upper := strip ⟨floor + 1, exponent⟩
  if lower.toBinary64 false = x then
    if upper.toBinary64 false = x then
      let rest := 2 * (position - floor)
      if rest < 1 then some lower
      else if 1 < rest then some upper
      else match tie with
        | .up => some upper
        | .even => some (if floor % 2 = 0 then lower else upper)
    else some lower
  else if upper.toBinary64 false = x then some upper
  else none

/-- The exact value of a magnitude; one unit is `5 ^ 1074 · 10 ^ -1074`. -/
def exact (m : Magnitude) : Decimal := strip ⟨m.units * Nat.pow 5 1074, -1074⟩

/-- The shortest decimal that reads back as the given magnitude. -/
def shortest (tie : Tie) (m : Magnitude) : Decimal :=
  let q := m.toRat
  let leading := leadingExponent q
  let onGrid (digits : Nat) := gridPoint? tie (.finite false m) q (leading - digits)
  ((List.range 17).findSome? onGrid).getD (exact m)

end MetricFormula.Decimal
