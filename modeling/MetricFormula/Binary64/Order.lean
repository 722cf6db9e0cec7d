import MetricFormula.Binary64.Arithmetic

/-! # Comparison of doubles

Doubles compare by value: the two zeros are equal, the infinities are the ends of the line, and
not-a-number compares with nothing. -/

namespace MetricFormula.Binary64

/-- The order of two doubles, `none` when one of them is not a number. -/
def compare? : Binary64 → Binary64 → Option Ordering
  | .nan, _ | _, .nan => none
  | .infinity s, .infinity t => some (if s = t then .eq else if s then .lt else .gt)
  | .infinity s, .finite .. => some (if s then .lt else .gt)
  | .finite .., .infinity t => some (if t then .gt else .lt)
  | .finite s m, .finite t n =>
    let x := toRat (.finite s m)
    let y := toRat (.finite t n)
    some (if x < y then .lt else if y < x then .gt else .eq)

/-- Whether `x` is less than `y` in value. -/
def below (x y : Binary64) : Bool := x.compare? y = some .lt

/-- The lesser of two doubles; one that is not a number gives way to the other. -/
protected def min (x y : Binary64) : Binary64 :=
  match x.compare? y with
  | some .gt => y
  | some _ => x
  | none => if x.isNaN then y else x

/-- The greater of two doubles; one that is not a number gives way to the other. -/
protected def max (x y : Binary64) : Binary64 :=
  match x.compare? y with
  | some .lt => y
  | some _ => x
  | none => if x.isNaN then y else x

end MetricFormula.Binary64
