import MetricFormula.Binary64.Order
import MetricFormula.Formula.Function

/-! # Reductions

Sums and extremes of numbers in the order given, starting from the first; nothing reduces to
zero. -/

namespace MetricFormula

/-- A count as a number. -/
def countOf (n : Nat) : Binary64 := .ofInt n

def Reduction.apply (r : Reduction) (xs : List Binary64) : Binary64 :=
  match xs with
  | [] => .zero
  | x :: rest =>
    match r with
    | .sum => rest.foldl (· + ·) x
    | .average => rest.foldl (· + ·) x / countOf xs.length
    | .least => rest.foldl Binary64.min x
    | .greatest => rest.foldl Binary64.max x

end MetricFormula
