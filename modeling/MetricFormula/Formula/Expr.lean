import MetricFormula.Formula.Fault

/-! # Expressions

The tree of a formula. There are no variables besides the names of the entity's data, and a call
can only be to one of the given functions. -/

namespace MetricFormula

inductive Sign where
  | plus
  | minus
  deriving DecidableEq

inductive BinaryOp where
  | add
  | sub
  | mul
  | div
  /-- The quotient rounded down. -/
  | floorDiv
  | pow
  deriving DecidableEq

inductive Expr where
  | number (x : Binary64)
  | text (s : String)
  | name (s : String)
  | call (f : Function) (args : List Expr)
  | signed (sign : Sign) (operand : Expr)
  | binary (op : BinaryOp) (left right : Expr)

end MetricFormula
