/-! # Policies

The limits and rules under which formulas are read and evaluated. -/

namespace MetricFormula

structure Policy where
  /-- The greatest number of characters of a formula. -/
  maxLength : UInt64 := 4096
  /-- How deep operands, parentheses and calls may nest. -/
  maxNesting : UInt64 := 64
  /-- Whether the letter case of function names is of no account. -/
  ignoreCase : Bool := true
  /-- Whether a result has to be finite. -/
  finiteOnly : Bool := true
  deriving DecidableEq

/-- Function names are in upper case only. -/
def Policy.strictNames : Policy := { ignoreCase := false }

end MetricFormula
