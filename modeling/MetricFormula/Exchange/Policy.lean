import MetricFormula.Exchange.Codec
import MetricFormula.Formula.Policy

/-! # Policies as JSON

Settings that are not given keep their defaults. -/

namespace MetricFormula.Policy

def toJson (p : Policy) : Json :=
  .object
    [("max_expression_len", .int p.maxLength.toNat),
     ("max_nesting_depth", .int p.maxNesting.toNat),
     ("case_insensitive_functions", .bool p.ignoreCase),
     ("require_finite_results", .bool p.finiteOnly)]

def ofJson? (j : Json) : Option Policy := do
  let standard : Policy := {}
  let members ← j.fields?
    ["max_expression_len", "max_nesting_depth", "case_insensitive_functions",
     "require_finite_results"]
  let maxLength ← Json.optional? members "max_expression_len" Json.uint64? standard.maxLength
  let maxNesting ← Json.optional? members "max_nesting_depth" Json.uint64? standard.maxNesting
  let ignoreCase ←
    Json.optional? members "case_insensitive_functions" Json.bool? standard.ignoreCase
  let finiteOnly ← Json.optional? members "require_finite_results" Json.bool? standard.finiteOnly
  return { maxLength, maxNesting, ignoreCase, finiteOnly }

end MetricFormula.Policy
