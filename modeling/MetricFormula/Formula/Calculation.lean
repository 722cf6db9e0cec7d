import MetricFormula.Formula.Evaluation
import MetricFormula.Formula.Reading

/-! # Calculation

From the text of a formula to its number: the text is screened, trimmed, read and evaluated, and
the first of these that fails gives the fault. -/

namespace MetricFormula

def Context.calculate (ctx : Context) (text : String) : Except Fault Binary64 :=
  match screen text with
  | .empty => .error .empty
  | .refused c => .error (.refused c)
  | .accepted => do
    let e ← Expr.ofText ctx.policy (String.ofList (Text.trim text.toList))
    e.result ctx

end MetricFormula
