import MetricFormula.Formula.Fault
import MetricFormula.Proofs.Outcome

/-! # Stages

A formula is screened, read and evaluated, and every fault comes to light at one of these stages. -/

namespace MetricFormula

inductive Stage where
  | screening
  | reading
  | evaluation
  deriving DecidableEq

/-- The stage at which a fault of a formula text comes to light. -/
def Fault.stage : Fault → Stage
  | empty | refused _ => .screening
  | malformed _ | tooComplex _ | unknownFunction _ | arity .. => .reading
  | unbound _ | arithmetic _ | mismatch _ => .evaluation

/-- The computation fails, if at all, as computations of the stage do. -/
abbrev FailsAt (stage : Stage) (x : Except Fault α) : Prop := FailsIn (·.stage = stage) x

end MetricFormula
