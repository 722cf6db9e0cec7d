import MetricFormula.Formula.Application
import MetricFormula.Formula.Operator
import MetricFormula.Formula.Policy

/-! # Evaluation

The value of an expression, or the first fault on the way to it. Operators take numbers only; text
is never read as a number there. -/

namespace MetricFormula

/-- Everything that an evaluation may read. -/
structure Context where
  scope : Scope
  snapshot : Snapshot
  policy : Policy

/-- The value that a name denotes. -/
def Scope.value (scope : Scope) (name : String) : Except Fault Value :=
  match scope.lookup? name with
  | some (.number x) => .ok (.number x)
  | some .list => .ok (.list name)
  | some .column => .ok (.column name)
  | none => .error (.unbound name)

namespace Expr

def bareName? : Expr → Option String
  | name s => some s
  | _ => none

mutual

/-- The value of an expression, or the first fault on the way to it. -/
def eval (scope : Scope) (snapshot : Snapshot) : Expr → Except Fault Value
  | .number x => .ok (.number x)
  | .text s => .ok (.text s)
  | .name s => scope.value s
  | .call f args => do
    let x ← f.apply scope snapshot (evalArguments scope snapshot args)
    return .number x
  | .signed sign e => do
    let x ← operandNumber .unary (← eval scope snapshot e)
    return .number (sign.apply x)
  | .binary op left right => do
    let x ← operandNumber .left (← eval scope snapshot left)
    let y ← operandNumber .right (← eval scope snapshot right)
    let result ← (op.apply x y).mapError .arithmetic
    return .number result

def evalArguments (scope : Scope) (snapshot : Snapshot) : List Expr → List Argument
  | [] => []
  | e :: es => ⟨e.bareName?, eval scope snapshot e⟩ :: evalArguments scope snapshot es

end

/-- The number that an expression evaluates to, finite if the policy asks for it. -/
def result (ctx : Context) (e : Expr) : Except Fault Binary64 := do
  match ← e.eval ctx.scope ctx.snapshot with
  | .number x =>
    if ctx.policy.finiteOnly && !x.isFinite then throw (.arithmetic (.notFinite x))
    else return x
  | v => throw (.mismatch (.result v.kind))

end Expr

end MetricFormula
