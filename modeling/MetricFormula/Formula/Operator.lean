import MetricFormula.Binary64.Order
import MetricFormula.Formula.Expr

/-! # Operators

Signs and binary operators on numbers. A division by zero and a power without a sensible real value
are faults; whatever else the arithmetic of doubles yields is a result, finite or not. -/

namespace MetricFormula

/-- The greatest magnitude of a base or an exponent. -/
def greatestPowerOperand : Binary64 := .ofInt 4000000

def power (base exponent : Binary64) : Except ArithmeticFault Binary64 :=
  if greatestPowerOperand.below base.abs || greatestPowerOperand.below exponent.abs then
    .error (.powerTooLarge base exponent)
  else if base.isZero && exponent.below .zero then .error .zeroToNegative
  else if base.below .zero && !exponent.isInteger then .error (.negativeToFraction base exponent)
  else .ok (base.pow exponent)

def quotient (x y : Binary64) : Except ArithmeticFault Binary64 :=
  if y.isZero then .error .divisionByZero else .ok (x / y)

def BinaryOp.apply (op : BinaryOp) (x y : Binary64) : Except ArithmeticFault Binary64 :=
  match op with
  | .add => .ok (x + y)
  | .sub => .ok (x - y)
  | .mul => .ok (x * y)
  | .div => quotient x y
  | .floorDiv => (quotient x y).map Binary64.floor
  | .pow => power x y

def Sign.apply : Sign → Binary64 → Binary64
  | plus, x => x
  | minus, x => -x

/-- The number that an operand has to be. -/
def operandNumber (role : OperandRole) : Value → Except Fault Binary64
  | .number x => .ok x
  | v => .error (.mismatch (.operand role v.kind))

end MetricFormula
