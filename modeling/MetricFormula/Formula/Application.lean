import MetricFormula.Binary64.DecimalRounding
import MetricFormula.Entity.Snapshot
import MetricFormula.Formula.Argument
import MetricFormula.Formula.Reduction

/-! # Applying functions

The result of each function on its arguments. Arguments are looked at from left to right, and the
first that is not what it has to be gives the fault. -/

namespace MetricFormula

/-- The result of a function, which depends on the scope and the snapshot only. -/
def Function.apply (scope : Scope) (snapshot : Snapshot) (f : Function) (args : List Argument) :
    Except Fault Binary64 :=
  match f, args with
  | .reduce r, args => do
    let values ← args.mapM (·.outcome)
    return r.apply (values.filterMap (·.number?))
  | .count, args => do
    let values ← args.mapM (·.outcome)
    return countOf values.length
  | .round, [x] => do
    let x ← (roundedValue (← x.outcome)).mapError .mismatch
    return x.roundAt 0
  | .round, [x, digits] => do
    let x ← x.outcome
    let digits ← digits.outcome
    let x ← (roundedValue x).mapError .mismatch
    let digits ← (roundingDigits digits).mapError .mismatch
    return x.roundAt digits
  | .reduceItems r, [list, column] => do
    let list ← list.key scope
    let column ← column.columnOf scope list
    return r.apply ((scope.rows list).filterMap (·.number? column))
  | .countItems, [list] => do
    let list ← list.key scope
    return countOf (scope.rows list).length
  | .countItems, [list, column] => do
    let list ← list.key scope
    let column ← column.columnOf scope list
    return countOf ((scope.rows list).countP (·.hasValue column))
  | .reduceItemsWhere r, [list, column, filter, op, comparand] => do
    let list ← list.key scope
    let column ← column.columnOf scope list
    let filter ← filter.columnOf scope list
    let op ← op.comparator
    let comparand ← comparand.comparand
    let rows := (scope.rows list).filter (op.selects filter comparand)
    return r.apply (rows.filterMap (·.number? column))
  | .countItemsWhere, [list, filter, op, comparand] => do
    let list ← list.key scope
    let filter ← filter.columnOf scope list
    let op ← op.comparator
    let comparand ← comparand.comparand
    return countOf ((scope.rows list).filter (op.selects filter comparand)).length
  | .entityField, [entity, key] => do
    let entity ← entity.outcome
    match ← key.outcome with
    | .text key =>
      match entity.coerce?.bind entityOfNumber? with
      | some id => return snapshot.get ⟨id, key⟩
      | none => return .zero
    | v => throw (.mismatch (.fieldKey v.kind))
  | f, args => .error (.arity f args.length)

end MetricFormula
