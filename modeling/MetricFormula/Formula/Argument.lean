import MetricFormula.Entity.Scope
import MetricFormula.Formula.Comparator
import MetricFormula.Formula.Fault

/-! # Arguments

A function sees of each argument its outcome and, if the argument is a bare name, that name: where a
function expects the key of a list or a column, a bare name stands for itself, whatever it is bound
to. What an argument has to be is said here, once for all functions. -/

namespace MetricFormula

/-- What a function sees of an argument. -/
structure Argument where
  bareName : Option String
  outcome : Except Fault Value

/-- The entity that a number names: an integer of 64 bits, the bound above included. -/
def entityOfNumber? (x : Binary64) : Option Int64 :=
  let n := x.toRat.num
  let greatest := Int64.maxValue.toInt
  if x.isInteger && Int64.minValue.toInt ≤ n && n ≤ greatest + 1 then some (.ofInt (min n greatest))
  else none

/-- The digits to round at: an integer, of which only a range that matters is kept. -/
def roundingDigits (v : Value) : Except Mismatch Int :=
  match v with
  | .number d =>
    if d.isInteger then .ok (max (-308) (min 308 d.toRat.num)) else .error (.fractionalDigits d)
  | v => .error (.roundingDigits v.kind)

def roundedValue (v : Value) : Except Mismatch Binary64 :=
  match v with
  | .number x => .ok x
  | v => .error (.roundedValue v.kind)

/-- Rows whose number in a column compares as asked; a row without a number there is only
different. -/
def Comparator.selects (op : Comparator) (column : String) (comparand : Binary64) (row : Row) :
    Bool :=
  match row.number? column with
  | some x => op.holds x comparand
  | none => op = .neq

namespace Argument

/-- The value of a bare name or of anything else, if it is the key of a list or a column. -/
def key (scope : Scope) (a : Argument) : Except Fault String :=
  match a.bareName with
  | some name => if scope.isBound name then .ok name else .error (.unbound name)
  | none => do
    match ← a.outcome with
    | .text s | .list s | .column s => return s
    | .number x => throw (.mismatch (.numberAsKey x))

/-- The key of a column of a list. In a list without rows a bare name need not be bound. -/
def columnOf (scope : Scope) (list : String) (a : Argument) : Except Fault String :=
  match a.bareName with
  | some name =>
    if !scope.isBound name && (scope.rows list).isEmpty then .ok name else a.key scope
  | none => a.key scope

def comparator (a : Argument) : Except Fault Comparator :=
  match a.bareName.bind Comparator.ofName? with
  | some op => .ok op
  | none => do
    match ← a.outcome with
    | .text name =>
      match Comparator.ofName? name with
      | some op => return op
      | none => throw (.mismatch (.unknownComparator name))
    | v => throw (.mismatch (.comparator v.kind))

def comparand (a : Argument) : Except Fault Binary64 := do
  let v ← a.outcome
  match v.coerce? with
  | some x => return x
  | none => throw (.mismatch (.comparand v))

end Argument

end MetricFormula
