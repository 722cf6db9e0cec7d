import MetricFormula.Decimal.Literal
import MetricFormula.Decimal.Notation
import MetricFormula.Text.Blank
import MetricFormula.Text.Quoted

/-! # Values of formulas

A formula computes with numbers and texts. A name that is bound to a list field or to a column
stands for itself; such a value is of use only as an argument of the functions over lists. -/

namespace MetricFormula

inductive Value where
  | number (x : Binary64)
  | text (s : String)
  | list (name : String)
  | column (name : String)
  deriving DecidableEq

inductive ValueKind where
  | number
  | text
  | list
  | column
  deriving DecidableEq

def ValueKind.name : ValueKind → String
  | number => "number"
  | text => "text"
  | list => "list field"
  | column => "sub-field"

/-- The number that a text stands for: a finite number text with white space around it. -/
def numberOfText? (s : String) : Option Binary64 :=
  (Binary64.ofText? (Text.trim s.toList)).filter (·.isFinite)

namespace Value

def kind : Value → ValueKind
  | number _ => .number
  | text _ => .text
  | list _ => .list
  | column _ => .column

def number? : Value → Option Binary64
  | number x => some x
  | _ => none

/-- The number that the value is or that its text stands for. -/
def coerce? : Value → Option Binary64
  | number x => some x
  | text s => numberOfText? s
  | list _ | column _ => none

def description : Value → String
  | number x => Notation.plain.text x
  | text s => Text.quoted s
  | list name => s!"list {name}"
  | column name => s!"sub-field {name}"

end Value
end MetricFormula
