import MetricFormula.Entity.Date
import MetricFormula.Formula.Value
import MetricFormula.Json.Basic

/-! # Cells and rows

A cell is a stored value in a row of a list field. Formulas see of a cell the number it coerces to,
if any, and whether it is null. -/

namespace MetricFormula

/-- A document that is data: see `Json.Normal`. -/
abbrev NormalJson := { j : Json // j.Normal }

inductive Cell where
  | null
  | bool (b : Bool)
  | number (x : Binary64)
  | text (s : String)
  | date (d : Date)
  | json (j : NormalJson)

namespace Cell

/-- The number that a document stands for. -/
def numberOfJson? : Json → Option Binary64
  | .int n => some (.ofInt n)
  | .float x => some x
  | _ => none

/-- The number that the cell holds or that its text stands for. -/
def coerce? : Cell → Option Binary64
  | number x => some x
  | text s => numberOfText? s
  | json j => numberOfJson? j.val
  | null | bool _ | date _ => none

def isNull : Cell → Bool
  | null | json ⟨.null, _⟩ => true
  | _ => false

end Cell

/-- The cells of a row by column. -/
abbrev Row := Std.ExtTreeMap String Cell

/-- The number in a column of a row, if there is one. -/
def Row.number? (row : Row) (column : String) : Option Binary64 := row[column]?.bind Cell.coerce?

/-- Whether a row has a cell in a column that is not null. -/
def Row.hasValue (row : Row) (column : String) : Bool := row[column]?.any (!·.isNull)

end MetricFormula
