import MetricFormula.Entity.Cell
import MetricFormula.Exchange.Codec

/-! # Cells and rows as JSON

A cell is coded by its bare value. A date becomes its text, and no bare value is decoded to a date;
arrays and objects are kept as documents. -/

namespace MetricFormula

namespace Cell

def toJson : Cell → Json
  | .null => .null
  | .bool b => .bool b
  | .number x => .ofNumber x
  | .text s => .string s
  | .date d => .string d.text
  | .json j => j.val

/-- Any document that is data, kept as it is. -/
def ofDocument? (j : Json) : Option Cell :=
  match h : j.normalize? with
  | some k => some (.json ⟨k, Json.normal_of_normalize? h⟩)
  | none => none

def ofJson? (j : Json) : Option Cell :=
  match j with
  | .null => some .null
  | .bool b => some (.bool b)
  | .int n => some (.number (.ofInt n))
  | .float x => some (.number x)
  | .string s => some (.text s)
  | .array _ | .object _ | .unusable => ofDocument? j

end Cell

namespace Row

/-- The columns come in their order. -/
def toJson (r : Row) : Json := .ofMap .ascending Cell.toJson r

def ofJson? (j : Json) : Option Row := j.map? Cell.ofJson?

end Row

end MetricFormula
