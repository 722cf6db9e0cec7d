/-! # Fields

Number fields and list fields hold data that formulas read, formula fields hold an expression; text,
date and boolean fields are out of the reach of formulas. -/

namespace MetricFormula

inductive FieldKind where
  | number
  | text
  | date
  | boolean
  /-- A list of rows; `columns` are declared even where no row has them. -/
  | items (columns : List String)
  | formula (expression : String)
  deriving DecidableEq

structure Field where
  key : String
  kind : FieldKind
  deriving DecidableEq

/-- The expression of a formula field. -/
def Field.expression? (f : Field) : Option String :=
  match f.kind with
  | .formula expression => some expression
  | _ => none

/-- Whether sibling entities can read the number stored for a field. -/
def FieldKind.isShared : FieldKind → Bool
  | number | formula _ => true
  | text | date | boolean | items _ => false

end MetricFormula
