import MetricFormula.Binary64.Order
import MetricFormula.Text.Blank

/-! # Comparators

The six comparisons that can filter the rows of a list. A comparator is named by its abbreviation
in any letter case, with or without `op_` in front. -/

namespace MetricFormula

inductive Comparator where
  | eq
  | neq
  | gt
  | gte
  | lt
  | lte
  deriving DecidableEq

namespace Comparator

def all : List Comparator := [eq, neq, gt, gte, lt, lte]

def name : Comparator → String
  | eq => "eq"
  | neq => "neq"
  | gt => "gt"
  | gte => "gte"
  | lt => "lt"
  | lte => "lte"

/-- Whether the comparison holds of two doubles that stand in the given order; without an order
only `neq` holds. -/
def acceptsOrder : Comparator → Option Ordering → Bool
  | eq, o => o = some .eq
  | neq, o => o ≠ some .eq
  | gt, o => o = some .gt
  | gte, o => o = some .gt || o = some .eq
  | lt, o => o = some .lt
  | lte, o => o = some .lt || o = some .eq

def holds (op : Comparator) (left right : Binary64) : Bool := op.acceptsOrder (left.compare? right)

/-- The name without white space around it and without a leading `op_`, in lower case. -/
def bareName (name : String) : List Char :=
  match (Text.trim name.toList).map Char.toLower with
  | 'o' :: 'p' :: '_' :: rest => rest
  | cs => cs

def ofName? (name : String) : Option Comparator :=
  all.find? fun op => op.name.toList = bareName name

theorem ofName?_name (op : Comparator) : ofName? op.name = some op := by
  cases op <;> decide +kernel

end Comparator
end MetricFormula
