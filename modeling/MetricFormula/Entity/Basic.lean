import MetricFormula.Entity.Cell
import MetricFormula.Entity.Field

/-! # Entities

An entity declares fields and stores values for them. Of its siblings, which are other entities, no
more is known than the numbers stored for their fields. -/

namespace MetricFormula

/-- The stored values of an entity. A scalar may be stored as absent. -/
structure StoredValues where
  scalars : Std.ExtTreeMap String (Option Binary64)
  lists : Std.ExtTreeMap String (List Row)

namespace StoredValues

def empty : StoredValues := ⟨∅, ∅⟩

/-- The number stored for a key; a key stored as absent has none. -/
def scalar? (v : StoredValues) (key : String) : Option Binary64 := v.scalars[key]?.join

/-- The rows stored for a key. -/
def rows (v : StoredValues) (key : String) : List Row := v.lists[key]?.getD []

end StoredValues

structure Entity where
  id : Int64
  fields : List Field
  values : StoredValues

/-- Another entity, with the numbers stored for its fields. -/
structure Sibling where
  id : Int64
  fields : List Field
  numbers : Std.ExtTreeMap String (Option Binary64)

end MetricFormula
