import MetricFormula.Entity.Basic
import MetricFormula.Exchange.Cell
import MetricFormula.Exchange.Field

/-! # Entities as JSON

Stored values, entities and siblings are records; what an entity or a sibling stores may be left
out. The keys of what is stored are in no order. -/

namespace MetricFormula

namespace StoredValues

def toJson (order : EntryOrder) (v : StoredValues) : Json :=
  .object
    [("scalars", .ofMap order (.ofOption .ofNumber) v.scalars),
     ("lists", .ofMap order (.ofList Row.toJson) v.lists)]

def ofJson? (j : Json) : Option StoredValues := do
  let members ← j.fields? ["scalars", "lists"]
  let scalars ← Json.optional? members "scalars" (Json.map? (Json.option? Json.number?)) ∅
  let lists ← Json.optional? members "lists" (Json.map? (Json.list? Row.ofJson?)) ∅
  return ⟨scalars, lists⟩

end StoredValues

namespace Entity

def toJson (order : EntryOrder) (e : Entity) : Json :=
  .object
    [("entity_id", .int e.id.toInt), ("fields", .ofList Field.toJson e.fields),
     ("values", e.values.toJson order)]

def ofMembers? (members : List (String × Json)) : Option Entity := do
  let id ← Json.required? members "entity_id" Json.int64?
  let fields ← Json.required? members "fields" (Json.list? Field.ofJson?)
  let values ← Json.optional? members "values" StoredValues.ofJson? .empty
  return ⟨id, fields, values⟩

def ofJson? (j : Json) : Option Entity := do
  ofMembers? (← j.fields? ["entity_id", "fields", "values"])

end Entity

namespace Sibling

def toJson (order : EntryOrder) (s : Sibling) : Json :=
  .object
    [("entity_id", .int s.id.toInt), ("fields", .ofList Field.toJson s.fields),
     ("numbers", .ofMap order (.ofOption .ofNumber) s.numbers)]

def ofJson? (j : Json) : Option Sibling := do
  let members ← j.fields? ["entity_id", "fields", "numbers"]
  let id ← Json.required? members "entity_id" Json.int64?
  let fields ← Json.required? members "fields" (Json.list? Field.ofJson?)
  let numbers ← Json.optional? members "numbers" (Json.map? (Json.option? Json.number?)) ∅
  return ⟨id, fields, numbers⟩

end Sibling

end MetricFormula
