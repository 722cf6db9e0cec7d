import MetricFormula.Entity.Computation
import MetricFormula.Exchange.Codec

/-! # Results as JSON

A computed field has a number or null for its value, and a value that an object does not give reads
as null. -/

namespace MetricFormula

namespace ComputedField

/-- The number of a computed field; null where there is none. -/
def valueToJson (value : Option Binary64) : Json := .ofOption .ofNumber value

def valueOfJson? (j : Json) : Option (Option Binary64) := j.option? Json.number?

def toJson (f : ComputedField) : Json :=
  .object [("key", .string f.key), ("value", valueToJson f.value)]

/-- The value among the members of a document; an array has to give it. -/
def valueOf? (j : Json) (members : List (String × Json)) : Option (Option Binary64) :=
  match j with
  | .array _ => Json.required? members "value" valueOfJson?
  | _ => Json.optional? members "value" valueOfJson? none

def ofJson? (j : Json) : Option ComputedField := do
  let members ← j.fields? ["key", "value"]
  let key ← Json.required? members "key" Json.string?
  let value ← valueOf? j members
  return ⟨key, value⟩

end ComputedField

namespace EntityResult

def toJson (r : EntityResult) : Json :=
  .object [("entity_id", .int r.id.toInt), ("fields", .ofList ComputedField.toJson r.fields)]

def ofJson? (j : Json) : Option EntityResult := do
  let members ← j.fields? ["entity_id", "fields"]
  let id ← Json.required? members "entity_id" Json.int64?
  let fields ← Json.required? members "fields" (Json.list? ComputedField.ofJson?)
  return ⟨id, fields⟩

end EntityResult
end MetricFormula
