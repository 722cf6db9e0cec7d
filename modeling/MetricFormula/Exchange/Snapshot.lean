import MetricFormula.Entity.Snapshot
import MetricFormula.Exchange.Codec

/-! # Snapshots as JSON

A snapshot is coded as its dump; of several entries for one address the last counts. -/

namespace MetricFormula

def entryToJson (entry : Address × Binary64) : Json :=
  .object
    [("entity_id", .int entry.1.entity.toInt), ("field_key", .string entry.1.field),
     ("value", .ofNumber entry.2)]

def entryOfJson? (j : Json) : Option (Address × Binary64) := do
  let members ← j.fields? ["entity_id", "field_key", "value"]
  let entity ← Json.required? members "entity_id" Json.int64?
  let field ← Json.required? members "field_key" Json.string?
  let value ← Json.required? members "value" Json.number?
  return (⟨entity, field⟩, value)

namespace Snapshot

def toJson (s : Snapshot) : Json := .ofList entryToJson s.dump

def ofJson? (j : Json) : Option Snapshot := (j.list? entryOfJson?).map ofEntries

end Snapshot
end MetricFormula
