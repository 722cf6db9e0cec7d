import MetricFormula.Exchange.Entity
import MetricFormula.Exchange.Policy
import MetricFormula.Exchange.Result
import MetricFormula.Exchange.Snapshot
import MetricFormula.Json.Reader

/-! # Entity documents

An entity document is an entity together with what is known of other entities: numbers listed
under `snapshot`, and `siblings` whose stored numbers count before those. -/

namespace MetricFormula

structure Document where
  entity : Entity
  listed : List (Address × Binary64)
  siblings : List Sibling

namespace Document

/-- The keys of a document that do not belong to the entity. -/
def ownKeys : List String := ["snapshot", "siblings"]

/-- Whatever does not belong to the document itself has to be usable, even if it is ignored. -/
def ofJson? (j : Json) : Option Document := do
  let members ← j.members?
  if !(members.filter fun m => !ownKeys.contains m.1).all (·.2.isUsable) then none
  let entity ← Entity.ofMembers? members
  let listed ← Json.optional? members "snapshot" (Json.list? entryOfJson?) []
  let siblings ← Json.optional? members "siblings" (Json.list? Sibling.ofJson?) []
  return ⟨entity, listed, siblings⟩

/-- The numbers of other entities; a sibling's stored number replaces a listed one. -/
def snapshot (d : Document) : Snapshot :=
  (Snapshot.ofEntries d.listed).insertAll (Snapshot.ofSiblings d.entity.id d.siblings).dump

def outcomes (d : Document) (policy : Policy) : List Outcome :=
  MetricFormula.outcomes policy d.snapshot d.entity.values d.entity.fields

end Document
end MetricFormula
