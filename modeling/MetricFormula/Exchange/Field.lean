import MetricFormula.Entity.Field
import MetricFormula.Exchange.Codec

/-! # Fields as JSON

A field is an object, and never an array, with its key, the name of its kind under `type`, and what
belongs to the kind. The kind may also be given by its position in the list of kinds. What is
ignored in a field still has to be usable. -/

namespace MetricFormula

/-- The kinds of fields without what belongs to them. -/
inductive FieldTag where
  | number
  | text
  | date
  | boolean
  | items
  | formula
  deriving DecidableEq

namespace FieldTag

def all : List FieldTag := [number, text, date, boolean, items, formula]

def name : FieldTag → String
  | number => "number"
  | text => "text"
  | date => "date"
  | boolean => "boolean"
  | items => "items"
  | formula => "formula"

def ofJson? : Json → Option FieldTag
  | .string s => all.find? (·.name = s)
  | .int n => if 0 ≤ n then all[n.toNat]? else none
  | _ => none

/-- The kind with this tag, and what belongs to it among the members. -/
def kind? (tag : FieldTag) (members : List (String × Json)) : Option FieldKind :=
  match tag with
  | number => some .number
  | text => some .text
  | date => some .date
  | boolean => some .boolean
  | items => (Json.optional? members "sub_fields" (Json.list? Json.string?) []).map .items
  | formula => (Json.required? members "expression" Json.string?).map .formula

end FieldTag

namespace Field

def toJson (f : Field) : Json :=
  let key := ("key", Json.string f.key)
  let tagged (tag : FieldTag) := ("type", Json.string tag.name)
  .object <| match f.kind with
    | .number => [key, tagged .number]
    | .text => [key, tagged .text]
    | .date => [key, tagged .date]
    | .boolean => [key, tagged .boolean]
    | .items columns => [key, tagged .items, ("sub_fields", Json.ofList .string columns)]
    | .formula expression => [key, tagged .formula, ("expression", .string expression)]

def ofJson? (j : Json) : Option Field := do
  let members ← j.members?
  if !members.all (·.2.isUsable) then none
  let key ← Json.required? members "key" Json.string?
  let tag ← Json.required? members "type" FieldTag.ofJson?
  let kind ← tag.kind? members
  return ⟨key, kind⟩

end Field
end MetricFormula
