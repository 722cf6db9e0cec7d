import MetricFormula.Json.Basic
import MetricFormula.Listing

/-! # Coding data as JSON

Building blocks of encoders and decoders. A number is decoded from an integer or a float and always
encoded as a float, or as null if it is not finite. A record is encoded as an object, with its
fields in the order of their declaration, and decoded from an object or from an array of its fields
in that order. A member that is looked for must not be given twice; members that are not looked for
are ignored. In a map the last value of a key counts. -/

namespace MetricFormula.Json

variable {α : Type}

/-! ## Encoding -/

def ofNumber (x : Binary64) : Json := if x.isFinite then .float x else .null

def ofOption (encode : α → Json) : Option α → Json
  | none => .null
  | some a => encode a

def ofList (encode : α → Json) (items : List α) : Json := .array (items.map encode)

/-- The members of a map come in an order that may be any. -/
def ofMap (order : EntryOrder) (encode : α → Json) (map : Std.ExtTreeMap String α) : Json :=
  .object ((order.entries map).map fun (key, a) => (key, encode a))

/-! ## Decoding -/

def string? : Json → Option String
  | .string s => some s
  | _ => none

def bool? : Json → Option Bool
  | .bool b => some b
  | _ => none

def number? : Json → Option Binary64
  | .int n => some (.ofInt n)
  | .float x => some x
  | _ => none

/-- A signed integer of 64 bits. -/
def int64? : Json → Option Int64
  | .int n => if Int64.minValue.toInt ≤ n ∧ n ≤ Int64.maxValue.toInt then some (.ofInt n) else none
  | _ => none

/-- An unsigned integer of 64 bits. -/
def uint64? : Json → Option UInt64
  | .int n => if 0 ≤ n ∧ n < UInt64.size then some (.ofNat n.toNat) else none
  | _ => none

/-- Null, or what `decode` takes. -/
def option? (decode : Json → Option α) : Json → Option (Option α)
  | .null => some none
  | j => (decode j).map some

def list? (decode : Json → Option α) : Json → Option (List α)
  | .array items => items.mapM decode
  | _ => none

def members? : Json → Option (List (String × Json))
  | .object members => some members
  | _ => none

/-- The members of a record with the given fields. The items of an array go to the fields in order,
and the last fields may be left without. -/
def fields? (fields : List String) : Json → Option (List (String × Json))
  | .object members => some members
  | .array items => if items.length ≤ fields.length then some (fields.zip items) else none
  | _ => none

def map? (decode : Json → Option α) (j : Json) : Option (Std.ExtTreeMap String α) := do
  let members ← j.members?
  let entries ← members.mapM fun (key, j) => (decode j).map (key, ·)
  return .ofList entries

/-- The values of the members with a key, in the order written. -/
def valuesOf (members : List (String × Json)) (key : String) : List Json :=
  members.filterMap fun m => if m.1 = key then some m.2 else none

/-- The value of the one member with a key. -/
def required? (members : List (String × Json)) (key : String) (decode : Json → Option α) :
    Option α :=
  match valuesOf members key with
  | [j] => decode j
  | _ => none

/-- The value of the member with a key, or a default if there is none. -/
def optional? (members : List (String × Json)) (key : String) (decode : Json → Option α)
    (default : α) : Option α :=
  match valuesOf members key with
  | [] => some default
  | [j] => decode j
  | _ => none

end MetricFormula.Json
