import MetricFormula.Formula.Calculation

/-! # Computing the formulas of an entity

The fields of an entity are visited in the order of their declaration. Number fields and lists come
into scope when they are reached, and the number of a formula comes into scope behind it, so a
formula sees only what is declared before it. A formula without a number is passed over. -/

namespace MetricFormula

/-- What became of one formula field. -/
structure Outcome where
  key : String
  result : Except Fault Binary64

/-- The number of a formula field, none if it cannot be computed. -/
structure ComputedField where
  key : String
  value : Option Binary64
  deriving DecidableEq

structure EntityResult where
  id : Int64
  fields : List ComputedField
  deriving DecidableEq

namespace Outcome

def computed (o : Outcome) : ComputedField := ⟨o.key, o.result.toOption⟩

/-- The field and its fault, if it has no number. -/
def fault? (o : Outcome) : Option (String × Fault) :=
  match o.result with
  | .ok _ => none
  | .error fault => some (o.key, fault)

end Outcome

/-- Bring the stored data of a field into scope. -/
def Scope.declare (s : Scope) (values : StoredValues) (field : Field) : Scope :=
  match field.kind with
  | .number => s.bindNumber field.key (values.scalar? field.key)
  | .items columns => s.bindList field.key (values.rows field.key) columns
  | .text | .date | .boolean | .formula _ => s

/-- Bring the number of a formula into scope, if it has one. -/
def Scope.record (s : Scope) (o : Outcome) : Scope :=
  match o.result with
  | .ok x => s.bindNumber o.key (some x)
  | .error _ => s

/-- The outcomes of the formula fields among `fields`, starting in a scope. -/
def outcomesIn (policy : Policy) (snapshot : Snapshot) (values : StoredValues) (scope : Scope)
    (fields : List Field) : List Outcome :=
  match fields with
  | [] => []
  | field :: fields =>
    match field.expression? with
    | some expression =>
      let o : Outcome := ⟨field.key, Context.calculate ⟨scope, snapshot, policy⟩ expression⟩
      o :: outcomesIn policy snapshot values (scope.record o) fields
    | none => outcomesIn policy snapshot values (scope.declare values field) fields

/-- The outcomes of the formula fields of an entity. -/
def outcomes (policy : Policy) (snapshot : Snapshot) (values : StoredValues)
    (fields : List Field) : List Outcome :=
  outcomesIn policy snapshot values .empty fields

/-- Each entity computed with the numbers of its siblings. -/
def computeEntities (policy : Policy) (siblings : List Sibling) (entities : List Entity) :
    List EntityResult :=
  entities.map fun e =>
    let snapshot := Snapshot.ofSiblings e.id siblings
    ⟨e.id, (outcomes policy snapshot e.values e.fields).map (·.computed)⟩

end MetricFormula
