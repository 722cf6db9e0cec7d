import MetricFormula.Proofs.Computation.Causality
import MetricFormula.Proofs.Scope.History

/-! # What a pass registers

A field that is visited registers at most one thing: its stored data, or the number of its formula.
So the scope behind some fields is the scope of a history (`scopeAfter_eq_ofHistory`), and the names
that fields have bound are the names of that history. -/

namespace MetricFormula

/-- What a field registers when it is visited in a scope. -/
def Field.registrations (policy : Policy) (snapshot : Snapshot) (values : StoredValues)
    (scope : Scope) (field : Field) : History :=
  match field.kind with
  | .number => [.number field.key (values.scalar? field.key)]
  | .items columns => [.list field.key (values.rows field.key) columns]
  | .text | .date | .boolean => []
  | .formula expression =>
    match Context.calculate ⟨scope, snapshot, policy⟩ expression with
    | .ok x => [.number field.key (some x)]
    | .error _ => []

/-- The outcome of a field in a scope, if it is a formula. -/
def Field.outcome? (policy : Policy) (snapshot : Snapshot) (scope : Scope) (field : Field) :
    Option Outcome :=
  field.expression?.map fun expression =>
    ⟨field.key, Context.calculate ⟨scope, snapshot, policy⟩ expression⟩

/-- What fields register when they are visited one after another, from a scope on. -/
def registrations (policy : Policy) (snapshot : Snapshot) (values : StoredValues) (scope : Scope)
    (fields : List Field) : History :=
  match fields with
  | [] => []
  | field :: fields =>
    let made := field.registrations policy snapshot values scope
    made ++ registrations policy snapshot values (scope.registerAll made) fields

variable {policy : Policy} {snapshot : Snapshot} {values : StoredValues} {scope : Scope}

/-! ## Visiting one field -/

/-- A field that is visited changes the scope by what it registers and by nothing else. -/
theorem scopeAfter_cons (field : Field) (fields : List Field) :
    scopeAfter policy snapshot values scope (field :: fields) =
      scopeAfter policy snapshot values
        (scope.registerAll (field.registrations policy snapshot values scope)) fields := by
  obtain ⟨key, kind⟩ := field
  cases kind with
  | number | items _ | text | date | boolean => rfl
  | formula expression =>
    simp only [scopeAfter, Field.expression?, Field.registrations, Scope.record]
    cases Context.calculate ⟨scope, snapshot, policy⟩ expression <;> rfl

theorem outcomesIn_cons (field : Field) (fields : List Field) :
    outcomesIn policy snapshot values scope (field :: fields) =
      (field.outcome? policy snapshot scope).toList ++ outcomesIn policy snapshot values
        (scope.registerAll (field.registrations policy snapshot values scope)) fields := by
  obtain ⟨key, kind⟩ := field
  cases kind with
  | number | items _ | text | date | boolean => rfl
  | formula expression =>
    simp only [outcomesIn, Field.expression?, Field.outcome?, Field.registrations, Scope.record,
      Option.map_some, Option.toList_some]
    cases Context.calculate ⟨scope, snapshot, policy⟩ expression <;> rfl

/-! ## Visiting all fields -/

theorem scopeAfter_eq_registerAll (fields : List Field) (scope : Scope) :
    scopeAfter policy snapshot values scope fields =
      scope.registerAll (registrations policy snapshot values scope fields) := by
  induction fields generalizing scope with
  | nil => rfl
  | cons field fields ih =>
    rw [scopeAfter_cons, ih, registrations, Scope.registerAll_append]

theorem scopeAfter_append (fs gs : List Field) (scope : Scope) :
    scopeAfter policy snapshot values scope (fs ++ gs) =
      scopeAfter policy snapshot values (scopeAfter policy snapshot values scope fs) gs := by
  induction fs generalizing scope with
  | nil => rfl
  | cons field fs ih => rw [List.cons_append, scopeAfter_cons, scopeAfter_cons, ih]

theorem scopeAfter_eq_ofHistory (fields : List Field) :
    scopeAfter policy snapshot values .empty fields =
      .ofHistory (registrations policy snapshot values .empty fields) :=
  scopeAfter_eq_registerAll fields .empty

/-- The outcome of a formula is that of calculation in the scope that earlier fields leave. -/
theorem getElem?_outcomes (fs gs : List Field) (key expression : String) :
    (outcomes policy snapshot values (fs ++ ⟨key, .formula expression⟩ :: gs))[
        (formulaKeys fs).length]? =
      some ⟨key, Context.calculate ⟨scopeAfter policy snapshot values .empty fs, snapshot, policy⟩
        expression⟩ := by
  have hlength :
      (outcomesIn policy snapshot values .empty fs).length = (formulaKeys fs).length := by
    rw [← keys_outcomesIn, List.length_map]
  rw [outcomes, outcomesIn_append, List.getElem?_append_right (Nat.le_of_eq hlength), hlength,
    Nat.sub_self]
  rfl

theorem getElem?_results (fs gs : List Field) (key expression : String) :
    (results policy snapshot values (fs ++ ⟨key, .formula expression⟩ :: gs))[
        (formulaKeys fs).length]? =
      some ⟨key, (Context.calculate ⟨scopeAfter policy snapshot values .empty fs, snapshot, policy⟩
        expression).toOption⟩ := by
  rw [results, List.getElem?_map, getElem?_outcomes, Option.map_some]
  rfl

/-- The names that the fields have bound by the time they are all visited. -/
def boundNames (policy : Policy) (snapshot : Snapshot) (values : StoredValues)
    (fields : List Field) : Finset String :=
  (registrations policy snapshot values .empty fields).names

theorem lookup?_scopeAfter_eq_none {fields : List Field} {name : String} :
    (scopeAfter policy snapshot values .empty fields).lookup? name = none ↔
      name ∉ boundNames policy snapshot values fields := by
  rw [scopeAfter_eq_ofHistory, History.lookup?_ofHistory, boundNames, ← History.isSome_meaning,
    Bool.not_eq_true, Option.isSome_eq_false_iff, Option.isNone_iff_eq_none]

end MetricFormula
