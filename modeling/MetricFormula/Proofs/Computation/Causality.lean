import MetricFormula.Entity.Computation

/-! # What a formula depends on

A pass over the fields of an entity is causal: what it hands out for the formulas among the first
fields depends on no later field, and of the stored values only on what number fields and lists
among them declare. Each formula has one result, and one report if it has no number. -/

namespace MetricFormula

variable {policy : Policy} {snapshot : Snapshot} {values v w : StoredValues} {scope : Scope}
  {fields fs gs hs : List Field}

/-- The results of the formula fields of an entity, in order. -/
def results (policy : Policy) (snapshot : Snapshot) (values : StoredValues) (fields : List Field) :
    List ComputedField :=
  (outcomes policy snapshot values fields).map (·.computed)

/-- The faults that are reported on the way, each with the key of its field. -/
def reports (policy : Policy) (snapshot : Snapshot) (values : StoredValues) (fields : List Field) :
    List (String × Fault) :=
  (outcomes policy snapshot values fields).filterMap (·.fault?)

/-- The keys of the formulas among the fields. -/
def formulaKeys (fields : List Field) : List String :=
  (fields.filter (·.expression?.isSome)).map (·.key)

/-- The keys of the fields without a number. -/
def uncomputable (computed : List ComputedField) : List String :=
  (computed.filter (·.value.isNone)).map (·.key)

/-- The stored values give the same for all that the fields declare. -/
structure StoredValues.AgreeOn (v w : StoredValues) (fields : List Field) : Prop where
  scalars : ∀ f ∈ fields, f.kind = .number → v.scalar? f.key = w.scalar? f.key
  lists : ∀ f ∈ fields, ∀ columns, f.kind = .items columns → v.rows f.key = w.rows f.key

namespace StoredValues.AgreeOn

variable {field : Field}

theorem tail (h : v.AgreeOn w (field :: fields)) : v.AgreeOn w fields where
  scalars f hf := h.scalars f (List.mem_cons_of_mem _ hf)
  lists f hf := h.lists f (List.mem_cons_of_mem _ hf)

/-- The first field brings the same into scope. -/
theorem declare_eq (h : v.AgreeOn w (field :: fields)) (scope : Scope) :
    scope.declare v field = scope.declare w field := by
  unfold Scope.declare
  cases hkind : field.kind with
  | number => rw [h.scalars field List.mem_cons_self hkind]
  | items columns => rw [h.lists field List.mem_cons_self columns hkind]
  | text | date | boolean | formula _ => rfl

end StoredValues.AgreeOn

/-! ## Passes -/

/-- The scope behind the fields. -/
def scopeAfter (policy : Policy) (snapshot : Snapshot) (values : StoredValues) (scope : Scope)
    (fields : List Field) : Scope :=
  match fields with
  | [] => scope
  | field :: fields =>
    match field.expression? with
    | some expression =>
      scopeAfter policy snapshot values
        (scope.record ⟨field.key, Context.calculate ⟨scope, snapshot, policy⟩ expression⟩) fields
    | none => scopeAfter policy snapshot values (scope.declare values field) fields

/-- Later fields are visited in the scope that earlier ones leave. -/
theorem outcomesIn_append (fs gs : List Field) :
    outcomesIn policy snapshot values scope (fs ++ gs) =
      outcomesIn policy snapshot values scope fs ++
        outcomesIn policy snapshot values (scopeAfter policy snapshot values scope fs) gs := by
  induction fs generalizing scope with
  | nil => rfl
  | cons field fs ih =>
    rw [List.cons_append, outcomesIn, outcomesIn, scopeAfter]
    cases field.expression? with
    | some expression => exact congrArg _ ih
    | none => exact ih

/-- From the same scope, values that agree on the fields have the same outcomes. -/
theorem outcomesIn_eq_of_agreeOn (h : v.AgreeOn w fields) (scope : Scope) :
    outcomesIn policy snapshot v scope fields = outcomesIn policy snapshot w scope fields := by
  induction fields generalizing scope with
  | nil => rfl
  | cons field fields ih =>
    rw [outcomesIn, outcomesIn, h.declare_eq scope]
    cases field.expression? with
    | some expression => exact congrArg _ (ih h.tail _)
    | none => exact ih h.tail _

/-- What the first fields have for outcomes is where all outcomes begin. -/
theorem prefix_outcomes (fs gs : List Field) :
    outcomes policy snapshot values fs <+: outcomes policy snapshot values (fs ++ gs) :=
  ⟨_, (outcomesIn_append fs gs).symm⟩

theorem keys_outcomesIn (fields : List Field) (scope : Scope) :
    (outcomesIn policy snapshot values scope fields).map (·.key) = formulaKeys fields := by
  induction fields generalizing scope with
  | nil => rfl
  | cons field fields ih =>
    rw [outcomesIn, formulaKeys]
    cases hfield : field.expression? with
    | some expression =>
      rw [List.filter_cons_of_pos (by rw [hfield]; rfl)]
      exact congrArg _ (ih _)
    | none =>
      rw [List.filter_cons_of_neg (by rw [hfield]; nofun)]
      exact ih _

/-! ## Results and reports -/

theorem keys_results (fields : List Field) :
    (results policy snapshot values fields).map (·.key) = formulaKeys fields := by
  rw [results, List.map_map]
  exact keys_outcomesIn fields .empty

/-- Outcomes without a number are reported, and no others are. -/
theorem keys_reported (os : List Outcome) :
    (os.filterMap (·.fault?)).map (·.1) = uncomputable (os.map (·.computed)) := by
  induction os with
  | nil => rfl
  | cons o os ih =>
    obtain ⟨key, _ | x⟩ := o
    · exact congrArg (key :: ·) ih
    · exact ih

theorem prefix_results (fs gs : List Field) :
    results policy snapshot values fs <+: results policy snapshot values (fs ++ gs) :=
  (prefix_outcomes fs gs).map _

theorem prefix_reports (fs gs : List Field) :
    reports policy snapshot values fs <+: reports policy snapshot values (fs ++ gs) :=
  (prefix_outcomes fs gs).filterMap _

/-- Two passes that begin with the same fields, over values that agree on what these declare, begin
with the same results, one for each formula, and with the same reports, one for each result without
a number. -/
theorem results_and_reports_causal (policy : Policy) (snapshot : Snapshot) (h : v.AgreeOn w fs)
    (gs hs : List Field) :
    (∃ computed reported,
      computed.map (·.key) = formulaKeys fs ∧ reported.map (·.1) = uncomputable computed ∧
      computed <+: results policy snapshot v (fs ++ gs) ∧
      computed <+: results policy snapshot w (fs ++ hs) ∧
      reported <+: reports policy snapshot v (fs ++ gs) ∧
      reported <+: reports policy snapshot w (fs ++ hs)) ∧
    ∀ values fields,
      (results policy snapshot values fields).map (·.key) = formulaKeys fields ∧
      (reports policy snapshot values fields).map (·.1) =
        uncomputable (results policy snapshot values fields) := by
  have hresults : results policy snapshot v fs = results policy snapshot w fs :=
    congrArg _ (outcomesIn_eq_of_agreeOn h .empty)
  have hreports : reports policy snapshot v fs = reports policy snapshot w fs :=
    congrArg _ (outcomesIn_eq_of_agreeOn h .empty)
  refine ⟨⟨results policy snapshot v fs, reports policy snapshot v fs, keys_results fs,
    keys_reported _, prefix_results fs gs, ?_, prefix_reports fs gs, ?_⟩,
    fun values fields => ⟨keys_results fields, keys_reported _⟩⟩
  · rw [hresults]
    exact prefix_results fs hs
  · rw [hreports]
    exact prefix_reports fs hs

/-- A number that is stored for a text field is out of reach. -/
theorem results_and_reports_causal_text :
    let fs : List Field := [⟨"a", .number⟩, ⟨"note", .text⟩, ⟨"rate", .formula "note / a"⟩]
    let v : StoredValues := .empty
    let w : StoredValues := ⟨v.scalars.insert "note" (some .zero), v.lists⟩
    ∃ computed reported,
      computed.map (·.key) = ["rate"] ∧ reported.map (·.1) = uncomputable computed ∧
      computed <+: results {} .empty v (fs ++ []) ∧
      computed <+: results {} .empty w (fs ++ [⟨"rate", .number⟩]) ∧
      reported <+: reports {} .empty v (fs ++ []) ∧
      reported <+: reports {} .empty w (fs ++ [⟨"rate", .number⟩]) := by
  intro fs v w
  have h : v.AgreeOn w fs := {
    scalars := by simp [fs, v, w, StoredValues.scalar?, StoredValues.empty,
      Std.ExtTreeMap.getElem?_insert]
    lists := fun _ _ _ _ => rfl }
  exact (results_and_reports_causal {} .empty h [] [⟨"rate", .number⟩]).1

end MetricFormula
