import MetricFormula.Proofs.Computation.Registration
import MetricFormula.Proofs.Scope.Order

/-! # Checking a formula against stored values

A formula can be calculated over all stored values at once, before any field is declared. That gives
what a pass gives once every stored value is declared, in any order, by a field of its own. -/

namespace MetricFormula

variable {policy : Policy} {snapshot : Snapshot} {v : StoredValues} {fields : List Field}

/-- A number field for each stored scalar and a list for each stored list, without further
columns. -/
def StoredValues.declarations (v : StoredValues) : List Field :=
  v.scalars.keys.map (⟨·, .number⟩) ++ v.lists.keys.map (⟨·, .items []⟩)

/-- What fields other than formulas register does not depend on the scope. -/
theorem registrations_eq_flatMap (h : ∀ f ∈ fields, f.expression? = none) (scope : Scope) :
    registrations policy snapshot v scope fields =
      fields.flatMap (·.registrations policy snapshot v .empty) := by
  induction fields generalizing scope with
  | nil => rfl
  | cons field fields ih =>
    obtain ⟨hfield, hfields⟩ := List.forall_mem_cons.mp h
    have hscope : field.registrations policy snapshot v scope =
        field.registrations policy snapshot v .empty := by
      obtain ⟨key, kind⟩ := field
      cases kind with
      | number | items columns | text | date | boolean => rfl
      | formula text => nomatch hfield
    rw [registrations, ih hfields, hscope, List.flatMap_cons]

theorem expression?_eq_none_of_mem_declarations {f : Field} (hf : f ∈ v.declarations) :
    f.expression? = none := by
  rcases List.mem_append.mp hf with hf | hf
  · obtain ⟨_, _, rfl⟩ := List.mem_map.mp hf
    rfl
  · obtain ⟨_, _, rfl⟩ := List.mem_map.mp hf
    rfl

/-- The declarations register all stored values. -/
theorem perm_history_of_declarations :
    (v.declarations.flatMap (·.registrations policy snapshot v .empty)).Perm v.history := by
  have hscalars : v.scalars.toList.flatMap
        (fun e => Field.registrations policy snapshot v .empty ⟨e.1, .number⟩) =
      v.scalars.toList.map fun e => .number e.1 e.2 := by
    rw [List.map_eq_flatMap]
    refine List.flatMap_congr fun e he => ?_
    rw [Field.registrations, StoredValues.scalar?,
      Std.ExtTreeMap.mem_toList_iff_getElem?_eq_some.mp he, Option.join_some]
  have hlists : v.lists.toList.flatMap
        (fun e => Field.registrations policy snapshot v .empty ⟨e.1, .items []⟩) =
      v.lists.toList.map fun e => .list e.1 e.2 [] := by
    rw [List.map_eq_flatMap]
    refine List.flatMap_congr fun e he => ?_
    rw [Field.registrations, StoredValues.rows,
      Std.ExtTreeMap.mem_toList_iff_getElem?_eq_some.mp he, Option.getD_some]
  rw [StoredValues.declarations, List.flatMap_append, List.flatMap_map, List.flatMap_map,
    ← Std.ExtTreeMap.map_fst_toList_eq_keys, ← Std.ExtTreeMap.map_fst_toList_eq_keys,
    List.flatMap_map, List.flatMap_map, hscalars, hlists]
  exact List.perm_append_comm

/-- Behind all declarations, in any order, the scope is that of all stored values at once. -/
theorem scopeAfter_of_perm_declarations (h : fields.Perm v.declarations) :
    scopeAfter policy snapshot v .empty fields = .ofValues v := by
  have hexpression : ∀ f ∈ fields, f.expression? = none := fun f hf =>
    expression?_eq_none_of_mem_declarations (h.mem_iff.mp hf)
  rw [scopeAfter_eq_ofHistory, registrations_eq_flatMap hexpression]
  exact StoredValues.ofHistory_eq_ofValues ((h.flatMap_right _).trans perm_history_of_declarations)

theorem outcomes_of_perm_declarations (h : fields.Perm v.declarations) (key text : String) :
    outcomes policy snapshot v (fields ++ [⟨key, .formula text⟩]) =
      [⟨key, Context.calculate ⟨.ofValues v, snapshot, policy⟩ text⟩] := by
  have hformulas : formulaKeys fields = [] := by
    refine List.map_eq_nil_iff.mpr (List.filter_eq_nil_iff.mpr fun f hf => ?_)
    rw [expression?_eq_none_of_mem_declarations (h.mem_iff.mp hf)]
    nofun
  have hnone : outcomesIn policy snapshot v .empty fields = [] :=
    List.map_eq_nil_iff.mp ((keys_outcomesIn fields .empty).trans hformulas)
  rw [outcomes, outcomesIn_append, hnone, scopeAfter_of_perm_declarations h]
  rfl

/-- A formula behind declarations of all stored values has the number, or is reported with the
fault, that it has over the stored values at once; and these make up the same scope in any
order. -/
theorem declared_results_eq_calculate (policy : Policy) (snapshot : Snapshot) (v : StoredValues)
    (h : fields.Perm v.declarations) (key text : String) :
    (∀ x, results policy snapshot v (fields ++ [⟨key, .formula text⟩]) = [⟨key, some x⟩] ↔
      Context.calculate ⟨.ofValues v, snapshot, policy⟩ text = .ok x) ∧
    (∀ fault, results policy snapshot v (fields ++ [⟨key, .formula text⟩]) = [⟨key, none⟩] ∧
      reports policy snapshot v (fields ++ [⟨key, .formula text⟩]) = [(key, fault)] ↔
      Context.calculate ⟨.ofValues v, snapshot, policy⟩ text = .error fault) ∧
    ∀ lists scalars, lists.Perm v.lists.toList → scalars.Perm v.scalars.toList →
      Scope.ofEntries lists scalars = .ofValues v := by
  refine ⟨fun x => ?_, fun fault => ?_, fun _ _ => StoredValues.ofEntries_eq_ofValues⟩
  · rw [results, outcomes_of_perm_declarations h]
    cases Context.calculate ⟨.ofValues v, snapshot, policy⟩ text <;>
      simp [Outcome.computed, Except.toOption]
  · rw [results, reports, outcomes_of_perm_declarations h]
    cases Context.calculate ⟨.ofValues v, snapshot, policy⟩ text <;>
      simp [Outcome.computed, Outcome.fault?, Except.toOption]

/-- A key that is stored as a scalar without a number, as a list, and as a column of that list. -/
def collidingValues : StoredValues where
  scalars := (∅ : Std.ExtTreeMap String (Option Binary64)).insert "a" none
  lists := (∅ : Std.ExtTreeMap String (List Row)).insert "a" [(∅ : Row).insert "a" .null]

theorem declared_results_eq_calculate_colliding :
    (∀ fault, results {} .empty collidingValues
          [⟨"a", .items []⟩, ⟨"a", .number⟩, ⟨"n", .formula "a + b"⟩] = [⟨"n", none⟩] ∧
        reports {} .empty collidingValues
          [⟨"a", .items []⟩, ⟨"a", .number⟩, ⟨"n", .formula "a + b"⟩] = [("n", fault)] ↔
      Context.calculate ⟨.ofValues collidingValues, .empty, {}⟩ "a + b" = .error fault) ∧
    Scope.ofEntries [("a", [(∅ : Row).insert "a" .null])] [("a", none)] =
      .ofValues collidingValues := by
  have h : [⟨"a", .items []⟩, ⟨"a", .number⟩].Perm collidingValues.declarations := by
    have : collidingValues.declarations = [⟨"a", .number⟩, ⟨"a", .items []⟩] := by decide +kernel
    rw [this]
    exact .swap ..
  obtain ⟨_, hfault, horder⟩ :=
    declared_results_eq_calculate {} .empty collidingValues h "n" "a + b"
  exact ⟨hfault, horder _ _ (.of_eq rfl) (.of_eq rfl)⟩

end MetricFormula
