import MetricFormula.Proofs.Computation.Registration
import MetricFormula.Proofs.Expression.Dependence
import MetricFormula.Proofs.Faults.Calculation
import MetricFormula.Proofs.Reading.Language

/-! # Fields that formulas do not mention

A formula depends on the names and texts that are written in it, and on nothing else of the scope.
What a field registers under other names is lost on it, so a field can be inserted anywhere among
the fields of an entity without an effect on formulas that do not mention it. -/

namespace MetricFormula

variable {policy : Policy} {snapshot : Snapshot} {values : StoredValues} {s s' : Scope}
  {P : String → Prop}

/-! ## Scopes that agree on names -/

/-- The scopes agree on what the names denote and on the rows under them. -/
structure Scope.AgreeOn (s s' : Scope) (P : String → Prop) : Prop where
  lookup : ∀ name, P name → s.lookup? name = s'.lookup? name
  rows : ∀ name, P name → s.rows name = s'.rows name

namespace Scope.AgreeOn

theorem register (h : s.AgreeOn s' P) (r : Registration) :
    (s.register r).AgreeOn (s'.register r) P where
  lookup name hname := by
    cases r with
    | number key x => simp only [Scope.register, lookup?_bindNumber, h.lookup name hname]
    | list key rows columns => simp only [Scope.register, lookup?_bindList, h.lookup name hname]
  rows name hname := by
    cases r with
    | number key x => exact h.rows name hname
    | list key rows columns => simp only [Scope.register, rows_bindList, h.rows name hname]

theorem registerAll (h : s.AgreeOn s' P) (history : History) :
    (s.registerAll history).AgreeOn (s'.registerAll history) P := by
  induction history generalizing s s' with
  | nil => exact h
  | cons r history ih => exact ih (h.register r)

theorem trans {s'' : Scope} (h : s.AgreeOn s' P) (h' : s'.AgreeOn s'' P) :
    s.AgreeOn s'' P where
  lookup name hname := (h.lookup name hname).trans (h'.lookup name hname)
  rows name hname := (h.rows name hname).trans (h'.rows name hname)

/-- A registration leaves all names alone but its own. -/
theorem register_right {r : Registration} (h : ∀ name ∈ r.names, ¬P name) :
    s.AgreeOn (s.register r) P where
  lookup name hname := by
    have hnot : name ∉ r.names := fun hmem => h name hmem hname
    cases r with
    | number key x =>
      rw [Scope.register, lookup?_bindNumber, if_neg]
      rintro rfl
      exact hnot (.head _)
    | list key rows columns =>
      simp only [Registration.names, List.mem_cons, List.mem_append, List.mem_flatMap,
        Std.ExtTreeMap.mem_keys, not_or, eq_comm (a := name)] at hnot
      rw [Scope.register, lookup?_bindList, if_neg hnot.1, if_neg (not_or.mpr hnot.2)]
      rcases s.lookup? name with _ | _ | _ | _ <;> rfl
  rows name hname := by
    have hnot : name ∉ r.names := fun hmem => h name hmem hname
    cases r with
    | number key x => rfl
    | list key rows columns =>
      rw [Scope.register, rows_bindList, if_neg]
      rintro rfl
      exact hnot (.head _)

theorem registerAll_right {history : History}
    (h : ∀ r ∈ history, ∀ name ∈ r.names, ¬P name) :
    s.AgreeOn (s.registerAll history) P := by
  induction history generalizing s with
  | nil => exact ⟨fun _ _ => rfl, fun _ _ => rfl⟩
  | cons r history ih =>
    obtain ⟨hr, hhistory⟩ := List.forall_mem_cons.mp h
    exact (register_right hr).trans (ih hhistory)

end Scope.AgreeOn

/-! ## Fields that mention names -/

/-- The formula of the field reads as an expression in which the name is written, bare or quoted. -/
def Field.Mentions (policy : Policy) (field : Field) (name : String) : Prop :=
  ∃ text e, field.expression? = some text ∧ Expr.ofText policy (trimmed text) = .ok e ∧
    (Expr.Within (.name name) e ∨ Expr.Within (.text name) e)

/-- The names under which a field can register anything. -/
def Field.names (values : StoredValues) (field : Field) : List String :=
  match field.kind with
  | .items columns => field.key :: (columns ++ (values.rows field.key).flatMap (·.keys))
  | .number | .text | .date | .boolean | .formula _ => [field.key]

theorem Field.mem_names_of_mem_registrations {field : Field} {r : Registration} {name : String}
    (hr : r ∈ field.registrations policy snapshot values s) (hname : name ∈ r.names) :
    name ∈ field.names values := by
  obtain ⟨key, kind⟩ := field
  cases kind with
  | number | items columns =>
    obtain rfl := List.mem_singleton.mp hr
    exact hname
  | text | date | boolean => cases hr
  | formula expression =>
    simp only [registrations] at hr
    split at hr
    · obtain rfl := List.mem_singleton.mp hr
      exact hname
    · cases hr

/-! ## Visiting fields in scopes that agree -/

theorem Context.calculate_congr {text : String} (snapshot : Snapshot)
    (h : ∀ e, Expr.ofText policy (trimmed text) = .ok e → e.Agreed s s' snapshot snapshot) :
    Context.calculate ⟨s, snapshot, policy⟩ text =
      Context.calculate ⟨s', snapshot, policy⟩ text := by
  unfold Context.calculate
  cases screen text with
  | empty => rfl
  | refused c => rfl
  | accepted => exact bind_congr_ok fun e he => Expr.result_congr rfl (h e he)

section
variable {field : Field} (h : s.AgreeOn s' P)
  (hmentions : ∀ name, field.Mentions policy name → P name)
include h hmentions

/-- A formula reads of a scope only what it mentions. -/
theorem Scope.AgreeOn.calculate_eq {text : String} (htext : field.expression? = some text) :
    Context.calculate ⟨s, snapshot, policy⟩ text = Context.calculate ⟨s', snapshot, policy⟩ text :=
  Context.calculate_congr snapshot fun e he => {
    lookup := fun name hname => h.lookup name (hmentions name ⟨text, e, htext, he, .inl hname⟩)
    rows := fun name hname => h.rows name (hmentions name ⟨text, e, htext, he, hname⟩)
    get := fun _ _ _ => rfl }

theorem Scope.AgreeOn.registrations_eq :
    field.registrations policy snapshot values s =
      field.registrations policy snapshot values s' := by
  unfold Field.registrations
  split
  · rfl
  · rfl
  · rfl
  · rfl
  · rfl
  · rename_i text hkind
    rw [h.calculate_eq hmentions (by rw [Field.expression?, hkind])]

theorem Scope.AgreeOn.outcome?_eq :
    field.outcome? policy snapshot s = field.outcome? policy snapshot s' := by
  unfold Field.outcome?
  cases htext : field.expression? with
  | none => rw [Option.map_none, Option.map_none]
  | some text => rw [Option.map_some, Option.map_some, h.calculate_eq hmentions htext]

end

theorem outcomesIn_congr {fields : List Field} (h : s.AgreeOn s' P)
    (hmentions : ∀ field ∈ fields, ∀ name, field.Mentions policy name → P name) :
    outcomesIn policy snapshot values s fields = outcomesIn policy snapshot values s' fields := by
  induction fields generalizing s s' with
  | nil => rfl
  | cons field fields ih =>
    obtain ⟨hfield, hfields⟩ := List.forall_mem_cons.mp hmentions
    rw [outcomesIn_cons, outcomesIn_cons, h.outcome?_eq hfield, h.registrations_eq hfield]
    rw [ih (h.registerAll _) hfields]

/-! ## Inserting a field -/

theorem keys_outcome? (scope : Scope) (field : Field) :
    (field.outcome? policy snapshot scope).toList.map (·.key) = formulaKeys [field] := by
  obtain ⟨key, kind⟩ := field
  cases kind <;> rfl

/-- A field has no effect on later formulas that do not mention what it can register. -/
theorem outcomesIn_register_of_not_mentions {field : Field} {fields : List Field}
    (h : ∀ name ∈ field.names values, ∀ f ∈ fields, ¬f.Mentions policy name) (scope : Scope) :
    outcomesIn policy snapshot values
        (scope.registerAll (field.registrations policy snapshot values scope)) fields =
      outcomesIn policy snapshot values scope fields := by
  have hagree : scope.AgreeOn
      (scope.registerAll (field.registrations policy snapshot values scope))
      fun name => ∃ f ∈ fields, f.Mentions policy name := by
    refine .registerAll_right fun r hr name hname ⟨f, hf, hmentions⟩ => ?_
    exact h name (Field.mem_names_of_mem_registrations hr hname) f hf hmentions
  exact (outcomesIn_congr hagree fun f hf name hmentions => ⟨f, hf, hmentions⟩).symm

/-- The result of an expression depends on what is written in it only. So a field that is inserted
anywhere among the fields of an entity changes no outcome, if no formula behind it mentions its key
or, for a list, one of its columns. -/
theorem outcomes_depend_on_mentioned :
    (∀ (ctx ctx' : Context) (e : Expr), ctx.policy = ctx'.policy →
      e.Agreed ctx.scope ctx'.scope ctx.snapshot ctx'.snapshot → e.result ctx = e.result ctx') ∧
    ∀ policy snapshot values fs (field : Field) gs,
      (∀ name ∈ field.names values, ∀ f ∈ gs, ¬f.Mentions policy name) →
      ∃ before own after, before.map (·.key) = formulaKeys fs ∧
        own.map (·.key) = formulaKeys [field] ∧ after.map (·.key) = formulaKeys gs ∧
        outcomes policy snapshot values (fs ++ field :: gs) = before ++ own ++ after ∧
        outcomes policy snapshot values (fs ++ gs) = before ++ after := by
  refine ⟨fun _ _ _ hpolicy hagreed => Expr.result_congr hpolicy hagreed, ?_⟩
  intro policy snapshot values fs field gs h
  let scope := scopeAfter policy snapshot values .empty fs
  refine ⟨outcomesIn policy snapshot values .empty fs,
    (field.outcome? policy snapshot scope).toList, outcomesIn policy snapshot values scope gs,
    keys_outcomesIn fs .empty, keys_outcome? scope field, keys_outcomesIn gs scope, ?_, ?_⟩
  · rw [outcomes, outcomesIn_append, outcomesIn_cons, outcomesIn_register_of_not_mentions h,
      List.append_assoc]
  · exact outcomesIn_append fs gs

/-- Of a count of rows, names besides that of the list are no concern, whether they denote a number
or are those of another list and its columns. -/
theorem outcomes_depend_on_mentioned_list :
    let e : Expr := .call .countItems [.text "a"]
    let formula : Field := ⟨"n", .formula "COUNT_ITEMS('a')"⟩
    (e.result ⟨.empty, .empty, {}⟩ = e.result ⟨Scope.empty.bindNumber "b" none, .empty, {}⟩) ∧
      ∃ before own after, before.map (·.key) = [] ∧ own.map (·.key) = [] ∧
        after.map (·.key) = ["n"] ∧
        outcomes {} .empty .empty [⟨"b", .items ["c"]⟩, formula] = before ++ own ++ after ∧
        outcomes {} .empty .empty [formula] = before ++ after := by
  intro e formula
  have hnone (name : String) : ¬Expr.Within (.name name) (.call .countItems [.text "a"]) := by
    intro h
    cases h with
    | argument ha h =>
      obtain rfl := List.mem_singleton.mp ha
      nomatch h
  have htext (name : String) (h : Expr.Within (.text name) (.call .countItems [.text "a"])) :
      name = "a" := by
    cases h with
    | argument ha h =>
      obtain rfl := List.mem_singleton.mp ha
      cases h
      rfl
  have he : Expr.ofText {} (trimmed "COUNT_ITEMS('a')") = .ok e := by
    have htrim : trimmed "COUNT_ITEMS('a')" = "COUNT_ITEMS('a')" := by decide +kernel
    have hlexes : Lexes "COUNT_ITEMS('a')".toList
        [.name "COUNT_ITEMS", .leftParen, .text "a", .rightParen] :=
      lexes_iff_scan_eq.mpr (by decide +kernel)
    rw [htrim]
    exact Expr.ofText_of_derives (by decide) (by decide) hlexes
      (.expr_of_factor (.ofPower (.ofPrimary (.call (by decide +kernel)
        (.list (.last (.expr_of_factor (.ofPower (.ofPrimary .text))))) rfl))))
  constructor
  · refine outcomes_depend_on_mentioned.1 _ _ e rfl ?_
    exact ⟨fun name hname => absurd hname (hnone name), fun _ _ => rfl, fun _ _ _ => rfl⟩
  · refine outcomes_depend_on_mentioned.2 {} .empty .empty [] ⟨"b", .items ["c"]⟩ [formula] ?_
    rintro name hname f hf ⟨text, e', hexpression, he', hwithin⟩
    obtain rfl := List.mem_singleton.mp hf
    obtain rfl := Option.some.inj hexpression
    obtain rfl := Except.ok.inj (he.symm.trans he')
    rcases hwithin with hwithin | hwithin
    · exact hnone name hwithin
    · obtain rfl := htext name hwithin
      simp [Field.names, StoredValues.rows, StoredValues.empty] at hname

end MetricFormula
