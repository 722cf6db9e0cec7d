import MetricFormula.Proofs.Expression.Dependence

/-! # Functions over lists

What the arguments of the functions over lists have to be for a call to have a value, and which value
that is. A list, a column and a comparator are named by a text or by a bare name; only the
comparand is a value like any other. -/

namespace MetricFormula

/-- A comparison of the rows of a list. -/
structure Condition where
  column : String
  op : Comparator
  comparand : Binary64

/-- The row has a number in the column that compares as asked, or has no number there and need only
be different. -/
def Condition.Meets (c : Condition) (row : Row) : Prop :=
  (∃ x, row.number? c.column = some x ∧ c.op.holds x c.comparand) ∨
    row.number? c.column = none ∧ c.op = .neq

theorem Condition.selects_iff {c : Condition} {row : Row} :
    c.op.selects c.column c.comparand row ↔ c.Meets row := by
  unfold Comparator.selects Meets
  cases row.number? c.column <;> simp

instance (c : Condition) : DecidablePred c.Meets := fun _ => decidable_of_iff _ c.selects_iff

/-- The rows of the list that meet the condition, in order. -/
theorem Condition.filter_selects (c : Condition) (rows : List Row) :
    rows.filter (c.op.selects c.column c.comparand) = rows.filter c.Meets :=
  List.filter_congr fun _ _ => Bool.eq_iff_iff.mpr (c.selects_iff.trans decide_eq_true_iff.symm)

namespace Expr

/-! ## Names of lists, columns and comparators -/

/-- The expression names a list: its key in quotes, or bare if that name is bound. -/
inductive NamesList (scope : Scope) (list : String) : Expr → Prop
  | quoted : NamesList scope list (.text list)
  | bare : scope.isBound list → NamesList scope list (.name list)

/-- The expression names a column of a list. Where the list has no rows any bare name will do. -/
inductive NamesColumn (scope : Scope) (list column : String) : Expr → Prop
  | quoted : NamesColumn scope list column (.text column)
  | bare : scope.isBound column ∨ scope.rows list = [] →
    NamesColumn scope list column (.name column)

/-- The expression names a comparator, whatever that name may be bound to. -/
inductive NamesComparator (op : Comparator) : Expr → Prop
  | quoted : Comparator.ofName? s = some op → NamesComparator op (.text s)
  | bare : Comparator.ofName? s = some op → NamesComparator op (.name s)

/-- The expression has a value that is a number or stands for one. -/
def HasNumber (scope : Scope) (snapshot : Snapshot) (e : Expr) (x : Binary64) : Prop :=
  ∃ v, e.eval scope snapshot = .ok v ∧ v.coerce? = some x

variable {scope : Scope} {snapshot : Snapshot} {e : Expr} {list column : String}

/-- The expression as a function sees it. -/
def argument (scope : Scope) (snapshot : Snapshot) (e : Expr) : Argument :=
  ⟨e.bareName?, e.eval scope snapshot⟩

theorem NamesList.namesColumn (h : e.NamesList scope column) :
    e.NamesColumn scope list column := by
  cases h with
  | quoted => exact .quoted
  | bare h => exact .bare (.inl h)

/-- A list that is registered can be named bare, whatever its name denotes besides. -/
theorem namesList_bindList {rows : List Row} {columns : List String} :
    (name list).NamesList (scope.bindList list rows columns) list := by
  refine .bare ?_
  rw [Scope.isBound, Scope.lookup?_bindList, if_pos rfl]
  cases scope.lookup? list with
  | none => rfl
  | some b => cases b <;> rfl

/-- A key that is not a bare name is a text. -/
theorem eq_text_of_key (hbare : e.bareName? = none)
    (h : (e.argument scope snapshot).key scope = .ok list) : e = .text list := by
  simp only [Argument.key, argument, hbare, bind_eq_ok] at h
  obtain ⟨v, hv, h⟩ := h
  cases v with
  | number x => nomatch h
  | text s =>
    obtain rfl := pure_eq_ok.mp h
    exact eval_eq_text hv
  | list s =>
    rw [eval_eq_name hv (.inl rfl)] at hbare
    nomatch hbare
  | column s =>
    rw [eval_eq_name hv (.inr rfl)] at hbare
    nomatch hbare

theorem key_eq_ok :
    (e.argument scope snapshot).key scope = .ok list ↔ e.NamesList scope list := by
  constructor
  · intro h
    cases hbare : e.bareName? with
    | none =>
      obtain rfl := eq_text_of_key hbare h
      exact .quoted
    | some s =>
      cases e <;> cases hbare
      simp only [Argument.key, argument, bareName?] at h
      split at h
      · rename_i hbound
        cases h
        exact .bare hbound
      · nomatch h
  · rintro (_ | hbound)
    · simp only [Argument.key, argument, bareName?, eval]
      rfl
    · simp only [Argument.key, argument, bareName?, if_pos hbound]

theorem columnOf_eq_ok :
    (e.argument scope snapshot).columnOf scope list = .ok column ↔
      e.NamesColumn scope list column := by
  constructor
  · intro h
    unfold Argument.columnOf at h
    split at h
    · rename_i s hbare
      split at h
      · rename_i hempty
        cases h
        cases e <;> cases hbare
        simp only [Bool.and_eq_true, List.isEmpty_iff] at hempty
        exact .bare (.inr hempty.2)
      · exact (key_eq_ok.mp h).namesColumn
    · exact (key_eq_ok.mp h).namesColumn
  · rintro (_ | hcolumn)
    · exact key_eq_ok.mpr .quoted
    · simp only [Argument.columnOf, argument, bareName?]
      split
      · rfl
      · rename_i hempty
        refine key_eq_ok.mpr (.bare ?_)
        rcases hcolumn with hbound | hrows
        · exact hbound
        · simpa [hrows] using hempty

theorem comparator_eq_ok {op : Comparator} :
    (e.argument scope snapshot).comparator = .ok op ↔ e.NamesComparator op := by
  constructor
  · intro h
    unfold Argument.comparator at h
    split at h
    · rename_i hname
      cases h
      obtain ⟨s, hbare, hs⟩ := Option.bind_eq_some_iff.mp hname
      cases e <;> cases hbare
      exact .bare hs
    · obtain ⟨v, hv, h⟩ := bind_eq_ok.mp h
      split at h
      · split at h
        · rename_i hs
          cases h
          rw [eval_eq_text hv]
          exact .quoted hs
        · nomatch h
      · nomatch h
  · rintro (hs | hs)
    · simp only [Argument.comparator, argument, bareName?, eval, Option.bind_none, bind, Except.bind,
        hs]
      rfl
    · simp only [Argument.comparator, argument, bareName?, Option.bind_some, hs]

theorem comparand_eq_ok {x : Binary64} :
    (e.argument scope snapshot).comparand = .ok x ↔ e.HasNumber scope snapshot x := by
  rw [Argument.comparand, bind_eq_ok]
  refine exists_congr fun v => and_congr_right fun _ => ?_
  cases v.coerce? with
  | some y => simp [pure_eq_ok]
  | none => simp

/-! ## Calls -/

/-- The arguments name a condition on the rows of a list. -/
structure NamesCondition (scope : Scope) (snapshot : Snapshot) (list : String)
    (filter op comparand : Expr) (c : Condition) : Prop where
  column : filter.NamesColumn scope list c.column
  op : op.NamesComparator c.op
  comparand : comparand.HasNumber scope snapshot c.comparand

variable {r : Reduction} {listArg columnArg filter op comparand : Expr} {x : Binary64}

theorem exists_namesCondition {P : Condition → Prop} :
    (∃ c, NamesCondition scope snapshot list filter op comparand c ∧ P c) ↔
      ∃ column, filter.NamesColumn scope list column ∧ ∃ o, op.NamesComparator o ∧
        ∃ y, comparand.HasNumber scope snapshot y ∧ P ⟨column, o, y⟩ := by
  constructor
  · rintro ⟨⟨column, o, y⟩, ⟨hcolumn, hop, hcomparand⟩, h⟩
    exact ⟨column, hcolumn, o, hop, y, hcomparand, h⟩
  · rintro ⟨column, hcolumn, o, hop, y, hcomparand, h⟩
    exact ⟨⟨column, o, y⟩, ⟨hcolumn, hop, hcomparand⟩, h⟩

/-- A call has no value but a number. -/
theorem exists_eq_number {f : Function} {args : List Expr} {v : Value}
    (h : (call f args).eval scope snapshot = .ok v) : ∃ x, v = .number x := by
  rw [eval, bind_eq_ok] at h
  obtain ⟨x, _, hx⟩ := h
  exact ⟨x, (pure_eq_ok.mp hx).symm⟩

theorem eval_call_eq_ok {f : Function} {args : List Expr} :
    (call f args).eval scope snapshot = .ok (.number x) ↔
      f.apply scope snapshot (args.map (argument scope snapshot)) = .ok x := by
  have hargs : evalArguments scope snapshot args = args.map (argument scope snapshot) :=
    evalArguments_eq args
  simp only [eval, hargs, bind_eq_ok, pure_eq_ok, Value.number.injEq, exists_eq_right]

theorem eval_reduceItems_eq_ok :
    (call (.reduceItems r) [listArg, columnArg]).eval scope snapshot = .ok (.number x) ↔
      ∃ list, listArg.NamesList scope list ∧ ∃ column, columnArg.NamesColumn scope list column ∧
        r.apply ((scope.rows list).filterMap (·.number? column)) = x := by
  simp only [eval_call_eq_ok, List.map, Function.apply, bind_eq_ok, pure_eq_ok, key_eq_ok,
    columnOf_eq_ok]

theorem eval_countRows_eq_ok :
    (call .countItems [listArg]).eval scope snapshot = .ok (.number x) ↔
      ∃ list, listArg.NamesList scope list ∧ countOf (scope.rows list).length = x := by
  simp only [eval_call_eq_ok, List.map, Function.apply, bind_eq_ok, pure_eq_ok, key_eq_ok]

theorem eval_countItems_eq_ok :
    (call .countItems [listArg, columnArg]).eval scope snapshot = .ok (.number x) ↔
      ∃ list, listArg.NamesList scope list ∧ ∃ column, columnArg.NamesColumn scope list column ∧
        countOf ((scope.rows list).countP (·.hasValue column)) = x := by
  simp only [eval_call_eq_ok, List.map, Function.apply, bind_eq_ok, pure_eq_ok, key_eq_ok,
    columnOf_eq_ok]

theorem eval_reduceItemsWhere_eq_ok :
    (call (.reduceItemsWhere r) [listArg, columnArg, filter, op, comparand]).eval scope snapshot =
        .ok (.number x) ↔
      ∃ list, listArg.NamesList scope list ∧ ∃ column, columnArg.NamesColumn scope list column ∧
        ∃ c, NamesCondition scope snapshot list filter op comparand c ∧
          r.apply (((scope.rows list).filter c.Meets).filterMap (·.number? column)) = x := by
  simp only [eval_call_eq_ok, List.map, Function.apply, bind_eq_ok, pure_eq_ok, key_eq_ok,
    columnOf_eq_ok, comparator_eq_ok, comparand_eq_ok, exists_namesCondition,
    ← Condition.filter_selects]

theorem eval_countItemsWhere_eq_ok :
    (call .countItemsWhere [listArg, filter, op, comparand]).eval scope snapshot =
        .ok (.number x) ↔
      ∃ list, listArg.NamesList scope list ∧
        ∃ c, NamesCondition scope snapshot list filter op comparand c ∧
          countOf ((scope.rows list).filter c.Meets).length = x := by
  simp only [eval_call_eq_ok, List.map, Function.apply, bind_eq_ok, pure_eq_ok, key_eq_ok,
    columnOf_eq_ok, comparator_eq_ok, comparand_eq_ok, exists_namesCondition,
    ← Condition.filter_selects]

end Expr
end MetricFormula
