import MetricFormula.Proofs.Expression.ListFunction

/-! # Filtering and reducing

A function over the rows that meet a condition gives what the function over all rows gives where the
list has no other rows, and what the function over its arguments gives on the numbers of these rows
(`Expr.families_agree`). -/

namespace MetricFormula

/-- The same names, with other rows for a list. -/
def Scope.withRows (s : Scope) (list : String) (rows : List Row) : Scope :=
  { s with lists := s.lists.insert list rows }

@[simp] theorem Scope.rows_withRows {s : Scope} {list : String} {rows : List Row} :
    (s.withRows list rows).rows list = rows := by
  simp [Scope.rows, withRows]

namespace Expr

variable {scope : Scope} {snapshot : Snapshot} {e columnArg : Expr} {list column : String}
  {rows : List Row}

theorem NamesList.withRows (h : e.NamesList scope list) :
    e.NamesList (scope.withRows list rows) list := by
  cases h with
  | quoted => exact .quoted
  | bare h => exact .bare h

/-- In a list with fewer rows the same expressions name columns, if not more. -/
theorem NamesColumn.withRows (h : e.NamesColumn scope list column)
    (hrows : scope.rows list = [] → rows = []) :
    e.NamesColumn (scope.withRows list rows) list column := by
  cases h with
  | quoted => exact .quoted
  | bare h =>
    refine .bare (h.imp id fun h => ?_)
    rw [Scope.rows_withRows, hrows h]

/-! ## Over some of the rows -/

theorem eval_reduceItems_withRows (p : Row → Bool) (r : Reduction) (hlist : e.NamesList scope list)
    (hcolumn : columnArg.NamesColumn scope list column) :
    let rows := (scope.rows list).filter p
    (call (.reduceItems r) [e, columnArg]).eval (scope.withRows list rows) snapshot =
      .ok (.number (r.apply (rows.filterMap (·.number? column)))) := by
  intro rows
  have hrows : scope.rows list = [] → rows = [] := fun h => List.filter_eq_nil_iff.mpr (by simp [h])
  refine eval_reduceItems_eq_ok.mpr ⟨list, hlist.withRows, column, hcolumn.withRows hrows, ?_⟩
  rw [Scope.rows_withRows]

theorem eval_countRows_withRows (hlist : e.NamesList scope list) :
    (call .countItems [e]).eval (scope.withRows list rows) snapshot =
      .ok (.number (countOf rows.length)) := by
  refine eval_countRows_eq_ok.mpr ⟨list, hlist.withRows, ?_⟩
  rw [Scope.rows_withRows]

/-- The numbers among literal arguments are all of them. -/
theorem eval_reduce_numbers (r : Reduction) (xs : List Binary64) :
    (call (.reduce r) (xs.map .number)).eval scope snapshot = .ok (.number (r.apply xs)) := by
  have hargument : Argument.outcome ∘ argument scope snapshot ∘ Expr.number =
      fun x => pure (Value.number x) := by
    funext x
    rw [Function.comp_apply, Function.comp_apply, argument, eval]
    rfl
  have hvalues : (xs.map (argument scope snapshot ∘ Expr.number)).mapM Argument.outcome =
      .ok (xs.map .number) := by
    rw [List.mapM_map, hargument]
    exact List.mapM_pure
  have hnumbers : (xs.map Value.number).filterMap (·.number?) = xs := by
    simp [List.filterMap_map, Value.number?]
  rw [eval_call_eq_ok, List.map_map, Function.apply]
  refine bind_eq_ok.mpr ⟨_, hvalues, ?_⟩
  rw [hnumbers]
  rfl

/-- The three families of functions agree: what a function over some rows gives is what its
counterpart gives over a list that has these rows only, and what the function over arguments gives
on the numbers of these rows. -/
theorem families_agree (scope : Scope) (snapshot : Snapshot) :
    (∀ (r : Reduction) (listArg columnArg filter op comparand : Expr) (v : Value),
      (call (.reduceItemsWhere r) [listArg, columnArg, filter, op, comparand]).eval scope snapshot =
          .ok v ↔
        ∃ list column c, listArg.NamesList scope list ∧ columnArg.NamesColumn scope list column ∧
          NamesCondition scope snapshot list filter op comparand c ∧
          let rows := (scope.rows list).filter c.Meets
          (call (.reduceItems r) [listArg, columnArg]).eval (scope.withRows list rows) snapshot =
            .ok v ∧
          (call (.reduce r) ((rows.filterMap (·.number? column)).map .number)).eval scope snapshot =
            .ok v) ∧
    ∀ (listArg filter op comparand : Expr) (v : Value),
      (call .countItemsWhere [listArg, filter, op, comparand]).eval scope snapshot = .ok v ↔
        ∃ list c, listArg.NamesList scope list ∧
          NamesCondition scope snapshot list filter op comparand c ∧
          let rows := (scope.rows list).filter c.Meets
          (call .countItems [listArg]).eval (scope.withRows list rows) snapshot = .ok v := by
  constructor
  · intro r listArg columnArg filter op comparand v
    constructor
    · intro h
      obtain ⟨x, rfl⟩ := exists_eq_number h
      obtain ⟨list, hlist, column, hcolumn, c, hc, rfl⟩ := eval_reduceItemsWhere_eq_ok.mp h
      exact ⟨list, column, c, hlist, hcolumn, hc, eval_reduceItems_withRows _ r hlist hcolumn,
        eval_reduce_numbers r _⟩
    · rintro ⟨list, column, c, hlist, hcolumn, hc, _, hv⟩
      rw [← hv, eval_reduce_numbers]
      exact eval_reduceItemsWhere_eq_ok.mpr ⟨list, hlist, column, hcolumn, c, hc, rfl⟩
  · intro listArg filter op comparand v
    constructor
    · intro h
      obtain ⟨x, rfl⟩ := exists_eq_number h
      obtain ⟨list, hlist, c, hc, rfl⟩ := eval_countItemsWhere_eq_ok.mp h
      exact ⟨list, c, hlist, hc, eval_countRows_withRows hlist⟩
    · rintro ⟨list, c, hlist, hc, hv⟩
      rw [← hv, eval_countRows_withRows hlist]
      exact eval_countItemsWhere_eq_ok.mpr ⟨list, hlist, c, hc, rfl⟩

end Expr
end MetricFormula
