import MetricFormula.Proofs.Expression.ListFunction

/-! # Nothing to reduce

Where a list has no rows, or none of those that count has a number, the functions over it give zero;
none of them divides by the count of nothing. A fault of arithmetic in a call is always one of an
argument (`Expr.nothing_reduces_to_zero`). -/

namespace MetricFormula

theorem countOf_zero : countOf 0 = .zero := by decide +kernel

theorem Reduction.apply_nil (r : Reduction) : r.apply [] = .zero := rfl

namespace Expr

variable {scope : Scope} {snapshot : Snapshot} {listArg columnArg filter op comparand : Expr}
  {list column : String} {c : Condition} {r : Reduction}

/-- The expression is a bare name or a text, whatever the name may denote. -/
def IsKey (e : Expr) : Prop := ∃ key, e = .name key ∨ e = .text key

/-- In a list without rows every key names a column. -/
theorem IsKey.exists_namesColumn {e : Expr} (h : e.IsKey) (hrows : scope.rows list = []) :
    ∃ column, e.NamesColumn scope list column := by
  obtain ⟨key, rfl | rfl⟩ := h
  · exact ⟨key, .bare (.inr hrows)⟩
  · exact ⟨key, .quoted⟩

/-! ## No numbers -/

theorem eval_reduceItems_of_no_numbers (hlist : listArg.NamesList scope list)
    (hcolumn : columnArg.NamesColumn scope list column)
    (h : ∀ row ∈ scope.rows list, row.number? column = none) :
    (call (.reduceItems r) [listArg, columnArg]).eval scope snapshot = .ok (.number .zero) := by
  refine eval_reduceItems_eq_ok.mpr ⟨list, hlist, column, hcolumn, ?_⟩
  rw [List.filterMap_eq_nil_iff.mpr h, Reduction.apply_nil]

theorem eval_reduceItemsWhere_of_no_numbers (hlist : listArg.NamesList scope list)
    (hcolumn : columnArg.NamesColumn scope list column)
    (hc : NamesCondition scope snapshot list filter op comparand c)
    (h : ∀ row ∈ scope.rows list, c.Meets row → row.number? column = none) :
    (call (.reduceItemsWhere r) [listArg, columnArg, filter, op, comparand]).eval scope snapshot =
      .ok (.number .zero) := by
  have hnothing : ((scope.rows list).filter c.Meets).filterMap (·.number? column) = [] := by
    refine List.filterMap_eq_nil_iff.mpr fun row hrow => ?_
    obtain ⟨hrow, hmeets⟩ := List.mem_filter.mp hrow
    exact h row hrow (of_decide_eq_true hmeets)
  refine eval_reduceItemsWhere_eq_ok.mpr ⟨list, hlist, column, hcolumn, c, hc, ?_⟩
  rw [hnothing, Reduction.apply_nil]

/-! ## Faults of arithmetic -/

/-- Only an argument can bring a fault of arithmetic into a call. -/
theorem exists_eval_eq_arithmetic {f : Function} {args : List Expr} {cause : ArithmeticFault}
    (h : (call f args).eval scope snapshot = .error (.arithmetic cause)) :
    ∃ a ∈ args, a.eval scope snapshot = .error (.arithmetic cause) := by
  cases hadmits : f.arity.admits args.length with
  | false =>
    rw [eval_call_of_not_admits hadmits] at h
    nomatch h
  | true =>
    let P (fault : Fault) : Prop := ∀ cause, fault = .arithmetic cause →
      ∃ a ∈ args, a.eval scope snapshot = .error (.arithmetic cause)
    have happly : FailsIn P (f.apply scope snapshot (evalArguments scope snapshot args)) := by
      rw [evalArguments_eq]
      refine Function.failsIn_apply ?_ (by rwa [List.length_map]) ?_
      · rintro _ hblames cause rfl
        nomatch hblames
      · intro argument hargument
        obtain ⟨a, ha, rfl⟩ := List.mem_map.mp hargument
        rintro fault hfault cause rfl
        exact ⟨a, ha, hfault⟩
    rw [eval] at h
    exact (FailsIn.bind happly fun _ _ => .pure) _ h cause rfl

/-- The functions over a list without rows give zero, and so do the reductions where no row that
counts has a number in the column. No call of a function has a fault of arithmetic that is not one of
its arguments. -/
theorem nothing_reduces_to_zero (scope : Scope) (snapshot : Snapshot) :
    (∀ (listArg : Expr) (list : String), listArg.NamesList scope list → scope.rows list = [] →
      ∀ columnArg filter : Expr, columnArg.IsKey → filter.IsKey →
        (∀ r, (call (.reduceItems r) [listArg, columnArg]).eval scope snapshot =
          .ok (.number .zero)) ∧
        (call .countItems [listArg]).eval scope snapshot = .ok (.number .zero) ∧
        (call .countItems [listArg, columnArg]).eval scope snapshot = .ok (.number .zero) ∧
        ∀ (op comparand : Expr) (o : Comparator) (x : Binary64), op.NamesComparator o →
          comparand.HasNumber scope snapshot x →
          (∀ r, (call (.reduceItemsWhere r) [listArg, columnArg, filter, op, comparand]).eval scope
            snapshot = .ok (.number .zero)) ∧
          (call .countItemsWhere [listArg, filter, op, comparand]).eval scope snapshot =
            .ok (.number .zero)) ∧
    (∀ (listArg columnArg : Expr) (list column : String), listArg.NamesList scope list →
      columnArg.NamesColumn scope list column →
        ((∀ row ∈ scope.rows list, row.number? column = none) →
          ∀ r, (call (.reduceItems r) [listArg, columnArg]).eval scope snapshot =
            .ok (.number .zero)) ∧
        ∀ filter op comparand c, NamesCondition scope snapshot list filter op comparand c →
          (∀ row ∈ scope.rows list, c.Meets row → row.number? column = none) →
          ∀ r, (call (.reduceItemsWhere r) [listArg, columnArg, filter, op, comparand]).eval scope
            snapshot = .ok (.number .zero)) ∧
    ∀ (f : Function) (args : List Expr) (cause : ArithmeticFault),
      (call f args).eval scope snapshot = .error (.arithmetic cause) →
        ∃ a ∈ args, a.eval scope snapshot = .error (.arithmetic cause) := by
  refine ⟨?_, ?_, fun _ _ _ => exists_eval_eq_arithmetic⟩
  · intro listArg list hlist hrows columnArg filter hcolumn hfilter
    have hnone (p : Row → Prop) : ∀ row ∈ scope.rows list, p row := by
      rw [hrows]
      exact nofun
    obtain ⟨column, hcolumn⟩ := hcolumn.exists_namesColumn hrows
    obtain ⟨filterColumn, hfilter⟩ := hfilter.exists_namesColumn hrows
    refine ⟨fun _ => eval_reduceItems_of_no_numbers hlist hcolumn (hnone _), ?_, ?_, ?_⟩
    · refine eval_countRows_eq_ok.mpr ⟨list, hlist, ?_⟩
      rw [hrows, List.length_nil, countOf_zero]
    · refine eval_countItems_eq_ok.mpr ⟨list, hlist, column, hcolumn, ?_⟩
      rw [hrows, List.countP_nil, countOf_zero]
    · intro op comparand o x hop hcomparand
      have hc : NamesCondition scope snapshot list filter op comparand ⟨filterColumn, o, x⟩ :=
        ⟨hfilter, hop, hcomparand⟩
      refine ⟨fun _ => eval_reduceItemsWhere_of_no_numbers hlist hcolumn hc (hnone _), ?_⟩
      refine eval_countItemsWhere_eq_ok.mpr ⟨list, hlist, _, hc, ?_⟩
      rw [hrows, List.filter_nil, List.length_nil, countOf_zero]
  · intro listArg columnArg list column hlist hcolumn
    exact ⟨fun h _ => eval_reduceItems_of_no_numbers hlist hcolumn h,
      fun _ _ _ _ hc h _ => eval_reduceItemsWhere_of_no_numbers hlist hcolumn hc h⟩

/-- An average over a list that is not there, the least among none of its rows, and the greatest of a
column of nulls. -/
theorem nothing_reduces_to_zero_null :
    let scope := Scope.empty.bindList "items" [.ofList [("x", Cell.null)]] []
    (call (.reduceItems .average) [.text "none", .name "y"]).eval scope .empty =
        .ok (.number .zero) ∧
      (call (.reduceItemsWhere .least)
        [.text "none", .name "y", .name "z", .name "op_lt", .number .zero]).eval scope .empty =
          .ok (.number .zero) ∧
      (call (.reduceItems .greatest) [.name "items", .text "x"]).eval scope .empty =
        .ok (.number .zero) := by
  intro scope
  have hnone : scope.rows "none" = [] := by
    rw [Scope.rows_bindList, if_neg (by decide)]
    simp [Scope.empty, Scope.rows]
  have hnull : ∀ row ∈ scope.rows "items", row.number? "x" = none := by
    rw [Scope.rows_bindList, if_pos rfl]
    simp [Row.number?, Cell.coerce?]
  have hzero : (Expr.number .zero).HasNumber scope .empty .zero :=
    ⟨.number .zero, by rw [eval], rfl⟩
  obtain ⟨hrows, hnumbers, _⟩ := nothing_reduces_to_zero scope .empty
  obtain ⟨hreduce, _, _, hreduceWhere⟩ := hrows (.text "none") "none" .quoted hnone (.name "y")
    (.name "z") ⟨"y", .inl rfl⟩ ⟨"z", .inl rfl⟩
  refine ⟨hreduce .average, ?_, ?_⟩
  · exact (hreduceWhere (.name "op_lt") _ .lt .zero (.bare (by decide +kernel)) hzero).1 .least
  · exact (hnumbers (.name "items") (.text "x") "items" "x" namesList_bindList .quoted).1 hnull .greatest

end Expr
end MetricFormula
