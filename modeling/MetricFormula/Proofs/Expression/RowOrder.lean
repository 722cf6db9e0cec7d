import MetricFormula.Proofs.Binary64.Extremes
import MetricFormula.Proofs.Expression.ListFunction
import MetricFormula.Proofs.Expression.RowFunction

/-! # Rows in another order

Counts of rows and extremes of a column do not depend on the order of the rows, the extremes as long
as the column does not mix both zeros. So an expression without sums and averages of a column has the
same outcome in two scopes whose lists hold the same rows (`Expr.eval_eq_of_reordered`). -/

namespace MetricFormula

/-! ## Lists of rows -/

/-- The second rows are the first in another order. Where a column that matters mixes both zeros they
are the same as they stand. -/
structure RowsReordered (matters : String → Prop) (rows rows' : List Row) : Prop where
  perm : rows.Perm rows'
  zeros : ∀ column, matters column →
    rows = rows' ∨ ¬Binary64.MixesZeros (rows.filterMap (·.number? column))

variable {matters : String → Prop} {rows rows' : List Row} {column : String}

namespace RowsReordered

theorem refl (rows : List Row) : RowsReordered matters rows rows :=
  ⟨.refl rows, fun _ _ => .inl rfl⟩

theorem isEmpty_eq (h : RowsReordered matters rows rows') : rows.isEmpty = rows'.isEmpty :=
  h.perm.isEmpty_eq

/-- The rows that pass a test are in another order as well. -/
theorem filter (h : RowsReordered matters rows rows') (p : Row → Bool) :
    RowsReordered matters (rows.filter p) (rows'.filter p) where
  perm := h.perm.filter p
  zeros column hcolumn := by
    rcases h.zeros column hcolumn with rfl | hzeros
    · exact .inl rfl
    · refine .inr fun hmixes => hzeros (hmixes.mono ?_)
      exact (List.filter_sublist.filterMap _).subset

theorem reduce_eq (h : RowsReordered matters rows rows') {r : Reduction} (hr : r.IsExtreme)
    (hcolumn : matters column) :
    r.apply (rows.filterMap (·.number? column)) = r.apply (rows'.filterMap (·.number? column)) := by
  rcases h.zeros column hcolumn with rfl | hzeros
  · rfl
  · exact Reduction.apply_perm hr (h.perm.filterMap _) hzeros

end RowsReordered

/-! ## Functions -/

/-- A function over lists that takes no sum makes the same of rows in another order, as far as the
column matters that it reduces. -/
theorem RowsReordered.ofRows_eq (h : RowsReordered matters rows rows') {f : Function}
    {columns : List String} (args : List Argument)
    (hf : ∀ r, f.rowReduction? = some r → r.IsExtreme ∧ ∀ column ∈ columns.head?, matters column) :
    f.ofRows rows columns args = f.ofRows rows' columns args := by
  refine Function.ofRows_congr (fun h op column x => h.filter _) (fun h => h.perm.length_eq)
    (fun h column => h.perm.countP_eq _) (fun h r column hr hcolumn => ?_) h
  obtain ⟨hextreme, hmatters⟩ := hf r hr
  exact h.reduce_eq hextreme (hmatters column hcolumn)

/-! ## Scopes -/

/-- Two scopes bind the same names, and their lists hold the same rows in another order. -/
structure Scope.Reordered (matters : String → Prop) (s s' : Scope) : Prop where
  lookup : ∀ name, s.lookup? name = s'.lookup? name
  rows : ∀ list, RowsReordered matters (s.rows list) (s'.rows list)

namespace Scope.Reordered

variable {s s' : Scope}

theorem refl (s : Scope) : s.Reordered matters s := ⟨fun _ => rfl, fun _ => .refl _⟩

theorem isBound_eq (h : s.Reordered matters s') (name : String) :
    s.isBound name = s'.isBound name := by
  rw [isBound, isBound, h.lookup]

theorem bindings_eq (h : s.Reordered matters s') : s.bindings = s'.bindings :=
  Std.ExtTreeMap.ext_getElem? h.lookup

theorem bindNumber (h : s.Reordered matters s') (key : String) (x : Option Binary64) :
    (s.bindNumber key x).Reordered matters (s'.bindNumber key x) where
  lookup name := by rw [lookup?_bindNumber, lookup?_bindNumber, h.lookup]
  rows := h.rows

/-- The columns that come into scope with a list do not depend on the order of its rows. -/
theorem bindList (h : s.Reordered matters s') (key : String)
    (hrows : RowsReordered matters rows rows') (columns : List String) :
    (s.bindList key rows columns).Reordered matters (s'.bindList key rows' columns) where
  lookup name := by
    have hmem : (∃ row ∈ rows, name ∈ row) ↔ ∃ row ∈ rows', name ∈ row :=
      exists_congr fun row => and_congr_left fun _ => hrows.perm.mem_iff
    simp only [lookup?_bindList, h.lookup, hmem]
  rows list := by
    rw [rows_bindList, rows_bindList]
    split
    · exact hrows
    · exact h.rows list

end Scope.Reordered

/-! ## Expressions -/

namespace Expr

/-- The expression takes the sum or the average of a column. -/
def AddsRows (e : Expr) : Prop :=
  ∃ f args r, Within (.call f args) e ∧ f.rowReduction? = some r ∧ (r = .sum ∨ r = .average)

/-- The expression takes the least or the greatest number of the column, which it names bare or in
quotes. -/
def TakesExtreme (e : Expr) (column : String) : Prop :=
  ∃ f args r, Within (.call f args) e ∧ f.rowReduction? = some r ∧ r.IsExtreme ∧
    (args[1]? = some (.name column) ∨ args[1]? = some (.text column))

variable {s s' : Scope} {snapshot : Snapshot} {e : Expr}

/-- The order of rows does not matter to an expression without sums and averages of columns. -/
theorem eval_eq_of_reordered (h : s.Reordered matters s') (hadds : ¬e.AddsRows)
    (hmatters : ∀ column, e.TakesExtreme column → matters column) :
    e.eval s snapshot = e.eval s' snapshot := by
  refine eval_congr_calls h.lookup fun f args hwithin => ?_
  refine Function.apply_congr_rows h.isBound_eq (fun list => (h.rows list).isEmpty_eq) ?_
  intro list columns others hhead
  refine (h.rows list).ofRows_eq others fun r hr => ?_
  have hextreme : r.IsExtreme := by
    cases r with
    | sum => exact absurd ⟨f, args, .sum, hwithin, hr, .inl rfl⟩ hadds
    | average => exact absurd ⟨f, args, .average, hwithin, hr, .inr rfl⟩ hadds
    | least => exact .inl rfl
    | greatest => exact .inr rfl
  refine ⟨hextreme, fun column hcolumn => hmatters column ⟨f, args, r, hwithin, hr, hextreme, ?_⟩⟩
  -- the column is what the second argument says
  obtain ⟨a, ha, hread⟩ := hhead column hcolumn
  rw [evalArguments_eq, List.getElem?_map] at ha
  obtain ⟨columnArg, harg, rfl⟩ := Option.map_eq_some_iff.mp ha
  cases columnOf_eq_ok.mp hread with
  | quoted => exact .inr harg
  | bare => exact .inl harg

end Expr
end MetricFormula
