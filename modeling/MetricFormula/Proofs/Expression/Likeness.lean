import MetricFormula.Proofs.Expression.RowFunction
import MetricFormula.Proofs.Scope.History

/-! # What formulas see in rows

Of a row a formula sees no more than the number in a column, if there is one, and whether there is
anything but null. So in two scopes that bind the same names and whose lists look alike row by row,
each expression has the same outcome (`Expr.eval_eq_of_alike`), whatever else is registered in both
from then on (`Scope.Alike.registerAll`). -/

namespace MetricFormula

/-- What formulas see in a row: for each column the number, and whether there is a value. -/
def Row.view (row : Row) (column : String) : Option Binary64 × Bool :=
  (row.number? column, row.hasValue column)

/-! ## Lists of rows -/

/-- The rows of two lists look alike, each to the one at the same place. -/
def RowsAlike (rows rows' : List Row) : Prop := rows.map Row.view = rows'.map Row.view

namespace RowsAlike

variable {rows rows' : List Row}

theorem length_eq (h : RowsAlike rows rows') : rows.length = rows'.length := by
  simpa using congrArg List.length h

theorem isEmpty_eq (h : RowsAlike rows rows') : rows.isEmpty = rows'.isEmpty := by
  simpa using congrArg List.isEmpty h

theorem filterMap_number?_eq (h : RowsAlike rows rows') (column : String) :
    rows.filterMap (·.number? column) = rows'.filterMap (·.number? column) := by
  have hview (l : List Row) :
      l.filterMap (·.number? column) = (l.map Row.view).filterMap fun v => (v column).1 := by
    rw [List.filterMap_map]
    rfl
  rw [hview, hview, h]

theorem countP_hasValue_eq (h : RowsAlike rows rows') (column : String) :
    rows.countP (·.hasValue column) = rows'.countP (·.hasValue column) := by
  have hview (l : List Row) :
      l.countP (·.hasValue column) = (l.map Row.view).countP fun v => (v column).2 := by
    rw [List.countP_map]
    rfl
  rw [hview, hview, h]

/-- A condition looks at the number in its column only. -/
theorem filter_selects (h : RowsAlike rows rows') (op : Comparator) (column : String)
    (comparand : Binary64) :
    RowsAlike (rows.filter (op.selects column comparand))
      (rows'.filter (op.selects column comparand)) := by
  let meets (v : String → Option Binary64 × Bool) : Bool :=
    (v column).1.elim (op = .neq) (op.holds · comparand)
  have hmeets : op.selects column comparand = meets ∘ Row.view := by
    funext row
    show _ = (row.number? column).elim _ _
    rw [Comparator.selects]
    cases row.number? column <;> rfl
  have hview (l : List Row) :
      (l.filter (op.selects column comparand)).map Row.view = (l.map Row.view).filter meets := by
    rw [hmeets, List.filter_map]
  rw [RowsAlike, hview, hview, h]

end RowsAlike

/-! ## Scopes -/

/-- Two scopes bind the same names, and their lists look alike. -/
structure Scope.Alike (s s' : Scope) : Prop where
  bindings : s.bindings = s'.bindings
  rows : ∀ list, RowsAlike (s.rows list) (s'.rows list)

namespace Scope.Alike

variable {s s' : Scope} {rows rows' : List Row}

theorem refl (s : Scope) : s.Alike s := ⟨rfl, fun _ => rfl⟩

theorem lookup?_eq (h : s.Alike s') (name : String) : s.lookup? name = s'.lookup? name := by
  rw [lookup?, lookup?, h.bindings]

theorem isBound_eq (h : s.Alike s') (name : String) : s.isBound name = s'.isBound name := by
  rw [isBound, isBound, h.lookup?_eq]

theorem bindNumber (h : s.Alike s') (key : String) (x : Option Binary64) :
    (s.bindNumber key x).Alike (s'.bindNumber key x) where
  bindings := by rw [Scope.bindNumber, Scope.bindNumber, h.bindings]
  rows := h.rows

theorem bindColumns (h : s.Alike s') (columns : List String) :
    (columns.foldl bindColumn s).Alike (columns.foldl bindColumn s') := by
  induction columns generalizing s s' with
  | nil => exact h
  | cons column columns ih => exact ih ⟨by rw [bindColumn, bindColumn, h.bindings], h.rows⟩

theorem bindKey (h : s.Alike s') (key : String) (hrows : RowsAlike rows rows') :
    (s.bindKey key rows).Alike (s'.bindKey key rows') where
  bindings := by rw [Scope.bindKey, Scope.bindKey, h.bindings]
  rows list := by
    simp only [Scope.rows, Scope.bindKey, Std.ExtTreeMap.getElem?_insert]
    split
    · exact hrows
    · exact h.rows list

/-- A list brings its columns into scope, so its rows have to have the same ones. -/
theorem bindList (h : s.Alike s') (key : String) (hrows : RowsAlike rows rows')
    (hkeys : rows.flatMap (·.keys) = rows'.flatMap (·.keys)) (columns : List String) :
    (s.bindList key rows columns).Alike (s'.bindList key rows' columns) := by
  rw [Scope.bindList, Scope.bindList, hkeys]
  exact (h.bindKey key hrows).bindColumns _

theorem register (h : s.Alike s') (r : Registration) : (s.register r).Alike (s'.register r) := by
  cases r with
  | number key x => exact h.bindNumber key x
  | list key rows columns => exact h.bindList key rfl rfl columns

theorem registerAll (h : s.Alike s') (history : History) :
    (s.registerAll history).Alike (s'.registerAll history) := by
  induction history generalizing s s' with
  | nil => exact h
  | cons r history ih => exact ih (h.register r)

end Scope.Alike

/-! ## Functions and expressions -/

/-- A function over lists makes the same of rows that look alike. -/
theorem RowsAlike.ofRows_eq {rows rows' : List Row} (h : RowsAlike rows rows') (f : Function)
    (columns : List String) (args : List Argument) :
    f.ofRows rows columns args = f.ofRows rows' columns args :=
  Function.ofRows_congr filter_selects length_eq countP_hasValue_eq
    (fun h r column _ _ => by rw [h.filterMap_number?_eq column]) h

theorem Expr.eval_eq_of_alike {s s' : Scope} (h : s.Alike s') (m : Snapshot) (e : Expr) :
    e.eval s m = e.eval s' m :=
  eval_congr_calls h.lookup?_eq fun f _ _ =>
    Function.apply_congr_rows h.isBound_eq (fun list => (h.rows list).isEmpty_eq)
      fun list columns others _ => (h.rows list).ofRows_eq f columns others

end MetricFormula
