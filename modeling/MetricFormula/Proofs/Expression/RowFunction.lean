import MetricFormula.Proofs.Expression.Dependence

/-! # Functions of rows

A function over lists looks up the list and the columns that it needs, in this order. From then on it
sees nothing of the scope but the rows of the list (`Function.apply_eq_ofRows`). -/

namespace MetricFormula
namespace Function

/-- How many columns a function over lists names at most, right behind the list. -/
def columns? : Function → Option Nat
  | reduceItems _ | countItems | countItemsWhere => some 1
  | reduceItemsWhere _ => some 2
  | reduce _ | count | round | entityField => none

/-- The reduction of a column by a function over lists. -/
def rowReduction? : Function → Option Reduction
  | reduceItems r | reduceItemsWhere r => some r
  | reduce _ | count | round | countItems | countItemsWhere | entityField => none

/-- What a function over lists makes of the rows, of the columns that have been looked up and of the
arguments behind them. -/
def ofRows (f : Function) (rows : List Row) (columns : List String) (args : List Argument) :
    Except Fault Binary64 :=
  match f, columns, args with
  | .reduceItems r, [column], [] => return r.apply (rows.filterMap (·.number? column))
  | .countItems, [], [] => return countOf rows.length
  | .countItems, [column], [] => return countOf (rows.countP (·.hasValue column))
  | .reduceItemsWhere r, [column, filter], [op, comparand] => do
    let op ← op.comparator
    let comparand ← comparand.comparand
    return r.apply ((rows.filter (op.selects filter comparand)).filterMap (·.number? column))
  | .countItemsWhere, [filter], [op, comparand] => do
    let op ← op.comparator
    let comparand ← comparand.comparand
    return countOf (rows.filter (op.selects filter comparand)).length
  | f, columns, args => .error (.arity f (columns.length + args.length + 1))

variable {f : Function} {scope : Scope} {snapshot : Snapshot} {list : Argument}
  {args : List Argument} {n : Nat}

theorem exists_cons_of_admits (hf : f.columns? = some n) (hadmits : f.arity.admits args.length) :
    ∃ list others, args = list :: others := by
  cases args with
  | nil => cases f <;> cases hf <;> simp [arity, Arity.exactly, Arity.admits] at hadmits
  | cons list others => exact ⟨list, others, rfl⟩

/-- A function over lists looks up its keys from left to right, and goes on with the rows. -/
theorem apply_eq_ofRows (hf : f.columns? = some n) (hadmits : f.arity.admits (args.length + 1)) :
    f.apply scope snapshot (list :: args) = (do
      let list ← list.key scope
      let columns ← (args.take n).mapM (·.columnOf scope list)
      f.ofRows (scope.rows list) columns (args.drop n)) := by
  cases f with
  | reduce | count | round | entityField => cases hf
  | reduceItems r =>
    cases hf
    obtain ⟨column, rfl⟩ := List.length_eq_one_iff.mp
      (Nat.succ.inj (Arity.admits_exactly.mp hadmits))
    simp [apply, ofRows]
  | countItems =>
    cases hf
    rcases Arity.admits_one_two.mp hadmits with has | has
    · obtain rfl := List.length_eq_zero_iff.mp (Nat.succ.inj has)
      simp [apply, ofRows]
    · obtain ⟨column, rfl⟩ := List.length_eq_one_iff.mp (Nat.succ.inj has)
      simp [apply, ofRows]
  | reduceItemsWhere r =>
    cases hf
    obtain ⟨column, filter, op, comparand, rfl⟩ := List.length_eq_four.mp
      (Nat.succ.inj (Arity.admits_exactly.mp hadmits))
    simp [apply, ofRows]
  | countItemsWhere =>
    cases hf
    obtain ⟨filter, op, comparand, rfl⟩ := List.length_eq_three.mp
      (Nat.succ.inj (Arity.admits_exactly.mp hadmits))
    simp [apply, ofRows]

/-- A function over lists makes the same of rows that are related, if the rows that meet a condition
are related again, related rows are as many, as many of them have a value in a column, and the
function's reduction of its column gives the same. -/
theorem ofRows_congr {related : List Row → List Row → Prop} {columns : List String}
    (hfilter : ∀ {l l'}, related l l' → ∀ (op : Comparator) column x,
      related (l.filter (op.selects column x)) (l'.filter (op.selects column x)))
    (hlength : ∀ {l l'}, related l l' → l.length = l'.length)
    (hpresent : ∀ {l l'}, related l l' →
      ∀ column, l.countP (·.hasValue column) = l'.countP (·.hasValue column))
    (hreduce : ∀ {l l'}, related l l' → ∀ r column,
      f.rowReduction? = some r → column ∈ columns.head? →
        r.apply (l.filterMap (·.number? column)) = r.apply (l'.filterMap (·.number? column)))
    {rows rows' : List Row} (h : related rows rows') :
    f.ofRows rows columns args = f.ofRows rows' columns args := by
  fun_cases Function.ofRows f rows columns args
  · rw [ofRows, hreduce h _ _ rfl rfl]
  · rw [ofRows, hlength h]
  · rw [ofRows, hpresent h]
  · simp only [ofRows, hreduce (hfilter h _ _ _) _ _ rfl rfl]
  · simp only [ofRows, hlength (hfilter h _ _ _)]
  · rw [ofRows] <;> assumption

end Function

/-! ## Scopes with other rows -/

section
variable {s s' : Scope} (hbound : ∀ name, s.isBound name = s'.isBound name)
include hbound

theorem Argument.key_congr (a : Argument) : a.key s = a.key s' := by
  unfold key
  cases a.bareName with
  | some name => simp only [hbound]
  | none => rfl

theorem Argument.columnOf_congr {list : String}
    (hempty : (s.rows list).isEmpty = (s'.rows list).isEmpty) (a : Argument) :
    a.columnOf s list = a.columnOf s' list := by
  unfold columnOf
  cases a.bareName with
  | some name => simp only [hbound, hempty, a.key_congr hbound]
  | none => exact a.key_congr hbound

/-- A function has the same result in two scopes that bind the same names, if the same lists have rows
in them and it makes the same of the rows. The first column it is given is that of its second
argument. -/
theorem Function.apply_congr_rows {snapshot : Snapshot} {f : Function} {args : List Argument}
    (hempty : ∀ list, (s.rows list).isEmpty = (s'.rows list).isEmpty)
    (hrows : ∀ list columns others,
      (∀ column ∈ columns.head?, ∃ a, args[1]? = some a ∧ a.columnOf s list = .ok column) →
      f.ofRows (s.rows list) columns others = f.ofRows (s'.rows list) columns others) :
    f.apply s snapshot args = f.apply s' snapshot args := by
  cases hadmits : f.arity.admits args.length with
  | false => rw [apply_of_not_admits hadmits, apply_of_not_admits hadmits]
  | true =>
    cases hf : f.columns? with
    | none =>
      fun_cases Function.apply s snapshot f args
      case case11 => rw [Function.apply] <;> assumption
      all_goals first | rfl | cases hf
    | some n =>
      obtain ⟨list, args, rfl⟩ := exists_cons_of_admits hf hadmits
      have hcolumns (key : String) : (args.take n).mapM (fun a => a.columnOf s key) =
          (args.take n).mapM fun a => a.columnOf s' key :=
        mapM_congr_left fun a _ => a.columnOf_congr hbound (hempty key)
      rw [apply_eq_ofRows hf hadmits, apply_eq_ofRows hf hadmits, list.key_congr hbound]
      refine bind_congr_ok fun key _ => ?_
      rw [← hcolumns]
      refine bind_congr_ok fun columns hread => hrows key columns _ fun column hcolumn => ?_
      obtain ⟨a, ha, hcolumn⟩ := mapM_head? hread hcolumn
      rw [List.head?_take] at ha
      split at ha
      · cases ha
      · exact ⟨a, by rwa [List.getElem?_cons_succ, ← List.head?_eq_getElem?], hcolumn⟩

end

/-- An expression has the same value in two scopes in which names denote the same, if each call in it
has the same result. -/
theorem Expr.eval_congr_calls {s s' : Scope} {snapshot : Snapshot} {e : Expr}
    (hlookup : ∀ name, s.lookup? name = s'.lookup? name)
    (hcalls : ∀ f args, Within (.call f args) e →
      f.apply s snapshot (evalArguments s snapshot args) =
        f.apply s' snapshot (evalArguments s snapshot args)) :
    e.eval s snapshot = e.eval s' snapshot := by
  induction e with
  | number x | text t => rfl
  | name t => rw [eval, eval, Scope.value, Scope.value, hlookup]
  | call f args ih =>
    have hargs : evalArguments s snapshot args = evalArguments s' snapshot args := by
      rw [evalArguments_eq, evalArguments_eq]
      refine List.map_congr_left fun a ha => ?_
      rw [ih a ha fun f as hwithin => hcalls f as (.argument ha hwithin)]
    rw [eval, eval, ← hargs, hcalls f args .refl]
  | signed sign operand ih =>
    rw [eval, eval, ih fun f as hwithin => hcalls f as (.operand hwithin)]
  | binary op l r ihl ihr =>
    rw [eval, eval, ihl fun f as hwithin => hcalls f as (.left hwithin),
      ihr fun f as hwithin => hcalls f as (.right hwithin)]

end MetricFormula
