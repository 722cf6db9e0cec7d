import MetricFormula.Proofs.Binary64.Operations
import MetricFormula.Proofs.Expression.ListFunction

/-! # Comparators divide the rows

Every row is equal to a number or different from it, and a row with a number is below it, equal to it
or above it, as long as neither is not-a-number. So the rows that the comparators select are the
parts of the list, and what is counted of the parts adds up. -/

namespace MetricFormula

/-! ## Parts of a list -/

/-- What passes one of two tests that exclude each other is what passes the one and what passes the
other. -/
theorem perm_filter_or {α : Type} {p q : α → Bool} {l : List α}
    (h : ∀ a ∈ l, p a → q a = false) :
    (l.filter p ++ l.filter q).Perm (l.filter fun a => p a || q a) := by
  have hp : (l.filter fun a => p a || q a).filter p = l.filter p := by
    rw [List.filter_filter]
    exact List.filter_congr fun a _ => by cases p a <;> rfl
  have hq : (l.filter fun a => p a || q a).filter (fun a => !p a) = l.filter q := by
    rw [List.filter_filter]
    refine List.filter_congr fun a ha => ?_
    cases hpa : p a with
    | false => rfl
    | true => exact (h a ha hpa).symm
  have hperm := List.filter_append_perm p (l.filter fun a => p a || q a)
  rwa [hp, hq] at hperm

/-! ## Comparators -/

theorem Binary64.exists_compare?_eq {x y : Binary64} (hx : x ≠ .nan) (hy : y ≠ .nan) :
    ∃ o, x.compare? y = some o := by
  cases x <;> cases y <;> first | contradiction | exact ⟨_, rfl⟩

/-- Where the number of a row stands; nowhere without a number or beside not-a-number. -/
def Row.order? (row : Row) (column : String) (comparand : Binary64) : Option Ordering :=
  (row.number? column).bind (·.compare? comparand)

namespace Comparator

variable {op : Comparator} {column : String} {comparand : Binary64} {row : Row} {rows : List Row}
  {o : Ordering}

/-- Comparators look at where the number of a row stands and at nothing else. -/
theorem selects_eq :
    op.selects column comparand row = op.acceptsOrder (row.order? column comparand) := by
  unfold selects Row.order?
  cases row.number? column with
  | none => cases op <;> rfl
  | some x => rfl

theorem selects_neq :
    selects .neq column comparand row = !selects .eq column comparand row := by
  simp [selects_eq, acceptsOrder]

theorem selects_gte :
    selects .gte column comparand row =
      (selects .gt column comparand row || selects .eq column comparand row) := by
  simp only [selects_eq, acceptsOrder]

theorem selects_lte :
    selects .lte column comparand row =
      (selects .lt column comparand row || selects .eq column comparand row) := by
  simp only [selects_eq, acceptsOrder]

/-- The comparator that accepts an order and no other. -/
def ofOrdering : Ordering → Comparator
  | .lt => lt
  | .eq => eq
  | .gt => gt

theorem mem_lt_eq_gt : op ∈ [lt, eq, gt] ↔ ∃ o, ofOrdering o = op := by
  constructor
  · simp only [List.mem_cons, List.not_mem_nil, or_false]
    rintro (rfl | rfl | rfl)
    exacts [⟨.lt, rfl⟩, ⟨.eq, rfl⟩, ⟨.gt, rfl⟩]
  · rintro ⟨o, rfl⟩
    cases o <;> simp [ofOrdering]

theorem selects_ofOrdering :
    (ofOrdering o).selects column comparand row ↔ row.order? column comparand = some o := by
  rw [selects_eq]
  cases o <;> exact decide_eq_true_iff

/-- No row stands on two sides. -/
theorem selects_ofOrdering_eq_false (o o' : Ordering) (hne : o ≠ o')
    (h : (ofOrdering o).selects column comparand row) :
    (ofOrdering o').selects column comparand row = false := by
  rw [← Bool.not_eq_true, selects_ofOrdering, selects_ofOrdering.mp h]
  exact fun heq => hne (Option.some.inj heq)

/-- A row that stands on a side is selected for that side only. -/
theorem existsUnique_selects (h : row.order? column comparand = some o) :
    ∃! op, op ∈ [lt, eq, gt] ∧ op.selects column comparand row := by
  refine ⟨ofOrdering o, ⟨mem_lt_eq_gt.mpr ⟨o, rfl⟩, selects_ofOrdering.mpr h⟩, ?_⟩
  rintro op ⟨hop, hselects⟩
  obtain ⟨o', rfl⟩ := mem_lt_eq_gt.mp hop
  rw [Option.some.inj ((selects_ofOrdering.mp hselects).symm.trans h)]

theorem selects_lt_or_eq_or_gt :
    (selects .lt column comparand row || selects .eq column comparand row ||
      selects .gt column comparand row) = (row.order? column comparand).isSome := by
  simp only [selects_eq]
  cases row.order? column comparand with
  | none => rfl
  | some o => cases o <;> rfl

/-! ## Parts of the rows -/

/-- Neither the comparand nor a number in the column of a row is not-a-number. -/
def Comparable (column : String) (comparand : Binary64) (rows : List Row) : Prop :=
  comparand ≠ .nan ∧ ∀ row ∈ rows, row.number? column ≠ some .nan

theorem Comparable.isSome_order? (h : Comparable column comparand rows) (hrow : row ∈ rows) :
    (row.order? column comparand).isSome = (row.number? column).isSome := by
  have hnumber := h.2 row hrow
  unfold Row.order?
  cases hx : row.number? column with
  | none => rfl
  | some x =>
    obtain ⟨o, ho⟩ := Binary64.exists_compare?_eq (fun hnan => hnumber (hnan ▸ hx)) h.1
    rw [Option.bind_some, ho]
    rfl

/-- Equal rows and different rows are all rows. -/
theorem perm_eq_neq :
    (rows.filter (selects .eq column comparand) ++ rows.filter (selects .neq column comparand)).Perm
      rows := by
  have hneq : rows.filter (selects .neq column comparand) =
      rows.filter fun row => !selects .eq column comparand row :=
    List.filter_congr fun _ _ => selects_neq
  rw [hneq]
  exact List.filter_append_perm _ rows

/-- The rows on the three sides are those with a number. -/
theorem perm_lt_eq_gt (hrows : Comparable column comparand rows) :
    (rows.filter (selects .lt column comparand) ++ rows.filter (selects .eq column comparand) ++
      rows.filter (selects .gt column comparand)).Perm
      (rows.filter fun row => (row.number? column).isSome) := by
  have hlower := perm_filter_or (p := selects .lt column comparand)
    (q := selects .eq column comparand) (l := rows) fun _ _ =>
      selects_ofOrdering_eq_false .lt .eq nofun
  have hall := perm_filter_or
    (p := fun row => selects .lt column comparand row || selects .eq column comparand row)
    (q := selects .gt column comparand) (l := rows) fun _ _ hle => by
      rcases Bool.or_eq_true_iff.mp hle with h | h
      · exact selects_ofOrdering_eq_false .lt .gt nofun h
      · exact selects_ofOrdering_eq_false .eq .gt nofun h
  have hnumbers := List.filter_congr (l := rows) fun _ hrow =>
    selects_lt_or_eq_or_gt.trans (hrows.isSome_order? hrow)
  rw [← hnumbers]
  exact (hlower.append_right _).trans hall

/-- How many rows the comparator selects. -/
def count (op : Comparator) (column : String) (comparand : Binary64) (rows : List Row) : Nat :=
  (rows.filter (op.selects column comparand)).length

theorem count_eq_add_count_neq :
    eq.count column comparand rows + neq.count column comparand rows = rows.length := by
  rw [count, count, ← List.length_append]
  exact perm_eq_neq.length_eq

theorem count_lt_add_count_eq_add_count_gt (hrows : Comparable column comparand rows) :
    lt.count column comparand rows + eq.count column comparand rows +
        gt.count column comparand rows =
      rows.countP fun row => (row.number? column).isSome := by
  rw [count, count, count, ← List.length_append, ← List.length_append, List.countP_eq_length_filter]
  exact (perm_lt_eq_gt hrows).length_eq

end Comparator

/-! ## Counts -/

/-- Up to `2 ^ 53` doubles count exactly. -/
theorem countOf_add {m n : Nat} (h : m + n ≤ 2 ^ 53) : countOf m + countOf n = countOf (m + n) := by
  have hdouble {k : Nat} (hk : k ≤ 2 ^ 53) : Binary64.IsDouble (k : Int) :=
    .intCast (by simpa using hk)
  have hm := hdouble (Nat.le_trans (Nat.le_add_right m n) h)
  have hn := hdouble (Nat.le_trans (Nat.le_add_left n m) h)
  simp only [countOf, Binary64.ofInt]
  rw [Binary64.add_eq (Binary64.isFinite_ofRat_of_isDouble _ hm)
    (Binary64.isFinite_ofRat_of_isDouble _ hn), Binary64.toRat_ofRat _ hm, Binary64.toRat_ofRat _ hn,
    Nat.cast_add, Int.cast_add]
  refine Binary64.ofRat_congr fun _ => ?_
  simp [Binary64.isNegative_ofRat]

namespace Expr

variable {scope : Scope} {snapshot : Snapshot}

theorem eval_add_countOf {left right : Expr} {m n : Nat} (hle : m + n ≤ 2 ^ 53)
    (hleft : left.eval scope snapshot = .ok (.number (countOf m)))
    (hright : right.eval scope snapshot = .ok (.number (countOf n))) :
    (binary .add left right).eval scope snapshot = .ok (.number (countOf (m + n))) := by
  rw [eval, hleft, hright, ← countOf_add hle]
  rfl

section
variable {listArg columnArg comparand ltArg eqArg gtArg neqArg : Expr} {list column : String}
  {x : Binary64} (hlist : listArg.NamesList scope list)
  (hcolumn : columnArg.NamesColumn scope list column)
  (hcomparand : comparand.HasNumber scope snapshot x)
include hlist hcolumn hcomparand

theorem eval_countItemsWhere {op : Comparator} {opArg : Expr} (hop : opArg.NamesComparator op) :
    (call .countItemsWhere [listArg, columnArg, opArg, comparand]).eval scope snapshot =
      .ok (.number (countOf (op.count column x (scope.rows list)))) := by
  refine eval_countItemsWhere_eq_ok.mpr
    ⟨list, hlist, ⟨column, op, x⟩, ⟨hcolumn, hop, hcomparand⟩, ?_⟩
  rw [← Condition.filter_selects]
  rfl

theorem eval_eq_add_neq (heq : eqArg.NamesComparator .eq) (hneq : neqArg.NamesComparator .neq)
    (hlength : (scope.rows list).length ≤ 2 ^ 53) :
    (binary .add (call .countItemsWhere [listArg, columnArg, eqArg, comparand])
      (call .countItemsWhere [listArg, columnArg, neqArg, comparand])).eval scope snapshot =
        .ok (.number (countOf (scope.rows list).length)) := by
  have hcount : Comparator.count .eq column x (scope.rows list) +
      Comparator.count .neq column x (scope.rows list) = (scope.rows list).length :=
    Comparator.count_eq_add_count_neq
  rw [eval_add_countOf (hcount ▸ hlength) (eval_countItemsWhere hlist hcolumn hcomparand heq)
    (eval_countItemsWhere hlist hcolumn hcomparand hneq), hcount]

theorem eval_lt_add_eq_add_gt (hlt : ltArg.NamesComparator .lt) (heq : eqArg.NamesComparator .eq)
    (hgt : gtArg.NamesComparator .gt) (hrows : Comparator.Comparable column x (scope.rows list))
    (hlength : (scope.rows list).length ≤ 2 ^ 53) :
    (binary .add
      (binary .add (call .countItemsWhere [listArg, columnArg, ltArg, comparand])
        (call .countItemsWhere [listArg, columnArg, eqArg, comparand]))
      (call .countItemsWhere [listArg, columnArg, gtArg, comparand])).eval scope snapshot =
        .ok (.number (countOf ((scope.rows list).countP fun row => (row.number? column).isSome))) := by
  have hcount := Comparator.count_lt_add_count_eq_add_count_gt hrows
  have hle := hcount ▸ List.countP_le_length.trans hlength
  have hlower := eval_add_countOf (Nat.le_trans (Nat.le_add_right _ _) hle)
    (eval_countItemsWhere hlist hcolumn hcomparand hlt)
    (eval_countItemsWhere hlist hcolumn hcomparand heq)
  rw [eval_add_countOf hle hlower (eval_countItemsWhere hlist hcolumn hcomparand hgt), hcount]

end

/-- Each row is selected by one of eq and neq, and a row with a number by one of lt, eq and gt, where
nothing is not-a-number; gte and lte select what two of them do. So the counts of the parts add up to
the count of the whole, and as doubles they do so as far as doubles count exactly. -/
theorem comparators_partition_rows (scope : Scope) (snapshot : Snapshot) :
    (∀ (column : String) (x : Binary64) (row : Row),
      let selects (op : Comparator) := op.selects column x row
      (selects .neq ↔ ¬selects .eq) ∧
      (selects .gte ↔ selects .gt ∨ selects .eq) ∧
      (selects .lte ↔ selects .lt ∨ selects .eq) ∧
      (row.number? column = none → ∀ op ∈ [Comparator.lt, .eq, .gt], ¬selects op) ∧
      ∀ y, row.number? column = some y → x ≠ .nan → y ≠ .nan →
        ∃! op, op ∈ [Comparator.lt, .eq, .gt] ∧ selects op) ∧
    (∀ (column : String) (x : Binary64) (rows : List Row),
      let selected (op : Comparator) := rows.filter (op.selects column x)
      (selected .eq ++ selected .neq).Perm rows ∧
      (Comparator.Comparable column x rows → (selected .lt ++ selected .eq ++ selected .gt).Perm
        (rows.filter fun row => (row.number? column).isSome))) ∧
    ∀ (listArg columnArg comparand : Expr) (list column : String) (x : Binary64),
      listArg.NamesList scope list → columnArg.NamesColumn scope list column →
      comparand.HasNumber scope snapshot x →
      let rows := scope.rows list
      let selected (op : Comparator) := op.count column x rows
      let numeric := rows.countP fun row => (row.number? column).isSome
      let all := call .countItems [listArg]
      let count (op : Expr) := call .countItemsWhere [listArg, columnArg, op, comparand]
      (∀ op opArg, opArg.NamesComparator op →
        (count opArg).eval scope snapshot = .ok (.number (countOf (selected op)))) ∧
      all.eval scope snapshot = .ok (.number (countOf (selected .eq + selected .neq))) ∧
      (Comparator.Comparable column x rows → selected .lt + selected .eq + selected .gt = numeric) ∧
      (rows.length ≤ 2 ^ 53 → ∀ ltArg eqArg gtArg neqArg, ltArg.NamesComparator .lt →
        eqArg.NamesComparator .eq → gtArg.NamesComparator .gt → neqArg.NamesComparator .neq →
        (binary .add (count eqArg) (count neqArg)).eval scope snapshot = all.eval scope snapshot ∧
        (Comparator.Comparable column x rows →
          (binary .add (binary .add (count ltArg) (count eqArg)) (count gtArg)).eval scope snapshot =
            .ok (.number (countOf numeric)))) := by
  refine ⟨fun column x row => ⟨?_, ?_, ?_, fun h op hop hselects => ?_, fun y h hx hy => ?_⟩,
    fun column x rows => ⟨Comparator.perm_eq_neq, Comparator.perm_lt_eq_gt⟩, ?_⟩
  · simp only [Comparator.selects_neq, Bool.not_eq_true', Bool.not_eq_true]
  · simp only [Comparator.selects_gte, Bool.or_eq_true]
  · simp only [Comparator.selects_lte, Bool.or_eq_true]
  · obtain ⟨o, rfl⟩ := Comparator.mem_lt_eq_gt.mp hop
    rw [Comparator.selects_ofOrdering, Row.order?, h] at hselects
    nomatch hselects
  · obtain ⟨o, ho⟩ := Binary64.exists_compare?_eq hy hx
    refine Comparator.existsUnique_selects (o := o) ?_
    rw [Row.order?, h, Option.bind_some, ho]
  · intro listArg columnArg comparand list column x hlist hcolumn hcomparand rows selected numeric all
      count
    have hall : all.eval scope snapshot = .ok (.number (countOf rows.length)) :=
      eval_countRows_eq_ok.mpr ⟨list, hlist, rfl⟩
    have hrows : selected .eq + selected .neq = rows.length := Comparator.count_eq_add_count_neq
    refine ⟨fun _ _ => eval_countItemsWhere hlist hcolumn hcomparand, hrows ▸ hall,
      Comparator.count_lt_add_count_eq_add_count_gt, ?_⟩
    intro hlength ltArg eqArg gtArg neqArg hlt heq hgt hneq
    exact ⟨(eval_eq_add_neq hlist hcolumn hcomparand heq hneq hlength).trans hall.symm,
      fun h => eval_lt_add_eq_add_gt hlist hcolumn hcomparand hlt heq hgt h hlength⟩

/-- A row with the number one, and a row without a number, of which eq and neq select one each. -/
theorem comparators_partition_rows_one :
    let rows : List Row := [.ofList [("k", Cell.number (.ofInt 1))], ∅]
    let scope := Scope.empty.bindList "items" rows []
    let count (op : String) := call .countItemsWhere
      [.name "items", .text "k", .name op, .number (.ofInt 1)]
    Comparator.Comparable "k" (.ofInt 1) rows ∧
      (binary .add (count "op_eq") (count "op_neq")).eval scope .empty =
        (call .countItems [.name "items"]).eval scope .empty ∧
      (binary .add (binary .add (count "LT") (count "op_eq")) (count "gt")).eval scope .empty =
        .ok (.number (countOf 1)) := by
  intro rows scope count
  have hrows : scope.rows "items" = rows := by
    rw [Scope.rows_bindList, if_pos rfl]
  have hnumber : (Expr.number (.ofInt 1)).HasNumber scope .empty (.ofInt 1) :=
    ⟨.number (.ofInt 1), by rw [eval], rfl⟩
  have hfirst : Row.number? (.ofList [("k", Cell.number (.ofInt 1))]) "k" = some (.ofInt 1) := by
    simp [Row.number?, Cell.coerce?]
  have hsecond : Row.number? ∅ "k" = none := by simp [Row.number?]
  have hone : Binary64.ofInt 1 ≠ .nan := by decide +kernel
  have hcomparable : Comparator.Comparable "k" (.ofInt 1) rows := by
    refine ⟨hone, ?_⟩
    simp only [rows, List.forall_mem_cons, List.not_mem_nil, false_imp_iff, implies_true, and_true,
      hfirst, hsecond, ne_eq, Option.some.injEq, hone, not_false_eq_true, reduceCtorEq]
  obtain ⟨_, _, hcounts⟩ := comparators_partition_rows scope .empty
  obtain ⟨_, _, _, hsums⟩ := hcounts (.name "items") (.text "k") (.number (.ofInt 1)) "items" "k"
    (.ofInt 1) namesList_bindList .quoted hnumber
  rw [hrows] at hsums
  obtain ⟨htwo, hthree⟩ := hsums (by decide) (.name "LT") (.name "op_eq") (.name "gt")
    (.name "op_neq") (.bare (by decide +kernel)) (.bare (by decide +kernel))
    (.bare (by decide +kernel)) (.bare (by decide +kernel))
  have hnumeric : rows.countP (fun row => (row.number? "k").isSome) = 1 := by
    simp only [rows, List.countP_cons, List.countP_nil, hfirst, hsecond]
    rfl
  rw [hnumeric] at hthree
  exact ⟨hcomparable, htwo, hthree hcomparable⟩

end Expr
end MetricFormula
