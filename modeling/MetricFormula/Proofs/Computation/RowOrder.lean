import MetricFormula.Proofs.Computation.Inlining
import MetricFormula.Proofs.Expression.RowOrder

/-! # Entities with rows in another order

Lists whose rows are in another order register the same names, and all that formulas without sums and
averages of columns find out about them is the same. So a pass over the fields of an entity goes the
same way, outcome by outcome. -/

namespace MetricFormula

variable {policy : Policy} {snapshot : Snapshot} {v w : StoredValues} {s s' : Scope}
  {matters : String → Prop} {fields : List Field}

/-- The formula of the field is read as the expression. -/
def Field.HasExpr (policy : Policy) (field : Field) (e : Expr) : Prop :=
  ∃ text, field.expression? = some text ∧ Expr.ofFormula policy text = .ok e

/-- The same numbers are stored, and lists with the same rows in another order. -/
structure StoredValues.Reordered (matters : String → Prop) (v w : StoredValues) : Prop where
  scalars : ∀ key, v.scalar? key = w.scalar? key
  rows : ∀ key, RowsReordered matters (v.rows key) (w.rows key)

/-! ## Visiting one field -/

theorem Scope.Reordered.record (h : s.Reordered matters s') (o : Outcome) :
    (s.record o).Reordered matters (s'.record o) := by
  unfold Scope.record
  cases o.result with
  | ok x => exact h.bindNumber o.key (some x)
  | error _ => exact h

theorem Scope.Reordered.declare (h : s.Reordered matters s') (hvalues : v.Reordered matters w)
    (field : Field) : (s.declare v field).Reordered matters (s'.declare w field) := by
  unfold Scope.declare
  cases field.kind with
  | number =>
    rw [← hvalues.scalars]
    exact h.bindNumber field.key _
  | items columns => exact h.bindList field.key (hvalues.rows field.key) columns
  | text | date | boolean | formula _ => exact h

/-- A formula without sums and averages of columns has the same outcome. -/
theorem Scope.Reordered.calculate_eq (h : s.Reordered matters s') {text : String}
    (hadds : ∀ e, Expr.ofFormula policy text = .ok e → ¬e.AddsRows)
    (hmatters : ∀ e, Expr.ofFormula policy text = .ok e →
      ∀ column, e.TakesExtreme column → matters column) :
    Context.calculate ⟨s, snapshot, policy⟩ text =
      Context.calculate ⟨s', snapshot, policy⟩ text := by
  rw [Context.calculate_eq_bind, Context.calculate_eq_bind]
  refine bind_congr_ok fun e he => ?_
  rw [Expr.result, Expr.result, Expr.eval_eq_of_reordered h (hadds e he) (hmatters e he)]

/-! ## Visiting all fields -/

/-- A pass has the same outcomes, and leaves scopes that are alike again. -/
theorem outcomesIn_of_reordered (hvalues : v.Reordered matters w) (h : s.Reordered matters s')
    (hadds : ∀ field ∈ fields, ∀ e, field.HasExpr policy e → ¬e.AddsRows)
    (hmatters : ∀ field ∈ fields, ∀ e, field.HasExpr policy e →
      ∀ column, e.TakesExtreme column → matters column) :
    outcomesIn policy snapshot v s fields = outcomesIn policy snapshot w s' fields ∧
      (scopeAfter policy snapshot v s fields).Reordered matters
        (scopeAfter policy snapshot w s' fields) := by
  induction fields generalizing s s' with
  | nil => exact ⟨rfl, h⟩
  | cons field fields ih =>
    obtain ⟨haddsField, hadds⟩ := List.forall_mem_cons.mp hadds
    obtain ⟨hmattersField, hmatters⟩ := List.forall_mem_cons.mp hmatters
    rw [outcomesIn, outcomesIn, scopeAfter, scopeAfter]
    cases htext : field.expression? with
    | none => exact ih (h.declare hvalues field) hadds hmatters
    | some text =>
      have hcalculate : Context.calculate ⟨s, snapshot, policy⟩ text =
          Context.calculate ⟨s', snapshot, policy⟩ text :=
        h.calculate_eq (fun e he => haddsField e ⟨text, htext, he⟩)
          fun e he => hmattersField e ⟨text, htext, he⟩
      dsimp only
      rw [hcalculate]
      obtain ⟨houtcomes, hscope⟩ := ih (h.record _) hadds hmatters
      exact ⟨congrArg _ houtcomes, hscope⟩

/-- The order of the rows of lists is of no account to an entity whose formulas take no sums and
averages of columns, as long as no column of which they take an extreme mixes both zeros: all formulas
have the same outcome, and behind each field the same is bound. -/
theorem row_order_immaterial (policy : Policy) (snapshot : Snapshot) {v w : StoredValues}
    {fields : List Field} (hscalars : ∀ key, v.scalar? key = w.scalar? key)
    (hrows : ∀ key, (v.rows key).Perm (w.rows key))
    (hadds : ∀ field ∈ fields, ∀ e, field.HasExpr policy e → ¬e.AddsRows)
    (hzeros : ∀ field ∈ fields, ∀ e, field.HasExpr policy e → ∀ column, e.TakesExtreme column →
      ∀ key, v.rows key = w.rows key ∨
        ¬Binary64.MixesZeros ((v.rows key).filterMap (·.number? column))) :
    outcomes policy snapshot v fields = outcomes policy snapshot w fields ∧
      ∀ before, before <+: fields → (scopeAfter policy snapshot v .empty before).bindings =
        (scopeAfter policy snapshot w .empty before).bindings := by
  let matters (column : String) : Prop :=
    ∃ field ∈ fields, ∃ e, field.HasExpr policy e ∧ e.TakesExtreme column
  have hvalues : v.Reordered matters w := by
    refine ⟨hscalars, fun key => ⟨hrows key, ?_⟩⟩
    rintro column ⟨field, hfield, e, he, hcolumn⟩
    exact hzeros field hfield e he column hcolumn key
  have hmatters : ∀ field ∈ fields, ∀ e, field.HasExpr policy e →
      ∀ column, e.TakesExtreme column → matters column :=
    fun field hfield e he column hcolumn => ⟨field, hfield, e, he, hcolumn⟩
  have hpass : ∀ before, before <+: fields →
      outcomesIn policy snapshot v .empty before = outcomesIn policy snapshot w .empty before ∧
        (scopeAfter policy snapshot v .empty before).Reordered matters
          (scopeAfter policy snapshot w .empty before) := fun before hbefore =>
    outcomesIn_of_reordered hvalues (.refl .empty)
      (fun field hfield => hadds field (hbefore.subset hfield))
      fun field hfield => hmatters field (hbefore.subset hfield)
  exact ⟨(hpass fields List.prefix_rfl).1, fun before hbefore => (hpass before hbefore).2.bindings_eq⟩

/-- Two rows in both orders, for the least number of a column. -/
theorem row_order_immaterial_swapped :
    let values (rows : List Row) : StoredValues :=
      { scalars := ∅, lists := (∅ : Std.ExtTreeMap String (List Row)).insert "a" rows }
    let row (n : Int) : Row := (∅ : Row).insert "b" (.number (.ofInt n))
    let fields : List Field := [⟨"a", .items []⟩, ⟨"m", .formula "MIN_ITEMS(a, b)"⟩]
    outcomes {} .empty (values [row 2, row 3]) fields =
        outcomes {} .empty (values [row 3, row 2]) fields ∧
      ∀ before, before <+: fields →
        (scopeAfter {} .empty (values [row 2, row 3]) .empty before).bindings =
          (scopeAfter {} .empty (values [row 3, row 2]) .empty before).bindings := by
  intro values row fields
  have he : Expr.ofFormula {} "MIN_ITEMS(a, b)" =
      .ok (.call (.reduceItems .least) [.name "a", .name "b"]) := by
    have hlexes : Lexes "MIN_ITEMS(a, b)".toList
        [.name "MIN_ITEMS", .leftParen, .name "a", .comma, .name "b", .rightParen] :=
      lexes_iff_scan_eq.mpr (by decide +kernel)
    have hname (t : String) : Derives true .expr [.name t] (.name t) :=
      .expr_of_factor (.ofPower (.ofPrimary .name))
    have harguments : DerivesArguments true [.name "a", .comma, .name "b"] [.name "a", .name "b"] :=
      .list (.comma (hname "a") (.last (hname "b")))
    have hlookup : Function.lookup? true "MIN_ITEMS" = some (.reduceItems .least) := by
      decide +kernel
    exact Expr.ofFormula_of_derives (by decide +kernel) (by decide +kernel) (by decide) (by decide)
      hlexes (.expr_of_factor (.ofPower (.ofPrimary (.call hlookup harguments rfl))))
  have hexpr : ∀ field ∈ fields, ∀ e, field.HasExpr {} e →
      e = .call (.reduceItems .least) [.name "a", .name "b"] := by
    rintro field hfield e ⟨text, htext, hread⟩
    rcases List.mem_pair.mp hfield with rfl | rfl
    · cases htext
    · cases htext
      exact (Except.ok.inj (he.symm.trans hread)).symm
  have hscalars (rows : List Row) (key : String) : (values rows).scalar? key = none := by
    simp [values, StoredValues.scalar?]
  have hrows (rows : List Row) (key : String) :
      (values rows).rows key = if "a" = key then rows else [] := by
    by_cases hkey : "a" = key <;> simp [values, StoredValues.rows, hkey]
  refine row_order_immaterial {} .empty (fun key => by rw [hscalars, hscalars]) (fun key => ?_)
    (fun field hfield e hread => ?_) fun field hfield e hread column _ key => ?_
  · rw [hrows, hrows]
    split
    · exact .swap ..
    · exact .refl []
  · obtain rfl := hexpr field hfield e hread
    rintro ⟨f, args, r, hwithin, hr, hsum⟩
    cases hwithin with
    | refl => rcases hsum with rfl | rfl <;> cases hr
    | argument hx hin => rcases List.mem_pair.mp hx with rfl | rfl <;> cases hin
  · right
    rw [hrows]
    rintro ⟨hzero, -⟩
    obtain ⟨r, hr, hnumber⟩ := List.mem_filterMap.mp hzero
    obtain ⟨n, hn, rfl⟩ : ∃ n, Binary64.finite false .zero ≠ .ofInt n ∧ r = row n := by
      split at hr
      · rcases List.mem_pair.mp hr with rfl | rfl
        exacts [⟨2, by decide +kernel, rfl⟩, ⟨3, by decide +kernel, rfl⟩]
      · cases hr
    by_cases hcolumn : "b" = column
    · simp [row, Row.number?, Cell.coerce?, hcolumn, hn.symm] at hnumber
    · simp [row, Row.number?, hcolumn] at hnumber

end MetricFormula
