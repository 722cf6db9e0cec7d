import MetricFormula.Proofs.Computation.Registration
import MetricFormula.Proofs.Expression.Requirement
import MetricFormula.Proofs.Faults.Calculation
import MetricFormula.Proofs.Reading.Language

/-! # Faults are not masked

No function and no operator makes up for what goes wrong in its arguments: a formula in which
anything goes wrong, or that depends on a name that is not bound yet, has no number. -/

namespace MetricFormula

/-! ## Faults within an expression -/

/-- Something goes wrong at the expression itself: a division by zero, whatever is divided, a power
that is refused, or a value of the wrong kind. -/
inductive Expr.Faulty (scope : Scope) (snapshot : Snapshot) : Expr → Prop
  | divisionByZero : op = .div ∨ op = .floorDiv → r.eval scope snapshot = .ok (.number y) →
      y.isZero → Faulty scope snapshot (.binary op l r)
  | refusedPower : l.eval scope snapshot = .ok (.number x) →
      r.eval scope snapshot = .ok (.number y) → power x y = .error cause →
      Faulty scope snapshot (.binary .pow l r)
  | mistyped : e.eval scope snapshot = .error (.mismatch cause) → Faulty scope snapshot e

namespace Expr

variable {scope : Scope} {snapshot : Snapshot} {x e : Expr}

/-- An operation with a value was applied to the numbers of both its operands. -/
theorem exists_apply_of_eval_binary {op : BinaryOp} {l r : Expr} {v : Value}
    (h : (binary op l r).eval scope snapshot = .ok v) :
    ∃ x y z, l.eval scope snapshot = .ok (.number x) ∧ r.eval scope snapshot = .ok (.number y) ∧
      op.apply x y = .ok z := by
  simp only [eval, bind_eq_ok] at h
  obtain ⟨lv, hl, x, hx, rv, hr, y, hy, z, hz, _⟩ := h
  cases lv <;> cases hx
  cases rv <;> cases hy
  cases happly : op.apply x y with
  | ok z => exact ⟨x, y, z, hl, hr, happly⟩
  | error cause =>
    rw [happly] at hz
    cases hz

theorem Faulty.eval_ne_ok (h : x.Faulty scope snapshot) (v : Value) :
    x.eval scope snapshot ≠ .ok v := by
  intro hv
  cases h with
  | divisionByZero hop hr hzero =>
    obtain ⟨_, _, _, _, hr', happly⟩ := exists_apply_of_eval_binary hv
    rw [hr] at hr'
    cases hr'
    rcases hop with rfl | rfl
    · rw [BinaryOp.apply, quotient, if_pos hzero] at happly
      nomatch happly
    · rw [BinaryOp.apply, quotient, if_pos hzero] at happly
      nomatch happly
  | refusedPower hl hr hpower =>
    obtain ⟨_, _, _, hl', hr', happly⟩ := exists_apply_of_eval_binary hv
    rw [hl] at hl'
    rw [hr] at hr'
    cases hl'
    cases hr'
    rw [BinaryOp.apply, hpower] at happly
    nomatch happly
  | mistyped h =>
    rw [h] at hv
    nomatch hv

/-- A name either denotes something or is not bound; nothing else can go wrong with it. -/
theorem Faulty.bareName?_eq_none (h : x.Faulty scope snapshot) : x.bareName? = none := by
  cases h with
  | divisionByZero | refusedPower => rfl
  | mistyped h =>
    cases x with
    | name s =>
      rw [eval, Scope.value] at h
      split at h <;> cases h
    | number | text | call | signed | binary => rfl

theorem Required.lookup?_ne_none {name : String} {v : Value} (h : (Expr.name name).Required e)
    (hv : e.eval scope snapshot = .ok v) : scope.lookup? name ≠ none := by
  intro hnone
  obtain ⟨w, hw⟩ := h.exists_eval hv
  rw [eval, Scope.value, hnone] at hw
  cases hw

/-- An expression that depends on a name without a meaning, in which anything goes wrong, or whose
value is no number, fails as a formula. -/
theorem exists_result_eq_error {ctx : Context}
    (h : (∃ name, (Expr.name name).Required e ∧ ctx.scope.lookup? name = none) ∨
      (∃ x : Expr, x.Within e ∧ x.Faulty ctx.scope ctx.snapshot) ∨
      ∃ v, e.eval ctx.scope ctx.snapshot = .ok v ∧ v.kind ≠ .number) :
    ∃ fault, e.result ctx = .error fault := by
  cases he : e.eval ctx.scope ctx.snapshot with
  | error fault => exact ⟨fault, by rw [result, he]; rfl⟩
  | ok v =>
    rcases h with ⟨name, hname, hnone⟩ | ⟨x, hwithin, hfaulty⟩ | ⟨w, hw, hkind⟩
    · exact absurd hnone (hname.lookup?_ne_none he)
    · obtain ⟨w, hw⟩ := (Required.of_within hwithin hfaulty.bareName?_eq_none).exists_eval he
      exact absurd hw (hfaulty.eval_ne_ok w)
    · obtain rfl := Except.ok.inj (he.symm.trans hw)
      cases v with
      | number x => exact absurd rfl hkind
      | text | list | column => exact ⟨_, by rw [result, he]; rfl⟩

end Expr

/-! ## Formulas of an entity -/

/-- An expression has a value only if all have that it requires, so a formula has no number if it
depends on a name that no field before it has bound, if anything goes wrong anywhere in it, or if
its value is no number. -/
theorem faults_not_masked :
    (∀ scope snapshot (e x : Expr) v, e.eval scope snapshot = .ok v → x.Required e →
      ∃ w, x.eval scope snapshot = .ok w) ∧
    ∀ policy snapshot values fs gs key text (e : Expr),
      Expr.ofText policy (trimmed text) = .ok e →
      ((∃ name, (Expr.name name).Required e ∧ name ∉ boundNames policy snapshot values fs) ∨
        (∃ x : Expr, x.Within e ∧
          x.Faulty (scopeAfter policy snapshot values .empty fs) snapshot) ∨
        ∃ v, e.eval (scopeAfter policy snapshot values .empty fs) snapshot = .ok v ∧
          v.kind ≠ .number) →
      (results policy snapshot values
          (fs ++ ⟨key, .formula text⟩ :: gs))[(formulaKeys fs).length]? =
        some ⟨key, none⟩ := by
  refine ⟨fun _ _ _ _ _ he hx => hx.exists_eval he, ?_⟩
  intro policy snapshot values fs gs key text e he h
  let ctx : Context := ⟨scopeAfter policy snapshot values .empty fs, snapshot, policy⟩
  simp only [← lookup?_scopeAfter_eq_none] at h
  obtain ⟨fault, hresult⟩ : ∃ fault, e.result ctx = .error fault := Expr.exists_result_eq_error h
  obtain ⟨fault, hfault⟩ := ctx.exists_calculate_eq_error he hresult
  rw [getElem?_results, hfault]
  rfl

/-- Counting does not look at the values of its arguments, and yet a name from a later field leaves
it without a number. -/
theorem faults_not_masked_count :
    (results {} .empty .empty [⟨"n", .formula "COUNT('a', later)"⟩, ⟨"later", .number⟩])[0]? =
      some ⟨"n", none⟩ := by
  have htrim : trimmed "COUNT('a', later)" = "COUNT('a', later)" := by decide +kernel
  have he : Expr.ofText {} (trimmed "COUNT('a', later)") =
      .ok (.call .count [.text "a", .name "later"]) := by
    have hlexes : Lexes "COUNT('a', later)".toList
        [.name "COUNT", .leftParen, .text "a", .comma, .name "later", .rightParen] :=
      lexes_iff_scan_eq.mpr (by decide +kernel)
    rw [htrim]
    refine Expr.ofText_of_derives (by decide) (by decide) hlexes ?_
    have ha : Derives true .expr [.text "a"] (.text "a") :=
      .expr_of_factor (.ofPower (.ofPrimary .text))
    have hlater : Derives true .expr [.name "later"] (.name "later") :=
      .expr_of_factor (.ofPower (.ofPrimary .name))
    exact .expr_of_factor (.ofPower (.ofPrimary
      (.call (by decide +kernel) (.list (.comma ha (.last hlater))) rfl)))
  have hrequired : (Expr.name "later").Required (.call .count [.text "a", .name "later"]) :=
    .argument (i := 1) rfl nofun .refl
  have hbound : "later" ∉ boundNames {} .empty .empty [] := by
    simp [boundNames, registrations, History.names]
  exact faults_not_masked.2 {} .empty .empty [] [⟨"later", .number⟩] "n" _ _ he
    (.inl ⟨"later", hrequired, hbound⟩)

end MetricFormula
