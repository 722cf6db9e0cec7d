import MetricFormula.Proofs.Computation.Registration
import MetricFormula.Proofs.Faults.Calculation
import MetricFormula.Proofs.Outcome

/-! # Finite numbers only

Under a policy that asks for finite results every formula has a finite number or none, whatever
infinities are stored or come up on the way. So what formulas bring into scope is finite too. -/

namespace MetricFormula

variable {policy : Policy} {snapshot : Snapshot} {values : StoredValues} {ctx : Context}
  {x : Binary64}

theorem Expr.isFinite_of_result {e : Expr} (hfinite : ctx.policy.finiteOnly)
    (h : e.result ctx = .ok x) : x.isFinite := by
  obtain ⟨v, _, h⟩ := bind_eq_ok.mp h
  cases v with
  | number y =>
    dsimp only at h
    split at h
    · cases h
    · rename_i hy
      cases h
      simpa [hfinite] using hy
  | text | list | column => cases h

theorem Context.isFinite_of_calculate {text : String} (hfinite : ctx.policy.finiteOnly)
    (h : ctx.calculate text = .ok x) : x.isFinite := by
  rw [calculate_eq_bind] at h
  obtain ⟨e, _, h⟩ := bind_eq_ok.mp h
  exact Expr.isFinite_of_result hfinite h

theorem isFinite_of_mem_outcomesIn (hfinite : policy.finiteOnly) {fields : List Field}
    {scope : Scope} {o : Outcome} (ho : o ∈ outcomesIn policy snapshot values scope fields)
    (hx : o.result = .ok x) : x.isFinite := by
  induction fields generalizing scope with
  | nil => cases ho
  | cons field fields ih =>
    rw [outcomesIn_cons] at ho
    rcases List.mem_append.mp ho with ho | ho
    · obtain ⟨text, _, rfl⟩ := Option.map_eq_some_iff.mp (Option.mem_toList.mp ho)
      let ctx : Context := ⟨scope, snapshot, policy⟩
      exact ctx.isFinite_of_calculate hfinite hx
    · exact ih ho

/-- A formula leaves the scope as it is, or brings a finite number into it. -/
theorem scopeAfter_formula (hfinite : policy.finiteOnly) (fs : List Field) (key text : String) :
    let before := scopeAfter policy snapshot values .empty fs
    let behind := scopeAfter policy snapshot values .empty (fs ++ [⟨key, .formula text⟩])
    behind = before ∨ ∃ x, x.isFinite ∧ behind = before.bindNumber key (some x) := by
  intro before behind
  have hbehind : behind = scopeAfter policy snapshot values before [⟨key, .formula text⟩] :=
    scopeAfter_append fs _ .empty
  rw [hbehind, scopeAfter_cons, Field.registrations]
  dsimp only
  cases h : Context.calculate ⟨before, snapshot, policy⟩ text with
  | error fault => exact .inl rfl
  | ok x => exact .inr ⟨x, Context.isFinite_of_calculate hfinite h, rfl⟩

end MetricFormula
