import MetricFormula.Formula.Evaluation
import MetricFormula.Proofs.Binary64.FlooredQuotient

/-! # Floor division in formulas

The quotient that is floored is the one that division gives, a double. So the result is the floor of
the exact quotient, but where the quotient is rounded up to an integer that it does not reach, the
result is this integer. For a division of integers below `2 ^ 53` there is no such case. -/

namespace MetricFormula
namespace Expr

variable {scope : Scope} {snapshot : Snapshot} {left right : Expr} {x y : Binary64}

/-- An operator is applied to the numbers of its operands. -/
theorem eval_binary {op : BinaryOp} (hl : left.eval scope snapshot = .ok (.number x))
    (hr : right.eval scope snapshot = .ok (.number y)) :
    (binary op left right).eval scope snapshot =
      ((op.apply x y).mapError .arithmetic).map .number := by
  simp only [eval, hl, hr, operandNumber, bind, Except.bind]
  cases op.apply x y <;> rfl

theorem eval_floorDiv (hl : left.eval scope snapshot = .ok (.number x))
    (hr : right.eval scope snapshot = .ok (.number y)) (hy : y.isZero = false) :
    (binary .floorDiv left right).eval scope snapshot = .ok (.number (x / y).floor) := by
  rw [eval_binary hl hr, BinaryOp.apply, quotient, hy]
  rfl

theorem eval_floorDiv_of_isZero (hl : left.eval scope snapshot = .ok (.number x))
    (hr : right.eval scope snapshot = .ok (.number y)) (hy : y.isZero) :
    (binary .floorDiv left right).eval scope snapshot = .error (.arithmetic .divisionByZero) := by
  rw [eval_binary hl hr, BinaryOp.apply, quotient, hy]
  rfl

/-- The double nearest to a tenth is a little more than a tenth, so ten of them do not fit into one.
But the quotient is rounded to ten. -/
theorem floorDiv_exceeds_floor :
    let x := Binary64.ofInt 1
    let y := Binary64.ofRat false (1 / 10)
    let q := x.toRat / y.toRat
    x.isFinite ∧ y.isFinite ∧ y.toRat ≠ 0 ∧ |q| < 2 ^ 53 ∧ q.floor = 9 ∧
      ∃ z, (binary .floorDiv (.number x) (.number y)).eval .empty .empty = .ok (.number z) ∧
        z.toRat = 10 := by
  intro x y q
  have hcomputed : x.isFinite ∧ y.isFinite ∧ y.toRat ≠ 0 ∧ 0 ≤ q ∧ q.floor = 9 ∧
      (x / y).floor.toRat = 10 := by decide +kernel
  obtain ⟨hx, hy, hne, hnonneg, hfloor, hvalue⟩ := hcomputed
  have hzero : y.isZero = false := by rwa [← Bool.not_eq_true, Binary64.isZero_iff hy]
  have hlt : q < (10 : Int) := Rat.floor_lt_iff.mp (by rw [hfloor]; norm_num)
  refine ⟨hx, hy, hne, ?_, hfloor, _, eval_floorDiv (by rw [eval]) (by rw [eval]) hzero, hvalue⟩
  rw [abs_of_nonneg hnonneg]
  exact hlt.trans (by norm_num)

/-- A floor division of finite numbers with an exact quotient below `2 ^ 53` floors the double
nearest to it. The result is the greatest integer not above the quotient, or the next integer if
that is the nearest double; then the quotient falls short of it by no more than rounding may add,
which a quotient of integers below `2 ^ 53` never does. A division by a zero of either sign is a
fault. -/
theorem floorDiv_floors_quotient (hl : left.eval scope snapshot = .ok (.number x))
    (hr : right.eval scope snapshot = .ok (.number y)) :
    let q := x.toRat / y.toRat
    let n := q.floor
    let divided := (binary .floorDiv left right).eval scope snapshot
    (x.isFinite → y.isFinite → y.toRat ≠ 0 → |q| < 2 ^ 53 →
      Binary64.IsNearest q (x / y) ∧
      ∃ z, divided = .ok (.number z) ∧ z.isFinite ∧ z.toRat = (x / y).toRat.floor ∧
        z.toRat = (if (x / y).toRat = (n + 1 : Int) then n + 1 else n : Int) ∧
        ((x / y).toRat = (n + 1 : Int) →
          n + 1 - q ≤ |q| / 2 ^ 53 ∨ n + 1 - q ≤ 1 / Magnitude.unitsPerOne / 2) ∧
        (x.isInteger → y.isInteger → |x.toRat| < 2 ^ 53 → z.toRat = n)) ∧
    (y.isZero → divided = .error (.arithmetic .divisionByZero)) := by
  intro q n divided
  refine ⟨fun hx hy hne hq => ?_, eval_floorDiv_of_isZero hl hr⟩
  have hzero : y.isZero = false := by rwa [← Bool.not_eq_true, Binary64.isZero_iff hy]
  have hnearest : Binary64.IsNearest q (x / y) := by
    rw [Binary64.div_eq hx hy hne]
    exact Binary64.isNearest_ofRat (Binary64.isFinite_ofRat_of_abs_lt _ 53 hq (by norm_num))
  obtain ⟨hfinite, hfloor⟩ := Binary64.toRat_floor hnearest.finite
  have hvalue := hfloor
  rw [hnearest.floor_toRat hq] at hvalue
  refine ⟨hnearest, (x / y).floor, eval_floorDiv hl hr hzero, hfinite, hfloor, hvalue,
    hnearest.succ_floor_sub_le hq, fun hxi hyi hlt => ?_⟩
  obtain ⟨_, ha⟩ := Binary64.toRat_of_isInteger hxi
  obtain ⟨_, hc⟩ := Binary64.toRat_of_isInteger hyi
  have hbound := Binary64.abs_toRat_lt hy
  have hquotient : q = x.toRat.num / y.toRat.num := by rw [← ha, ← hc]
  have hne : (x / y).toRat ≠ (n + 1 : Int) := by
    rw [hquotient] at hnearest
    have h := hnearest.ne_succ_floor_of_quotient (ha ▸ hlt) (hc ▸ hbound)
    rwa [← hquotient] at h
  rw [hvalue, if_neg hne]

/-- A negative integer is divided, a quotient is rounded up, and a negative zero divides. -/
theorem floorDiv_floors_quotient_negative :
    let divided (x y : Binary64) := (binary .floorDiv (.number x) (.number y)).eval .empty .empty
    (∃ z, divided (.ofInt (-7)) (.ofInt 2) = .ok (.number z) ∧ z.toRat = (-4 : Int)) ∧
    (∃ z, divided (.ofInt 1) (.ofRat false (1 / 10)) = .ok (.number z) ∧ z.toRat = (10 : Int)) ∧
    divided (.ofInt 1) (.finite true .zero) = .error (.arithmetic .divisionByZero) := by
  intro divided
  have hnumber (x : Binary64) : (Expr.number x).eval .empty .empty = .ok (.number x) := by rw [eval]
  have hdivide (x y : Binary64) := floorDiv_floors_quotient (hnumber x) (hnumber y)
  refine ⟨?_, ?_, (hdivide _ _).2 rfl⟩
  · have hseven : (Binary64.ofInt (-7)).isFinite ∧ (Binary64.ofInt (-7)).isInteger ∧
        (Binary64.ofInt (-7)).toRat = -7 := by decide +kernel
    have htwo : (Binary64.ofInt 2).isFinite ∧ (Binary64.ofInt 2).isInteger ∧
        (Binary64.ofInt 2).toRat = 2 := by decide +kernel
    have hfloor : Rat.floor (-7 / 2) = -4 := by decide +kernel
    obtain ⟨hx, hxi, hxv⟩ := hseven
    obtain ⟨hy, hyi, hyv⟩ := htwo
    have hquotient := (hdivide (.ofInt (-7)) (.ofInt 2)).1 hx hy
    rw [hxv, hyv, hfloor] at hquotient
    obtain ⟨_, z, hz, _, _, _, _, hinteger⟩ := hquotient (by norm_num) (by norm_num [abs_lt])
    exact ⟨z, hz, hinteger hxi hyi (by norm_num [abs_lt])⟩
  · let x := Binary64.ofInt 1
    let y := Binary64.ofRat false (1 / 10)
    have hcomputed : x.isFinite ∧ y.isFinite ∧ y.toRat ≠ 0 ∧
        (-2 ^ 53 < x.toRat / y.toRat ∧ x.toRat / y.toRat < 2 ^ 53) ∧
        (x.toRat / y.toRat).floor = 9 ∧ (x / y).toRat = (9 + 1 : Int) := by decide +kernel
    obtain ⟨hx, hy, hne, hbounds, hfloor, hnext⟩ := hcomputed
    obtain ⟨_, z, hz, _, _, hvalue, _⟩ := (hdivide x y).1 hx hy hne (abs_lt.mpr hbounds)
    rw [hfloor, if_pos hnext] at hvalue
    exact ⟨z, hz, hvalue⟩

end Expr
end MetricFormula
