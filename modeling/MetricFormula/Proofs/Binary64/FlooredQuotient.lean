import Mathlib.Algebra.Order.Archimedean.Basic
import MetricFormula.Proofs.Binary64.IntegerRounding

/-! # Floors of rounded quotients

A quotient is rounded before it is floored. A nearest double stays between the integers on both
sides of a number, so its floor is that of the number unless it is the integer above
(`Binary64.IsNearest.floor_toRat`). It can be that only if the number is as near to this integer as
rounding may move it (`Binary64.IsNearest.abs_sub_le`). A quotient of integers below `2 ^ 53` is
never that near to an integer that it does not reach
(`Binary64.IsNearest.eq_intCast_of_quotient`). -/

namespace MetricFormula
namespace Binary64

variable {x y : Binary64} {q : Rat} {a c k : Int}

/-! ## What rounding loses -/

/-- No more than half a step is lost at a scale where 53 bits are enough for the number. -/
theorem IsNearest.abs_sub_le_half_step (h : IsNearest q y) (scale : Nat) (hscale : scale ≤ 2044)
    (hq : |q| * Magnitude.unitsPerOne ≤ 2 ^ 53 * 2 ^ scale) :
    |q - y.toRat| ≤ 2 ^ scale / Magnitude.unitsPerOne / 2 := by
  have hone := Magnitude.unitsPerOne_cast_pos
  obtain ⟨step, hstep⟩ : ∃ step : Rat, step = 2 ^ scale / Magnitude.unitsPerOne := ⟨_, rfl⟩
  have hpos : 0 < step := hstep ▸ div_pos (pow_pos two_pos scale) hone
  have hcount : |q / step| ≤ 2 ^ 53 := by
    rw [abs_div, abs_of_pos hpos, div_le_iff₀ hpos, hstep, mul_div_assoc', le_div_iff₀ hone]
    exact hq
  have hnearest := isNearestInt_roundHalfEven (q / step)
  -- The nearest whole number of steps is a double.
  obtain ⟨z, hz, hvalue⟩ := IsDouble.scaled (natAbs_le_of_close hcount hnearest.close) hscale
  have hsteps : z.toRat = roundHalfEven (q / step) * step := by
    rw [hvalue, hstep]
    push_cast
    ring
  calc |q - y.toRat| ≤ |q - z.toRat| := h.least z hz
    _ = |q / step - roundHalfEven (q / step)| * step := by
      rw [← abs_of_pos hpos, ← abs_mul, abs_of_pos hpos, sub_mul, div_mul_cancel₀ _ hpos.ne',
        hsteps]
    _ ≤ 1 / 2 * step := mul_le_mul_of_nonneg_right hnearest.close hpos.le
    _ = 2 ^ scale / Magnitude.unitsPerOne / 2 := by
      rw [hstep]
      ring

/-- The scale at which a number has 53 bits, unless it is too small for that many. -/
theorem exists_scale (hlower : 2 ^ 52 ≤ |q| * Magnitude.unitsPerOne) (bits : Nat)
    (hupper : |q| < 2 ^ bits) (hbits : bits ≤ 1022) :
    ∃ scale ≤ 2044, 2 ^ 52 * 2 ^ scale ≤ |q| * Magnitude.unitsPerOne ∧
      |q| * Magnitude.unitsPerOne ≤ 2 ^ 53 * 2 ^ scale := by
  obtain ⟨j, hj, hunits⟩ := Magnitude.exists_unitsPerOne_eq
  have hone := Magnitude.unitsPerOne_cast_pos
  have hnormal : 1 ≤ |q| * Magnitude.unitsPerOne / 2 ^ 52 :=
    (le_div_iff₀ (by norm_num)).mpr ((one_mul _).trans_le hlower)
  obtain ⟨scale, hle, hlt⟩ := exists_nat_pow_near hnormal one_lt_two
  rw [le_div_iff₀ (by norm_num)] at hle
  rw [div_lt_iff₀ (by norm_num), pow_succ] at hlt
  have hpow : (2 : Rat) ^ (scale + 52) < 2 ^ (bits + j) := by
    calc (2 : Rat) ^ (scale + 52) = 2 ^ scale * 2 ^ 52 := pow_add _ _ _
      _ ≤ |q| * Magnitude.unitsPerOne := hle
      _ < 2 ^ bits * Magnitude.unitsPerOne := mul_lt_mul_of_pos_right hupper hone
      _ = 2 ^ (bits + j) := by rw [hunits, pow_add, Nat.cast_pow, Nat.cast_ofNat]
  have hexponent := (pow_lt_pow_iff_right₀ one_lt_two).mp hpow
  exact ⟨scale, by omega, by linarith, by linarith⟩

/-- Rounding moves a number by at most its `2 ^ 53`rd part, or by half the least positive double. -/
theorem IsNearest.abs_sub_le (h : IsNearest q y) (bits : Nat) (hq : |q| < 2 ^ bits)
    (hbits : bits ≤ 1022) :
    |q - y.toRat| ≤ |q| / 2 ^ 53 ∨ |q - y.toRat| ≤ 1 / Magnitude.unitsPerOne / 2 := by
  rcases le_total (2 ^ 52) (|q| * Magnitude.unitsPerOne) with hlarge | hsmall
  · obtain ⟨scale, hscale, hlower, hupper⟩ := exists_scale hlarge bits hq hbits
    left
    calc |q - y.toRat| ≤ 2 ^ scale / Magnitude.unitsPerOne / 2 :=
          h.abs_sub_le_half_step scale hscale hupper
      _ ≤ |q| / 2 ^ 53 := by
        rw [div_div, div_le_div_iff₀ (mul_pos Magnitude.unitsPerOne_cast_pos two_pos) (by norm_num)]
        linarith
  · right
    have hle := h.abs_sub_le_half_step 0 (Nat.zero_le _) (hsmall.trans (by norm_num))
    rwa [pow_zero] at hle

/-! ## Flooring doubles -/

theorem natAbs_floor_le (hq : |q| ≤ 2 ^ 53) : q.floor.natAbs ≤ 2 ^ 53 := by
  obtain ⟨hlower, hupper⟩ := abs_le.mp hq
  have hfloor : -2 ^ 53 ≤ q.floor := Rat.le_floor_iff.mpr (by push_cast; exact hlower)
  have hfloor' : (q.floor : Rat) ≤ (2 ^ 53 : Int) :=
    (Rat.floor_le q).trans (by push_cast; exact hupper)
  rw [Int.cast_le] at hfloor'
  omega

theorem toRat_floor (hx : x.isFinite) : x.floor.isFinite ∧ x.floor.toRat = x.toRat.floor := by
  have hinteger : IsDouble x.toRat.floor := isDouble_integral hx Rat.floor_intCast natAbs_floor_le
  rw [floor, integral_eq _ hx]
  exact ⟨isFinite_ofRat_of_isDouble _ hinteger, toRat_ofRat _ hinteger⟩

/-! ## The floor of a nearest double -/

/-- Both integers next to a number below `2 ^ 53` are doubles, so a nearest double lies between. -/
theorem IsNearest.between_floor (h : IsNearest q y) (hq : |q| < 2 ^ 53) :
    (q.floor : Rat) ≤ y.toRat ∧ y.toRat ≤ (q.floor + 1 : Int) := by
  have hfloor := natAbs_floor_le hq.le
  have hbelow : q.floor < 2 ^ 53 := Rat.floor_lt_iff.mpr (by push_cast; exact (abs_lt.mp hq).2)
  have hnext : q ≤ (q.floor + 1 : Int) := (Rat.floor_lt_iff.mp (lt_add_one q.floor)).le
  exact ⟨h.ge_of_ge (.intCast hfloor) (Rat.floor_le q), h.le_of_le (.intCast (by omega)) hnext⟩

theorem IsNearest.floor_toRat (h : IsNearest q y) (hq : |q| < 2 ^ 53) :
    y.toRat.floor = if y.toRat = (q.floor + 1 : Int) then q.floor + 1 else q.floor := by
  obtain ⟨hlower, hupper⟩ := h.between_floor hq
  split
  · rename_i heq
    rw [heq, Rat.floor_intCast]
  · rename_i hne
    refine le_antisymm ?_ (Rat.le_floor_iff.mpr hlower)
    exact Int.lt_add_one_iff.mp (Rat.floor_lt_iff.mpr (lt_of_le_of_ne hupper hne))

/-- A number that is rounded to the integer above was no further from it than rounding moves. -/
theorem IsNearest.succ_floor_sub_le (h : IsNearest q y) (hq : |q| < 2 ^ 53)
    (hnext : y.toRat = (q.floor + 1 : Int)) :
    q.floor + 1 - q ≤ |q| / 2 ^ 53 ∨ q.floor + 1 - q ≤ 1 / Magnitude.unitsPerOne / 2 := by
  have habove : q ≤ q.floor + 1 := by
    have hle := (Rat.floor_lt_iff.mp (lt_add_one q.floor)).le
    rwa [Int.cast_add, Int.cast_one] at hle
  have hdist : |q - y.toRat| = q.floor + 1 - q := by
    rw [hnext, abs_sub_comm, Int.cast_add, Int.cast_one, abs_of_nonneg (sub_nonneg.mpr habove)]
  rw [← hdist]
  exact h.abs_sub_le 53 hq (by norm_num)

/-! ## Quotients of integers -/

theorem abs_toRat_lt (hx : x.isFinite) : |x.toRat| < Magnitude.unitsPerOne := by
  obtain ⟨s, m, rfl⟩ := exists_finite_of_isFinite hx
  obtain ⟨j, hj, hunits⟩ := Magnitude.exists_unitsPerOne_eq
  rw [abs_toRat_finite, m.toRat_eq_div, div_lt_iff₀ Magnitude.unitsPerOne_cast_pos, hunits]
  have hlt : m.units < 2 ^ j * 2 ^ j := by
    rw [← Nat.pow_add]
    refine m.units_lt.trans_le (Nat.pow_le_pow_right two_pos ?_)
    have hscale := m.scale_le
    omega
  exact_mod_cast hlt

/-- A quotient of integers is rounded to an integer only if it is that integer. -/
theorem IsNearest.eq_intCast_of_quotient (h : IsNearest (a / c) y) (ha : |(a : Rat)| < 2 ^ 53)
    (hc : |(c : Rat)| < Magnitude.unitsPerOne) (hk : y.toRat = k) : (a / c : Rat) = k := by
  rcases eq_or_ne c 0 with rfl | hne
  · have hzero : (a : Rat) / (0 : Int) = 0 := by rw [Int.cast_zero, div_zero]
    rw [hzero] at h ⊢
    rw [← hk, h.toRat_eq ⟨zero, rfl, Magnitude.toRat_zero⟩]
  have hcast : (c : Rat) ≠ 0 := Int.cast_ne_zero.mpr hne
  have hpos : 0 < |(c : Rat)| := abs_pos.mpr hcast
  have hquotient : |(a / c : Rat)| ≤ |(a : Rat)| := by
    rw [abs_div]
    exact div_le_self (abs_nonneg _) (by exact_mod_cast Int.one_le_abs hne)
  have hrest : |((a - k * c : Int) : Rat)| = |(a / c : Rat) - y.toRat| * |(c : Rat)| := by
    rw [← abs_mul, sub_mul, div_mul_cancel₀ _ hcast, hk]
    push_cast
    rfl
  -- What division leaves over is an integer, and less than one.
  have hlt : |((a - k * c : Int) : Rat)| < 1 := by
    rw [hrest]
    rcases h.abs_sub_le 53 (hquotient.trans_lt ha) (by norm_num) with hle | hle
    · calc |(a / c : Rat) - y.toRat| * |(c : Rat)| ≤ |(a / c : Rat)| / 2 ^ 53 * |(c : Rat)| :=
            mul_le_mul_of_nonneg_right hle hpos.le
        _ = |(a : Rat)| / 2 ^ 53 := by
          rw [abs_div]
          field_simp
        _ < 1 := (div_lt_one (by norm_num)).mpr ha
    · have hone := Magnitude.unitsPerOne_cast_pos
      calc |(a / c : Rat) - y.toRat| * |(c : Rat)| ≤ 1 / Magnitude.unitsPerOne / 2 * |(c : Rat)| :=
            mul_le_mul_of_nonneg_right hle hpos.le
        _ = |(c : Rat)| / Magnitude.unitsPerOne / 2 := by ring
        _ < 1 := by linarith [(div_lt_one hone).mpr hc]
  have hexact : a = k * c := by
    rw [← Int.cast_abs] at hlt
    have : |a - k * c| < 1 := by exact_mod_cast hlt
    rwa [Int.abs_lt_one_iff, sub_eq_zero] at this
  rw [hexact, Int.cast_mul, mul_div_cancel_right₀ _ hcast]

theorem IsNearest.ne_succ_floor_of_quotient (h : IsNearest (a / c) y) (ha : |(a : Rat)| < 2 ^ 53)
    (hc : |(c : Rat)| < Magnitude.unitsPerOne) : y.toRat ≠ (Rat.floor (a / c) + 1 : Int) := by
  intro hnext
  have hlt : (a / c : Rat) < (Rat.floor (a / c) + 1 : Int) := Rat.floor_lt_iff.mp (lt_add_one _)
  exact hlt.ne (h.eq_intCast_of_quotient ha hc hnext)

end Binary64
end MetricFormula
