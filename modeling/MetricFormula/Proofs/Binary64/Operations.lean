import MetricFormula.Binary64.DecimalRounding
import MetricFormula.Proofs.Binary64.Representable

/-! # Operations as exact values

Each operation on finite doubles as the rounding of an exact rational, whatever the signs of zeros.
A value that is a double is rounded to itself, and a whole number of units never rounds to the other
side of zero or onto it. -/

namespace MetricFormula
namespace Binary64

variable {x y z : Binary64} {q : Rat} {s t : Bool}

/-! ## Values and signs -/

theorem toRat_eq_zero_iff (s : Bool) (m : Magnitude) :
    toRat (.finite s m) = 0 ↔ m.significand = 0 := by
  rw [← abs_eq_zero, abs_toRat_finite]
  constructor
  · intro h
    by_contra hne
    rw [m.toRat_eq_div] at h
    exact (div_pos (Nat.cast_pos.mpr (m.units_pos hne)) Magnitude.unitsPerOne_cast_pos).ne' h
  · intro h
    rw [m.eq_zero h, Magnitude.toRat_zero]

theorem isZero_iff (hx : x.isFinite) : x.isZero ↔ x.toRat = 0 := by
  obtain ⟨s, m, rfl⟩ := exists_finite_of_isFinite hx
  rw [toRat_eq_zero_iff]
  exact decide_eq_true_iff

/-- The sign of a double that is not zero is that of its value. -/
theorem isNegative_iff (hx : x.isFinite) (hne : x.toRat ≠ 0) : x.isNegative ↔ x.toRat < 0 := by
  obtain ⟨s, m, rfl⟩ := exists_finite_of_isFinite hx
  rw [toRat_finite] at hne ⊢
  cases s with
  | false => simpa [isNegative] using m.toRat_nonneg
  | true =>
    have hpos : 0 < m.toRat := lt_of_le_of_ne m.toRat_nonneg fun h => hne (by simp [← h])
    simpa [isNegative] using hpos

theorem isNegative_ofRat (s : Bool) (q : Rat) :
    (ofRat s q).isNegative = if q = 0 then s else decide (q < 0) := by
  unfold ofRat
  cases Magnitude.round? (q.num.natAbs * Magnitude.unitsPerOne) q.den q.den_pos <;> rfl

/-- Only a zero takes its sign from elsewhere. -/
theorem ofRat_congr (h : q = 0 → s = t) : ofRat s q = ofRat t q := by
  unfold ofRat
  by_cases hzero : q = 0
  · rw [h hzero]
  · rw [if_neg hzero, if_neg hzero]

/-- Every finite double is a whole number of units. -/
theorem exists_units (hx : x.isFinite) : ∃ a : Int, x.toRat = a / Magnitude.unitsPerOne := by
  obtain ⟨s, m, rfl⟩ := exists_finite_of_isFinite hx
  rw [toRat_finite, m.toRat_eq_div]
  cases s with
  | false => exact ⟨m.units, rfl⟩
  | true => exact ⟨-m.units, by push_cast; rw [if_pos rfl, neg_div]⟩

/-! ## Rounding doubles -/

/-- A double is the rounding of its value, but for the sign of a zero. -/
theorem ofRat_toRat (hx : x.isFinite) (hsign : x.toRat = 0 → s = x.isNegative) :
    ofRat s x.toRat = x := by
  have hnegative : (if x.toRat = 0 then s else decide (x.toRat < 0)) = x.isNegative := by
    split
    · exact hsign ‹_›
    · rw [Bool.eq_iff_iff, decide_eq_true_iff, isNegative_iff hx ‹_›]
  obtain ⟨t, m, rfl⟩ := exists_finite_of_isFinite hx
  have hquotient := (abs_eq_natAbs_div _).symm.trans (abs_toRat_finite t m)
  unfold ofRat
  rw [hnegative]
  generalize toRat (.finite t m) = q at hquotient ⊢
  have hden : (q.den : Rat) ≠ 0 := by exact_mod_cast q.den_nz
  rw [m.toRat_eq_div, div_eq_div_iff hden Magnitude.unitsPerOne_cast_pos.ne'] at hquotient
  have hunits : q.num.natAbs * Magnitude.unitsPerOne = m.units * q.den := by
    exact_mod_cast hquotient
  simp only [hunits, Magnitude.round?_units]
  rfl

theorem isFinite_ofRat_of_isDouble (s : Bool) (h : IsDouble q) : (ofRat s q).isFinite := by
  have hzero : ∀ s, (ofRat s 0).isFinite := by decide +kernel
  obtain ⟨x, hfinite, rfl⟩ := h
  by_cases hx : x.toRat = 0
  · rw [hx]
    exact hzero s
  · rwa [ofRat_toRat hfinite fun h => absurd h hx]

theorem toRat_ofRat (s : Bool) (h : IsDouble q) : (ofRat s q).toRat = q :=
  (isNearest_ofRat (isFinite_ofRat_of_isDouble s h)).toRat_eq h

theorem isFinite_ofRat_of_abs_lt (s : Bool) (bits : Nat) (h : |q| < 2 ^ bits) (hbits : bits ≤ 1022) :
    (ofRat s q).isFinite := by
  refine isFinite_ofRat s bits ?_ hbits
  rw [abs_eq_natAbs_div, div_lt_iff₀ (Nat.cast_pos.mpr q.den_pos)] at h
  exact_mod_cast h

/-! ## Whole numbers of units -/

theorem isDouble_unit : IsDouble (1 / Magnitude.unitsPerOne) := by
  have h := IsDouble.scaled (a := 1) (b := 0) (by norm_num) (by norm_num)
  rwa [pow_zero, mul_one, Int.cast_one] at h

theorem unit_le_iff {a : Int} :
    1 / Magnitude.unitsPerOne ≤ (a / Magnitude.unitsPerOne : Rat) ↔ 0 < a := by
  rw [div_le_div_iff_of_pos_right Magnitude.unitsPerOne_cast_pos]
  exact_mod_cast Iff.rfl

/-- Where rounding is not finite, it is the infinity of the sign of the number. -/
theorem ofRat_of_not_isFinite (h : ¬(ofRat s q).isFinite) :
    q ≠ 0 ∧ ofRat s q = .infinity (q < 0) := by
  have hne : q ≠ 0 := by
    rintro rfl
    exact h (isFinite_ofRat_of_isDouble s ⟨zero, rfl, rfl⟩)
  refine ⟨hne, ?_⟩
  unfold ofRat at h ⊢
  rw [if_neg hne] at h ⊢
  cases hround : Magnitude.round? (q.num.natAbs * Magnitude.unitsPerOne) q.den q.den_pos with
  | none => rfl
  | some m =>
    rw [hround] at h
    exact absurd rfl h

theorem zero_below_iff (hy : y.isFinite) : zero.below y ↔ 0 < y.toRat := by
  obtain ⟨s, m, rfl⟩ := exists_finite_of_isFinite hy
  have hzero : toRat (.finite false .zero) = 0 := Magnitude.toRat_zero
  simp only [below, zero, compare?, hzero, Option.some.injEq, decide_eq_true_eq]
  split
  · exact iff_of_true rfl ‹_›
  · refine iff_of_false ?_ ‹_›
    split <;> nofun

theorem zero_below_infinity (s : Bool) : zero.below (.infinity s) ↔ s = false := by
  cases s <;> decide

/-- Whole numbers of units keep their sign when they are rounded. -/
theorem toRat_ofRat_units {a : Int} (h : (ofRat s (a / Magnitude.unitsPerOne)).isFinite) :
    (0 < (ofRat s (a / Magnitude.unitsPerOne)).toRat ↔ 0 < a) ∧
      ((ofRat s (a / Magnitude.unitsPerOne)).toRat = 0 ↔ a = 0) := by
  have hnearest := isNearest_ofRat h
  have hunit : (0 : Rat) < 1 / Magnitude.unitsPerOne :=
    one_div_pos.mpr Magnitude.unitsPerOne_cast_pos
  rcases lt_trichotomy a 0 with hneg | rfl | hpos
  · have hle := hnearest.le_of_le isDouble_unit.neg (le_neg.mpr (by
      rw [← neg_div, ← Int.cast_neg]
      exact unit_le_iff.mpr (neg_pos.mpr hneg)))
    constructor
    · exact iff_of_false (by linarith) (by omega)
    · exact iff_of_false (by linarith) (by omega)
  · rw [hnearest.toRat_eq (by rw [Int.cast_zero, zero_div]; exact ⟨zero, rfl, Magnitude.toRat_zero⟩),
      Int.cast_zero, zero_div]
    simp
  · have hle := hnearest.ge_of_ge isDouble_unit (unit_le_iff.mpr hpos)
    constructor
    · exact iff_of_true (by linarith) hpos
    · exact iff_of_false (by linarith) (by omega)

theorem isZero_ofRat_units (s : Bool) (a : Int) :
    (ofRat s (a / Magnitude.unitsPerOne)).isZero ↔ a = 0 := by
  by_cases h : (ofRat s (a / Magnitude.unitsPerOne)).isFinite
  · rw [isZero_iff h, (toRat_ofRat_units h).2]
  · obtain ⟨hne, heq⟩ := ofRat_of_not_isFinite h
    rw [heq]
    refine iff_of_false nofun ?_
    rintro rfl
    exact hne (by rw [Int.cast_zero, zero_div])

theorem zero_below_ofRat_units (s : Bool) (a : Int) :
    zero.below (ofRat s (a / Magnitude.unitsPerOne)) ↔ 0 < a := by
  by_cases h : (ofRat s (a / Magnitude.unitsPerOne)).isFinite
  · rw [zero_below_iff h, (toRat_ofRat_units h).1]
  · obtain ⟨hne, heq⟩ := ofRat_of_not_isFinite h
    rw [heq, zero_below_infinity, decide_eq_false_iff_not, not_lt, hne.symm.le_iff_lt,
      div_pos_iff_of_pos_right Magnitude.unitsPerOne_cast_pos, Int.cast_pos]

/-! ## Operations -/

theorem mul_eq (hx : x.isFinite) (hy : y.isFinite) :
    x * y = ofRat (x.isNegative != y.isNegative) (x.toRat * y.toRat) := by
  obtain ⟨s, m, rfl⟩ := exists_finite_of_isFinite hx
  obtain ⟨t, n, rfl⟩ := exists_finite_of_isFinite hy
  rfl

theorem add_eq (hx : x.isFinite) (hy : y.isFinite) :
    x + y = ofRat (x.isNegative && y.isNegative) (x.toRat + y.toRat) := by
  obtain ⟨s, m, rfl⟩ := exists_finite_of_isFinite hx
  obtain ⟨t, n, rfl⟩ := exists_finite_of_isFinite hy
  rfl

theorem sub_eq (hx : x.isFinite) (hy : y.isFinite) :
    x - y = ofRat (x.isNegative && !y.isNegative) (x.toRat - y.toRat) := by
  obtain ⟨s, m, rfl⟩ := exists_finite_of_isFinite hx
  rw [sub_eq_add_neg, ← toRat_neg hy]
  obtain ⟨t, n, rfl⟩ := exists_finite_of_isFinite hy
  rfl

theorem div_eq (hx : x.isFinite) (hy : y.isFinite) (hne : y.toRat ≠ 0) :
    x / y = ofRat (x.isNegative != y.isNegative) (x.toRat / y.toRat) := by
  have hzero : y.isZero = false := by rwa [← Bool.not_eq_true, isZero_iff hy]
  obtain ⟨s, m, rfl⟩ := exists_finite_of_isFinite hx
  obtain ⟨t, n, rfl⟩ := exists_finite_of_isFinite hy
  change (if isZero (.finite t n) then _ else _) = _
  rw [if_neg (by rw [hzero]; nofun)]
  rfl

theorem mulAdd_eq (hx : x.isFinite) (hy : y.isFinite) (hz : z.isFinite) :
    ∃ s, x.mulAdd y z = ofRat s (x.toRat * y.toRat + z.toRat) := by
  obtain ⟨s, m, rfl⟩ := exists_finite_of_isFinite hx
  obtain ⟨t, n, rfl⟩ := exists_finite_of_isFinite hy
  obtain ⟨u, k, rfl⟩ := exists_finite_of_isFinite hz
  exact ⟨_, rfl⟩

end Binary64
end MetricFormula
