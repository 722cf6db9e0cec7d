import MetricFormula.Proofs.Binary64.Nearest

/-! # Numbers that are doubles

Integers and their halves are doubles as long as 53 bits are enough for them. Rounding to a nearest
double never passes a number that is a double (`IsNearest.le_of_le`). So up to `2 ^ 52` it passes
no half, and from there up to `2 ^ 53`, where doubles are integers, it rounds to the nearest integer
(`IsNearest.isNearestInt`). -/

namespace MetricFormula

theorem Magnitude.exists_units_eq {a b : Nat} (ha : a < 2 ^ 53) (hb : b ≤ 2045) :
    ∃ m : Magnitude, m.units = a * 2 ^ b := by
  induction b generalizing a with
  | zero =>
    exact ⟨⟨a, 0, by rwa [Nat.one_shiftLeft], Nat.zero_le _, .inr rfl⟩, units_eq _⟩
  | succ b ih =>
    rcases Nat.lt_or_ge a (2 ^ 52) with hlt | hge
    · obtain ⟨m, hm⟩ := ih (a := 2 * a) (by omega) (by omega)
      exact ⟨m, by rw [hm, Nat.pow_succ]; ring⟩
    · have hnormal : 1 <<< 52 ≤ a := by rwa [Nat.one_shiftLeft]
      exact ⟨⟨a, b + 1, by rwa [Nat.one_shiftLeft], hb, .inl hnormal⟩, units_eq _⟩

namespace Binary64

/-- The number is the value of a finite double. -/
def IsDouble (q : Rat) : Prop := ∃ x : Binary64, x.isFinite ∧ x.toRat = q

variable {x y : Binary64} {q r : Rat}

namespace IsDouble

theorem neg (h : IsDouble q) : IsDouble (-q) := by
  obtain ⟨x, hx, rfl⟩ := h
  exact ⟨-x, isFinite_neg hx, toRat_neg hx⟩

theorem of_units {a : Int} {m : Magnitude} (h : m.units = a.natAbs) :
    IsDouble (a / Magnitude.unitsPerOne) := by
  have hvalue : m.toRat = |(a : Rat)| / Magnitude.unitsPerOne := by
    rw [m.toRat_eq_div, h, Nat.cast_natAbs, Int.cast_abs]
  rcases le_total 0 (a : Rat) with hnonneg | hnonpos
  · rw [abs_of_nonneg hnonneg] at hvalue
    exact ⟨.finite false m, rfl, hvalue⟩
  · rw [abs_of_nonpos hnonpos, neg_div] at hvalue
    exact ⟨.finite true m, rfl, by rw [toRat_finite, if_pos rfl, hvalue, neg_neg]⟩

/-- Integers of 53 bits, scaled. -/
theorem scaled {a : Int} {b : Nat} (ha : a.natAbs ≤ 2 ^ 53) (hb : b ≤ 2044) :
    IsDouble ((a * 2 ^ b : Int) / Magnitude.unitsPerOne) := by
  have hunits : ∃ m : Magnitude, m.units = a.natAbs * 2 ^ b := by
    rcases ha.lt_or_eq with hlt | heq
    · exact Magnitude.exists_units_eq hlt (by omega)
    · obtain ⟨m, hm⟩ :=
        Magnitude.exists_units_eq (a := 2 ^ 52) (b := b + 1) (by norm_num) (by omega)
      exact ⟨m, by rw [hm, heq]; ring⟩
  obtain ⟨m, hm⟩ := hunits
  exact of_units (hm.trans (by rw [Int.natAbs_mul, Int.natAbs_pow]; rfl))

/-- Half an integer of 53 bits. -/
theorem half {a : Int} (ha : a.natAbs ≤ 2 ^ 53) : IsDouble (a / 2) := by
  obtain ⟨k, hk, hone⟩ := Magnitude.exists_unitsPerOne_eq
  obtain ⟨j, rfl⟩ : ∃ j, k = j + 1 := ⟨1073, hk⟩
  have hscaled := scaled (b := j) ha (by omega)
  rw [hone] at hscaled
  convert hscaled using 1
  push_cast
  field_simp
  ring

theorem intCast {a : Int} (ha : a.natAbs ≤ 2 ^ 53) : IsDouble a := by
  obtain ⟨k, hk, hone⟩ := Magnitude.exists_unitsPerOne_eq
  have hscaled := scaled (b := k) ha (by omega)
  rw [hone] at hscaled
  convert hscaled using 1
  push_cast
  field_simp

theorem two_pow_fifty_two : IsDouble (2 ^ 52) := by
  have h := intCast (a := 2 ^ 52) (by norm_num)
  rwa [Int.cast_pow, Int.cast_ofNat] at h

theorem two_pow_fifty_three : IsDouble (2 ^ 53) := by
  have h := intCast (a := 2 ^ 53) (by norm_num)
  rwa [Int.cast_pow, Int.cast_ofNat] at h

end IsDouble

/-! ## Between doubles -/

namespace IsNearest

theorem le_of_le (h : IsNearest q y) (hr : IsDouble r) (hle : q ≤ r) : y.toRat ≤ r := by
  obtain ⟨z, hz, rfl⟩ := hr
  refine le_of_not_gt fun hlt => ?_
  have hleast := h.least z hz
  rw [abs_of_nonpos (by linarith), abs_of_nonpos (by linarith)] at hleast
  linarith

theorem ge_of_ge (h : IsNearest q y) (hr : IsDouble r) (hge : r ≤ q) : r ≤ y.toRat := by
  have hle := h.neg.le_of_le hr.neg (neg_le_neg hge)
  rwa [toRat_neg h.finite, neg_le_neg_iff] at hle

/-- What is a double already is not changed. -/
theorem toRat_eq (h : IsNearest q y) (hq : IsDouble q) : y.toRat = q :=
  le_antisymm (h.le_of_le hq le_rfl) (h.ge_of_ge hq le_rfl)

theorem abs_toRat_le (h : IsNearest q y) (hr : IsDouble r) (hle : |q| ≤ r) : |y.toRat| ≤ r :=
  abs_le'.mpr ⟨h.le_of_le hr ((le_abs_self q).trans hle),
    neg_le.mp (h.ge_of_ge hr.neg (neg_le.mp ((neg_le_abs q).trans hle)))⟩

theorem le_abs_toRat (h : IsNearest q y) (hr : IsDouble r) (hle : r ≤ |q|) : r ≤ |y.toRat| := by
  rcases le_abs.mp hle with hle | hle
  · exact (h.ge_of_ge hr hle).trans (le_abs_self _)
  · exact (le_neg.mpr (h.le_of_le hr.neg (le_neg.mp hle))).trans (neg_le_abs _)

/-- Up to `2 ^ 52` rounding passes no half of an integer. -/
theorem le_half (h : IsNearest q y) (hq : |q| ≤ 2 ^ 52) {a : Int} (ha : q ≤ a / 2) :
    y.toRat ≤ a / 2 := by
  have hlower : -2 ^ 53 ≤ a := by
    have : (-2 ^ 53 : Rat) ≤ a := by linarith [(abs_le.mp hq).1]
    exact_mod_cast this
  rcases le_or_gt a (2 ^ 53) with hle | hlt
  · exact h.le_of_le (.half (by omega)) ha
  · have hbound := h.abs_toRat_le .two_pow_fifty_two hq
    have hlarge : (2 ^ 53 : Rat) < a := by exact_mod_cast hlt
    linarith [(abs_le.mp hbound).2]

theorem half_le (h : IsNearest q y) (hq : |q| ≤ 2 ^ 52) {a : Int} (ha : a / 2 ≤ q) :
    a / 2 ≤ y.toRat := by
  have hle := h.neg.le_half (a := -a) (by rwa [abs_neg]) (by push_cast; linarith)
  rw [toRat_neg h.finite] at hle
  push_cast at hle
  linarith

end IsNearest

/-! ## Doubles that are integers -/

theorem isInteger_of_toRat {n : Int} (hfinite : x.isFinite) (h : x.toRat = n) :
    x.isInteger = true ∧ x.toRat.num = n := by
  rw [isInteger, hfinite, h, Rat.num_intCast]
  exact ⟨rfl, rfl⟩

theorem toRat_of_isInteger (h : x.isInteger) :
    x.isFinite ∧ x.toRat = (x.toRat.num : Int) := by
  rw [isInteger, Bool.and_eq_true] at h
  have hden : x.toRat.den = 1 := beq_iff_eq.mp h.2
  exact ⟨h.1, Rat.ext (Rat.num_intCast _).symm (hden.trans (Rat.den_intCast _).symm)⟩

/-- Only finite doubles have a value other than zero. -/
theorem isFinite_of_toRat_ne_zero (h : x.toRat ≠ 0) : x.isFinite := by
  cases x with
  | finite => rfl
  | nan | infinity => exact absurd rfl h

/-! ## Large doubles -/

/-- From `2 ^ 52` on doubles are integers, and no less even than their significands. -/
theorem exists_intCast_of_le_abs (hx : x.isFinite) (hlarge : 2 ^ 52 ≤ |x.toRat|) :
    ∃ a : Int, x.toRat = a ∧ (x.hasEvenSignificand → Even a) := by
  obtain ⟨s, m, rfl⟩ := exists_finite_of_isFinite hx
  obtain ⟨k, hk, hone⟩ := Magnitude.exists_unitsPerOne_eq
  have hpos : (0 : Rat) < (2 ^ k : Nat) := by exact_mod_cast Nat.two_pow_pos k
  rw [abs_toRat_finite, m.toRat_eq_div, hone, le_div_iff₀ hpos] at hlarge
  have hunits : 2 ^ (52 + k) ≤ m.units := by
    rw [pow_add]
    exact_mod_cast hlarge
  have hscale : 52 + k < 53 + m.scale :=
    (Nat.pow_lt_pow_iff_right one_lt_two).mp (hunits.trans_lt m.units_lt)
  obtain ⟨j, hj⟩ : ∃ j, m.scale = j + k := ⟨m.scale - k, by omega⟩
  have hvalue : m.toRat = (m.significand * 2 ^ j : Nat) := by
    rw [m.toRat_eq_div, hone, m.units_eq, hj, pow_add, ← mul_assoc, Nat.cast_mul,
      mul_div_cancel_right₀ _ hpos.ne']
  have heven (h : hasEvenSignificand (.finite s m)) : Even (m.significand * 2 ^ j) :=
    (Nat.even_iff.mpr (of_decide_eq_true h)).mul_right _
  rw [toRat_finite, hvalue]
  cases s with
  | false => exact ⟨_, rfl, fun h => (Int.even_coe_nat _).mpr (heven h)⟩
  | true => exact ⟨-(m.significand * 2 ^ j : Nat), by push_cast; rfl,
      fun h => ((Int.even_coe_nat _).mpr (heven h)).neg⟩

/-- Integers next to what does not exceed `2 ^ 53` do not exceed it either. -/
theorem natAbs_le_of_close {a : Int} (hq : |q| ≤ 2 ^ 53) (ha : |q - a| ≤ 1 / 2) :
    a.natAbs ≤ 2 ^ 53 := by
  obtain ⟨hq, hq'⟩ := abs_le.mp hq
  obtain ⟨ha, ha'⟩ := abs_le.mp ha
  have hupper : (a : Rat) < (2 ^ 53 + 1 : Int) := by push_cast; linarith
  have hlower : ((-2 ^ 53 - 1 : Int) : Rat) < a := by push_cast; linarith
  rw [Int.cast_lt] at hupper hlower
  omega

/-- A half lies between two integers. -/
theorem exists_ne_of_tie {a : Int} (h : |q - a| = 1 / 2) : ∃ b : Int, b ≠ a ∧ |q - b| = 1 / 2 := by
  rcases eq_or_eq_neg_of_abs_eq h with hup | hdown
  · refine ⟨a + 1, by omega, ?_⟩
    rw [abs_of_nonpos (by push_cast; linarith)]
    push_cast
    linarith
  · refine ⟨a - 1, by omega, ?_⟩
    rw [abs_of_nonneg (by push_cast; linarith)]
    push_cast
    linarith

/-- Where doubles are integers, a nearest double is the nearest integer. -/
theorem IsNearest.isNearestInt (h : IsNearest q y) (hlower : 2 ^ 52 ≤ |q|) (hupper : |q| ≤ 2 ^ 53) :
    ∃ a : Int, y.toRat = a ∧ IsNearestInt q a := by
  have hlarge : 2 ^ 52 ≤ |y.toRat| :=
    h.le_abs_toRat .two_pow_fifty_two hlower
  obtain ⟨a, ha, heven⟩ := exists_intCast_of_le_abs h.finite hlarge
  have hnearest := isNearestInt_roundHalfEven q
  obtain ⟨z, hz, hvalue⟩ := IsDouble.intCast (natAbs_le_of_close hupper hnearest.close)
  have hclose : |q - a| ≤ 1 / 2 := by
    have hleast := h.least z hz
    rw [ha, hvalue] at hleast
    exact hleast.trans hnearest.close
  refine ⟨a, ha, hclose, fun hhalf => heven ?_⟩
  -- The integer on the other side is a double as near as this one.
  obtain ⟨b, hb, hother⟩ := exists_ne_of_tie hhalf
  obtain ⟨z, hz, hvalue⟩ := IsDouble.intCast (natAbs_le_of_close hupper hother.le)
  refine h.even z hz ?_ (by rw [hvalue, ha, hother, hhalf])
  rw [hvalue, ha]
  exact_mod_cast hb

end Binary64

end MetricFormula
