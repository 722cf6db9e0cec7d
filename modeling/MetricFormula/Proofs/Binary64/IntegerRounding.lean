import Mathlib.Data.Rat.Floor
import MetricFormula.Proofs.Binary64.Operations

/-! # Rounding to integers by the sign of an error

The tie breaker of decimal rounding. It sees the double nearest to a number and the sign of what
that double has lost, and up to `2 ^ 53` it gives the integer nearest to the number
(`Binary64.roundWithError_eq`): a nearest double passes no half of an integer, and where it is one,
the sign tells on which side the number lies. Larger doubles are integers and stay as they are. -/

namespace MetricFormula

/-- The rest of a magnitude by a power of two is a magnitude. -/
theorem Magnitude.exists_units_mod (m : Magnitude) (k : Nat) :
    ∃ r : Magnitude, r.units = m.units % 2 ^ k := by
  have hsignificand : m.significand < 2 ^ 53 := by
    rw [← Nat.one_shiftLeft]
    exact m.significand_lt
  rcases Nat.le_total m.scale k with hle | hle
  · obtain ⟨j, rfl⟩ := Nat.exists_eq_add_of_le' hle
    rw [m.units_eq, Nat.pow_add, Nat.mul_mod_mul_right]
    exact exists_units_eq ((Nat.mod_le _ _).trans_lt hsignificand) m.scale_le
  · obtain ⟨j, hj⟩ := Nat.exists_eq_add_of_le' hle
    rw [m.units_eq, hj, Nat.pow_add, ← Nat.mul_assoc, Nat.mul_mod_left]
    exact ⟨.zero, rfl⟩

variable {a k : Int}

/-- A half is as far from one integer as from the other. -/
theorem IsNearestInt.even_of_half (h : IsNearestInt (a + 1 / 2) k) : Even k := by
  refine h.even (le_antisymm h.close (not_lt.mp fun hlt => ?_))
  obtain ⟨hlower, hupper⟩ := abs_lt.mp hlt
  have hgt : (a : Rat) < k := by linarith
  have hlt : (k : Rat) < (a + 1 : Int) := by push_cast; linarith
  rw [Int.cast_lt] at hgt hlt
  omega

namespace Binary64

variable {x approx error : Binary64} {q t : Rat}

/-! ## Integers next to a number -/

theorem truncate_of_nonneg (hq : 0 ≤ q) : truncate q = q.floor := if_neg (not_lt.mpr hq)

theorem truncate_neg (q : Rat) : truncate (-q) = -truncate q := by
  rcases lt_trichotomy q 0 with hneg | rfl | hpos
  · rw [truncate_of_nonneg (neg_nonneg.mpr hneg.le), truncate, if_pos hneg,
      Rat.ceil_eq_neg_floor_neg, neg_neg]
  · rfl
  · rw [truncate_of_nonneg hpos.le, truncate, if_pos (neg_neg_of_pos hpos),
      Rat.ceil_eq_neg_floor_neg, neg_neg]

theorem truncate_intCast (a : Int) : truncate a = a := by
  unfold truncate
  split
  · exact Rat.ceil_intCast a
  · exact Rat.floor_intCast a

theorem abs_truncate_le (q : Rat) : |(truncate q : Rat)| ≤ |q| := by
  have hnonneg {q : Rat} (hq : 0 ≤ q) : |(truncate q : Rat)| ≤ |q| := by
    have hfloor : (0 : Rat) ≤ q.floor := by
      exact_mod_cast Rat.le_floor_iff.mpr (by exact_mod_cast hq : ((0 : Int) : Rat) ≤ q)
    rw [truncate_of_nonneg hq, abs_of_nonneg hfloor, abs_of_nonneg hq]
    exact Rat.floor_le q
  rcases le_total 0 q with hq | hq
  · exact hnonneg hq
  · have h := hnonneg (neg_nonneg.mpr hq)
    rwa [truncate_neg, Int.cast_neg, abs_neg, abs_neg] at h

theorem floor_add_half (a : Int) : (a + 1 / 2 : Rat).floor = a := by
  refine le_antisymm (Int.lt_add_one_iff.mp (Rat.floor_lt_iff.mpr ?_)) (Rat.le_floor_iff.mpr ?_)
  · push_cast
    linarith
  · linarith

theorem ceil_add_half (a : Int) : (a + 1 / 2 : Rat).ceil = a + 1 := by
  have hneg : (-(a + 1 / 2) : Rat) = (-(a + 1) : Int) + 1 / 2 := by
    push_cast
    ring
  rw [Rat.ceil_eq_neg_floor_neg, hneg, floor_add_half, neg_neg]

/-- A number is half way between integers if it is half way to the one on the side of zero. -/
theorem abs_sub_truncate_eq_half_iff : |q - truncate q| = 1 / 2 ↔ ∃ a : Int, q = a + 1 / 2 := by
  constructor
  · intro h
    rcases eq_or_eq_neg_of_abs_eq h with h | h
    · exact ⟨truncate q, by linarith⟩
    · exact ⟨truncate q - 1, by push_cast; linarith⟩
  · rintro ⟨a, rfl⟩
    unfold truncate
    split
    · rw [ceil_add_half, abs_of_nonpos (by push_cast; linarith)]
      push_cast
      ring
    · rw [floor_add_half, add_sub_cancel_left, abs_of_pos (by norm_num)]

/-! ## Doubles made integers -/

theorem integral_eq (f : Rat → Int) (hx : x.isFinite) :
    integral f x = ofRat x.isNegative (f x.toRat) := by
  obtain ⟨s, m, rfl⟩ := exists_finite_of_isFinite hx
  rfl

/-- Up to `2 ^ 53` integers are doubles, and beyond doubles are integers already. -/
theorem isDouble_integral {f : Rat → Int} (hx : x.isFinite) (hfix : ∀ a : Int, f a = a)
    (hbound : |x.toRat| ≤ 2 ^ 53 → (f x.toRat).natAbs ≤ 2 ^ 53) : IsDouble (f x.toRat) := by
  rcases le_total |x.toRat| (2 ^ 53) with hle | hge
  · exact .intCast (hbound hle)
  · obtain ⟨a, ha, _⟩ := exists_intCast_of_le_abs hx (le_trans (by norm_num) hge)
    exact ⟨x, hx, by rw [ha, hfix]⟩

theorem isDouble_truncate (hx : x.isFinite) : IsDouble (truncate x.toRat) := by
  refine isDouble_integral hx truncate_intCast fun hle => ?_
  have hbound : |(truncate x.toRat : Rat)| ≤ 2 ^ 53 := (abs_truncate_le _).trans hle
  rw [← Int.cast_abs, Int.abs_eq_natAbs] at hbound
  exact_mod_cast hbound

/-! ## The fraction of a double -/

theorem isDouble_sub_truncate (hx : x.isFinite) : IsDouble (x.toRat - truncate x.toRat) := by
  obtain ⟨s, m, rfl⟩ := exists_finite_of_isFinite hx
  have hmagnitude : IsDouble (m.toRat - truncate m.toRat) := by
    obtain ⟨k, _, hone⟩ := Magnitude.exists_unitsPerOne_eq
    obtain ⟨r, hr⟩ := m.exists_units_mod k
    refine ⟨.finite false r, rfl, ?_⟩
    have hpos : (0 : Rat) < (2 ^ k : Nat) := by exact_mod_cast Nat.two_pow_pos k
    have hfloor : Rat.floor (m.units / (2 ^ k : Nat)) = (m.units / 2 ^ k : Nat) :=
      Rat.floor_natCast_div_natCast _ _
    have hdiv : (m.units : Rat) =
        (2 ^ k : Nat) * (m.units / 2 ^ k : Nat) + (m.units % 2 ^ k : Nat) := by
      exact_mod_cast (Nat.div_add_mod _ _).symm
    rw [truncate_of_nonneg m.toRat_nonneg, toRat_finite, if_neg nofun, r.toRat_eq_div,
      m.toRat_eq_div, hr, hone, hfloor, Int.cast_natCast, div_eq_iff hpos.ne', sub_mul,
      div_mul_cancel₀ _ hpos.ne', hdiv]
    ring
  rw [toRat_finite]
  split
  · have hneg := hmagnitude.neg
    rw [truncate_neg]
    convert hneg using 1
    push_cast
    ring
  · exact hmagnitude

theorem sub_trunc (hx : x.isFinite) :
    (x - x.trunc).isFinite ∧ (x - x.trunc).toRat = x.toRat - truncate x.toRat := by
  have hinteger := isDouble_truncate hx
  have hfraction := isDouble_sub_truncate hx
  rw [trunc, integral_eq _ hx, sub_eq hx (isFinite_ofRat_of_isDouble _ hinteger),
    toRat_ofRat _ hinteger]
  exact ⟨isFinite_ofRat_of_isDouble _ hfraction, toRat_ofRat _ hfraction⟩

theorem abs_eq_half_iff (hx : x.isFinite) : x.abs = half ↔ |x.toRat| = 1 / 2 := by
  have hdouble : IsDouble (1 / 2) := by
    have h := IsDouble.half (a := 1) (by norm_num)
    rwa [Int.cast_one] at h
  obtain ⟨s, m, rfl⟩ := exists_finite_of_isFinite hx
  rw [abs_toRat_finite]
  have habs : abs (.finite s m) = .finite false m := rfl
  rw [habs]
  constructor
  · intro h
    have hvalue := congrArg toRat h
    rwa [half, toRat_ofRat _ hdouble] at hvalue
  · intro h
    have hself := ofRat_toRat (x := .finite false m) (s := false) rfl fun _ => rfl
    rw [toRat_finite, if_neg nofun, h] at hself
    exact hself.symm

/-! ## The tie breaker -/

/-- The error has the sign of what the approximation lacks. -/
structure IsErrorOf (t : Rat) (approx error : Binary64) : Prop where
  zero_iff : error.isZero ↔ t = approx.toRat
  pos_iff : zero.below error ↔ approx.toRat < t

theorem roundWithError_of_not_tie (hx : approx.isFinite) (h : ∀ a : Int, approx.toRat ≠ a + 1 / 2) :
    roundWithError approx error = ofRat approx.isNegative (roundHalfEven approx.toRat) := by
  obtain ⟨hfinite, hvalue⟩ := sub_trunc hx
  have hne : (approx - approx.trunc).abs ≠ half := by
    rw [Ne, abs_eq_half_iff hfinite, hvalue, abs_sub_truncate_eq_half_iff]
    exact fun ⟨a, ha⟩ => h a ha
  rw [roundWithError, if_pos (by simp [hne])]
  exact integral_eq _ hx

theorem roundWithError_of_tie (hx : approx.isFinite) (h : approx.toRat = a + 1 / 2) :
    roundWithError approx error = ofRat approx.isNegative
      (if error.isZero then roundHalfEven approx.toRat
        else if zero.below error then a + 1 else a : Int) := by
  obtain ⟨hfinite, hvalue⟩ := sub_trunc hx
  have heq : (approx - approx.trunc).abs = half := by
    rw [abs_eq_half_iff hfinite, hvalue, abs_sub_truncate_eq_half_iff]
    exact ⟨a, h⟩
  have hceil : approx.ceil = ofRat approx.isNegative (a + 1 : Int) := by
    rw [ceil, integral_eq _ hx, h, ceil_add_half]
  have hfloor : approx.floor = ofRat approx.isNegative a := by
    rw [floor, integral_eq _ hx, h, floor_add_half]
  have heven : approx.roundTiesToEven = ofRat approx.isNegative (roundHalfEven approx.toRat) :=
    integral_eq _ hx
  rw [roundWithError, heq, hceil, hfloor, heven]
  cases error.isZero <;> cases zero.below error <;> simp

theorem intCast_ne_add_half (a b : Int) : (a : Rat) ≠ b + 1 / 2 := by
  intro h
  have htwice : 2 * a = 2 * b + 1 := by
    have : (2 * a : Rat) = 2 * b + 1 := by linarith
    exact_mod_cast this
  omega

/-- An integer stays as it is. -/
theorem roundWithError_intCast (hx : approx.isFinite) (h : approx.toRat = a) :
    roundWithError approx error = ofRat approx.isNegative a := by
  have hne (b : Int) : approx.toRat ≠ b + 1 / 2 := h ▸ intCast_ne_add_half a b
  rw [roundWithError_of_not_tie hx hne, h, roundHalfEven_eq (.intCast a)]

/-! ## Nearest doubles and nearest integers -/

/-- Between the halves on its two sides an integer is the nearest. -/
theorem isNearestInt_of_halves (hlower : (a - 1 : Int) + 1 / 2 < t) (hupper : t < a + 1 / 2) :
    IsNearestInt t a := by
  push_cast at hlower
  exact .of_lt (by linarith) hupper

namespace IsNearest

/-- Up to `2 ^ 52` a number is on the same side of a half as the nearest double. -/
theorem lt_half (h : IsNearest t approx) (ht : |t| ≤ 2 ^ 52) (hlt : approx.toRat < a + 1 / 2) :
    t < a + 1 / 2 := by
  have hhalf : ((2 * a + 1 : Int) : Rat) / 2 = a + 1 / 2 := by push_cast; ring
  refine lt_of_not_ge fun hge => ?_
  exact absurd (hhalf.ge.trans (h.half_le ht (hhalf.trans_le hge))) (not_le.mpr hlt)

theorem half_lt (h : IsNearest t approx) (ht : |t| ≤ 2 ^ 52) (hlt : a + 1 / 2 < approx.toRat) :
    a + 1 / 2 < t := by
  have hhalf : ((2 * a + 1 : Int) : Rat) / 2 = a + 1 / 2 := by push_cast; ring
  refine lt_of_not_ge fun hle => ?_
  exact absurd ((h.le_half ht (hle.trans hhalf.ge)).trans hhalf.le) (not_le.mpr hlt)

/-- A double that is no half decides for the number which integer is nearest. -/
theorem isNearestInt_of_not_tie (h : IsNearest t approx) (ht : |t| ≤ 2 ^ 53)
    (hne : ∀ a : Int, approx.toRat ≠ a + 1 / 2) : IsNearestInt t (roundHalfEven approx.toRat) := by
  rcases le_total (2 ^ 52) |t| with hlarge | hsmall
  · obtain ⟨a, ha, hnearest⟩ := h.isNearestInt hlarge ht
    rwa [ha, roundHalfEven_eq (.intCast a)]
  · obtain ⟨hlower, hupper⟩ := abs_le.mp (isNearestInt_roundHalfEven approx.toRat).close
    refine isNearestInt_of_halves (h.half_lt hsmall ?_) (h.lt_half hsmall ?_)
    · refine lt_of_le_of_ne ?_ (hne _).symm
      push_cast
      linarith
    · exact lt_of_le_of_ne (by linarith) (hne _)

/-- A double is a half only up to `2 ^ 52`, from where on doubles are integers. -/
theorem abs_le_of_tie (h : IsNearest t approx) (ha : approx.toRat = a + 1 / 2) : |t| ≤ 2 ^ 52 := by
  refine le_of_not_gt fun hlarge => ?_
  obtain ⟨b, hb, _⟩ := exists_intCast_of_le_abs h.finite
    (h.le_abs_toRat .two_pow_fifty_two hlarge.le)
  exact intCast_ne_add_half b a (hb.symm.trans ha)

/-- At a half, the nearest integer is the one on the side on which the number lies. -/
theorem isNearestInt_of_tie (h : IsNearest t approx) (ha : approx.toRat = a + 1 / 2) :
    (approx.toRat < t → IsNearestInt t (a + 1)) ∧ (t < approx.toRat → IsNearestInt t a) := by
  have hsmall := h.abs_le_of_tie ha
  constructor
  · intro hmore
    refine isNearestInt_of_halves ?_ (h.lt_half hsmall (by push_cast; linarith))
    push_cast
    linarith
  · intro hless
    exact isNearestInt_of_halves (h.half_lt hsmall (by push_cast; linarith)) (hless.trans_eq ha)

end IsNearest

/-! ## The nearest integer -/

/-- An error that is neither zero nor positive tells that the approximation is too great. -/
theorem IsErrorOf.lt (herror : IsErrorOf t approx error) (hzero : ¬error.isZero)
    (hpos : ¬zero.below error) : t < approx.toRat :=
  lt_of_le_of_ne (not_lt.mp (hpos ∘ herror.pos_iff.mpr)) (hzero ∘ herror.zero_iff.mpr)

/-- The tie breaker gives the nearest integer. -/
theorem roundWithError_eq (h : IsNearest t approx) (herror : IsErrorOf t approx error)
    (ht : |t| ≤ 2 ^ 53) (hk : IsNearestInt t k) :
    roundWithError approx error = ofRat approx.isNegative k := by
  by_cases htie : ∃ a : Int, approx.toRat = a + 1 / 2
  · obtain ⟨a, ha⟩ := htie
    obtain ⟨hmore, hless⟩ := h.isNearestInt_of_tie ha
    rw [roundWithError_of_tie h.finite ha]
    congr 2
    split
    · rename_i hexact
      rw [← herror.zero_iff.mp hexact]
      exact roundHalfEven_eq hk
    · rename_i hinexact
      split
      · exact hk.unique (hmore (herror.pos_iff.mp ‹_›))
      · exact hk.unique (hless (herror.lt hinexact ‹_›))
  · have hne (a : Int) : approx.toRat ≠ a + 1 / 2 := fun ha => htie ⟨a, ha⟩
    rw [roundWithError_of_not_tie h.finite hne, hk.unique (h.isNearestInt_of_not_tie ht hne)]

/-- For every double below `2 ^ 53` and every error of the right sign the tie breaker gives the
integer nearest to the number. Unless the double is a half, that is the integer nearest to the
double. At a half it is the even one if nothing is lost, and else the one on the side that the error
shows. -/
theorem roundWithError_nearest (h : IsNearest t approx) (hbound : |approx.toRat| < 2 ^ 53)
    (herror : IsErrorOf t approx error) :
    ∃ k : Int, IsNearestInt t k ∧
      (roundWithError approx error).isFinite ∧ (roundWithError approx error).toRat = k ∧
      ((∀ a : Int, approx.toRat ≠ a + 1 / 2) → IsNearestInt approx.toRat k) ∧
      ∀ a : Int, approx.toRat = a + 1 / 2 →
        (error.isZero → Even k) ∧ (zero.below error → k = a + 1) ∧
          (¬error.isZero → ¬zero.below error → k = a) := by
  have ht : |t| ≤ 2 ^ 53 :=
    le_of_not_gt fun hlarge => not_le.mpr hbound (h.le_abs_toRat .two_pow_fifty_three hlarge.le)
  have hk := isNearestInt_roundHalfEven t
  have hdouble : IsDouble (roundHalfEven t) := .intCast (natAbs_le_of_close ht hk.close)
  have hrounded := roundWithError_eq h herror ht hk
  refine ⟨roundHalfEven t, hk, ?_, ?_, fun hne => ?_, fun a ha => ⟨fun hexact => ?_, ?_, ?_⟩⟩
  · rw [hrounded]
    exact isFinite_ofRat_of_isDouble _ hdouble
  · rw [hrounded, toRat_ofRat _ hdouble]
  · rw [← hk.unique (h.isNearestInt_of_not_tie ht hne)]
    exact isNearestInt_roundHalfEven approx.toRat
  · rw [herror.zero_iff.mp hexact, ha] at hk ⊢
    exact hk.even_of_half
  · intro hpos
    exact ((h.isNearestInt_of_tie ha).1 (herror.pos_iff.mp hpos)).unique hk
  · intro hzero hpos
    exact ((h.isNearestInt_of_tie ha).2 (herror.lt hzero hpos)).unique hk

/-- A number a little above a negative half, where the double nearest to it is the half itself. -/
theorem roundWithError_nearest_negative :
    let t : Rat := -5 / 2 + 1 / 10000000000000000000
    let approx := ofRat true t
    let error := ofRat false (1 / 10000000000000000000)
    approx.toRat = (-3 : Int) + 1 / 2 ∧ IsNearestInt t (-2) ∧
      (roundWithError approx error).toRat = (-2 : Int) := by
  intro t approx error
  have hcomputed : approx.isFinite ∧ approx.toRat = (-3 : Int) + 1 / 2 ∧ zero.below error ∧
      ¬error.isZero := by decide +kernel
  obtain ⟨hfinite, hhalf, hpos, hzero⟩ := hcomputed
  have hnearest : IsNearest t approx := isNearest_ofRat hfinite
  have hvalue : t = -5 / 2 + 1 / 10000000000000000000 := rfl
  have herror : IsErrorOf t approx error := by
    constructor
    · refine iff_of_false hzero (ne_of_gt ?_)
      rw [hhalf, hvalue]
      norm_num
    · refine iff_of_true hpos ?_
      rw [hhalf, hvalue]
      norm_num
  have hbound : |approx.toRat| < 2 ^ 53 := by
    rw [hhalf]
    norm_num
  obtain ⟨k, hk, _, hrounded, _, htie⟩ := roundWithError_nearest hnearest hbound herror
  obtain rfl : k = -2 := (htie (-3) hhalf).2.1 hpos
  exact ⟨hhalf, hk, hrounded⟩

end Binary64
end MetricFormula
