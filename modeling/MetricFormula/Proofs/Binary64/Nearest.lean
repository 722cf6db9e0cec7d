import Mathlib.Algebra.Order.Field.Basic
import Mathlib.Algebra.Order.Field.Rat
import Mathlib.Algebra.Order.Ring.Int
import Mathlib.Algebra.Ring.Int.Parity
import Mathlib.Tactic.FieldSimp
import Mathlib.Tactic.Linarith
import Mathlib.Tactic.Ring
import MetricFormula.Binary64.Arithmetic
import MetricFormula.Proofs.Binary64.Range

/-! # Nearest integers and nearest doubles

What rounding is for, without regard to how it is done. The integer nearest to a rational is unique
(`IsNearestInt.unique`) and is what `nearestEven` computes; a double nearest to a rational is what
`Binary64.ofRat` gives wherever it is finite (`Binary64.isNearest_ofRat`). -/

namespace MetricFormula

/-- The integer is nearest to the number, and is the even one if there are two of them. -/
structure IsNearestInt (q : Rat) (k : Int) : Prop where
  close : |q - k| ≤ 1 / 2
  even : |q - k| = 1 / 2 → Even k

namespace IsNearestInt

variable {q : Rat} {k a : Int}

theorem of_lt (hlower : k - 1 / 2 < q) (hupper : q < k + 1 / 2) : IsNearestInt q k := by
  have hlt : |q - k| < 1 / 2 := abs_lt.mpr ⟨by linarith, by linarith⟩
  exact ⟨hlt.le, fun h => absurd h hlt.ne⟩

theorem intCast (k : Int) : IsNearestInt k k := of_lt (by linarith) (by linarith)

theorem neg (h : IsNearestInt q k) : IsNearestInt (-q) (-k : Int) := by
  have habs : |-q - (-k : Int)| = |q - k| := by
    rw [← abs_neg (q - k)]
    congr 1
    push_cast
    ring
  exact ⟨habs ▸ h.close, fun hhalf => (h.even (habs ▸ hhalf)).neg⟩

/-- Different integers are at least one apart. -/
theorem one_le_add (hne : a ≠ k) : 1 ≤ |q - k| + |q - a| := by
  have hdist : (1 : Rat) ≤ |(k : Rat) - a| := by
    exact_mod_cast Int.one_le_abs (sub_ne_zero.mpr hne.symm)
  calc (1 : Rat) ≤ |(k : Rat) - a| := hdist
    _ ≤ |(k : Rat) - q| + |q - a| := abs_sub_le _ _ _
    _ = |q - k| + |q - a| := by rw [abs_sub_comm (k : Rat)]

theorem least (h : IsNearestInt q k) (a : Int) : |q - k| ≤ |q - a| := by
  rcases eq_or_ne a k with rfl | hne
  · exact le_rfl
  · linarith [h.close, one_le_add (q := q) hne]

theorem even_of_tie (h : IsNearestInt q k) (hne : a ≠ k) (htie : |q - a| = |q - k|) : Even k :=
  h.even (le_antisymm h.close (by linarith [one_le_add (q := q) hne]))

theorem unique (h : IsNearestInt q k) (ha : IsNearestInt q a) : a = k := by
  by_contra hne
  have htie : |q - a| = |q - k| := le_antisymm (ha.least k) (h.least a)
  obtain ⟨i, hi⟩ := h.even_of_tie hne htie
  obtain ⟨j, hj⟩ := ha.even_of_tie (Ne.symm hne) htie.symm
  -- Two even integers are too far apart for both to be within a half.
  have hdist : |(k : Rat) - a| ≤ 1 := by
    calc |(k : Rat) - a| ≤ |(k : Rat) - q| + |q - a| := abs_sub_le _ _ _
      _ = |q - k| + |q - a| := by rw [abs_sub_comm (k : Rat)]
      _ ≤ 1 := by linarith [h.close, ha.close]
  have hclose : |k - a| ≤ 1 := by exact_mod_cast hdist
  rw [abs_le] at hclose
  omega

end IsNearestInt

/-- The quotient of naturals is rounded to the nearest integer. -/
theorem isNearestInt_nearestEven (n : Nat) {d : Nat} (hd : 0 < d) :
    IsNearestInt (n / d) (nearestEven n d) := by
  have hdiv := Nat.div_add_mod n d
  have hmod := Nat.mod_lt n hd
  unfold nearestEven
  dsimp only
  generalize n / d = floor at hdiv ⊢
  generalize n % d = rest at hdiv hmod ⊢
  subst hdiv
  have hpos : (0 : Rat) < d := by exact_mod_cast hd
  have hquotient : ((d * floor + rest : Nat) : Rat) / d = floor + rest / d := by
    push_cast
    field_simp
  have hnonneg : (0 : Rat) ≤ rest / d := div_nonneg (Nat.cast_nonneg _) hpos.le
  have hone : (rest : Rat) / d < 1 := (div_lt_one₀ hpos).mpr (by exact_mod_cast hmod)
  rw [hquotient]
  split
  · rename_i hlow
    have hlt : (rest : Rat) / d < 1 / 2 := by
      rw [div_lt_div_iff₀ hpos two_pos]
      exact_mod_cast (by omega : rest * 2 < 1 * d)
    exact .of_lt (by push_cast; linarith) (by push_cast; linarith)
  · split
    · rename_i hhigh
      have hlt : 1 / 2 < (rest : Rat) / d := by
        rw [div_lt_div_iff₀ two_pos hpos]
        exact_mod_cast (by omega : 1 * d < rest * 2)
      exact .of_lt (by push_cast; linarith) (by push_cast; linarith)
    · have hhalf : (rest : Rat) / d = 1 / 2 := by
        rw [div_eq_div_iff hpos.ne' two_ne_zero]
        exact_mod_cast (by omega : rest * 2 = 1 * d)
      refine ⟨?_, fun _ => Int.even_iff.mpr (by omega)⟩
      rcases Nat.mod_two_eq_zero_or_one floor with hparity | hparity
      all_goals
        rw [hparity]
        exact abs_le.mpr ⟨by push_cast; linarith, by push_cast; linarith⟩

theorem abs_eq_natAbs_div (q : Rat) : |q| = q.num.natAbs / q.den := by
  have hpos : (0 : Rat) < q.den := by exact_mod_cast q.den_pos
  nth_rewrite 1 [← q.num_div_den]
  rw [abs_div, abs_of_pos hpos, Nat.cast_natAbs, Int.cast_abs]

namespace Binary64

/-- The nearest integer is the one that rounding to integers gives. -/
theorem isNearestInt_roundHalfEven (q : Rat) : IsNearestInt q (roundHalfEven q) := by
  have hnearest := isNearestInt_nearestEven q.num.natAbs q.den_pos
  rw [← abs_eq_natAbs_div] at hnearest
  unfold roundHalfEven
  dsimp only
  split
  · rename_i hneg
    rw [abs_of_neg hneg] at hnearest
    simpa only [neg_neg] using hnearest.neg
  · rename_i hnonneg
    rwa [abs_of_nonneg (not_lt.mp hnonneg)] at hnearest

theorem roundHalfEven_eq {q : Rat} {k : Int} (h : IsNearestInt q k) : roundHalfEven q = k :=
  h.unique (isNearestInt_roundHalfEven q)

/-- Whether the significand of a finite double is even. -/
def hasEvenSignificand : Binary64 → Bool
  | .finite _ m => m.significand % 2 = 0
  | _ => false

/-- The double is finite and as near to the number as any other that is, and if another value is as
near, its significand is even. -/
structure IsNearest (q : Rat) (y : Binary64) : Prop where
  finite : y.isFinite
  least : ∀ z : Binary64, z.isFinite → |q - y.toRat| ≤ |q - z.toRat|
  even : ∀ z : Binary64, z.isFinite → z.toRat ≠ y.toRat → |q - z.toRat| = |q - y.toRat| →
    y.hasEvenSignificand

end Binary64

/-! ## Magnitudes -/

namespace Magnitude

variable {m r : Magnitude} {n d : Nat}

theorem units_eq (m : Magnitude) : m.units = m.significand * 2 ^ m.scale := Nat.shiftLeft_eq _ _

theorem unitsPerOne_cast_pos : (0 : Rat) < unitsPerOne := by
  exact_mod_cast unitsPerOne_pos

theorem toRat_eq_div (m : Magnitude) : m.toRat = m.units / unitsPerOne := by
  rw [toRat, Rat.mkRat_eq_div]
  rfl

theorem toRat_zero : zero.toRat = 0 := by
  have hunits : zero.units = 0 := rfl
  rw [toRat_eq_div, hunits, Nat.cast_zero, zero_div]

theorem toRat_nonneg (m : Magnitude) : 0 ≤ m.toRat := by
  rw [toRat_eq_div]
  exact div_nonneg (Nat.cast_nonneg m.units) unitsPerOne_cast_pos.le

/-- Below the next scale what is rounded at most reaches it. -/
theorem nearestEven_scaleFor_le (n : Nat) (hd : 0 < d) :
    nearestEven n (d * 2 ^ scaleFor (n / d)) ≤ 2 ^ 53 := by
  have hlt := lt_scaleFor (n / d)
  rw [Nat.shiftLeft_eq, Nat.one_shiftLeft, Nat.div_lt_iff_lt_mul hd, Nat.mul_assoc,
    Nat.mul_comm _ d] at hlt
  exact nearestEven_le (Nat.mul_pos hd (Nat.two_pow_pos _)) hlt.le

/-- What is rounded is the significand, and where it gets too large it is a power of two. -/
theorem units_of_round? {hd : 0 < d} (h : round? n d hd = some m) :
    let scale := scaleFor (n / d)
    let significand := nearestEven n (d * 2 ^ scale)
    m.units = significand * 2 ^ scale ∧ (Even significand → m.significand % 2 = 0) := by
  intro scale significand
  have hle : significand ≤ 2 ^ 53 := nearestEven_scaleFor_le n hd
  unfold round? at h
  simp only [Nat.shiftLeft_eq d] at h
  split at h
  · split at h
    · obtain rfl := Option.some.inj h
      exact ⟨units_eq _, Nat.even_iff.mp⟩
    · cases h
  · rename_i hcarry
    split at h
    · obtain rfl := Option.some.inj h
      have hsignificand : significand = 2 ^ 53 := by
        rw [Nat.one_shiftLeft] at hcarry
        exact Nat.le_antisymm hle (Nat.not_lt.mp hcarry)
      have heven : (1 <<< 52) % 2 = 0 := by decide
      refine ⟨?_, fun _ => heven⟩
      change (1 <<< 52) <<< (scale + 1) = significand * 2 ^ scale
      rw [hsignificand, ← Nat.shiftLeft_add, Nat.one_shiftLeft, ← Nat.pow_add]
      congr 1
      omega
    · cases h

/-- A magnitude that lies on the grid of a scale, or below the least significand there. -/
theorem exists_mul_or_lt (r : Magnitude) (scale : Nat) :
    (∃ a, r.units = a * 2 ^ scale) ∨ scale ≠ 0 ∧ r.units < 2 ^ 52 * 2 ^ scale := by
  rcases Nat.lt_or_ge r.scale scale with hlt | hle
  · refine .inr ⟨Nat.ne_zero_of_lt hlt, Nat.lt_of_lt_of_le r.units_lt ?_⟩
    rw [← Nat.pow_add]
    exact Nat.pow_le_pow_right two_pos (by omega)
  · refine .inl ⟨r.significand * 2 ^ (r.scale - scale), ?_⟩
    rw [units_eq, Nat.mul_assoc, ← Nat.pow_add, Nat.sub_add_cancel hle]

/-- Of all magnitudes the rounded one is nearest to the quotient. -/
theorem least_of_round? {hd : 0 < d} (h : round? n d hd = some m) (r : Magnitude) :
    |(n / d : Rat) - m.units| ≤ |(n / d : Rat) - r.units| ∧
      (r.units ≠ m.units → |(n / d : Rat) - r.units| = |(n / d : Rat) - m.units| →
        m.significand % 2 = 0) := by
  obtain ⟨hunits, heven⟩ := units_of_round? h
  have hnearest := isNearestInt_nearestEven n
    (Nat.mul_pos hd (Nat.two_pow_pos (scaleFor (n / d))))
  have hscale : scaleFor (n / d) ≠ 0 → 2 ^ 52 * 2 ^ scaleFor (n / d) * d ≤ n := by
    intro hne
    have hle := scaleFor_le hne
    rwa [Nat.shiftLeft_eq, Nat.one_shiftLeft, Nat.le_div_iff_mul_le hd] at hle
  generalize nearestEven n (d * 2 ^ scaleFor (n / d)) = significand at hunits heven hnearest
  generalize scaleFor (n / d) = scale at hunits hnearest hscale
  have hpos : (0 : Rat) < d := by exact_mod_cast hd
  have hstep : (0 : Rat) < 2 ^ scale := pow_pos two_pos scale
  -- On the grid of the scale distances are those to integers.
  have hgrid (a : Nat) : |(n / d : Rat) - (a * 2 ^ scale : Nat)| =
      |(n / (d * 2 ^ scale : Nat) : Rat) - (a : Int)| * 2 ^ scale := by
    have hscaled : (n / d : Rat) - (a * 2 ^ scale : Nat) =
        (n / (d * 2 ^ scale : Nat) - (a : Int)) * 2 ^ scale := by
      push_cast
      field_simp
    rw [hscaled, abs_mul, abs_of_pos hstep]
  rw [hunits, hgrid]
  rcases r.exists_mul_or_lt scale with ⟨a, ha⟩ | ⟨hne, hlt⟩
  · rw [ha, hgrid]
    refine ⟨mul_le_mul_of_nonneg_right (hnearest.least a) hstep.le, fun hne htie => ?_⟩
    have hother : (a : Int) ≠ significand := by
      rintro hsame
      exact hne (by rw [Int.ofNat_inj.mp hsame])
    exact heven ((Int.even_coe_nat _).mp
      (hnearest.even_of_tie hother (mul_right_cancel₀ hstep.ne' htie)))
  · have hleast := mul_le_mul_of_nonneg_right (hnearest.least (2 ^ 52 : Nat)) hstep.le
    rw [← hgrid (2 ^ 52)] at hleast
    have hfloor : ((2 ^ 52 * 2 ^ scale : Nat) : Rat) ≤ n / d := by
      rw [le_div_iff₀ hpos]
      exact_mod_cast hscale hne
    have hbelow : (r.units : Rat) < (2 ^ 52 * 2 ^ scale : Nat) := by exact_mod_cast hlt
    have hfar : |(n / d : Rat) - (2 ^ 52 * 2 ^ scale : Nat)| < |(n / d : Rat) - r.units| := by
      rw [abs_of_nonneg (sub_nonneg.mpr hfloor),
        abs_of_nonneg (sub_nonneg.mpr (hbelow.le.trans hfloor))]
      exact sub_lt_sub_left hbelow _
    exact ⟨(hleast.trans_lt hfar).le, fun _ htie => absurd htie (hleast.trans_lt hfar).ne'⟩

end Magnitude

/-! ## Doubles -/

namespace Binary64

variable {x y z : Binary64} {q : Rat} {zeroNegative : Bool}

theorem exists_finite_of_isFinite (h : x.isFinite) : ∃ s m, x = .finite s m := by
  cases x with
  | finite s m => exact ⟨s, m, rfl⟩
  | nan | infinity => nomatch h

theorem toRat_finite (s : Bool) (m : Magnitude) :
    toRat (.finite s m) = if s then -m.toRat else m.toRat := by
  cases s <;> simp only [toRat, Bool.false_eq_true, if_false, if_true]

theorem isFinite_neg (hx : x.isFinite) : (-x).isFinite := by
  obtain ⟨s, m, rfl⟩ := exists_finite_of_isFinite hx
  rfl

theorem toRat_neg (hx : x.isFinite) : (-x).toRat = -x.toRat := by
  obtain ⟨s, m, rfl⟩ := exists_finite_of_isFinite hx
  change toRat (.finite (!s) m) = _
  cases s <;> simp [toRat_finite]

theorem abs_toRat_finite (s : Bool) (m : Magnitude) : |toRat (.finite s m)| = m.toRat := by
  rw [toRat_finite]
  split
  · rw [abs_neg, abs_of_nonneg m.toRat_nonneg]
  · rw [abs_of_nonneg m.toRat_nonneg]

theorem IsNearest.neg (h : IsNearest q y) : IsNearest (-q) (-y) := by
  have hdist {z : Binary64} (hz : z.isFinite) : |-q - z.toRat| = |q - (-z).toRat| := by
    rw [toRat_neg hz, ← abs_neg, neg_sub', neg_neg]
  have hneg : |-q - (-y).toRat| = |q - y.toRat| := by
    rw [toRat_neg h.finite, ← abs_neg, neg_sub', neg_neg, neg_neg]
  refine ⟨isFinite_neg h.finite, fun z hz => ?_, fun z hz hne htie => ?_⟩
  · rw [hneg, hdist hz]
    exact h.least (-z) (isFinite_neg hz)
  · rw [hneg, hdist hz] at htie
    have heven := h.even (-z) (isFinite_neg hz) (fun heq => hne ?_) htie
    · obtain ⟨s, m, rfl⟩ := exists_finite_of_isFinite h.finite
      exact heven
    · rw [toRat_neg h.finite, ← heq, toRat_neg hz, neg_neg]

/-- Where rounding is finite, it is a magnitude with the sign of the number. -/
theorem exists_of_isFinite_ofRat (h : (ofRat zeroNegative q).isFinite) :
    ∃ s m, ofRat zeroNegative q = .finite s m ∧
      Magnitude.round? (q.num.natAbs * Magnitude.unitsPerOne) q.den q.den_pos = some m ∧
      q = if s then -|q| else |q| := by
  unfold ofRat at h ⊢
  cases hround : Magnitude.round? (q.num.natAbs * Magnitude.unitsPerOne) q.den q.den_pos with
  | none =>
    rw [hround] at h
    nomatch h
  | some m =>
    refine ⟨_, m, rfl, rfl, ?_⟩
    rcases lt_trichotomy q 0 with hneg | rfl | hpos
    · simp [hneg, hneg.ne, abs_of_neg]
    · simp
    · simp [hpos.ne', not_lt.mpr hpos.le, abs_of_pos hpos]

/-! ## Distances -/

theorem abs_sub_same_sign (s : Bool) (a b : Rat) :
    |(if s then -a else a) - (if s then -b else b)| = |a - b| := by
  cases s with
  | false => rfl
  | true => rw [if_pos rfl, if_pos rfl, neg_sub_neg, abs_sub_comm]

theorem abs_sub_opposite_sign (s : Bool) {a b : Rat} (ha : 0 ≤ a) (hb : 0 ≤ b) :
    |(if s then -a else a) - (if !s then -b else b)| = a + b := by
  have hsum : |a + b| = a + b := abs_of_nonneg (add_nonneg ha hb)
  cases s with
  | false => rw [if_neg nofun, Bool.not_false, if_pos rfl, sub_neg_eq_add, hsum]
  | true => rw [if_pos rfl, Bool.not_true, if_neg nofun, ← neg_add', abs_neg, hsum]

/-- Magnitudes are no further apart than what they are the magnitudes of. -/
theorem abs_sub_toRat_le (q : Rat) (t : Bool) (r : Magnitude) :
    |(|q| - r.toRat)| ≤ |q - toRat (.finite t r)| := by
  rw [← abs_toRat_finite t r]
  exact abs_abs_sub_abs_le q _

/-- Rounding gives a magnitude that is nearest to that of the number. -/
theorem least_of_round?_units {m : Magnitude}
    (h : Magnitude.round? (q.num.natAbs * Magnitude.unitsPerOne) q.den q.den_pos = some m)
    (r : Magnitude) :
    |(|q| - m.toRat)| ≤ |(|q| - r.toRat)| ∧
      (r.toRat ≠ m.toRat → |(|q| - r.toRat)| = |(|q| - m.toRat)| → m.significand % 2 = 0) := by
  obtain ⟨hle, heven⟩ := Magnitude.least_of_round? h r
  have hpos := Magnitude.unitsPerOne_cast_pos
  have hunits (r : Magnitude) :
      |((q.num.natAbs * Magnitude.unitsPerOne : Nat) / q.den : Rat) - r.units| =
        |(|q| - r.toRat)| * Magnitude.unitsPerOne := by
    have hdiff : ((q.num.natAbs * Magnitude.unitsPerOne : Nat) / q.den : Rat) - r.units =
        (q.num.natAbs / q.den - r.units / Magnitude.unitsPerOne) * Magnitude.unitsPerOne := by
      rw [Nat.cast_mul]
      generalize (Magnitude.unitsPerOne : Rat) = one at hpos
      field_simp
    rw [abs_eq_natAbs_div q, r.toRat_eq_div, hdiff, abs_mul, abs_of_pos hpos]
  rw [hunits, hunits] at hle heven
  refine ⟨le_of_mul_le_mul_right hle hpos, fun hne htie => heven ?_ (by rw [htie])⟩
  intro hsame
  rw [r.toRat_eq_div, m.toRat_eq_div, hsame] at hne
  exact hne rfl

/-- Rounding gives a nearest double wherever it gives a finite one. -/
theorem isNearest_ofRat (h : (ofRat zeroNegative q).isFinite) :
    IsNearest q (ofRat zeroNegative q) := by
  obtain ⟨s, m, heq, hround, hsign⟩ := exists_of_isFinite_ofRat h
  have hdist : |q - toRat (.finite s m)| = |(|q| - m.toRat)| := by
    rw [toRat_finite, ← abs_sub_same_sign s |q|, ← hsign]
  rw [heq]
  refine ⟨rfl, fun z hz => ?_, fun z hz hne htie => ?_⟩
  · obtain ⟨t, r, rfl⟩ := exists_finite_of_isFinite hz
    rw [hdist]
    exact (least_of_round?_units hround r).1.trans (abs_sub_toRat_le q t r)
  · obtain ⟨t, r, rfl⟩ := exists_finite_of_isFinite hz
    obtain ⟨hle, heven⟩ := least_of_round?_units hround r
    have hsame : |(|q| - r.toRat)| = |(|q| - m.toRat)| :=
      le_antisymm ((abs_sub_toRat_le q t r).trans (by rw [htie, hdist])) hle
    refine decide_eq_true (heven (fun hr => hne ?_) hsame)
    -- With the same magnitude the other double has the same sign, or both are zero.
    rcases eq_or_ne t s with rfl | hopposite
    · rw [toRat_finite, toRat_finite, hr]
    · have hsum : |q - toRat (.finite t r)| = |q| + m.toRat := by
        rw [toRat_finite, hr, Bool.eq_not_of_ne hopposite,
          ← abs_sub_opposite_sign s (abs_nonneg q) m.toRat_nonneg, ← hsign]
      have hzero := (least_of_round?_units hround .zero).1
      rw [Magnitude.toRat_zero, sub_zero, abs_abs] at hzero
      have hm : m.toRat = 0 := by
        linarith [m.toRat_nonneg, hsum.symm.trans (htie.trans hdist)]
      simp [toRat_finite, hr, hm]

end Binary64

end MetricFormula
