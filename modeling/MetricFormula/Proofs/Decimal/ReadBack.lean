import Mathlib.Algebra.Group.Nat.Defs
import MetricFormula.Decimal.Shortest

/-! # Decimals that read back

A decimal that is exactly a double reads back as it (`Decimal.toBinary64_of_toRat`), and so does the
shortest decimal of a double (`Decimal.toBinary64_shortest`). -/

namespace MetricFormula

variable {d : Decimal} {m : Magnitude} {x : Binary64}

/-! ## Doubles as quotients -/

theorem num_of_eq_mkRat {q : Rat} {n u : Nat} (hu : 0 < u) (h : q = mkRat n u) :
    0 ≤ q.num ∧ q.num.natAbs * u = n * q.den := by
  have hself : mkRat q.num q.den = mkRat n u := (Rat.mkRat_self q).trans h
  have hcross : q.num * u = n * q.den := (Rat.mkRat_eq_iff q.den_nz (Nat.ne_of_gt hu)).mp hself
  have hnonneg : 0 ≤ q.num := by
    refine Int.nonneg_of_mul_nonneg_left ?_ (Int.natCast_pos.mpr hu)
    rw [hcross]
    exact Int.mul_nonneg (Int.natCast_nonneg n) (Int.natCast_nonneg q.den)
  refine ⟨hnonneg, ?_⟩
  have := congrArg Int.natAbs hcross
  rwa [Int.natAbs_mul, Int.natAbs_mul, Int.natAbs_natCast, Int.natAbs_natCast,
    Int.natAbs_natCast] at this

namespace Magnitude

/-- How many units make one, with a name for the exponent `1074`, whose powers are not to be
computed. -/
theorem exists_unitsPerOne_eq : ∃ k, k = 1074 ∧ unitsPerOne = 2 ^ k := by
  have hshift : ∃ k, k = 1074 ∧ unitsPerOne = 1 <<< k := ⟨1074, rfl, rfl⟩
  obtain ⟨k, hk, hunits⟩ := hshift
  exact ⟨k, hk, hunits.trans (Nat.one_shiftLeft k)⟩

theorem unitsPerOne_pos : 0 < unitsPerOne := by
  obtain ⟨k, _, hunits⟩ := exists_unitsPerOne_eq
  rw [hunits]
  exact Nat.two_pow_pos k

/-- A finite double rounds to itself. -/
theorem ofRat_toRat (m : Magnitude) : Binary64.ofRat false m.toRat = .finite false m := by
  have hrat : m.toRat = mkRat m.units unitsPerOne := by rw [toRat]
  generalize m.toRat = q at hrat ⊢
  obtain ⟨hnonneg, hround⟩ := num_of_eq_mkRat unitsPerOne_pos hrat
  have hsign : ¬q < 0 := Rat.not_lt.mpr (Rat.num_nonneg.mp hnonneg)
  have hnegative : (if q = 0 then false else decide (q < 0)) = false := by simp [hsign]
  rw [Binary64.ofRat, hnegative]
  simp only [hround, round?_units]
  rfl

theorem units_lt (m : Magnitude) : m.units < 2 ^ (53 + m.scale) := by
  have hsignificand : m.significand < 2 ^ 53 := by
    rw [← Nat.one_shiftLeft]
    exact m.significand_lt
  rw [units, Nat.shiftLeft_eq, Nat.pow_add]
  exact Nat.mul_lt_mul_of_pos_right hsignificand (Nat.two_pow_pos m.scale)

theorem eq_zero (h : m.significand = 0) : m = .zero := by
  obtain ⟨significand, scale, _, _, hnormal⟩ := m
  obtain rfl : significand = 0 := h
  rcases hnormal with hnormal | rfl
  · exact absurd hnormal (by decide)
  · rfl

theorem units_pos (h : m.significand ≠ 0) : 0 < m.units := by
  rw [units, Nat.shiftLeft_eq]
  exact Nat.mul_pos (Nat.pos_of_ne_zero h) (Nat.two_pow_pos m.scale)

end Magnitude

/-- Rounding does not depend on the side of zero. -/
theorem Binary64.ofRat_neg (s : Bool) (q : Rat) : ofRat (!s) (-q) = (ofRat s q).neg := by
  have hsign : (if -q = 0 then !s else decide (-q < 0)) =
      !(if q = 0 then s else decide (q < 0)) := by
    by_cases hzero : q = 0
    · subst hzero
      rfl
    · have hneg : -q ≠ 0 := by grind
      have hsides : -q < 0 ↔ ¬q < 0 := by grind
      rw [if_neg hzero, if_neg hneg, ← decide_not, decide_eq_decide.mpr hsides]
  rw [ofRat, ofRat, hsign]
  simp only [Rat.neg_num, Int.natAbs_neg, Rat.neg_den]
  cases Magnitude.round? (q.num.natAbs * Magnitude.unitsPerOne) q.den q.den_pos <;> rfl

namespace Decimal

/-! ## Exact decimals -/

theorem pow_ten_ne_zero (n : Nat) : 10 ^ n ≠ 0 := Nat.ne_of_gt (Nat.pow_pos (by decide))

theorem toRat_eq_mkRat (d : Decimal) :
    d.toRat = mkRat (d.coefficient * 10 ^ d.exponent.toNat : Nat) (10 ^ (-d.exponent).toNat) := by
  rw [toRat]
  split
  · rename_i h
    rw [show (-d.exponent).toNat = 0 by omega]
    rfl
  · rename_i h
    rw [show d.exponent.toNat = 0 by omega, Nat.pow_zero, Nat.mul_one]
    rfl

/-- That a decimal is exactly a magnitude, said without fractions. -/
theorem toRat_eq_iff :
    d.toRat = m.toRat ↔
      d.coefficient * 10 ^ d.exponent.toNat * Magnitude.unitsPerOne =
        m.units * 10 ^ (-d.exponent).toNat := by
  rw [toRat_eq_mkRat, Magnitude.toRat, Rat.mkRat_eq_iff]
  · norm_cast
  · exact pow_ten_ne_zero _
  · exact Nat.ne_of_gt Magnitude.unitsPerOne_pos

theorem toRat_strip (d : Decimal) : d.strip.toRat = d.toRat := by
  fun_induction strip d with
  | case1 d h ih =>
    have hcoefficient : d.coefficient / 10 * 10 = d.coefficient :=
      Nat.div_mul_cancel (Nat.dvd_of_mod_eq_zero h.2)
    have hexponents : (d.exponent + 1).toNat + (-d.exponent).toNat =
        1 + (d.exponent.toNat + (-(d.exponent + 1)).toNat) := by omega
    have hcross : d.coefficient / 10 * 10 ^ (d.exponent + 1).toNat * 10 ^ (-d.exponent).toNat =
        d.coefficient * 10 ^ d.exponent.toNat * 10 ^ (-(d.exponent + 1)).toNat := by
      rw [Nat.mul_assoc, ← Nat.pow_add, hexponents, Nat.pow_add, Nat.pow_one, ← Nat.mul_assoc,
        hcoefficient, Nat.pow_add, Nat.mul_assoc]
    rw [ih, toRat_eq_mkRat, toRat_eq_mkRat, Rat.mkRat_eq_iff]
    · exact_mod_cast hcross
    · exact pow_ten_ne_zero _
    · exact pow_ten_ne_zero _
  | case2 d h => rfl

theorem coefficient_strip_ne_zero (h : d.coefficient ≠ 0) : d.strip.coefficient ≠ 0 := by
  fun_induction strip d with
  | case1 d hd ih => exact ih (by dsimp only; omega)
  | case2 d hd => exact h

theorem pow_two_le_pow_ten (n : Nat) : 2 ^ (3 * n) ≤ 10 ^ n := by
  rw [Nat.pow_mul]
  exact Nat.pow_le_pow_left (by decide) n

/-- Doubles are below the powers of ten that are settled as too large. -/
theorem exponent_lt_of_toRat (h : d.toRat = m.toRat) (hd : d.coefficient ≠ 0) :
    d.exponent < 400 := by
  refine Int.not_le.mp fun hge => ?_
  have hunits := toRat_eq_iff.mp h
  rw [show (-d.exponent).toNat = 0 by omega, Nat.pow_zero, Nat.mul_one] at hunits
  have hlarge : 2 ^ (3 * d.exponent.toNat) ≤ d.coefficient * 10 ^ d.exponent.toNat :=
    calc 2 ^ (3 * d.exponent.toNat) ≤ 10 ^ d.exponent.toNat := pow_two_le_pow_ten _
      _ ≤ d.coefficient * 10 ^ d.exponent.toNat :=
        Nat.le_mul_of_pos_left _ (Nat.pos_of_ne_zero hd)
  obtain ⟨k, hk, hone⟩ := Magnitude.exists_unitsPerOne_eq
  have hpow : 2 ^ (3 * d.exponent.toNat + k) < 2 ^ (53 + m.scale) :=
    calc 2 ^ (3 * d.exponent.toNat + k) = 2 ^ (3 * d.exponent.toNat) * 2 ^ k := Nat.pow_add ..
      _ ≤ d.coefficient * 10 ^ d.exponent.toNat * 2 ^ k := Nat.mul_le_mul_right _ hlarge
      _ = m.units := by rw [← hone, hunits]
      _ < 2 ^ (53 + m.scale) := m.units_lt
  have hlt := (Nat.pow_lt_pow_iff_right (by decide)).mp hpow
  have hscale := m.scale_le
  omega

/-- Doubles that are not zero are above the powers of two that are settled as too small. -/
theorem lt_log2_of_toRat (h : d.toRat = m.toRat) (hm : m.significand ≠ 0) :
    -1075 < d.coefficient.log2 + 1 + 3 * d.exponent := by
  rcases Int.le_total 0 d.exponent with hexponent | hexponent
  · omega
  have hunits := toRat_eq_iff.mp h
  obtain ⟨k, hk, hone⟩ := Magnitude.exists_unitsPerOne_eq
  rw [show d.exponent.toNat = 0 by omega, Nat.pow_zero, Nat.mul_one, hone] at hunits
  have hpow : 2 ^ (3 * (-d.exponent).toNat) < 2 ^ (d.coefficient.log2 + 1 + k) :=
    calc 2 ^ (3 * (-d.exponent).toNat) ≤ 10 ^ (-d.exponent).toNat := pow_two_le_pow_ten _
      _ ≤ m.units * 10 ^ (-d.exponent).toNat := Nat.le_mul_of_pos_left _ (m.units_pos hm)
      _ = d.coefficient * 2 ^ k := hunits.symm
      _ < 2 ^ (d.coefficient.log2 + 1) * 2 ^ k :=
        Nat.mul_lt_mul_of_pos_right Nat.lt_log2_self (Nat.two_pow_pos k)
      _ = 2 ^ (d.coefficient.log2 + 1 + k) := (Nat.pow_add ..).symm
  have hlt := (Nat.pow_lt_pow_iff_right (by decide)).mp hpow
  omega

/-- What is neither too large nor too small is rounded. -/
theorem toBinary64_eq_ofRat (hd : d.coefficient ≠ 0) (hexponent : d.exponent < 400)
    (hlog : -1075 < d.coefficient.log2 + 1 + 3 * d.exponent) :
    d.toBinary64 false = .ofRat false d.toRat := by
  rw [toBinary64, if_neg hd, if_neg (by omega), if_neg (by omega), if_neg nofun]

/-- A decimal that is exactly a double reads back as it. -/
theorem toBinary64_of_toRat (h : d.toRat = m.toRat) (hm : m.significand ≠ 0)
    (hd : d.coefficient ≠ 0) : d.toBinary64 false = .finite false m := by
  have hexponent := exponent_lt_of_toRat h hd
  have hlog := lt_log2_of_toRat h hm
  rw [toBinary64_eq_ofRat hd hexponent hlog, h, m.ofRat_toRat]

/-- No decimal that is settled as too large reads back as a finite double. -/
theorem exponent_lt_of_toBinary64 (h : d.toBinary64 false = .finite false m)
    (hm : m.significand ≠ 0) : d.exponent < 400 := by
  refine Int.not_le.mp fun hge => ?_
  rw [toBinary64, if_pos hge] at h
  split at h
  · cases h
    exact hm rfl
  · cases h

/-! ## Shortest decimals -/

/-- One unit of a magnitude is `5 ^ 1074 · 10 ^ -1074`, as `2 ^ -n` is `5 ^ n · 10 ^ -n`. -/
theorem toRat_pow_five (units n : Nat) :
    toRat ⟨units * Nat.pow 5 n, -n⟩ = mkRat units (2 ^ n) := by
  have hten : 5 ^ n * 2 ^ n = 10 ^ n := (Nat.mul_pow 5 2 n).symm
  have hcross : units * Nat.pow 5 n * 10 ^ (-n : Int).toNat * 2 ^ n =
      units * 10 ^ (- -(n : Int)).toNat := by
    rw [show (-n : Int).toNat = 0 by omega, show (- -(n : Int)).toNat = n by omega, Nat.pow_zero,
      Nat.mul_one, Nat.mul_assoc, Nat.pow_eq, hten]
  rw [toRat_eq_mkRat, Rat.mkRat_eq_iff]
  · exact_mod_cast hcross
  · exact pow_ten_ne_zero _
  · exact Nat.ne_of_gt (Nat.two_pow_pos n)

/-- The exact value of a magnitude, with the same name for `1074`. -/
theorem exists_exact_eq (m : Magnitude) :
    ∃ k : Nat, k = 1074 ∧ exact m = strip ⟨m.units * Nat.pow 5 k, -k⟩ := ⟨1074, rfl, rfl⟩

theorem toRat_exact (m : Magnitude) : (exact m).toRat = m.toRat := by
  obtain ⟨n, hn, hone⟩ := Magnitude.exists_unitsPerOne_eq
  obtain ⟨k, hk, hexact⟩ := exists_exact_eq m
  rw [hexact, toRat_strip, toRat_pow_five, Magnitude.toRat, hone, hk.trans hn.symm]

theorem coefficient_exact_ne_zero (hm : m.significand ≠ 0) : (exact m).coefficient ≠ 0 := by
  obtain ⟨k, _, hexact⟩ := exists_exact_eq m
  have hpos : 0 < m.units * Nat.pow 5 k :=
    Nat.mul_pos (m.units_pos hm) (Nat.pow_pos (by decide))
  rw [hexact]
  exact coefficient_strip_ne_zero (Nat.ne_of_gt hpos)

theorem toBinary64_gridPoint? {tie : Tie} {q : Rat} {exponent : Int}
    (h : gridPoint? tie x q exponent = some d) : d.toBinary64 false = x := by
  simp only [gridPoint?] at h
  split at h
  · rename_i hlower
    split at h
    · rename_i hupper
      split at h
      · cases h
        exact hlower
      · split at h
        · cases h
          exact hupper
        · cases tie with
          | up =>
            cases h
            exact hupper
          | even =>
            cases h
            split
            · exact hlower
            · exact hupper
    · cases h
      exact hlower
  · split at h
    · rename_i hupper
      cases h
      exact hupper
    · cases h

/-- The shortest decimal of a double reads back as it. -/
theorem toBinary64_shortest (tie : Tie) (hm : m.significand ≠ 0) :
    (shortest tie m).toBinary64 false = .finite false m := by
  have hexact := toBinary64_of_toRat (toRat_exact m) hm (coefficient_exact_ne_zero hm)
  rw [shortest]
  generalize exact m = d at hexact ⊢
  simp only [Option.getD]
  split
  · rename_i d' hgrid
    obtain ⟨digits, _, hpoint⟩ := List.exists_of_findSome?_eq_some hgrid
    exact toBinary64_gridPoint? hpoint
  · exact hexact

end Decimal
end MetricFormula
