import MetricFormula.Proofs.Binary64.IntegerRounding

/-! # Decimal places

Rounding at a decimal place whose power of ten is a double. The scaled number is rounded to the
nearest integer, and the double nearest to what that integer stands for is the result
(`Binary64.roundAt_eq`), as long as the scaled number is at most `2 ^ 53`. Beyond, it has been rounded
to a double before, and nothing tells how much that has lost (`Binary64.roundAt_eq_of_large`). -/

namespace MetricFormula
namespace Binary64

variable {x y : Binary64} {q r : Rat} {s : Bool} {d k : Int} {n : Nat}

/-! ## Powers of ten -/

/-- The double is exactly that power of ten. -/
structure IsPowerOfTen (f : Binary64) (n : Nat) : Prop where
  finite : f.isFinite
  positive : f.isNegative = false
  value : f.toRat = 10 ^ (n : Int)

theorem isPowerOfTen_powNat (h : n ≤ greatestExactExponent) : IsPowerOfTen (ten.powNat n) n := by
  have hall : ∀ n : Fin (greatestExactExponent + 1), (ten.powNat n).isFinite ∧
      (ten.powNat n).isNegative = false ∧ (ten.powNat n).toRat = (10 ^ n.val : Nat) := by
    decide +kernel
  obtain ⟨hfinite, hpositive, hvalue⟩ := hall ⟨n, Nat.lt_succ_of_le h⟩
  exact ⟨hfinite, hpositive, by rw [hvalue, zpow_natCast, Nat.cast_pow, Nat.cast_ofNat]⟩

namespace IsPowerOfTen

variable {f : Binary64}

theorem value_pos (hf : IsPowerOfTen f n) : 0 < f.toRat := by
  rw [hf.value]
  exact zpow_pos (by norm_num) _

/-- Scaling keeps the sign, also that of a zero. -/
theorem mul_eq (hf : IsPowerOfTen f n) (hx : x.isFinite) (hs : x.toRat = 0 → x.isNegative = s) :
    x * f = ofRat s (x.toRat * 10 ^ (n : Int)) := by
  rw [Binary64.mul_eq hx hf.finite, hf.positive, Bool.bne_false, ← hf.value]
  exact ofRat_congr fun h => hs ((mul_eq_zero_iff_right hf.value_pos.ne').mp h)

theorem div_eq (hf : IsPowerOfTen f n) (hx : x.isFinite) (hs : x.toRat = 0 → x.isNegative = s) :
    x / f = ofRat s (x.toRat * 10 ^ (-n : Int)) := by
  rw [Binary64.div_eq hx hf.finite hf.value_pos.ne', hf.positive, Bool.bne_false, zpow_neg,
    ← hf.value, ← div_eq_mul_inv]
  exact ofRat_congr fun h => hs ((div_eq_zero_iff.mp h).resolve_right hf.value_pos.ne')

end IsPowerOfTen

/-- A zero keeps the sign it is given. -/
theorem isNegative_ofRat_of_isDouble (hr : IsDouble r) (h : (ofRat s r).toRat = 0) :
    (ofRat s r).isNegative = s := by
  rw [toRat_ofRat s hr] at h
  rw [isNegative_ofRat, if_pos h]

/-! ## What scaling loses -/

/-- A positive multiple of what is lacking, as far as it is a whole number of units. -/
theorem isErrorOf_ofRat {c : Rat} (s : Bool) (hc : 0 < c)
    (h : ∃ a : Int, (q - x.toRat) * c = a / Magnitude.unitsPerOne) :
    IsErrorOf q x (ofRat s ((q - x.toRat) * c)) := by
  obtain ⟨a, ha⟩ := h
  have hunit := Magnitude.unitsPerOne_cast_pos
  have hzero : a = 0 ↔ (q - x.toRat) * c = 0 := by
    rw [ha, div_eq_zero_iff, or_iff_left hunit.ne', Int.cast_eq_zero]
  have hpos : 0 < a ↔ 0 < (q - x.toRat) * c := by
    rw [ha, div_pos_iff_of_pos_right hunit, Int.cast_pos]
  constructor
  · rw [ha, isZero_ofRat_units, hzero, mul_eq_zero_iff_right hc.ne', sub_eq_zero]
  · rw [ha, zero_below_ofRat_units, hpos, mul_pos_iff_of_pos_right hc, sub_pos]

theorem exists_units_sub_mul (hx : x.isFinite) (hy : y.isFinite) (n : Nat) :
    ∃ a : Int, x.toRat - y.toRat * 10 ^ (n : Int) = a / Magnitude.unitsPerOne := by
  obtain ⟨a, ha⟩ := exists_units hx
  obtain ⟨b, hb⟩ := exists_units hy
  refine ⟨a - b * 10 ^ n, ?_⟩
  rw [ha, hb, zpow_natCast]
  push_cast
  ring

/-! ## Scaling forth and back -/

/-- The scaled number and what it lacks decide how the number is rounded. -/
structure ScalesTo (x : Binary64) (d : Int) (scaled error : Binary64) : Prop where
  isErrorOf : IsErrorOf (x.toRat * 10 ^ d) scaled error
  roundAt_eq : ∀ r, IsDouble r → roundWithError scaled error = ofRat x.isNegative r →
    roundAt x d = ofRat x.isNegative (r * 10 ^ (-d))

theorem roundAt_of_pos (hx : x.isFinite) (hn : n ≤ greatestExactExponent) (hpos : 0 < n) :
    roundAt x n =
      let factor := ten.powNat n
      let scaled := x * factor
      if scaled.isFinite then roundWithError scaled (x.mulAdd factor (-scaled)) / factor else x := by
  rw [roundAt, if_neg (by simp [hx]; omega)]
  simp only [Int.natAbs_natCast, hn, Int.natCast_pos.mpr hpos, decide_true, if_true]

theorem roundAt_of_neg (hx : x.isFinite) (hn : n ≤ greatestExactExponent) (hpos : 0 < n) :
    roundAt x (-n) =
      let factor := ten.powNat n
      let scaled := x / factor
      roundWithError scaled (-scaled.mulAdd factor (-x)) * factor := by
  have hneg : ¬0 < (-n : Int) := by omega
  rw [roundAt, if_neg (by simp [hx]; omega)]
  simp only [Int.natAbs_neg, Int.natAbs_natCast, hn, hneg, decide_true, if_true, if_false]

theorem scalesTo_of_pos (hx : x.isFinite) (hn : n ≤ greatestExactExponent) (hpos : 0 < n)
    (hscaled : (ofRat x.isNegative (x.toRat * 10 ^ (n : Int))).isFinite) :
    ∃ error, ScalesTo x n (ofRat x.isNegative (x.toRat * 10 ^ (n : Int))) error := by
  have hf := isPowerOfTen_powNat hn
  have hround := roundAt_of_pos hx hn hpos
  dsimp only at hround
  rw [hf.mul_eq hx fun _ => rfl] at hround
  generalize ofRat x.isNegative (x.toRat * 10 ^ (n : Int)) = scaled at hscaled hround ⊢
  obtain ⟨s, herror⟩ := mulAdd_eq hx hf.finite (isFinite_neg hscaled)
  rw [hf.value, toRat_neg hscaled, ← sub_eq_add_neg, ← mul_one (_ - scaled.toRat)] at herror
  refine ⟨x.mulAdd (ten.powNat n) (-scaled), ?_, fun r hr hinteger => ?_⟩
  · rw [herror]
    refine isErrorOf_ofRat s one_pos ?_
    obtain ⟨a, ha⟩ := exists_units_sub_mul hscaled hx n
    refine ⟨-a, ?_⟩
    rw [Int.cast_neg, neg_div, ← ha]
    ring
  · rw [if_pos hscaled, hinteger] at hround
    rw [hround, hf.div_eq (isFinite_ofRat_of_isDouble _ hr) (isNegative_ofRat_of_isDouble hr),
      toRat_ofRat _ hr]

theorem scalesTo_of_neg (hx : x.isFinite) (hn : n ≤ greatestExactExponent) (hpos : 0 < n)
    (hscaled : (ofRat x.isNegative (x.toRat * 10 ^ (-n : Int))).isFinite) :
    ∃ error, ScalesTo x (-n) (ofRat x.isNegative (x.toRat * 10 ^ (-n : Int))) error := by
  have hf := isPowerOfTen_powNat hn
  have hten : (10 : Rat) ^ (-n : Int) * 10 ^ (n : Int) = 1 := by
    rw [zpow_neg, inv_mul_cancel₀ (zpow_ne_zero _ (by norm_num))]
  have hround := roundAt_of_neg hx hn hpos
  dsimp only at hround
  rw [hf.div_eq hx fun _ => rfl] at hround
  generalize ofRat x.isNegative (x.toRat * 10 ^ (-n : Int)) = scaled at hscaled hround ⊢
  obtain ⟨s, hexcess⟩ := mulAdd_eq hscaled hf.finite (isFinite_neg hx)
  have herror : -scaled.mulAdd (ten.powNat n) (-x) =
      ofRat (!s) ((x.toRat * 10 ^ (-n : Int) - scaled.toRat) * 10 ^ (n : Int)) := by
    have hsides : (x.toRat * 10 ^ (-n : Int) - scaled.toRat) * 10 ^ (n : Int) =
        -(scaled.toRat * 10 ^ (n : Int) + -x.toRat) := by
      rw [sub_mul, mul_assoc, hten]
      ring
    rw [hexcess, hf.value, toRat_neg hx, hsides, ofRat_neg]
    rfl
  refine ⟨-scaled.mulAdd (ten.powNat n) (-x), ?_, fun r hr hinteger => ?_⟩
  · rw [herror]
    refine isErrorOf_ofRat (!s) (zpow_pos (by norm_num) _) ?_
    obtain ⟨a, ha⟩ := exists_units_sub_mul hx hscaled n
    refine ⟨a, ?_⟩
    rw [← ha, sub_mul, mul_assoc, hten, mul_one]
  · rw [hinteger] at hround
    rw [hround, hf.mul_eq (isFinite_ofRat_of_isDouble _ hr) (isNegative_ofRat_of_isDouble hr),
      toRat_ofRat _ hr, neg_neg]

/-- Nothing is lost where nothing is scaled. -/
theorem scalesTo_zero (x : Binary64) : ScalesTo x 0 x zero := by
  have hround : roundAt x 0 = roundWithError x zero := by
    have hzero : zero.isZero = true := rfl
    rw [roundAt, roundWithError, hzero, Bool.or_true, if_pos rfl]
    rfl
  refine ⟨⟨?_, ?_⟩, fun r _ hinteger => ?_⟩
  · rw [zpow_zero, mul_one]
    exact iff_of_true rfl rfl
  · rw [zpow_zero, mul_one]
    exact iff_of_false (by decide +kernel) (lt_irrefl _)
  · rw [hround, hinteger, neg_zero, zpow_zero, mul_one]

theorem exists_scalesTo (hx : x.isFinite) (hd : d.natAbs ≤ greatestExactExponent)
    (hscaled : (ofRat x.isNegative (x.toRat * 10 ^ d)).isFinite) :
    ∃ error, ScalesTo x d (ofRat x.isNegative (x.toRat * 10 ^ d)) error := by
  rcases lt_trichotomy d 0 with hneg | rfl | hpos
  · obtain ⟨n, hn⟩ := Int.eq_ofNat_of_zero_le (neg_nonneg.mpr hneg.le)
    obtain rfl : d = -n := by omega
    exact scalesTo_of_neg hx (by omega) (by omega) hscaled
  · rw [zpow_zero, mul_one, ofRat_toRat hx fun _ => rfl]
    exact ⟨zero, scalesTo_zero x⟩
  · obtain ⟨n, rfl⟩ := Int.eq_ofNat_of_zero_le hpos.le
    exact scalesTo_of_pos hx (by omega) (by omega) hscaled

/-! ## The rounded number -/

/-- The scaled number has the sign of the number. -/
theorem isNegative_scaled (hx : x.isFinite) (d : Int) :
    (ofRat x.isNegative (x.toRat * 10 ^ d)).isNegative = x.isNegative := by
  have hpos : (0 : Rat) < 10 ^ d := zpow_pos (by norm_num) d
  rw [isNegative_ofRat]
  split
  · rfl
  · rename_i hne
    have hx' : x.toRat ≠ 0 := fun h => hne (by rw [h, zero_mul])
    rw [Bool.eq_iff_iff, decide_eq_true_iff, isNegative_iff hx hx']
    exact ⟨fun h => neg_of_mul_neg_left h hpos.le, fun h => mul_neg_of_neg_of_pos h hpos⟩

/-- Up to `2 ^ 53` the scaled number is rounded to the nearest integer, and what that stands for to the
nearest double. -/
theorem roundAt_eq (hx : x.isFinite) (hd : d.natAbs ≤ greatestExactExponent)
    (hle : |x.toRat * 10 ^ d| ≤ 2 ^ 53) (hk : IsNearestInt (x.toRat * 10 ^ d) k) :
    roundAt x d = ofRat x.isNegative (k * 10 ^ (-d)) := by
  have hscaled : (ofRat x.isNegative (x.toRat * 10 ^ d)).isFinite :=
    isFinite_ofRat_of_abs_lt _ 54 (hle.trans_lt (by norm_num)) (by norm_num)
  obtain ⟨error, herror⟩ := exists_scalesTo hx hd hscaled
  refine herror.roundAt_eq k (.intCast (natAbs_le_of_close hle hk.close)) ?_
  rw [roundWithError_eq (isNearest_ofRat hscaled) herror.isErrorOf hle hk, isNegative_scaled hx]

/-- What is rounded up to `2 ^ 53` is far from being too large when it is scaled back. -/
theorem isNearest_ofRat_scaled_back (s : Bool) (hd : d.natAbs ≤ greatestExactExponent)
    (hk : k.natAbs ≤ 2 ^ 53) : IsNearest (k * 10 ^ (-d)) (ofRat s (k * 10 ^ (-d))) := by
  refine isNearest_ofRat (isFinite_ofRat_of_abs_lt s 200 ?_ (by norm_num))
  have hfactor : (0 : Rat) < 10 ^ (-d) := zpow_pos (by norm_num) _
  have hbound : (10 : Rat) ^ (-d) ≤ 10 ^ (22 : Int) := by
    refine zpow_le_zpow_right₀ (by norm_num) ?_
    unfold greatestExactExponent at hd
    omega
  have hinteger : |(k : Rat)| ≤ 2 ^ 53 := by
    rw [← Int.cast_abs, Int.abs_eq_natAbs]
    exact_mod_cast hk
  calc |(k : Rat) * 10 ^ (-d)| = |(k : Rat)| * 10 ^ (-d) := by rw [abs_mul, abs_of_pos hfactor]
    _ ≤ 2 ^ 53 * 10 ^ (22 : Int) := mul_le_mul hinteger hbound hfactor.le (by norm_num)
    _ < 2 ^ 200 := by norm_num

/-- An integer stays as it is. -/
theorem roundAt_of_isInteger (hx : x.isFinite) (ha : x.toRat = k)
    (hd : d.natAbs ≤ greatestExactExponent) (hnonneg : 0 ≤ d) (hle : |x.toRat * 10 ^ d| ≤ 2 ^ 53) : roundAt x d = x := by
  obtain ⟨n, rfl⟩ := Int.eq_ofNat_of_zero_le hnonneg
  have hscaled : x.toRat * 10 ^ (n : Int) = (k * 10 ^ n : Int) := by
    rw [ha, zpow_natCast]
    push_cast
    rfl
  have hback : ((k * 10 ^ n : Int) : Rat) * 10 ^ (-n : Int) = x.toRat := by
    rw [← hscaled, zpow_neg, mul_inv_cancel_right₀ (zpow_ne_zero _ (by norm_num))]
  have hnearest : IsNearestInt (x.toRat * 10 ^ (n : Int)) (k * 10 ^ n) := by
    rw [hscaled]
    exact .intCast _
  rw [roundAt_eq hx hd hle hnearest, hback, ofRat_toRat hx fun _ => rfl]

/-- Beyond `2 ^ 53` the scaled number is rounded to a double, which is an integer, and nothing more is
done to it. -/
theorem roundAt_eq_of_large (hx : x.isFinite) (hd : d.natAbs ≤ greatestExactExponent)
    (hscaled : (ofRat x.isNegative (x.toRat * 10 ^ d)).isFinite) (hge : 2 ^ 53 ≤ |x.toRat * 10 ^ d|) :
    roundAt x d =
      ofRat x.isNegative ((ofRat x.isNegative (x.toRat * 10 ^ d)).toRat * 10 ^ (-d)) := by
  obtain ⟨error, herror⟩ := exists_scalesTo hx hd hscaled
  have hlarge := (isNearest_ofRat hscaled).le_abs_toRat .two_pow_fifty_two
    (le_trans (by norm_num) hge)
  obtain ⟨a, ha, _⟩ := exists_intCast_of_le_abs hscaled hlarge
  refine herror.roundAt_eq _ ⟨_, hscaled, rfl⟩ ?_
  rw [roundWithError_intCast hscaled ha, isNegative_scaled hx, ha]

end Binary64
end MetricFormula
