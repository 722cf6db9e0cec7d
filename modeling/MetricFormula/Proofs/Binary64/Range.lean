import MetricFormula.Proofs.Decimal.ReadBack

/-! # The range of doubles

Rounding has a finite result unless the value is too large, and no integer of 64 bits is. -/

namespace MetricFormula

theorem Magnitude.isSome_round? {n d : Nat} (hd : 0 < d) (h : (n / d).log2 < 2096) :
    (round? n d hd).isSome := by
  have hscale : scaleFor (n / d) + 1 ≤ 2045 := by
    unfold scaleFor
    omega
  unfold round?
  dsimp only
  split
  · rw [dif_pos (Nat.le_of_succ_le hscale)]
    rfl
  · rfl

namespace Binary64

theorem isFinite_ofMagnitude? {negative : Bool} {m : Option Magnitude} (h : m.isSome) :
    (ofMagnitude? negative m).isFinite := by
  obtain ⟨m, rfl⟩ := Option.isSome_iff_exists.mp h
  rfl

theorem isFinite_ofRat (s : Bool) {q : Rat} (bits : Nat) (h : q.num.natAbs < 2 ^ bits * q.den)
    (hbits : bits ≤ 1022) : (ofRat s q).isFinite := by
  refine isFinite_ofMagnitude? (Magnitude.isSome_round? _ ?_)
  obtain ⟨k, hk, hunits⟩ := Magnitude.exists_unitsPerOne_eq
  rw [hunits]
  by_cases hzero : q.num.natAbs * 2 ^ k / q.den = 0
  · rw [hzero, Nat.log2_zero]
    omega
  · have hlt : q.num.natAbs * 2 ^ k / q.den < 2 ^ (bits + k) := by
      rw [Nat.div_lt_iff_lt_mul q.den_pos, Nat.pow_add, Nat.mul_right_comm]
      exact Nat.mul_lt_mul_of_pos_right h (Nat.two_pow_pos k)
    have hlog := (Nat.log2_lt hzero).mpr hlt
    omega

theorem isFinite_ofInt {n : Int} (bits : Nat) (h : n.natAbs < 2 ^ bits) (hbits : bits ≤ 1022) :
    (ofInt n).isFinite := by
  refine isFinite_ofRat false bits ?_ hbits
  rwa [Rat.num_intCast, Rat.den_intCast, Nat.mul_one]

end Binary64
end MetricFormula
