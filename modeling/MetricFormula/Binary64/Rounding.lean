import MetricFormula.Binary64.Basic

/-! # Rounding to doubles

`nearestEven` rounds a quotient of naturals to the nearest natural, a half going to the even
neighbour. `Binary64.ofRat` rounds an exact rational to the nearest double by the same rule:
the quotient is counted in units of `2 ^ -1074`, its bit length picks the scale at which the
significand has 53 bits, and the significand is the quotient rounded at that scale. -/

namespace MetricFormula

/-- The natural nearest to `n / d`, a half going to the even neighbour. -/
def nearestEven (n d : Nat) : Nat :=
  let floor := n / d
  let rest := n % d
  if 2 * rest < d then floor
  else if d < 2 * rest then floor + 1
  else floor + floor % 2

theorem nearestEven_le {n d c : Nat} (hd : 0 < d) (h : n ≤ c * d) : nearestEven n d ≤ c := by
  have hdiv := Nat.div_add_mod n d
  have hmod := Nat.mod_lt n hd
  rcases Nat.lt_or_ge (n / d) c with hlt | hge
  · unfold nearestEven
    dsimp only
    split
    · omega
    · split <;> omega
  · have hc : d * c ≤ d * (n / d) := Nat.mul_le_mul_left d hge
    rw [Nat.mul_comm] at h
    have hrest : n % d = 0 := by omega
    have heq : d * (n / d) = d * c := by omega
    have : n / d = c := Nat.eq_of_mul_eq_mul_left hd heq
    simp [nearestEven, hrest, hd, this]

theorem le_nearestEven {n d c : Nat} (hd : 0 < d) (h : c * d ≤ n) : c ≤ nearestEven n d := by
  have hc : c ≤ n / d := (Nat.le_div_iff_mul_le hd).mpr h
  unfold nearestEven
  dsimp only
  split
  · exact hc
  · split <;> omega

theorem nearestEven_mul {c d : Nat} (hd : 0 < d) : nearestEven (c * d) d = c :=
  Nat.le_antisymm (nearestEven_le hd (Nat.le_refl _)) (le_nearestEven hd (Nat.le_refl _))

namespace Magnitude

/-- The number of low bits that a count of least positive doubles has to drop. -/
def scaleFor (units : Nat) : Nat := units.log2 - 52

theorem lt_scaleFor (units : Nat) : units < (1 <<< 53) <<< scaleFor units := by
  have h : units < 2 ^ (units.log2 + 1) := Nat.lt_log2_self
  rw [← Nat.shiftLeft_add, Nat.one_shiftLeft]
  exact Nat.lt_of_lt_of_le h (Nat.pow_le_pow_right (by decide) (by unfold scaleFor; omega))

theorem scaleFor_le {units : Nat} (h : scaleFor units ≠ 0) :
    (1 <<< 52) <<< scaleFor units ≤ units := by
  unfold scaleFor at h ⊢
  have hne : units ≠ 0 := by
    rintro rfl
    simp at h
  rw [← Nat.shiftLeft_add, show 52 + (units.log2 - 52) = units.log2 by omega, Nat.one_shiftLeft]
  exact Nat.log2_self_le hne

theorem scaleFor_units (m : Magnitude) : scaleFor m.units = m.scale := by
  obtain ⟨sig, scale, hlt, hscale, hnormal⟩ := m
  have hunits : sig <<< scale < (1 <<< 53) <<< scale := by
    rw [Nat.shiftLeft_eq, Nat.shiftLeft_eq]
    exact Nat.mul_lt_mul_of_pos_right hlt (Nat.two_pow_pos scale)
  rw [← Nat.shiftLeft_add, Nat.one_shiftLeft] at hunits
  have hupper : (sig <<< scale).log2 < 53 + scale := by
    by_cases h : sig <<< scale = 0
    · rw [h, Nat.log2_zero]
      omega
    · exact (Nat.log2_lt h).mpr hunits
  unfold scaleFor units
  rcases hnormal with h | rfl
  · have hle : (1 <<< 52) <<< scale ≤ sig <<< scale := by
      rw [Nat.shiftLeft_eq, Nat.shiftLeft_eq sig]
      exact Nat.mul_le_mul_right _ h
    rw [← Nat.shiftLeft_add, Nat.one_shiftLeft] at hle
    have hne : sig <<< scale ≠ 0 := Nat.ne_of_gt (Nat.lt_of_lt_of_le (Nat.two_pow_pos _) hle)
    have hlower := (Nat.le_log2 hne).mpr hle
    dsimp only
    omega
  · exact Nat.sub_eq_zero_of_le (Nat.le_of_lt_succ hupper)

private theorem shiftLeft_mul_comm (a b n : Nat) : (a <<< n) * b = a * (b <<< n) := by
  rw [Nat.shiftLeft_eq, Nat.shiftLeft_eq, Nat.mul_assoc, Nat.mul_comm (2 ^ n)]

/-- The magnitude nearest to `n / d` units, a half going to the even significand; `none` when it
is too large. -/
def round? (n d : Nat) (hd : 0 < d) : Option Magnitude :=
  let scale := scaleFor (n / d)
  let significand := nearestEven n (d <<< scale)
  have hpos : 0 < d <<< scale := by
    rw [Nat.shiftLeft_eq]
    exact Nat.mul_pos hd (Nat.two_pow_pos scale)
  have hle : significand ≤ 1 <<< 53 := nearestEven_le hpos <| by
    rw [← shiftLeft_mul_comm]
    exact Nat.le_of_lt ((Nat.div_lt_iff_lt_mul hd).mp (lt_scaleFor (n / d)))
  if hlt : significand < 1 <<< 53 then
    if hscale : scale ≤ 2045 then
      some ⟨significand, scale, hlt, hscale, by
        by_cases h : scale = 0
        · exact .inr h
        · refine .inl (le_nearestEven hpos ?_)
          rw [← shiftLeft_mul_comm]
          exact (Nat.le_div_iff_mul_le hd).mp (scaleFor_le h)⟩
    else none
  else if hscale : scale + 1 ≤ 2045 then
    some ⟨1 <<< 52, scale + 1, by decide, hscale, .inl (Nat.le_refl _)⟩
  else none

/-- Rounding changes nothing that is a magnitude already. -/
theorem round?_units (m : Magnitude) {d : Nat} (hd : 0 < d) :
    round? (m.units * d) d hd = some m := by
  have hround : nearestEven (m.units * d) (d <<< m.scale) = m.significand := by
    rw [units, shiftLeft_mul_comm]
    exact nearestEven_mul (by rw [Nat.shiftLeft_eq]; exact Nat.mul_pos hd (Nat.two_pow_pos _))
  unfold round?
  simp only [Nat.mul_div_cancel _ hd, scaleFor_units, hround, m.significand_lt, m.scale_le,
    dif_pos]

end Magnitude

namespace Binary64

/-- The finite double of that sign and magnitude, or the infinity where the magnitude is too
large. -/
def ofMagnitude? (negative : Bool) : Option Magnitude → Binary64
  | some m => .finite negative m
  | none => .infinity negative

/-- The double nearest to `q`, a half going to the even significand, and the infinity of its sign
when `q` is too large. An exact zero has no sign of its own and takes the one given. -/
def ofRat (zeroNegative : Bool) (q : Rat) : Binary64 :=
  ofMagnitude? (if q = 0 then zeroNegative else q < 0)
    (Magnitude.round? (q.num.natAbs * Magnitude.unitsPerOne) q.den q.den_pos)

/-- The double nearest to an integer. -/
def ofInt (n : Int) : Binary64 := ofRat false n

/-- The integer nearest to `q`, a half going to the even neighbour. -/
def roundHalfEven (q : Rat) : Int :=
  let n := nearestEven q.num.natAbs q.den
  if q < 0 then -n else n

/-- The integer next to `q` on the side of zero. -/
def truncate (q : Rat) : Int := if q < 0 then q.ceil else q.floor

/-- Replace a finite value by an integer derived from it, keeping the sign of a zero. -/
def integral (f : Rat → Int) : Binary64 → Binary64
  | .finite negative m => ofRat negative (f (toRat (.finite negative m)))
  | x => x

def floor : Binary64 → Binary64 := integral Rat.floor

def ceil : Binary64 → Binary64 := integral Rat.ceil

def trunc : Binary64 → Binary64 := integral truncate

def roundTiesToEven : Binary64 → Binary64 := integral roundHalfEven

end Binary64
end MetricFormula
