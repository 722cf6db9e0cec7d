import MetricFormula.Formula.Evaluation
import MetricFormula.Proofs.Binary64.DecimalPlaces
import MetricFormula.Proofs.Faults.Stage

/-! # Rounding in formulas

What rounding a number at a decimal place gives, where the power of ten of that place is a double. The
scaled number is meant exactly, not as it is rounded on the way; from `2 ^ 53` on the difference
shows, and integers may change. -/

namespace MetricFormula
namespace Expr

variable {scope : Scope} {snapshot : Snapshot} {e digits : Expr} {x y : Binary64} {d : Int}

theorem roundingDigits_eq (hy : y.isFinite) (hd : y.toRat = d)
    (hrange : d.natAbs ≤ Binary64.greatestExactExponent) : roundingDigits (.number y) = .ok d := by
  obtain ⟨hinteger, hnum⟩ := Binary64.isInteger_of_toRat hy hd
  have hclamp : max (-308) (min 308 d) = d := by
    unfold Binary64.greatestExactExponent at hrange
    omega
  rw [roundingDigits, if_pos hinteger, hnum, hclamp]

theorem eval_round (he : e.eval scope snapshot = .ok (.number x))
    (hdigits : digits.eval scope snapshot = .ok (.number y)) (hy : y.isFinite) (hd : y.toRat = d)
    (hrange : d.natAbs ≤ Binary64.greatestExactExponent) :
    (call .round [e, digits]).eval scope snapshot = .ok (.number (x.roundAt d)) := by
  simp only [eval, evalArguments, Function.apply, he, hdigits, bind, Except.bind, roundedValue,
    roundingDigits_eq hy hd hrange, Except.mapError]
  rfl

/-- The power of ten is exact and the scaled number is not, so that it is rounded to the next double,
and an integer does not stay as it is. -/
theorem round_changes_integer :
    let x := Binary64.ofInt 19
    let q := x.toRat * 10 ^ (21 : Int)
    let k : Int := 19 * 10 ^ 21
    (Binary64.ofRat false q).isFinite ∧ IsNearestInt q k ∧
      Binary64.IsNearest (k * 10 ^ (-21 : Int)) x ∧
      ∃ z, (call .round [.number x, .number (.ofInt 21)]).eval .empty .empty = .ok (.number z) ∧
        ¬Binary64.IsNearest (k * 10 ^ (-21 : Int)) z := by
  intro x q k
  have hvalue : x.toRat = (19 : Int) := by decide +kernel
  have hback : (k : Rat) * 10 ^ (-21 : Int) = (19 : Int) := by norm_num [k]
  have hdouble : Binary64.IsDouble (19 : Int) := .intCast (by norm_num)
  have hscaled : q = k := by
    simp only [q, hvalue, k]
    norm_num
  rw [hback]
  refine ⟨by decide +kernel, hscaled ▸ .intCast k, Binary64.isNearest_ofRat (by decide +kernel),
    x.roundAt 21, ?_, fun h => ?_⟩
  · exact eval_round (by rw [eval]) (by rw [eval]) (by decide +kernel) (by decide +kernel) (by decide)
  · exact absurd (h.toRat_eq hdouble) (by decide +kernel)

/-- A number is rounded at a decimal place by rounding the exact scaled number to the nearest integer,
and what that stands for to the nearest double, and integers stay as they are, as long as the scaled
number is at most `2 ^ 53`. Beyond, the scaled number is rounded to a double instead. -/
theorem round_nearest (he : e.eval scope snapshot = .ok (.number x)) (hx : x.isFinite)
    (hdigits : digits.eval scope snapshot = .ok (.number y)) (hy : y.isFinite) (hd : y.toRat = d)
    (hrange : d.natAbs ≤ 22) :
    let q := x.toRat * 10 ^ d
    let k := Binary64.roundHalfEven q
    let scaled := Binary64.ofRat x.isNegative q
    let back (r : Rat) := Binary64.ofRat x.isNegative (r * 10 ^ (-d))
    let rounded := (call .round [e, digits]).eval scope snapshot
    IsNearestInt q k ∧
    (|q| ≤ 2 ^ 53 → rounded = .ok (.number (back k)) ∧ Binary64.IsNearest (k * 10 ^ (-d)) (back k)) ∧
    (|q| ≤ 2 ^ 53 → 0 ≤ d → x.isInteger → rounded = .ok (.number x)) ∧
    (2 ^ 53 < |q| → scaled.isFinite → Binary64.IsNearest q scaled ∧
      rounded = .ok (.number (back scaled.toRat))) := by
  intro q k scaled back rounded
  have hrounded : rounded = .ok (.number (x.roundAt d)) := eval_round he hdigits hy hd hrange
  have hk : IsNearestInt q k := Binary64.isNearestInt_roundHalfEven q
  refine ⟨hk, fun hle => ⟨?_, ?_⟩, fun hle hnonneg hinteger => ?_, fun hlt hscaled => ⟨?_, ?_⟩⟩
  · rw [hrounded, Binary64.roundAt_eq hx hrange hle hk]
  · exact Binary64.isNearest_ofRat_scaled_back _ hrange (Binary64.natAbs_le_of_close hle hk.close)
  · obtain ⟨_, hvalue⟩ := Binary64.toRat_of_isInteger hinteger
    rw [hrounded, Binary64.roundAt_of_isInteger hx hvalue hrange hnonneg hle]
  · exact Binary64.isNearest_ofRat hscaled
  · rw [hrounded, Binary64.roundAt_eq_of_large hx hrange hscaled hlt.le]

/-- The half in `12.5` goes to the even neighbour, and seven stays as it is. -/
theorem round_nearest_eighth :
    let round (x : Binary64) (d : Int) :=
      (call .round [.number x, .number (.ofInt d)]).eval .empty .empty
    round (.ofRat false (1 / 8)) 2 = .ok (.number (.ofRat false (12 * 10 ^ (-2 : Int)))) ∧
      round (.ofInt 7) 3 = .ok (.number (.ofInt 7)) := by
  intro round
  have hnumber (x : Binary64) : (Expr.number x).eval .empty .empty = .ok (.number x) := by rw [eval]
  have hplaces : (Binary64.ofInt 2).isFinite ∧ (Binary64.ofInt 2).toRat = (2 : Int) ∧
      (Binary64.ofInt 3).isFinite ∧ (Binary64.ofInt 3).toRat = (3 : Int) := by decide +kernel
  obtain ⟨htwo, htwo', hthree, hthree'⟩ := hplaces
  constructor
  · have heighth : (Binary64.ofRat false (1 / 8)).toRat = 1 / 8 := by decide +kernel
    have hsign : (Binary64.ofRat false (1 / 8)).isNegative = false := by decide +kernel
    have htwelve : Binary64.roundHalfEven (1 / 8 * 10 ^ (2 : Int)) = 12 := by decide +kernel
    obtain ⟨_, hround, _⟩ :=
      round_nearest (hnumber (.ofRat false (1 / 8))) (by decide +kernel) (hnumber _) htwo htwo'
        (by decide)
    rw [heighth, htwelve, hsign] at hround
    exact (hround (by norm_num)).1
  · have hseven : (Binary64.ofInt 7).toRat = 7 := by decide +kernel
    obtain ⟨_, _, hround, _⟩ :=
      round_nearest (hnumber (.ofInt 7)) (by decide +kernel) (hnumber _) hthree hthree'
        (by decide)
    rw [hseven] at hround
    exact hround (by norm_num) (by decide) (by decide +kernel)

end Expr
end MetricFormula
