import Mathlib.Order.WithBot
import MetricFormula.Formula.Reduction
import MetricFormula.Proofs.Binary64.Operations

/-! # The least and the greatest double

Of two doubles the lesser and the greater is the one that comes first in an order of the line, where
not-a-number gives way. Doubles at one place of the line are the same, but for the two zeros. So the
least and the greatest of some numbers do not depend on the order in which they are met, as long as
not both zeros are among them (`Reduction.apply_perm`). -/

namespace MetricFormula
namespace Binary64

variable {α : Type} {x y z : Binary64} {xs ys : List Binary64}

/-! ## The line of doubles -/

/-- Where a double stands on the line, with the infinities at its ends. -/
def place : Binary64 → WithBot (WithTop Rat)
  | nan => ((0 : Rat) : WithTop Rat)
  | infinity true => ⊥
  | infinity false => (⊤ : WithTop Rat)
  | finite s m => (toRat (.finite s m) : WithTop Rat)

/-- Doubles compare by their places. -/
theorem compare?_eq (hx : x ≠ nan) (hy : y ≠ nan) :
    x.compare? y =
      some (if x.place < y.place then .lt else if y.place < x.place then .gt else .eq) := by
  have hfinite (q : Rat) : ((q : WithTop Rat) : WithBot (WithTop Rat)) < ⊤ :=
    WithBot.coe_lt_coe.mpr (WithTop.coe_lt_top q)
  cases x with
  | nan => exact absurd rfl hx
  | infinity s =>
    cases y with
    | nan => exact absurd rfl hy
    | infinity t => cases s <;> cases t <;> simp [compare?, place]
    | finite t n => cases s <;> simp [compare?, place, hfinite]
  | finite s m =>
    cases y with
    | nan => exact absurd rfl hy
    | infinity t => cases t <;> simp [compare?, place, hfinite]
    | finite t n => simp [compare?, place]

theorem isFinite_of_place_eq {q : Rat} (hx : x ≠ nan)
    (h : x.place = ((q : WithTop Rat) : WithBot (WithTop Rat))) : x.isFinite ∧ x.toRat = q := by
  cases x with
  | nan => exact absurd rfl hx
  | infinity s => cases s <;> simp [place] at h
  | finite s m => exact ⟨rfl, by simpa [place] using h⟩

/-- At one place of the line stands one double, or both zeros. -/
theorem eq_or_isZero_of_place_eq (hx : x ≠ nan) (hy : y ≠ nan) (h : x.place = y.place) :
    x = y ∨ x.isZero ∧ y.isZero := by
  cases x with
  | nan => exact absurd rfl hx
  | infinity s =>
    cases y with
    | nan => exact absurd rfl hy
    | infinity t => cases s <;> cases t <;> simp [place] at h ⊢
    | finite t n => cases s <;> simp [place] at h
  | finite s m =>
    obtain ⟨hfinite, hvalue⟩ := isFinite_of_place_eq hy h.symm
    have hfinite' : (finite s m).isFinite := rfl
    by_cases hzero : (finite s m).toRat = 0
    · exact .inr ⟨(isZero_iff rfl).mpr hzero, (isZero_iff hfinite).mpr (hvalue.trans hzero)⟩
    · left
      rw [← ofRat_toRat (s := false) hfinite' fun h => absurd h hzero, ← hvalue,
        ofRat_toRat hfinite fun h => absurd (hvalue.symm.trans h) hzero]

/-! ## Whichever comes first -/

/-- The operation gives whichever of two doubles comes first in an order, and gives not-a-number only
if there is nothing else. -/
structure IsFirst [LinearOrder α] (rank : Binary64 → α) (op : Binary64 → Binary64 → Binary64) :
    Prop where
  nan_left : ∀ x, op nan x = x
  nan_right : ∀ x, op x nan = x
  pick : ∀ {x y}, x ≠ nan → y ≠ nan → op x y = if rank y < rank x then y else x

theorem isFirst_min : IsFirst place Binary64.min where
  nan_left _ := rfl
  nan_right x := by cases x <;> rfl
  pick hx hy := by
    rw [Binary64.min, compare?_eq hx hy]
    grind

theorem isFirst_max : IsFirst (OrderDual.toDual ∘ place) Binary64.max where
  nan_left _ := rfl
  nan_right x := by cases x <;> rfl
  pick {x y} hx hy := by
    show _ = if x.place < y.place then y else x
    rw [Binary64.max, compare?_eq hx hy]
    grind

/-- Only equal doubles are at one place of the order. -/
def Separated [LinearOrder α] (rank : Binary64 → α) (xs : List Binary64) : Prop :=
  ∀ x ∈ xs, ∀ y ∈ xs, x ≠ nan → y ≠ nan → rank x = rank y → x = y

namespace IsFirst

variable [LinearOrder α] {rank : Binary64 → α} {op : Binary64 → Binary64 → Binary64}

theorem comm (h : IsFirst rank op) (hx : x ≠ nan) (hy : y ≠ nan) (hxy : rank x = rank y → x = y) :
    op x y = op y x := by
  rw [h.pick hx hy, h.pick hy hx]
  rcases lt_trichotomy (rank x) (rank y) with hlt | heq | hlt
  · rw [if_pos hlt, if_neg hlt.asymm]
  · rw [hxy heq]
  · rw [if_pos hlt, if_neg hlt.asymm]

/-- Which of two doubles is met first after another one makes no difference. -/
theorem right_comm (h : IsFirst rank op) (hxy : x ≠ nan → y ≠ nan → rank x = rank y → x = y) :
    op (op z x) y = op (op z y) x := by
  by_cases hx : x = nan
  · rw [hx, h.nan_right, h.nan_right]
  by_cases hy : y = nan
  · rw [hy, h.nan_right, h.nan_right]
  by_cases hz : z = nan
  · rw [hz, h.nan_left, h.nan_left, h.comm hx hy (hxy hx hy)]
  rw [h.pick hz hx, h.pick hz hy]
  by_cases hxz : rank x < rank z <;> by_cases hyz : rank y < rank z
  · rw [if_pos hxz, if_pos hyz, h.comm hx hy (hxy hx hy)]
  · rw [if_pos hxz, if_neg hyz, h.pick hx hy, h.pick hz hx, if_pos hxz,
      if_neg fun hyx => hyz (hyx.trans hxz)]
  · rw [if_neg hxz, if_pos hyz, h.pick hz hy, h.pick hy hx, if_pos hyz,
      if_neg fun hxy => hxz (hxy.trans hyz)]
  · rw [if_neg hxz, if_neg hyz, h.pick hz hy, h.pick hz hx, if_neg hxz, if_neg hyz]

theorem foldl_perm (h : IsFirst rank op) (hxs : Separated rank xs) (hperm : xs.Perm ys)
    (init : Binary64) : xs.foldl op init = ys.foldl op init :=
  hperm.foldl_eq' (fun x hx y hy _ => h.right_comm (hxs x hx y hy)) init

end IsFirst

/-! ## Zeros -/

/-- Both zeros are among the numbers. -/
def MixesZeros (xs : List Binary64) : Prop := finite false .zero ∈ xs ∧ finite true .zero ∈ xs

theorem MixesZeros.mono (h : MixesZeros xs) (hsubset : xs ⊆ ys) : MixesZeros ys :=
  ⟨hsubset h.1, hsubset h.2⟩

theorem eq_of_isZero (hx : x.isZero) : ∃ s, x = finite s .zero := by
  cases x with
  | nan | infinity => cases hx
  | finite s m => exact ⟨s, by rw [Magnitude.eq_zero (of_decide_eq_true hx)]⟩

theorem separated_place (h : ¬MixesZeros xs) : Separated place xs := by
  intro x hx y hy hxnan hynan hplace
  rcases eq_or_isZero_of_place_eq hxnan hynan hplace with heq | ⟨hxzero, hyzero⟩
  · exact heq
  · obtain ⟨s, rfl⟩ := eq_of_isZero hxzero
    obtain ⟨t, rfl⟩ := eq_of_isZero hyzero
    cases s <;> cases t
    · rfl
    · exact absurd ⟨hx, hy⟩ h
    · exact absurd ⟨hy, hx⟩ h
    · rfl

end Binary64

/-! ## Reductions -/

namespace Reduction

open Binary64

variable {r : Reduction} {xs ys : List Binary64}

/-- The reduction is to the least or to the greatest number. -/
def IsExtreme (r : Reduction) : Prop := r = least ∨ r = greatest

theorem apply_least : least.apply xs = if xs = [] then .zero else xs.foldl Binary64.min .nan := by
  cases xs <;> rfl

theorem apply_greatest :
    greatest.apply xs = if xs = [] then .zero else xs.foldl Binary64.max .nan := by
  cases xs <;> rfl

/-- An extreme does not depend on the order of the numbers. -/
theorem apply_perm (hr : r.IsExtreme) (h : xs.Perm ys) (hzeros : ¬MixesZeros xs) :
    r.apply xs = r.apply ys := by
  have hnil : xs = [] ↔ ys = [] := by rw [← List.perm_nil, ← List.perm_nil, h.congr_left]
  rcases hr with rfl | rfl
  · have hfold := isFirst_min.foldl_perm (separated_place hzeros) h nan
    rw [apply_least, apply_least, if_congr hnil rfl hfold]
  · have hfold := isFirst_max.foldl_perm (separated_place hzeros) h nan
    rw [apply_greatest, apply_greatest, if_congr hnil rfl hfold]

end Reduction
end MetricFormula
