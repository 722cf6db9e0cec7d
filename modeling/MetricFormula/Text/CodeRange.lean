/-! # Character properties as ranges of code points

A property of characters is given by a list of closed ranges of code points. -/

namespace MetricFormula.Text

/-- Whether a character lies in one of the closed ranges. -/
def inRanges (ranges : List (Nat × Nat)) (c : Char) : Bool :=
  ranges.any fun (least, greatest) => least ≤ c.toNat && c.toNat ≤ greatest

theorem inRanges_of_mem {ranges : List (Nat × Nat)} {least greatest : Nat} {c : Char}
    (hmem : (least, greatest) ∈ ranges) (hleast : least ≤ c.toNat)
    (hgreatest : c.toNat ≤ greatest) : inRanges ranges c :=
  List.any_eq_true.mpr ⟨_, hmem, by simp [hleast, hgreatest]⟩

/-- Ranges that lie apart have no character in common. -/
theorem inRanges_eq_false {ranges ranges' : List (Nat × Nat)} {c : Char}
    (hapart : ∀ r ∈ ranges, ∀ r' ∈ ranges', r.2 < r'.1 ∨ r'.2 < r.1) (h : inRanges ranges c) :
    inRanges ranges' c = false := by
  obtain ⟨r, hr, hbounds⟩ := List.any_eq_true.mp h
  refine List.any_eq_false.mpr fun r' hr' => ?_
  have := hapart r hr r' hr'
  simp only [Bool.and_eq_true, decide_eq_true_eq] at hbounds ⊢
  omega

end MetricFormula.Text
