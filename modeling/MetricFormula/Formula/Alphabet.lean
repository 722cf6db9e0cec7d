import MetricFormula.Text.Alphabetic
import MetricFormula.Text.Blank
import MetricFormula.Text.Numeric

/-! # The alphabet of formulas

Which characters may occur in a formula at all, and which make up names. A formula text is screened
against the alphabet before anything else is asked of it. -/

namespace MetricFormula

def isNameStart (c : Char) : Bool := Text.isAlphabetic c || c = '_'

def isNamePart (c : Char) : Bool := Text.isAlphabetic c || Text.isNumeric c || c = '_'

theorem isNamePart_of_isNameStart {c : Char} (h : isNameStart c) : isNamePart c := by
  rcases Bool.or_eq_true_iff.mp h with halphabetic | hunderscore
  · simp [isNamePart, halphabetic]
  · simp [isNamePart, hunderscore]

theorem isNameStart_eq_false_of_isDigit {c : Char} (h : c.isDigit) : isNameStart c = false := by
  have hdigits : Text.inRanges [(0x30, 0x39)] c := by
    obtain ⟨hleast, hgreatest⟩ := Bool.and_eq_true_iff.mp h
    exact Text.inRanges_of_mem (.head _) (of_decide_eq_true hleast) (of_decide_eq_true hgreatest)
  have halphabetic : Text.isAlphabetic c = false :=
    Text.inRanges_eq_false (by decide +kernel) hdigits
  have hunderscore : c ≠ '_' := by
    rintro rfl
    cases h
  simp [isNameStart, halphabetic, hunderscore]

/-- White space ends every name. -/
theorem isNamePart_eq_false_of_isBlank {c : Char} (h : Text.isBlank c) : isNamePart c = false := by
  have halphabetic : Text.isAlphabetic c = false := Text.inRanges_eq_false (by decide +kernel) h
  have hnumeric : Text.isNumeric c = false := Text.inRanges_eq_false (by decide +kernel) h
  have hunderscore : c ≠ '_' := by
    rintro rfl
    exact absurd h (by decide)
  simp [isNamePart, halphabetic, hnumeric, hunderscore]

/-- The characters that are allowed besides those of names and white space. -/
def symbols : List Char := ['+', '-', '*', '/', '(', ')', '.', ',', '"', '\'']

def isAllowed (c : Char) : Bool := isNamePart c || Text.isBlank c || symbols.contains c

/-- What the characters of a text say about it. -/
inductive Screening where
  /-- Nothing but white space. -/
  | empty
  /-- The first character that is not allowed. -/
  | refused (c : Char)
  | accepted
  deriving DecidableEq

def screen (text : String) : Screening :=
  if text.toList.all Text.isBlank then .empty
  else match text.toList.find? (!isAllowed ·) with
    | some c => .refused c
    | none => .accepted

end MetricFormula
