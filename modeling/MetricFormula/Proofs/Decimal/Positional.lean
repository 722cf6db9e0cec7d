import Mathlib.Data.List.TakeWhile
import MetricFormula.Decimal.Notation
import MetricFormula.Proofs.Decimal.ReadBack
import MetricFormula.Proofs.Grammar.Spelling

/-! # Positional texts

Digits with at most one point among them are number literals, and stand for the digits they hold. So
the text of a double in running text is a literal of the double (`Spelling.plainText`). -/

namespace MetricFormula

variable {d : Decimal} {m : Magnitude} {x : Binary64} {w v cs : List Char}

/-! ## The value of digits -/

theorem digitsValue_eq (cs : List Char) : digitsValue cs = Nat.ofDigitChars 10 cs 0 := rfl

theorem digitsValue_append_zeros (cs : List Char) (n : Nat) :
    digitsValue (cs ++ List.replicate n '0') = digitsValue cs * 10 ^ n := by
  rw [digitsValue_eq, Nat.ofDigitChars_append, Nat.ofDigitChars_replicate_zero, Nat.mul_comm,
    digitsValue_eq]

theorem digitsValue_zeros_append (n : Nat) (cs : List Char) :
    digitsValue (List.replicate n '0' ++ cs) = digitsValue cs := by
  rw [digitsValue_eq, Nat.ofDigitChars_append, Nat.ofDigitChars_replicate_zero, Nat.mul_zero,
    digitsValue_eq]

theorem forall_isDigit_zeros (n : Nat) : ∀ c ∈ List.replicate n '0', c.isDigit := by
  intro c hc
  rw [(List.mem_replicate.mp hc).2]
  rfl

theorem digitsValue_toDigits (n : Nat) : digitsValue (Nat.toDigits 10 n) = n := by
  rw [digitsValue_eq, Nat.ofDigitChars_ten_toDigits]

/-! ## Digits in front of the point -/

/-- Digits without a needless zero in front. -/
structure IsWhole (w : List Char) : Prop where
  ne_nil : w ≠ []
  digits : ∀ c ∈ w, c.isDigit
  strict : w.head? ≠ some '0' ∨ w.length = 1

theorem head?_toDigits_ne {n : Nat} (hn : n ≠ 0) : (Nat.toDigits 10 n).head? ≠ some '0' := by
  induction n using Nat.strongRecOn with
  | _ n ih =>
    rw [Nat.toDigits_eq_if (by decide)]
    split
    · rename_i hlt
      have hdigit : ∀ n < 10, n ≠ 0 → n.digitChar ≠ '0' := by decide
      simpa using hdigit n hlt hn
    · rw [List.head?_append_of_ne_nil _ Nat.toDigits_ne_nil]
      exact ih (n / 10) (by omega) (by omega)

namespace IsWhole

theorem toDigits (n : Nat) : IsWhole (Nat.toDigits 10 n) where
  ne_nil := Nat.toDigits_ne_nil
  digits _ hc := Nat.isDigit_of_mem_toDigits (by decide) (by decide) hc
  strict := by
    by_cases hn : n = 0
    · subst hn
      exact .inr rfl
    · exact .inl (head?_toDigits_ne hn)

theorem zero : IsWhole ['0'] := toDigits 0

/-- Further digits do no harm if the first one is not zero. -/
theorem append (hw : IsWhole w) (hzero : w.head? ≠ some '0') (hv : ∀ c ∈ v, c.isDigit) :
    IsWhole (w ++ v) where
  ne_nil := List.append_ne_nil_of_left_ne_nil hw.ne_nil v
  digits := List.forall_mem_append.mpr ⟨hw.digits, hv⟩
  strict := .inl (by rwa [List.head?_append_of_ne_nil _ hw.ne_nil])

theorem take (hw : IsWhole w) (hzero : w.head? ≠ some '0') {n : Nat} (hn : n ≠ 0) :
    IsWhole (w.take n) where
  ne_nil := by simp [hn, hw.ne_nil]
  digits c hc := hw.digits c (List.mem_of_mem_take hc)
  strict := .inl (by rwa [List.head?_take, if_neg hn])

end IsWhole

namespace Decimal

theorem digitsValue_digits (d : Decimal) : digitsValue d.digits = d.coefficient :=
  digitsValue_toDigits d.coefficient

theorem forall_isDigit_digits (d : Decimal) : ∀ c ∈ d.digits, c.isDigit :=
  fun _ hc => Nat.isDigit_of_mem_toDigits (by decide) (by decide) hc

theorem digits_ne_nil (d : Decimal) : d.digits ≠ [] := Nat.toDigits_ne_nil

/-! ## Reading digits -/

theorem ofText?_digits (hne : w ≠ []) (hw : ∀ c ∈ w, c.isDigit) :
    ofText? w = some ⟨digitsValue w, 0⟩ := by
  have htake := List.takeWhile_eq_self_iff.mpr hw
  have hdrop := List.dropWhile_eq_nil_iff.mpr hw
  simp [ofText?, htake, hdrop, hne, ofParts]

theorem ofText?_point (hne : w ≠ []) (hw : ∀ c ∈ w, c.isDigit) (hv : ∀ c ∈ v, c.isDigit) :
    ofText? (w ++ '.' :: v) = some ⟨digitsValue (w ++ v), -v.length⟩ := by
  have hpoint : ∀ c ∈ ('.' :: v).head?, c.isDigit = false := by
    rintro _ ⟨⟩
    rfl
  have htake := List.takeWhile_eq_self_iff.mpr hv
  have hdrop := List.dropWhile_eq_nil_iff.mpr hv
  simp [ofText?, takeWhile_append_eq hw hpoint, dropWhile_append_eq hw hpoint, htake, hdrop, hne,
    ofParts]

/-- Zeros that are written out, in front of the point and at most one behind it, change nothing. -/
theorem toBinary64_scaled {n : Nat} (hn : n ≤ 1) (h : 0 ≤ d.exponent) (hlt : d.exponent < 400) :
    toBinary64 false ⟨d.coefficient * 10 ^ (d.exponent.toNat + n), -n⟩ = d.toBinary64 false := by
  have hrat : toRat ⟨d.coefficient * 10 ^ (d.exponent.toNat + n), -n⟩ = d.toRat := by
    rw [toRat_eq_mkRat, toRat_eq_mkRat, show (-d.exponent).toNat = 0 by omega,
      show (-(n : Int)).toNat = 0 by omega, show (- -(n : Int)).toNat = n by omega, Nat.pow_zero,
      Nat.mul_one, Rat.mkRat_eq_iff (pow_ten_ne_zero _) Nat.one_ne_zero, Nat.pow_add,
      ← Nat.mul_assoc]
    simp
  by_cases hd : d.coefficient = 0
  · simp [toBinary64, hd]
  · have hcoefficient : d.coefficient * 10 ^ (d.exponent.toNat + n) ≠ 0 :=
      Nat.mul_ne_zero hd (pow_ten_ne_zero _)
    rw [toBinary64_eq_ofRat hd hlt (by omega), ← hrat]
    exact toBinary64_eq_ofRat hcoefficient (by dsimp only; omega) (by dsimp only; omega)

/-- Zeros that are written out change nothing. -/
theorem toBinary64_zeros (h : 0 ≤ d.exponent) (hlt : d.exponent < 400) :
    toBinary64 false ⟨d.coefficient * 10 ^ d.exponent.toNat, 0⟩ = d.toBinary64 false :=
  toBinary64_scaled (Nat.zero_le 1) h hlt

end Decimal

theorem Binary64.ofText?_eq {c : Char} (hc : c.isDigit) (cs : List Char) :
    ofText? (c :: cs) = (Decimal.ofText? (c :: cs)).map (·.toBinary64 false) := by
  have hsign : splitSign (c :: cs) = (false, c :: cs) := by
    rw [splitSign]
    · rintro ds ⟨⟩
      cases hc
    · rintro ds ⟨⟩
      cases hc
  rw [ofText?, hsign]

/-! ## Points -/

theorem toList_pointed (w v : List Char) :
    (String.ofList w ++ "." ++ String.ofList v).toList = w ++ '.' :: v := by
  simp

/-- Digits in front of a point and behind it that make up a decimal. -/
structure Pointed (w v : List Char) (d : Decimal) : Prop where
  whole : IsWhole w
  ne_nil : v ≠ []
  digits : ∀ c ∈ v, c.isDigit
  value : digitsValue (w ++ v) = d.coefficient
  length : -(v.length : Int) = d.exponent

/-- In positional notation, a decimal with a negative exponent has a point. -/
theorem Decimal.exists_pointed (d : Decimal) (f : Notation) (h : d.exponent < 0) :
    ∃ w v, Pointed w v d ∧ (f.positionalText d).toList = w ++ '.' :: v := by
  have hdigits := d.forall_isDigit_digits
  have hpos : 0 < d.digits.length := List.length_pos_of_ne_nil d.digits_ne_nil
  have hleading : d.leading = d.exponent + d.digits.length - 1 := rfl
  rw [Notation.positionalText, if_neg (Int.not_le.mpr h)]
  split
  · rename_i hwhole
    have hcoefficient : d.coefficient ≠ 0 := by
      intro hzero
      have hlength : d.digits.length = 1 := by
        rw [digits, hzero]
        rfl
      omega
    refine ⟨_, _, ⟨?_, ?_, ?_, ?_, ?_⟩, toList_pointed _ _⟩
    · exact (IsWhole.toDigits _).take (head?_toDigits_ne hcoefficient) (Nat.succ_ne_zero _)
    · exact List.ne_nil_of_length_pos (by rw [List.length_drop]; omega)
    · exact fun c hc => hdigits c (List.mem_of_mem_drop hc)
    · rw [List.take_append_drop, d.digitsValue_digits]
    · rw [List.length_drop]
      omega
  · rename_i hwhole
    rw [show "0." = String.ofList ['0'] ++ "." from rfl]
    refine ⟨_, _, ⟨.zero, ?_, ?_, ?_, ?_⟩, toList_pointed _ _⟩
    · exact List.append_ne_nil_of_right_ne_nil _ d.digits_ne_nil
    · exact List.forall_mem_append.mpr ⟨forall_isDigit_zeros _, hdigits⟩
    · rw [← List.append_assoc, show ['0'] = List.replicate 1 '0' from rfl,
        List.replicate_append_replicate, digitsValue_zeros_append, d.digitsValue_digits]
    · rw [List.length_append, List.length_replicate]
      omega

/-! ## Literals -/

theorem Spelling.digits (hne : w ≠ []) (hw : ∀ c ∈ w, c.isDigit) (hexponent : 0 ≤ d.exponent)
    (hlt : d.exponent < 400) (hvalue : digitsValue w = d.coefficient * 10 ^ d.exponent.toNat) :
    Spelling (.number (d.toBinary64 false)) w := by
  refine .number (.plain (.whole (.of_forall hne hw))) ?_
  obtain ⟨c, cs, rfl⟩ := List.exists_cons_of_ne_nil hne
  rw [numeral_of_forall hw, Binary64.ofText?_eq (hw c (.head _)), Decimal.ofText?_digits hne hw,
    hvalue, ← Decimal.toBinary64_zeros hexponent hlt]
  rfl

/-- A number with a point is spelled by the digits on both sides of it. -/
theorem Spelling.point (h : Pointed w v d) :
    Spelling (.number (d.toBinary64 false)) (w ++ '.' :: v) := by
  obtain ⟨⟨hne, hw, _⟩, hne', hv, hvalue, hlength⟩ := h
  have hnumeral : numeral (w ++ '.' :: v) = w ++ '.' :: v := by
    rw [numeral_append, numeral_of_forall hw]
    exact congrArg (w ++ '.' :: ·) (numeral_of_forall hv)
  refine .number (.plain (.mixed (.of_forall hne hw) (.of_forall hne' hv))) ?_
  obtain ⟨c, cs, rfl⟩ := List.exists_cons_of_ne_nil hne
  rw [hnumeral, List.cons_append, Binary64.ofText?_eq (hw c (.head _)), ← List.cons_append,
    Decimal.ofText?_point hne hw hv, hvalue, hlength]
  rfl

/-- A decimal is spelled with its point set by its exponent. -/
theorem Spelling.positionalText (h : d.exponent < 400) :
    Spelling (.number (d.toBinary64 false)) (Notation.plain.positionalText d).toList := by
  by_cases hexponent : 0 ≤ d.exponent
  · rw [Notation.positionalText, if_pos hexponent,
      show Notation.plain.wholeMark = "" from rfl, String.append_empty, String.toList_ofList]
    refine .digits (List.append_ne_nil_of_left_ne_nil d.digits_ne_nil _) ?_ hexponent h ?_
    · exact List.forall_mem_append.mpr ⟨d.forall_isDigit_digits, forall_isDigit_zeros _⟩
    · rw [digitsValue_append_zeros, d.digitsValue_digits]
  · obtain ⟨w, v, hpointed, htext⟩ := d.exists_pointed .plain (Int.not_le.mp hexponent)
    rw [htext]
    exact .point hpointed

/-- A finite double that is not negative is spelled as it stands in running text. -/
theorem Spelling.plainText (hfinite : x.isFinite) (hsign : x.isNegative = false) :
    Spelling (.number x) (Notation.plain.text x).toList := by
  cases x with
  | nan | infinity => cases hfinite
  | finite negative m =>
    obtain rfl : negative = false := hsign
    show Spelling _ (Notation.plain.magnitudeText m).toList
    rw [Notation.magnitudeText]
    split
    · rename_i hzero
      rw [Magnitude.eq_zero hzero]
      exact .positionalText (d := ⟨0, 0⟩) (by decide)
    · rename_i hm
      have hread := Decimal.toBinary64_shortest .up hm
      rw [← hread]
      exact .positionalText (Decimal.exponent_lt_of_toBinary64 hread hm)

end MetricFormula
