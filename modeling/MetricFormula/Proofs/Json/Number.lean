import MetricFormula.Json.Reader
import MetricFormula.Proofs.Decimal.Positional

/-! # Numbers in documents

Finite doubles and integers of 64 bits read back from a document as what they are
(`Json.Scalar.float`, `Json.Scalar.int`). A double is written with a point or an exponent, in one of
three shapes: digits on both sides of a point, a single digit with an exponent, or the two together.
So it is never taken for an integer. -/

namespace MetricFormula

open Json

variable {d : Decimal} {m : Magnitude} {x : Binary64} {w v cs rest : List Char} {j : Json}

/-! ## Signs -/

/-- A decimal with a minus in front stands for the opposite double. -/
theorem Decimal.toBinary64_true (d : Decimal) : d.toBinary64 true = (d.toBinary64 false).neg := by
  simp only [toBinary64]
  split
  · rfl
  · split
    · rfl
    · split
      · rfl
      · exact Binary64.ofRat_neg false d.toRat

/-! ## Digits in front of the point -/

namespace IsWhole

theorem isStrict_point {c : Char} (hw : IsWhole w) (hc : c.isDigit) :
    isStrict (w ++ '.' :: c :: rest) := by
  have hpoint : ∀ c ∈ ('.' :: c :: rest).head?, c.isDigit = false := by
    rintro _ ⟨⟩
    rfl
  have hstrict := hw.strict
  rw [isStrict, takeWhile_append_eq hw.digits hpoint, dropWhile_append_eq hw.digits hpoint]
  simpa [hw.ne_nil, hc] using hstrict

theorem isStrict_append (hw : IsWhole w) (h : ∀ c ∈ rest.head?, c.isDigit = false ∧ c ≠ '.') :
    isStrict (w ++ rest) := by
  have hdigit : ∀ c ∈ rest.head?, c.isDigit = false := fun c hc => (h c hc).1
  have hfraction : ∀ cs, rest ≠ '.' :: cs := by
    rintro cs rfl
    exact (h '.' rfl).2 rfl
  have hstrict := hw.strict
  rw [isStrict, takeWhile_append_eq hw.digits hdigit, dropWhile_append_eq hw.digits hdigit]
  split
  · exact absurd rfl (hfraction _)
  · simpa [hw.ne_nil] using hstrict

end IsWhole

theorem isScalar_of_isDigit {c : Char} (h : c.isDigit) : Symbol.isScalar (.char c) := by
  simp [Symbol.isScalar, Char.isAlphanum, h]

/-! ## Fractions and powers of ten -/

/-- A text without a sign, with a point or an exponent, that stands for a decimal. -/
structure IsFraction (cs : List Char) (d : Decimal) : Prop where
  value : Decimal.ofText? cs = some d
  strict : isStrict cs
  scalar : ∀ c ∈ cs, Symbol.isScalar (.char c)
  mark : ¬∀ c ∈ cs, c.isDigit

namespace IsFraction

theorem point (h : Pointed w v d) : IsFraction (w ++ '.' :: v) d where
  value := by rw [Decimal.ofText?_point h.whole.ne_nil h.whole.digits h.digits, h.value, h.length]
  strict := by
    obtain ⟨c, cs, rfl⟩ := List.exists_cons_of_ne_nil h.ne_nil
    exact h.whole.isStrict_point (h.digits c (.head _))
  scalar := by
    refine List.forall_mem_append.mpr ⟨fun c hc => isScalar_of_isDigit (h.whole.digits c hc), ?_⟩
    exact List.forall_mem_cons.mpr ⟨rfl, fun c hc => isScalar_of_isDigit (h.digits c hc)⟩
  mark h := absurd (h '.' (by simp)) (by decide)

/-- Digits behind a point, with no point where there are none. -/
def fractionText (v : List Char) : List Char := if v = [] then [] else '.' :: v

theorem exponent {es : List Char} {e : Int} (hw : IsWhole w) (hv : ∀ c ∈ v, c.isDigit)
    (he : Decimal.exponentOfText? es = some e) (hes : ∀ c ∈ es, Symbol.isScalar (.char c)) :
    IsFraction (w ++ (fractionText v ++ 'e' :: es)) ⟨digitsValue (w ++ v), e - v.length⟩ where
  value := by
    have hmark : ∀ c ∈ ('e' :: es).head?, c.isDigit = false := by
      rintro _ ⟨⟩
      rfl
    have hfraction : ∀ c ∈ (fractionText v ++ 'e' :: es).head?, c.isDigit = false := by
      unfold fractionText
      split <;> rintro _ ⟨⟩ <;> rfl
    rw [Decimal.ofText?, takeWhile_append_eq hw.digits hfraction,
      dropWhile_append_eq hw.digits hfraction]
    rcases eq_or_ne v [] with rfl | hne
    · simp [fractionText, hw.ne_nil, he, Decimal.ofParts]
    · simp [fractionText, hne, takeWhile_append_eq hv hmark, dropWhile_append_eq hv hmark, he,
        Decimal.ofParts]
  strict := by
    rcases eq_or_ne v [] with rfl | hne
    · refine hw.isStrict_append ?_
      rintro _ ⟨⟩
      exact ⟨rfl, by decide⟩
    · obtain ⟨c, cs, rfl⟩ := List.exists_cons_of_ne_nil hne
      exact hw.isStrict_point (hv c (.head _))
  scalar := by
    have hfraction : ∀ c ∈ fractionText v, Symbol.isScalar (.char c) := by
      unfold fractionText
      split
      · exact List.forall_mem_nil _
      · exact List.forall_mem_cons.mpr ⟨rfl, fun c hc => isScalar_of_isDigit (hv c hc)⟩
    refine List.forall_mem_append.mpr ⟨fun c hc => isScalar_of_isDigit (hw.digits c hc), ?_⟩
    exact List.forall_mem_append.mpr ⟨hfraction, List.forall_mem_cons.mpr ⟨rfl, hes⟩⟩
  mark h := absurd (h 'e' (by simp)) (by decide)

end IsFraction

/-! ## Doubles -/

theorem toList_toString_int (n : Int) :
    (toString n).toList =
      if 0 ≤ n then Nat.toDigits 10 n.natAbs else '-' :: Nat.toDigits 10 n.natAbs := by
  rw [Int.toString_eq_repr, Int.repr_eq_if]
  split
  · rw [Nat.toList_repr, show n.toNat = n.natAbs by omega]
  · rw [String.toList_append, Nat.toList_repr, show (-n).toNat = n.natAbs by omega]
    rfl

/-- An exponent as a document has it, always with a sign. -/
def exponentText (e : Int) : List Char :=
  (if e < 0 then '-' else '+') :: Nat.toDigits 10 e.natAbs

theorem isScalar_exponentText (e : Int) :
    ∀ c ∈ exponentText e, Symbol.isScalar (.char c) := by
  refine List.forall_mem_cons.mpr ⟨?_, fun c hc => ?_⟩
  · split <;> rfl
  · exact isScalar_of_isDigit ((IsWhole.toDigits _).digits c hc)

theorem exponentOfText?_exponentText (e : Int) :
    Decimal.exponentOfText? (exponentText e) = some e := by
  have hdigits := (IsWhole.toDigits e.natAbs).digits
  have hvalue : digitsValue (Nat.toDigits 10 e.natAbs) = e.natAbs :=
    digitsValue_toDigits _
  have hall : (Nat.toDigits 10 e.natAbs).all Char.isDigit := List.all_eq_true.mpr hdigits
  rw [exponentText]
  split
  · rename_i hneg
    have he : -(e.natAbs : Int) = e := by omega
    generalize e.natAbs = n at *
    simp [Decimal.exponentOfText?, splitSign, Nat.toDigits_ne_nil, hall, hvalue, he]
  · rename_i hneg
    have he : (e.natAbs : Int) = e := by omega
    generalize e.natAbs = n at *
    simp [Decimal.exponentOfText?, splitSign, Nat.toDigits_ne_nil, hall, hvalue, he]

namespace IsFraction

theorem toList_scientificText (d : Decimal) :
    (Notation.document.scientificText d).toList =
      d.digits.take 1 ++ (fractionText (d.digits.drop 1) ++ 'e' :: exponentText d.leading) := by
  have hexponent : (if d.leading < 0 then toString d.leading
      else Notation.document.exponentSign ++ toString d.leading).toList =
      exponentText d.leading := by
    unfold exponentText
    split
    · rename_i hneg
      rw [toList_toString_int, if_neg (by omega)]
    · rename_i hneg
      rw [String.toList_append, toList_toString_int, if_pos (by omega)]
      rfl
  simp only [Notation.scientificText, String.toList_append, String.toList_ofList, hexponent,
    List.append_assoc]
  generalize d.digits.drop 1 = v
  cases v <;> simp [fractionText]

theorem scientificText (d : Decimal) :
    IsFraction (Notation.document.scientificText d).toList d := by
  have hlength : d.digits.length ≠ 0 := fun h => d.digits_ne_nil (List.eq_nil_of_length_eq_zero h)
  have hleading : d.leading = d.exponent + d.digits.length - 1 := rfl
  have hw : IsWhole (d.digits.take 1) := {
    ne_nil := by simp [d.digits_ne_nil]
    digits := fun c hc => d.forall_isDigit_digits c (List.mem_of_mem_take hc)
    strict := .inr (by rw [List.length_take]; omega) }
  have hv : ∀ c ∈ d.digits.drop 1, c.isDigit :=
    fun c hc => d.forall_isDigit_digits c (List.mem_of_mem_drop hc)
  have h := exponent hw hv (exponentOfText?_exponentText d.leading) (isScalar_exponentText _)
  rw [List.take_append_drop, d.digitsValue_digits, List.length_drop,
    show d.leading - ((d.digits.length - 1 : Nat) : Int) = d.exponent by omega] at h
  rwa [toList_scientificText]

/-- A text in positional notation may hold another decimal than it was made from, but one that
stands for the same double. -/
theorem exists_positionalText (hd : d.coefficient ≠ 0 ∨ d.exponent = 0) (hlt : d.exponent < 400) :
    ∃ d', IsFraction (Notation.document.positionalText d).toList d' ∧
      d'.toBinary64 false = d.toBinary64 false := by
  by_cases hexponent : 0 ≤ d.exponent
  · have hw : IsWhole (d.digits ++ List.replicate d.exponent.toNat '0') := by
      rcases hd with hd | hd
      · exact (IsWhole.toDigits _).append (head?_toDigits_ne hd) (forall_isDigit_zeros _)
      · rw [hd, Int.toNat_zero, List.replicate_zero, List.append_nil]
        exact .toDigits _
    have hvalue : digitsValue (d.digits ++ List.replicate d.exponent.toNat '0' ++ ['0']) =
        d.coefficient * 10 ^ (d.exponent.toNat + 1) := by
      rw [List.append_assoc, ← List.replicate_succ', digitsValue_append_zeros, d.digitsValue_digits]
    have h : Pointed _ _ ⟨d.coefficient * 10 ^ (d.exponent.toNat + 1), -(1 : Nat)⟩ :=
      ⟨hw, List.cons_ne_nil '0' [], forall_isDigit_zeros 1, hvalue, rfl⟩
    refine ⟨_, ?_, Decimal.toBinary64_scaled (Nat.le_refl 1) hexponent hlt⟩
    rw [Notation.positionalText, if_pos hexponent, String.toList_append, String.toList_ofList]
    exact point h
  · obtain ⟨w, v, hpointed, htext⟩ := d.exists_pointed .document (Int.not_le.mp hexponent)
    rw [htext]
    exact ⟨d, point hpointed, rfl⟩

theorem exists_magnitudeText (m : Magnitude) :
    ∃ d, IsFraction (Notation.document.magnitudeText m).toList d ∧
      d.toBinary64 false = .finite false m := by
  rw [Notation.magnitudeText]
  split
  · rename_i hzero
    rw [Magnitude.eq_zero hzero]
    exact exists_positionalText (d := ⟨0, 0⟩) (.inr rfl) (by decide)
  · rename_i hm
    have hread : (Decimal.shortest Notation.document.tie m).toBinary64 false = .finite false m :=
      Decimal.toBinary64_shortest .even hm
    generalize Decimal.shortest Notation.document.tie m = d at hread ⊢
    have hd : d.coefficient ≠ 0 := by
      intro hd
      rw [Decimal.toBinary64, if_pos hd] at hread
      cases hread
      exact hm rfl
    show ∃ d', IsFraction (if -5 ≤ d.leading && d.leading ≤ 15 then
      Notation.document.positionalText d else Notation.document.scientificText d).toList d' ∧ _
    split
    · rw [← hread]
      exact exists_positionalText (.inl hd) (Decimal.exponent_lt_of_toBinary64 hread hm)
    · exact ⟨d, scientificText d, hread⟩

end IsFraction

/-! ## Numbers and words -/

/-- The characters of a number or a word, and what it stands for. -/
structure Json.Scalar (cs : List Char) (j : Json) : Prop where
  ne_nil : cs ≠ []
  scalar : ∀ c ∈ cs, Symbol.isScalar (.char c)
  value : scalarOfText? cs = some j

namespace Json

/-- A text with a minus or without one. -/
def signed (negative : Bool) (cs : List Char) : List Char := if negative then '-' :: cs else cs

theorem exists_isDigit_of_isStrict (h : isStrict cs) : ∃ c ds, cs = c :: ds ∧ c.isDigit := by
  cases cs with
  | nil => cases h
  | cons c ds =>
    refine ⟨c, ds, rfl, ?_⟩
    by_contra hc
    simp [isStrict, hc] at h

theorem isScalar_signed (negative : Bool) (h : ∀ c ∈ cs, Symbol.isScalar (.char c)) :
    ∀ c ∈ signed negative cs, Symbol.isScalar (.char c) := by
  cases negative
  · exact h
  · exact List.forall_mem_cons.mpr ⟨rfl, h⟩

/-- A text that begins with a digit or a minus is no word, so it stands for a number. -/
theorem scalarOfText?_signed (negative : Bool) (h : isStrict cs) :
    scalarOfText? (signed negative cs) = numberOfParts? negative cs := by
  obtain ⟨c, ds, rfl, hc⟩ := exists_isDigit_of_isStrict h
  have hword (letter : Char) (letters : List Char) (hl : letter.isDigit = false)
      (hminus : letter ≠ '-') : signed negative (c :: ds) ≠ letter :: letters := by
    rintro h
    cases negative
    · cases h
      simp [hc] at hl
    · cases h
      exact hminus rfl
  have hnull : signed negative (c :: ds) ≠ "null".toList := hword 'n' _ rfl (by decide)
  have htrue : signed negative (c :: ds) ≠ "true".toList := hword 't' _ rfl (by decide)
  have hfalse : signed negative (c :: ds) ≠ "false".toList := hword 'f' _ rfl (by decide)
  rw [scalarOfText?, if_neg hnull, if_neg htrue, if_neg hfalse]
  cases negative
  · have hminus : c ≠ '-' := by
      rintro rfl
      cases hc
    simp [numberOfText?, signed, hminus, h]
  · simp [numberOfText?, signed, h]

namespace Scalar

theorem null : Scalar "null".toList .null :=
  ⟨by decide, List.all_eq_true.mp (by decide), rfl⟩

theorem bool (b : Bool) : Scalar (if b then "true" else "false").toList (.bool b) := by
  cases b
  · exact ⟨by decide, List.all_eq_true.mp (by decide), rfl⟩
  · exact ⟨by decide, List.all_eq_true.mp (by decide), rfl⟩

/-- A text with a point or an exponent is never taken for an integer. -/
theorem fraction (h : IsFraction cs d) (negative : Bool) (hx : d.toBinary64 negative = x)
    (hfinite : x.isFinite) : Scalar (signed negative cs) (.float x) where
  ne_nil := by
    obtain ⟨c, ds, rfl, _⟩ := exists_isDigit_of_isStrict h.strict
    cases negative <;> exact List.cons_ne_nil _ _
  scalar := isScalar_signed negative h.scalar
  value := by
    have hmark : cs.all Char.isDigit = false :=
      Bool.eq_false_iff.mpr fun hall => h.mark (List.all_eq_true.mp hall)
    rw [scalarOfText?_signed negative h.strict, numberOfParts?]
    simp [hmark, h.value, hx, hfinite]

/-- A finite double reads back from a document. -/
theorem float (hx : x.isFinite) : Scalar (Notation.document.text x).toList (.float x) := by
  cases x with
  | nan | infinity => cases hx
  | finite negative m =>
    obtain ⟨d, hd, hvalue⟩ := IsFraction.exists_magnitudeText m
    cases negative with
    | false => exact fraction hd false hvalue hx
    | true =>
      have hneg : d.toBinary64 true = .finite true m := by
        rw [d.toBinary64_true, hvalue]
        rfl
      have htext : (Notation.document.text (.finite true m)).toList =
          '-' :: (Notation.document.magnitudeText m).toList := by
        rw [Notation.text, String.toList_append]
        rfl
      rw [htext]
      exact fraction hd true hneg hx

/-- An integer of 64 bits reads back from a document. -/
theorem int {n : Int} (hn : FitsWord n) : Scalar (toString n).toList (.int n) := by
  have hw := IsWhole.toDigits n.natAbs
  have hall : (Nat.toDigits 10 n.natAbs).all Char.isDigit := List.all_eq_true.mpr hw.digits
  have hstrict : isStrict (Nat.toDigits 10 n.natAbs) := by
    rw [← List.append_nil (Nat.toDigits 10 n.natAbs)]
    exact hw.isStrict_append nofun
  have hvalue : digitsValue (Nat.toDigits 10 n.natAbs) = n.natAbs :=
    digitsValue_toDigits _
  have hscalar := fun c hc => isScalar_of_isDigit (hw.digits c hc)
  rw [toList_toString_int]
  split
  · rename_i hnonneg
    refine ⟨hw.ne_nil, hscalar, (scalarOfText?_signed false hstrict).trans ?_⟩
    have hself : (n.natAbs : Int) = n := by omega
    generalize n.natAbs = m at *
    simp [numberOfParts?, hall, hvalue, hself, hn]
  · rename_i hneg
    refine ⟨List.cons_ne_nil _ _, isScalar_signed true hscalar,
      (scalarOfText?_signed true hstrict).trans ?_⟩
    have hself : -(n.natAbs : Int) = n := by omega
    have hzero : n ≠ 0 := by omega
    generalize n.natAbs = m at *
    simp [numberOfParts?, hall, hvalue, hself, hn, hzero]

end Scalar
end Json

end MetricFormula
