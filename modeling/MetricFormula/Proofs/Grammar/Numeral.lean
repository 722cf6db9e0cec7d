import MetricFormula.Formula.Lexeme

/-! # Number literals

How numbers are written: digits with at most one point among them and an optional exponent, where
single underscores may stand between two digits. A number literal is split off a text whole, and
stands for the double that is read from its `numeral`, wherever nothing follows that would run
on. -/

namespace MetricFormula

/-- Digits behind a digit, each of them perhaps behind an underscore. -/
inductive MoreDigits : List Char → Prop
  | nil : MoreDigits []
  | digit {d w} : d.isDigit → MoreDigits w → MoreDigits (d :: w)
  | separated {d w} : d.isDigit → MoreDigits w → MoreDigits ('_' :: d :: w)

/-- Digits with single underscores between them, at least one. -/
inductive DigitRun : List Char → Prop
  | digits : d.isDigit → MoreDigits w → DigitRun (d :: w)

/-- Digits around a point, which need not be there. -/
inductive Mantissa : List Char → Prop
  | whole : DigitRun w → Mantissa w
  | pointed : DigitRun w → Mantissa (w ++ ['.'])
  | mixed : DigitRun w → DigitRun v → Mantissa (w ++ '.' :: v)
  | fraction : DigitRun v → Mantissa ('.' :: v)

/-- A mantissa, and perhaps an exponent. -/
inductive NumberLiteral : List Char → Prop
  | plain : Mantissa m → NumberLiteral m
  | scientific : Mantissa m → e = 'e' ∨ e = 'E' → sign = [] ∨ sign = ['+'] ∨ sign = ['-'] →
      DigitRun w → NumberLiteral (m ++ e :: (sign ++ w))

/-- What is read of a number literal: no underscores, and a small `e`. -/
def numeral (w : List Char) : List Char :=
  (w.filter (· ≠ '_')).map fun c => if c = 'E' then 'e' else c

variable {c : Char} {w v m rest : List Char}

theorem numeral_append (w v : List Char) : numeral (w ++ v) = numeral w ++ numeral v := by
  rw [numeral, List.filter_append, List.map_append, numeral, numeral]

theorem numeral_cons_digit (h : c.isDigit) (w : List Char) :
    numeral (c :: w) = c :: numeral w := by
  have hunderscore : c ≠ '_' := by rintro rfl; cases h
  have hexponent : c ≠ 'E' := by rintro rfl; cases h
  simp [numeral, hunderscore, hexponent]

/-! ## Runs of digits -/

/-- Digits that make up a run without underscores. -/
theorem moreDigits_of_forall (h : ∀ c ∈ w, c.isDigit) : MoreDigits w := by
  induction w with
  | nil => exact .nil
  | cons c w ih =>
    obtain ⟨hc, hw⟩ := List.forall_mem_cons.mp h
    exact .digit hc (ih hw)

theorem DigitRun.of_forall (hne : w ≠ []) (h : ∀ c ∈ w, c.isDigit) : DigitRun w := by
  cases w with
  | nil => exact absurd rfl hne
  | cons c w =>
    obtain ⟨hc, hw⟩ := List.forall_mem_cons.mp h
    exact .digits hc (moreDigits_of_forall hw)

theorem numeral_of_forall (h : ∀ c ∈ w, c.isDigit) : numeral w = w := by
  induction w with
  | nil => rfl
  | cons c w ih =>
    obtain ⟨hc, hw⟩ := List.forall_mem_cons.mp h
    rw [numeral_cons_digit hc, ih hw]

/-- The text goes on with neither a digit nor an underscore, or ends. -/
def EndsDigits (rest : List Char) : Prop := ∀ c ∈ rest.head?, c.isDigit = false ∧ c ≠ '_'

theorem splitMoreDigits_of_endsDigits (h : EndsDigits rest) :
    splitMoreDigits rest = ([], rest) := by
  cases rest with
  | nil => rfl
  | cons c cs =>
    obtain ⟨hdigit, hunderscore⟩ := h c rfl
    rw [splitMoreDigits, if_neg (by simp [hdigit])]
    exact fun _ _ hc _ => hunderscore hc

theorem splitDigits_of_endsDigits (h : EndsDigits rest) : splitDigits rest = ([], rest) := by
  cases rest with
  | nil => rfl
  | cons c cs => rw [splitDigits, if_neg (by simp [h c rfl])]

theorem MoreDigits.splitMoreDigits_append (hw : MoreDigits w) (h : EndsDigits rest) :
    splitMoreDigits (w ++ rest) = (numeral w, rest) := by
  induction hw with
  | nil => exact splitMoreDigits_of_endsDigits h
  | @digit d w hd _ ih =>
    have hunderscore : d ≠ '_' := by rintro rfl; cases hd
    rw [List.cons_append, splitMoreDigits, if_pos hd, ih, numeral_cons_digit hd]
    exact fun _ _ hc _ => hunderscore hc
  | @separated d w hd _ ih =>
    rw [List.cons_append, List.cons_append, splitMoreDigits, if_pos hd, ih]
    rw [show numeral ('_' :: d :: w) = numeral (d :: w) from rfl, numeral_cons_digit hd]

theorem DigitRun.splitDigits_append (hw : DigitRun w) (h : EndsDigits rest) :
    splitDigits (w ++ rest) = (numeral w, rest) := by
  obtain ⟨hd, hmore⟩ := hw
  rw [List.cons_append, splitDigits, if_pos hd, hmore.splitMoreDigits_append h,
    numeral_cons_digit hd]

/-- Whoever reads the numeral of a run of digits meets a digit first. -/
theorem DigitRun.numeral_eq_cons (hw : DigitRun w) :
    ∃ d ds, d.isDigit ∧ numeral w = d :: ds := by
  obtain ⟨hd, _⟩ := hw
  exact ⟨_, _, hd, numeral_cons_digit hd _⟩

/-! ## Mantissas -/

theorem splitMantissa_eq {whole : List Char} (hwhole : splitDigits m = (whole, rest))
    (hpoint : ∀ cs, rest ≠ '.' :: cs) : splitMantissa m = (whole, rest) := by
  rw [splitMantissa, hwhole]
  dsimp only
  split
  · exact absurd rfl (hpoint _)
  · rfl

theorem splitMantissa_point {whole fraction cs : List Char}
    (hwhole : splitDigits m = (whole, '.' :: cs)) (hfraction : splitDigits cs = (fraction, rest)) :
    splitMantissa m = (whole ++ '.' :: fraction, rest) := by
  simp only [splitMantissa, hwhole, hfraction]

theorem Mantissa.splitMantissa_append (hm : Mantissa m) (h : EndsDigits rest)
    (hpoint : ∀ cs, rest ≠ '.' :: cs) : splitMantissa (m ++ rest) = (numeral m, rest) := by
  have hdot : ∀ cs, EndsDigits ('.' :: cs) := by
    rintro cs c ⟨⟩
    exact ⟨rfl, by decide⟩
  cases hm with
  | whole hw => exact splitMantissa_eq (hw.splitDigits_append h) hpoint
  | pointed hw =>
    rw [List.append_assoc, numeral_append]
    exact splitMantissa_point (hw.splitDigits_append (hdot _)) (splitDigits_of_endsDigits h)
  | mixed hw hv =>
    rw [List.append_assoc, numeral_append]
    exact splitMantissa_point (hw.splitDigits_append (hdot _)) (hv.splitDigits_append h)
  | fraction hv =>
    exact splitMantissa_point (splitDigits_of_endsDigits (hdot _)) (hv.splitDigits_append h)

/-- A mantissa is never a point by itself. -/
theorem Mantissa.numeral_ne_point (hm : Mantissa m) : numeral m ≠ ['.'] := by
  have hcons : ∀ {w v}, DigitRun w → numeral (w ++ v) ≠ ['.'] := by
    intro w v hw heq
    obtain ⟨d, ds, hd, hnumeral⟩ := hw.numeral_eq_cons
    rw [numeral_append, hnumeral] at heq
    obtain ⟨rfl, _⟩ := List.cons.inj heq
    cases hd
  cases hm with
  | whole hw => simpa using hcons (v := []) hw
  | pointed hw | mixed hw => exact hcons hw
  | fraction hv =>
    obtain ⟨d, ds, _, hnumeral⟩ := hv.numeral_eq_cons
    intro heq
    rw [show numeral ('.' :: _) = '.' :: numeral _ from rfl, hnumeral] at heq
    cases heq

/-! ## Whole literals -/

/-- The text goes on with nothing that a number must not run into, or ends. -/
def EndsNumber (rest : List Char) : Prop := ∀ c ∈ rest.head?, runsOn c = false

theorem runsOn_point : runsOn '.' := by simp [runsOn]

theorem runsOn_of_isNamePart (h : isNamePart c) : runsOn c := by simp [runsOn, h]

/-- Symbols continue no name and, the point apart, no number. -/
theorem runsOn_of_mem_symbols (h : c ∈ symbols) (hpoint : c ≠ '.') : runsOn c = false := by
  have hall : (symbols.all fun c => c = '.' || !runsOn c) = true := by decide +kernel
  simpa [hpoint] using List.all_eq_true.mp hall c h

theorem runsOn_of_isDigit (h : c.isDigit) : runsOn c := by
  simp [runsOn, isNamePart, Text.isNumeric_of_isDigit h]

theorem EndsNumber.endsDigits (h : EndsNumber rest) : EndsDigits rest := by
  intro c hc
  have hruns := h c hc
  constructor
  · refine Bool.eq_false_iff.mpr fun hdigit => ?_
    rw [runsOn_of_isDigit hdigit] at hruns
    cases hruns
  · rintro rfl
    simp [runsOn, isNamePart] at hruns

theorem EndsNumber.ne_cons (h : EndsNumber rest) (hc : runsOn c) (cs : List Char) :
    rest ≠ c :: cs := by
  rintro rfl
  rw [h c rfl] at hc
  cases hc

theorem splitExponent_append {sign : List Char} (m : List Char)
    (hsign : sign = [] ∨ sign = ['+'] ∨ sign = ['-']) (hw : DigitRun w) (h : EndsDigits rest) :
    splitExponent m (sign ++ w ++ rest) = .ok (m ++ 'e' :: (sign ++ numeral w), rest) := by
  obtain ⟨d, ds, hd, hnumeral⟩ := hw.numeral_eq_cons
  have hsplit : splitSignChar (sign ++ w ++ rest) = (sign, w ++ rest) := by
    obtain ⟨hd, _⟩ := hw
    rcases hsign with rfl | rfl | rfl
    · rw [List.nil_append, List.cons_append, splitSignChar]
      · rintro cs ⟨⟩
        cases hd
      · rintro cs ⟨⟩
        cases hd
    · rfl
    · rfl
  rw [splitExponent, hsplit]
  dsimp only
  rw [hw.splitDigits_append h, hnumeral]
  simp

/-- A number literal begins with a digit or a point. -/
theorem NumberLiteral.exists_cons (hw : NumberLiteral w) :
    ∃ c cs, w = c :: cs ∧ (c.isDigit ∨ c = '.') := by
  have hmantissa : ∀ {m}, Mantissa m → ∃ c cs, m = c :: cs ∧ (c.isDigit ∨ c = '.') := by
    rintro m (⟨⟨hd, _⟩⟩ | ⟨⟨hd, _⟩⟩ | ⟨⟨hd, _⟩, _⟩ | _)
    · exact ⟨_, _, rfl, .inl hd⟩
    · exact ⟨_, _, rfl, .inl hd⟩
    · exact ⟨_, _, rfl, .inl hd⟩
    · exact ⟨_, _, rfl, .inr rfl⟩
  cases hw with
  | plain hm => exact hmantissa hm
  | scientific hm =>
    obtain ⟨c, cs, rfl, hc⟩ := hmantissa hm
    exact ⟨c, _, rfl, hc⟩

/-- A number literal is split off whole, and as its numeral. -/
theorem NumberLiteral.splitNumeral_append (hw : NumberLiteral w) (h : EndsNumber rest) :
    splitNumeral (w ++ rest) = .ok (numeral w, rest) := by
  cases hw with
  | plain hm =>
    rw [splitNumeral, hm.splitMantissa_append h.endsDigits (h.ne_cons runsOn_point)]
    dsimp only
    rw [if_neg hm.numeral_ne_point]
    split
    · exact absurd rfl (h.ne_cons (by decide +kernel) _)
    · exact absurd rfl (h.ne_cons (by decide +kernel) _)
    · rfl
  | @scientific m e sign v hm he hsign hv =>
    have hletter : EndsDigits (e :: (sign ++ v ++ rest)) := by
      rintro c ⟨⟩
      rcases he with rfl | rfl <;> decide
    have hpoint : ∀ cs, e :: (sign ++ v ++ rest) ≠ '.' :: cs := by
      intro cs hcons
      obtain rfl := (List.cons.inj hcons).1
      rcases he with he | he <;> cases he
    have hexponent : numeral (e :: (sign ++ v)) = 'e' :: (sign ++ numeral v) := by
      rcases he with rfl | rfl <;> rcases hsign with rfl | rfl | rfl <;> rfl
    rw [splitNumeral, List.append_assoc, List.cons_append, hm.splitMantissa_append hletter hpoint]
    dsimp only
    rw [if_neg hm.numeral_ne_point, numeral_append, hexponent,
      ← splitExponent_append _ hsign hv h.endsDigits]
    rcases he with rfl | rfl <;> rfl

/-- A number literal is a number wherever nothing follows that it would run into. -/
theorem NumberLiteral.splitNumber_append {x : Binary64} (hw : NumberLiteral w)
    (hx : Binary64.ofText? (numeral w) = some x) (h : EndsNumber rest) :
    splitNumber (w ++ rest) = .ok (.number x, rest) := by
  have hends : rest.head?.filter runsOn = none := by
    cases rest with
    | nil => rfl
    | cons c cs => simp [h c rfl]
  rw [splitNumber, hw.splitNumeral_append h]
  simp only [bind, Except.bind, hends, hx]

end MetricFormula
