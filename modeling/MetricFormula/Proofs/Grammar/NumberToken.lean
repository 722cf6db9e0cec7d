import MetricFormula.Proofs.Grammar.Splitting

/-! # Number tokens

Every number literal has a value, which is read from it without its underscores. So a text that goes
on with a digit or a point either begins with a number literal that ends there, and is split behind
it, or no token is split off it at all (`number_split_iff_literal`). -/

namespace MetricFormula

variable {c : Char} {cs w v m rest sign : List Char} {t : Token}

/-! ## Removing underscores -/

/-- Only the letter of an exponent is written otherwise in a numeral. -/
theorem numeral_eq_filter (h : 'E' ∉ w) : numeral w = w.filter (· ≠ '_') := by
  rw [numeral]
  refine (List.map_congr_left fun c hc => ?_).trans (List.map_id _)
  have hne : c ≠ 'E' := fun heq => h (heq ▸ List.mem_of_mem_filter hc)
  rw [if_neg hne, id]

theorem MoreDigits.not_mem_exponent (hw : MoreDigits w) : 'E' ∉ w := by
  have hdigit : ∀ {d : Char}, d.isDigit → 'E' ≠ d := by
    rintro _ hd rfl
    cases hd
  induction hw with
  | nil => exact List.not_mem_nil
  | digit hd _ ih => simp [hdigit hd, ih]
  | separated hd _ ih => simp [hdigit hd, ih]

theorem DigitRun.not_mem_exponent (hw : DigitRun w) : 'E' ∉ w := by
  obtain ⟨hd, hmore⟩ := hw
  exact (MoreDigits.digit hd hmore).not_mem_exponent

theorem Mantissa.not_mem_exponent (hm : Mantissa m) : 'E' ∉ m := by
  cases hm with
  | whole hw => exact hw.not_mem_exponent
  | pointed hw => simp [hw.not_mem_exponent]
  | mixed hw hv => simp [hw.not_mem_exponent, hv.not_mem_exponent]
  | fraction hv => simp [hv.not_mem_exponent]

theorem MoreDigits.forall_isDigit_numeral (hw : MoreDigits w) : ∀ c ∈ numeral w, c.isDigit := by
  induction hw with
  | nil => exact nofun
  | digit hd _ ih =>
    rw [numeral_cons_digit hd]
    exact List.forall_mem_cons.mpr ⟨hd, ih⟩
  | @separated d w hd _ ih =>
    rw [show numeral ('_' :: d :: w) = numeral (d :: w) from rfl, numeral_cons_digit hd]
    exact List.forall_mem_cons.mpr ⟨hd, ih⟩

theorem DigitRun.forall_isDigit_numeral (hw : DigitRun w) : ∀ c ∈ numeral w, c.isDigit := by
  obtain ⟨hd, hmore⟩ := hw
  exact (MoreDigits.digit hd hmore).forall_isDigit_numeral

theorem DigitRun.numeral_ne_nil (hw : DigitRun w) : numeral w ≠ [] := by
  obtain ⟨d, ds, _, hnumeral⟩ := hw.numeral_eq_cons
  rw [hnumeral]
  exact List.cons_ne_nil d ds

/-! ## The value of a number literal -/

namespace Decimal

/-- What digits on both sides of a point make with what follows them. -/
def ofTail? (whole fraction : List Char) : List Char → Option Decimal
  | [] => some (ofParts whole fraction 0)
  | c :: rest =>
    if c = 'e' || c = 'E' then (exponentOfText? rest).map (ofParts whole fraction) else none

/-- Digits that begin a number are all read before what follows them. -/
theorem ofText?_whole (hne : w ≠ []) (hw : ∀ c ∈ w, c.isDigit)
    (h : ∀ c ∈ rest.head?, c.isDigit = false ∧ c ≠ '.') :
    ofText? (w ++ rest) = ofTail? w [] rest := by
  have hdigit : ∀ c ∈ rest.head?, c.isDigit = false := fun c hc => (h c hc).1
  rw [ofText?, takeWhile_append_eq hw hdigit, dropWhile_append_eq hw hdigit]
  cases rest with
  | nil => simp [hne, ofTail?]
  | cons c cs =>
    have hpoint : c ≠ '.' := (h c rfl).2
    simp [hne, ofTail?, hpoint]

/-- So are digits on both sides of a point, one of which may be missing. -/
theorem ofText?_pointed (hne : w ≠ [] ∨ v ≠ []) (hw : ∀ c ∈ w, c.isDigit)
    (hv : ∀ c ∈ v, c.isDigit) (h : ∀ c ∈ rest.head?, c.isDigit = false) :
    ofText? (w ++ '.' :: v ++ rest) = ofTail? w v rest := by
  have hpoint : ∀ c ∈ ('.' :: (v ++ rest)).head?, c.isDigit = false := by
    rintro _ ⟨⟩
    rfl
  have hempty : (w.isEmpty && v.isEmpty) = false := by
    rcases hne with hne | hne <;> simp [hne]
  rw [List.append_assoc, List.cons_append, ofText?, takeWhile_append_eq hw hpoint,
    dropWhile_append_eq hw hpoint]
  simp only [takeWhile_append_eq hv h, dropWhile_append_eq hv h, hempty]
  cases rest <;> rfl

theorem exponentOfText?_isSome (hsign : sign = [] ∨ sign = ['+'] ∨ sign = ['-']) (hne : w ≠ [])
    (hw : ∀ c ∈ w, c.isDigit) : (exponentOfText? (sign ++ w)).isSome := by
  have hsplit : ∃ negative, splitSign (sign ++ w) = (negative, w) := by
    rcases hsign with rfl | rfl | rfl
    · cases w with
      | nil => exact absurd rfl hne
      | cons c cs =>
        have hc : c.isDigit := hw c (.head _)
        refine ⟨false, ?_⟩
        rw [List.nil_append, splitSign]
        · rintro ds ⟨⟩
          cases hc
        · rintro ds ⟨⟩
          cases hc
    · exact ⟨false, rfl⟩
    · exact ⟨true, rfl⟩
  obtain ⟨negative, hsplit⟩ := hsplit
  have hall : w.all Char.isDigit := List.all_eq_true.mpr hw
  simp [exponentOfText?, hsplit, hne, hall]

end Decimal

/-- The digits of a mantissa are read before the exponent, and whatever the exponent is. -/
theorem Mantissa.exists_ofTail? (hm : Mantissa m) :
    ∃ whole fraction, ∀ rest : List Char, (∀ c ∈ rest.head?, c.isDigit = false ∧ c ≠ '.') →
      Decimal.ofText? (numeral m ++ rest) = Decimal.ofTail? whole fraction rest := by
  have hpoint : numeral ['.'] = ['.'] := rfl
  cases hm with
  | whole hw =>
    exact ⟨_, _, fun rest h =>
      Decimal.ofText?_whole hw.numeral_ne_nil hw.forall_isDigit_numeral h⟩
  | @pointed w hw =>
    refine ⟨numeral w, [], fun rest h => ?_⟩
    rw [numeral_append, hpoint]
    exact Decimal.ofText?_pointed (.inl hw.numeral_ne_nil) hw.forall_isDigit_numeral nofun
      fun c hc => (h c hc).1
  | @mixed w v hw hv =>
    refine ⟨numeral w, numeral v, fun rest h => ?_⟩
    rw [numeral_append, show numeral ('.' :: v) = '.' :: numeral v from rfl]
    exact Decimal.ofText?_pointed (.inl hw.numeral_ne_nil) hw.forall_isDigit_numeral
      hv.forall_isDigit_numeral fun c hc => (h c hc).1
  | @fraction v hv =>
    refine ⟨[], numeral v, fun rest h => ?_⟩
    exact Decimal.ofText?_pointed (w := []) (.inr hv.numeral_ne_nil) nofun
      hv.forall_isDigit_numeral fun c hc => (h c hc).1

/-- The text of a mantissa begins with no sign. -/
theorem Mantissa.ofText?_append (hm : Mantissa m) (rest : List Char) :
    Binary64.ofText? (numeral m ++ rest) =
      (Decimal.ofText? (numeral m ++ rest)).map (·.toBinary64 false) := by
  have hhead : ∃ c cs, numeral m = c :: cs ∧ c ≠ '-' ∧ c ≠ '+' := by
    have hdigits : ∀ {w v}, DigitRun w →
        ∃ c cs, numeral (w ++ v) = c :: cs ∧ c ≠ '-' ∧ c ≠ '+' := by
      intro w v hw
      obtain ⟨d, ds, hd, hnumeral⟩ := hw.numeral_eq_cons
      refine ⟨d, ds ++ numeral v, by rw [numeral_append, hnumeral]; rfl, ?_, ?_⟩
      · rintro rfl
        cases hd
      · rintro rfl
        cases hd
    cases hm with
    | whole hw =>
      rw [← List.append_nil m]
      exact hdigits hw
    | pointed hw | mixed hw => exact hdigits hw
    | fraction => exact ⟨'.', _, rfl, by decide, by decide⟩
  obtain ⟨c, cs, hcs, hminus, hplus⟩ := hhead
  have hsign : splitSign (c :: (cs ++ rest)) = (false, c :: (cs ++ rest)) := by
    rw [splitSign]
    · rintro ds ⟨⟩
      exact hminus rfl
    · rintro ds ⟨⟩
      exact hplus rfl
  rw [hcs, List.cons_append, Binary64.ofText?, hsign]

/-- Every number literal has a value. It does not matter whether the exponent begins with a small
letter. -/
theorem NumberLiteral.exists_value (hw : NumberLiteral w) :
    ∃ x, Binary64.ofText? (numeral w) = some x ∧
      Binary64.ofText? (w.filter (· ≠ '_')) = some x := by
  cases hw with
  | plain hm =>
    obtain ⟨whole, fraction, hread⟩ := hm.exists_ofTail?
    have hvalue : Binary64.ofText? (numeral w) =
        some ((Decimal.ofParts whole fraction 0).toBinary64 false) := by
      rw [← List.append_nil (numeral w), hm.ofText?_append, hread [] nofun]
      rfl
    exact ⟨_, hvalue, numeral_eq_filter hm.not_mem_exponent ▸ hvalue⟩
  | @scientific m e sign v hm he hsign hv =>
    obtain ⟨whole, fraction, hread⟩ := hm.exists_ofTail?
    obtain ⟨exponent, hexponent⟩ := Option.isSome_iff_exists.mp
      (Decimal.exponentOfText?_isSome hsign hv.numeral_ne_nil hv.forall_isDigit_numeral)
    have hvalue : ∀ e, e = 'e' ∨ e = 'E' →
        Binary64.ofText? (numeral m ++ e :: (sign ++ numeral v)) =
          some ((Decimal.ofParts whole fraction exponent).toBinary64 false) := by
      intro e he
      have hends : ∀ c ∈ (e :: (sign ++ numeral v)).head?, c.isDigit = false ∧ c ≠ '.' := by
        rintro _ ⟨⟩
        rcases he with rfl | rfl <;> decide
      have hletter : (decide (e = 'e') || decide (e = 'E')) = true := by simpa using he
      rw [hm.ofText?_append, hread _ hends, Decimal.ofTail?, if_pos hletter, hexponent]
      rfl
    refine ⟨(Decimal.ofParts whole fraction exponent).toBinary64 false, ?_, ?_⟩
    · have hsmall : numeral (e :: (sign ++ v)) = 'e' :: (sign ++ numeral v) := by
        rcases he with rfl | rfl <;> rcases hsign with rfl | rfl | rfl <;> rfl
      rw [numeral_append, hsmall, hvalue 'e' (.inl rfl)]
    · have hkept : (e :: (sign ++ v)).filter (· ≠ '_') = e :: (sign ++ numeral v) := by
        rw [numeral_eq_filter hv.not_mem_exponent]
        rcases he with rfl | rfl <;> rcases hsign with rfl | rfl | rfl <;> rfl
      rw [List.filter_append, hkept, ← numeral_eq_filter hm.not_mem_exponent, hvalue e he]

/-! ## Where a number may begin -/

theorem splitNumeral_ne_badNumber (cs : List Char) (s : String) :
    splitNumeral cs ≠ .error (.badNumber s) := by
  intro h
  simp only [splitNumeral, splitExponent] at h
  grind

/-- What is split off as a numeral always has a value. -/
theorem splitNumber_ne_badNumber (hc : c.isDigit ∨ c = '.') (s : String) :
    splitNumber (c :: cs) ≠ .error (.badNumber s) := by
  intro h
  rcases bind_eq_error.mp h with hnumeral | ⟨⟨n, rest⟩, hnumeral, h⟩
  · exact splitNumeral_ne_badNumber _ s hnumeral
  · obtain ⟨w, _, hw, rfl⟩ := numberLiteral_of_split hc hnumeral
    obtain ⟨x, hx, _⟩ := hw.exists_value
    simp only [hx] at h
    split at h <;> cases h
    contradiction

/-- A number literal that ends where the rest begins is split off whole. -/
theorem NumberLiteral.split_of_ends (hw : NumberLiteral w) (hends : EndsNumber rest)
    (hc : c.isDigit ∨ c = '.') (hcs : c :: cs = w ++ rest) :
    ∃ x, Binary64.ofText? (w.filter (· ≠ '_')) = some x ∧
      Token.split c cs = .ok (.number x, rest) := by
  obtain ⟨x, hx, hvalue⟩ := hw.exists_value
  rw [Token.split_eq_splitNumber hc, hcs, hw.splitNumber_append hx hends]
  exact ⟨x, hvalue, rfl⟩

/-- What is split off where a number may begin is a number literal. -/
theorem Token.exists_literal_of_split (hc : c.isDigit ∨ c = '.')
    (h : Token.split c cs = .ok (t, rest)) :
    ∃ w x, c :: cs = w ++ rest ∧ NumberLiteral w ∧ EndsNumber rest ∧
      Binary64.ofText? (w.filter (· ≠ '_')) = some x ∧ t = .number x := by
  rw [Token.split_eq_splitNumber hc] at h
  obtain ⟨w, x, hcs, hw, hx, rfl, hends⟩ := number_of_split hc h
  obtain ⟨y, hy, hvalue⟩ := hw.exists_value
  obtain rfl := Option.some.inj (hx.symm.trans hy)
  exact ⟨w, x, hcs, hw, hends, hvalue, rfl⟩

/-- A text that goes on with a digit or a point has a number split off exactly if a number literal
stands there, and behind it nothing that runs on. The literal is all that is taken, and the number is
what its text stands for without the underscores; every such literal has one. Otherwise nothing is
split off and the text is at fault, but never for a number without a value. -/
theorem number_split_iff_literal {text : List Char} (hc : c.isDigit ∨ c = '.')
    (htext : text.dropWhile Text.isBlank = c :: cs) :
    (∀ t rest, Token.split c cs = .ok (t, rest) ↔
      ∃ w x, c :: cs = w ++ rest ∧ NumberLiteral w ∧ EndsNumber rest ∧
        Binary64.ofText? (w.filter (· ≠ '_')) = some x ∧ t = .number x) ∧
    (∀ w rest, c :: cs = w ++ rest → NumberLiteral w → EndsNumber rest →
      ∃ x, Binary64.ofText? (w.filter (· ≠ '_')) = some x ∧
        scan text = ⟨.number x :: (scan rest).tokens, (scan rest).fault⟩) ∧
    ((∀ w rest, c :: cs = w ++ rest → NumberLiteral w → ¬ EndsNumber rest) →
      ∃ fault, Token.split c cs = .error fault ∧ scan text = ⟨[], some fault⟩) ∧
    ∀ s, Token.split c cs ≠ .error (.badNumber s) := by
  refine ⟨fun t rest => ⟨Token.exists_literal_of_split hc, ?_⟩, ?_, ?_, ?_⟩
  · rintro ⟨w, x, hcs, hw, hends, hvalue, rfl⟩
    obtain ⟨y, hy, hsplit⟩ := hw.split_of_ends hends hc hcs
    obtain rfl := Option.some.inj (hvalue.symm.trans hy)
    exact hsplit
  · intro w rest hcs hw hends
    obtain ⟨x, hvalue, hsplit⟩ := hw.split_of_ends hends hc hcs
    rw [scan_eq, htext]
    exact ⟨x, hvalue, by simp only [hsplit]⟩
  · intro hnone
    rw [scan_eq, htext]
    cases hsplit : Token.split c cs with
    | error fault => exact ⟨fault, rfl, by simp only [hsplit]⟩
    | ok split =>
      obtain ⟨w, _, hcs, hw, hends, _⟩ := Token.exists_literal_of_split hc hsplit
      exact absurd hends (hnone w split.2 hcs hw)
  · intro s
    rw [Token.split_eq_splitNumber hc]
    exact splitNumber_ne_badNumber hc s

/-- A literal with underscores and an exponent, up to a blank, and one whose exponent would begin
with an underscore. -/
theorem number_split_iff_literal_separated :
    (∃ x, Binary64.ofText? "10.5E+20".toList = some x ∧
      scan " 1_0.5E+2_0 b".toList = ⟨[.number x, .name "b"], none⟩) ∧
    ∃ fault, scan "1e_1".toList = ⟨[], some fault⟩ := by
  have hdigits : ∀ {w : List Char}, w = ['1', '_', '0'] ∨ w = ['5'] ∨ w = ['2', '_', '0'] →
      DigitRun w := by
    rintro w (rfl | rfl | rfl)
    · exact .digits rfl (.separated rfl .nil)
    · exact .digits rfl .nil
    · exact .digits rfl (.separated rfl .nil)
  have hliteral : NumberLiteral "1_0.5E+2_0".toList :=
    .scientific (.mixed (hdigits (.inl rfl)) (hdigits (.inr (.inl rfl)))) (.inr rfl)
      (.inr (.inl rfl)) (hdigits (.inr (.inr rfl)))
  have hends : EndsNumber " b".toList := by
    rintro _ ⟨⟩
    exact Token.continues_eq_false_of_isBlank (t := .number .nan) rfl
  have hname : scan " b".toList = ⟨[.name "b"], none⟩ :=
    lexes_iff_scan_eq.mp (.blank rfl (.token rfl rfl .nil))
  constructor
  · have htext : " 1_0.5E+2_0 b".toList.dropWhile Text.isBlank = '1' :: _ := rfl
    obtain ⟨_, hread, _⟩ := number_split_iff_literal (.inl rfl) htext
    obtain ⟨x, hvalue, hscan⟩ := hread _ _ rfl hliteral hends
    rw [hname] at hscan
    exact ⟨x, hvalue, hscan⟩
  · have hnone : ∀ w rest, "1e_1".toList = w ++ rest → NumberLiteral w → ¬ EndsNumber rest := by
      intro w rest h hw hends
      have hsplit := hw.splitNumeral_append hends
      rw [← h] at hsplit
      cases hsplit
    have htext : "1e_1".toList.dropWhile Text.isBlank = '1' :: _ := rfl
    obtain ⟨_, _, hrefused, _⟩ := number_split_iff_literal (.inl rfl) htext
    obtain ⟨fault, _, hscan⟩ := hrefused hnone
    exact ⟨fault, hscan⟩

end MetricFormula
