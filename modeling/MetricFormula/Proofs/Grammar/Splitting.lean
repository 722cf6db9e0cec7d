import MetricFormula.Proofs.Grammar.Spelling
import MetricFormula.Proofs.Outcome

/-! # What is split off a text

The converse of spelling: whatever is split off the front of a text as a token is spelled by the
characters that are gone, and the rest begins with nothing that would continue it. So a front of a
text is a token exactly if it spells one and ends there (`Token.split_eq_ok_iff`). -/

namespace MetricFormula

variable {c : Char} {cs w rest digits : List Char} {t : Token}

/-! ## Numbers -/

theorem exists_moreDigits_of_split (h : splitMoreDigits cs = (digits, rest)) :
    ∃ w, cs = w ++ rest ∧ MoreDigits w ∧ numeral w = digits := by
  fun_induction splitMoreDigits cs generalizing digits with
  | case1 =>
    cases h
    exact ⟨[], rfl, .nil, rfl⟩
  | case2 d cs hd more rest' hsplit ih =>
    cases h
    obtain ⟨w, rfl, hw, hdigits⟩ := ih hsplit
    refine ⟨'_' :: d :: w, rfl, .separated hd hw, ?_⟩
    rw [show numeral ('_' :: d :: w) = numeral (d :: w) from rfl, numeral_cons_digit hd, hdigits]
  | case3 | case5 =>
    cases h
    exact ⟨[], rfl, .nil, rfl⟩
  | case4 d cs _ hd more rest' hsplit ih =>
    cases h
    obtain ⟨w, rfl, hw, hdigits⟩ := ih hsplit
    exact ⟨d :: w, rfl, .digit hd hw, by rw [numeral_cons_digit hd, hdigits]⟩

/-- What is split off as digits is a run of them, or nothing if the text begins with no digit. -/
theorem digitRun_of_split (h : splitDigits cs = (digits, rest)) :
    (digits = [] ∧ rest = cs ∧ ∀ d ∈ cs.head?, d.isDigit = false) ∨
      ∃ w, cs = w ++ rest ∧ DigitRun w ∧ numeral w = digits := by
  cases cs with
  | nil =>
    cases h
    exact .inl ⟨rfl, rfl, nofun⟩
  | cons d cs =>
    cases hd : d.isDigit with
    | false =>
      rw [splitDigits, if_neg (Bool.eq_false_iff.mp hd)] at h
      cases h
      refine .inl ⟨rfl, rfl, ?_⟩
      rintro _ ⟨⟩
      exact hd
    | true =>
      obtain ⟨more, rest', hsplit⟩ : ∃ more rest', splitMoreDigits cs = (more, rest') := ⟨_, _, rfl⟩
      rw [splitDigits, if_pos hd, hsplit] at h
      cases h
      obtain ⟨w, rfl, hw, hdigits⟩ := exists_moreDigits_of_split hsplit
      exact .inr ⟨d :: w, rfl, .digits hd hw, by rw [numeral_cons_digit hd, hdigits]⟩

/-- Where a number may begin, what is split off is a mantissa, or a point that stands alone. -/
theorem mantissa_of_split {m : List Char} (hc : c.isDigit ∨ c = '.')
    (h : splitMantissa (c :: cs) = (m, rest)) (hpoint : m ≠ ['.']) :
    ∃ w, c :: cs = w ++ rest ∧ Mantissa w ∧ numeral w = m := by
  obtain ⟨whole, mid, hwhole⟩ : ∃ whole mid, splitDigits (c :: cs) = (whole, mid) := ⟨_, _, rfl⟩
  by_cases hmid : ∃ us, mid = '.' :: us
  · obtain ⟨us, rfl⟩ := hmid
    obtain ⟨fraction, rest', hfraction⟩ : ∃ fraction rest', splitDigits us = (fraction, rest') :=
      ⟨_, _, rfl⟩
    rw [splitMantissa_point hwhole hfraction] at h
    cases h
    rcases digitRun_of_split hwhole with ⟨rfl, hcs, _⟩ | ⟨w, hcs, hw, rfl⟩ <;>
      rcases digitRun_of_split hfraction with ⟨rfl, rfl, _⟩ | ⟨v, rfl, hv, rfl⟩
    · exact absurd rfl hpoint
    · exact ⟨'.' :: v, hcs.symm, .fraction hv, rfl⟩
    · exact ⟨w ++ ['.'], by simp [hcs], .pointed hw, numeral_append _ _⟩
    · exact ⟨w ++ '.' :: v, by simp [hcs], .mixed hw hv, numeral_append _ _⟩
  · rw [splitMantissa_eq hwhole fun us hus => hmid ⟨us, hus⟩] at h
    cases h
    rcases digitRun_of_split hwhole with ⟨rfl, rfl, hhead⟩ | ⟨w, hcs, hw, hm⟩
    · rcases hc with hc | rfl
      · rw [hhead c rfl] at hc
        cases hc
      · exact absurd ⟨_, rfl⟩ hmid
    · exact ⟨w, hcs, .whole hw, hm⟩

theorem exists_sign_of_split {sign : List Char} (h : splitSignChar cs = (sign, rest)) :
    cs = sign ++ rest ∧ (sign = [] ∨ sign = ['+'] ∨ sign = ['-']) := by
  unfold splitSignChar at h
  split at h <;> cases h <;> simp

theorem exponent_of_split {m n : List Char} (h : splitExponent m cs = .ok (n, rest)) :
    ∃ sign w, cs = sign ++ w ++ rest ∧ (sign = [] ∨ sign = ['+'] ∨ sign = ['-']) ∧ DigitRun w ∧
      n = m ++ 'e' :: (sign ++ numeral w) := by
  obtain ⟨sign, us, hsign⟩ : ∃ sign us, splitSignChar cs = (sign, us) := ⟨_, _, rfl⟩
  obtain ⟨digits, rest', hdigits⟩ : ∃ digits rest', splitDigits us = (digits, rest') :=
    ⟨_, _, rfl⟩
  simp only [splitExponent, hsign, hdigits] at h
  split at h
  · cases h
  · rename_i hne
    cases h
    obtain ⟨rfl, hshape⟩ := exists_sign_of_split hsign
    rcases digitRun_of_split hdigits with ⟨rfl, _⟩ | ⟨w, rfl, hw, rfl⟩
    · exact absurd rfl hne
    · exact ⟨sign, w, by simp, hshape, hw, by simp⟩

theorem numberLiteral_of_split {n : List Char} (hc : c.isDigit ∨ c = '.')
    (h : splitNumeral (c :: cs) = .ok (n, rest)) :
    ∃ w, c :: cs = w ++ rest ∧ NumberLiteral w ∧ numeral w = n := by
  obtain ⟨m, mid, hm⟩ : ∃ m mid, splitMantissa (c :: cs) = (m, mid) := ⟨_, _, rfl⟩
  simp only [splitNumeral, hm] at h
  split at h
  · cases h
  · rename_i hpoint
    obtain ⟨w, hcs, hw, rfl⟩ := mantissa_of_split hc hm hpoint
    split at h
    · obtain ⟨sign, v, rfl, hsign, hv, rfl⟩ := exponent_of_split h
      refine ⟨w ++ 'e' :: (sign ++ v), by simp [hcs], .scientific hw (.inl rfl) hsign hv, ?_⟩
      rw [numeral_append]
      rcases hsign with rfl | rfl | rfl <;> rfl
    · obtain ⟨sign, v, rfl, hsign, hv, rfl⟩ := exponent_of_split h
      refine ⟨w ++ 'E' :: (sign ++ v), by simp [hcs], .scientific hw (.inr rfl) hsign hv, ?_⟩
      rw [numeral_append]
      rcases hsign with rfl | rfl | rfl <;> rfl
    · cases h
      exact ⟨w, hcs, .plain hw, rfl⟩

/-- What is split off as a number is a number literal that ends there. -/
theorem number_of_split (hc : c.isDigit ∨ c = '.')
    (h : splitNumber (c :: cs) = .ok (t, rest)) :
    ∃ w x, c :: cs = w ++ rest ∧ NumberLiteral w ∧ Binary64.ofText? (numeral w) = some x ∧
      t = .number x ∧ EndsNumber rest := by
  simp only [splitNumber, bind_eq_ok] at h
  obtain ⟨⟨n, mid⟩, hn, h⟩ := h
  split at h
  · cases h
  · rename_i hends hx
    cases h
    obtain ⟨w, hcs, hw, rfl⟩ := numberLiteral_of_split hc hn
    refine ⟨w, _, hcs, hw, hx, rfl, fun d hd => Bool.eq_false_iff.mpr fun hruns => ?_⟩
    simp_all
  · cases h

/-! ## Tokens -/

theorem text_of_split {quote : Char} (h : splitText quote cs = .ok (t, rest)) :
    ∃ s : String, quote ∉ s.toList ∧ cs = s.toList ++ quote :: rest ∧ t = .text s := by
  unfold splitText at h
  split at h
  · cases h
  · rename_i d rest' hdrop
    cases h
    have hquote : d = quote := by
      have hhead := List.head?_dropWhile_not (fun c => decide (c ≠ quote)) cs
      rw [hdrop] at hhead
      simpa using hhead
    refine ⟨String.ofList (cs.takeWhile (· ≠ quote)), ?_, ?_, rfl⟩
    · rw [String.toList_ofList]
      intro hmem
      simpa using List.all_eq_true.mp List.all_takeWhile _ hmem
    · rw [String.toList_ofList, ← hquote, ← hdrop, hquote, List.takeWhile_append_dropWhile]

theorem isName_ofList {w : List Char} (hc : isNameStart c) (hw : ∀ d ∈ w, isNamePart d) :
    isName (String.ofList (c :: w)) := by
  simpa [isName, hc] using hw

/-- What is split off as a token spells it, and nothing continues it. -/
theorem Token.exists_spelling (h : Token.split c cs = .ok (t, rest)) :
    ∃ w, c :: cs = w ++ rest ∧ Spelling t w ∧ t.Ends rest := by
  unfold Token.split at h
  split at h
  -- a single star or slash ends before whatever does not double it
  case h_6 =>
    cases h
    exact ⟨['*', '*'], rfl, .symbol rfl, fun _ _ => rfl⟩
  case h_7 cs hne =>
    cases h
    refine ⟨['*'], rfl, .symbol rfl, fun d hd => decide_eq_false ?_⟩
    rintro rfl
    obtain ⟨ds, rfl⟩ := List.head?_eq_some_iff.mp hd
    exact hne _ rfl
  case h_8 =>
    cases h
    exact ⟨['/', '/'], rfl, .symbol rfl, fun _ _ => rfl⟩
  case h_9 cs hne =>
    cases h
    refine ⟨['/'], rfl, .symbol rfl, fun d hd => decide_eq_false ?_⟩
    rintro rfl
    obtain ⟨ds, rfl⟩ := List.head?_eq_some_iff.mp hd
    exact hne _ rfl
  case h_10 cs =>
    obtain ⟨s, hs, rfl, rfl⟩ := text_of_split h
    exact ⟨_, by simp, .text (.inl rfl) hs, fun _ _ => rfl⟩
  case h_11 cs =>
    obtain ⟨s, hs, rfl, rfl⟩ := text_of_split h
    exact ⟨_, by simp, .text (.inr rfl) hs, fun _ _ => rfl⟩
  case h_12 =>
    split at h
    · rename_i hc
      obtain ⟨w, x, hcs, hw, hx, rfl, hends⟩ := number_of_split (by simpa using hc) h
      exact ⟨w, hcs, .number hw hx, hends⟩
    · split at h
      · rename_i hstart
        obtain ⟨rfl, rfl⟩ := Prod.mk.inj (Except.ok.inj h)
        refine ⟨_, ?_, .name (isName_ofList hstart fun d hd => ?_), fun d hd => ?_⟩
        · rw [String.toList_ofList, List.cons_append, List.takeWhile_append_dropWhile]
        · exact List.all_eq_true.mp List.all_takeWhile d hd
        · have hhead := List.head?_dropWhile_not isNamePart cs
          rw [hd] at hhead
          exact hhead
      · cases h
  all_goals
    cases h
    exact ⟨[_], rfl, .symbol rfl, fun _ _ => rfl⟩

/-- The front of a text that is split off as a token is what spells it and ends there. -/
theorem Token.split_eq_ok_iff :
    Token.split c cs = .ok (t, rest) ↔ ∃ w, c :: cs = w ++ rest ∧ Spelling t w ∧ t.Ends rest := by
  refine ⟨Token.exists_spelling, fun ⟨w, hcs, hw, hends⟩ => ?_⟩
  obtain ⟨d, ds, rfl, _, hsplit⟩ := hw.split_append hends
  obtain ⟨rfl, rfl⟩ := List.cons.inj hcs
  exact hsplit

end MetricFormula
