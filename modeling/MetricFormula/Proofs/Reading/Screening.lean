import MetricFormula.Proofs.Reading.Limits
import MetricFormula.Proofs.Reading.Spacing

/-! # What screening lets pass

Whatever a token is spelled with is in the alphabet of formulas, but for what stands between the
quotes of a text. So a text that can be read is refused for nothing but a character inside a quoted
text, and otherwise it is calculated as it is read. -/

namespace MetricFormula

/-- The character between the two pieces of a text stands inside a quoted text: all before some
quote falls into tokens, so that this quote opens a text, and the next such quote is behind the
character. -/
inductive InsideText : List Char → Char → List Char → Prop
  | intro {front ts q opened c closing back} : Lexes front ts → q = '"' ∨ q = '\'' →
      q ∉ opened ++ c :: closing → InsideText (front ++ q :: opened) c (closing ++ q :: back)

variable {c : Char} {cs w rest before after blanks : List Char} {t : Token} {ts : List Token}
  {policy : Policy} {text : String} {e : Expr}

/-! ## What tokens are spelled with -/

/-- Whether tokens other than texts can be spelled with the character. -/
def isTokenPart (c : Char) : Bool := isNamePart c || symbols.contains c

theorem isTokenPart_of_isNamePart (h : isNamePart c) : isTokenPart c := by simp [isTokenPart, h]

theorem isTokenPart_of_mem_symbols (h : c ∈ symbols) : isTokenPart c := by simp [isTokenPart, h]

theorem isTokenPart_of_isDigit (h : c.isDigit) : isTokenPart c :=
  isTokenPart_of_isNamePart (by simp [isNamePart, Text.isNumeric_of_isDigit h])

theorem isAllowed_of_isTokenPart (h : isTokenPart c) : isAllowed c := by
  rcases Bool.or_eq_true_iff.mp h with h | h
  · simp [isAllowed, h]
  · simp only [isAllowed, h, Bool.or_true]

theorem isBlank_eq_false_of_isTokenPart (h : isTokenPart c) : Text.isBlank c = false := by
  rcases Bool.or_eq_true_iff.mp h with h | h
  · exact isBlank_eq_false_of_isNamePart h
  · have hall : (symbols.all fun c => !Text.isBlank c) = true := rfl
    simpa using List.all_eq_true.mp hall c (List.contains_iff_mem.mp h)

theorem MoreDigits.forall_isTokenPart (hw : MoreDigits w) : ∀ c ∈ w, isTokenPart c := by
  induction hw with
  | nil => exact nofun
  | digit hd _ ih => exact List.forall_mem_cons.mpr ⟨isTokenPart_of_isDigit hd, ih⟩
  | separated hd _ ih =>
    have hunderscore : isTokenPart '_' := isTokenPart_of_isNamePart (by simp [isNamePart])
    simp only [List.forall_mem_cons]
    exact ⟨hunderscore, isTokenPart_of_isDigit hd, ih⟩

theorem DigitRun.forall_isTokenPart (hw : DigitRun w) : ∀ c ∈ w, isTokenPart c := by
  obtain ⟨hd, hmore⟩ := hw
  exact List.forall_mem_cons.mpr ⟨isTokenPart_of_isDigit hd, hmore.forall_isTokenPart⟩

theorem Mantissa.forall_isTokenPart (hw : Mantissa w) : ∀ c ∈ w, isTokenPart c := by
  have hpoint : isTokenPart '.' := isTokenPart_of_mem_symbols (by decide)
  cases hw with
  | whole hw => exact hw.forall_isTokenPart
  | pointed hw =>
    exact List.forall_mem_append.mpr ⟨hw.forall_isTokenPart, List.forall_mem_singleton.mpr hpoint⟩
  | mixed hw hv =>
    exact List.forall_mem_append.mpr
      ⟨hw.forall_isTokenPart, List.forall_mem_cons.mpr ⟨hpoint, hv.forall_isTokenPart⟩⟩
  | fraction hv => exact List.forall_mem_cons.mpr ⟨hpoint, hv.forall_isTokenPart⟩

theorem NumberLiteral.forall_isTokenPart (hw : NumberLiteral w) : ∀ c ∈ w, isTokenPart c := by
  cases hw with
  | plain hm => exact hm.forall_isTokenPart
  | @scientific m e sign v hm he hsign hv =>
    have hletter : isTokenPart e := by
      refine isTokenPart_of_isNamePart (isNamePart_of_isNameStart ?_)
      have halpha : e.isAlpha := by rcases he with rfl | rfl <;> rfl
      simp [isNameStart, Text.isAlphabetic_of_isAlpha halpha]
    have hsigns : ∀ c ∈ sign, isTokenPart c := by
      have hsymbols : ∀ c ∈ sign, c ∈ symbols := by
        rcases hsign with rfl | rfl | rfl <;> simp [symbols]
      exact fun c hc => isTokenPart_of_mem_symbols (hsymbols c hc)
    refine List.forall_mem_append.mpr
      ⟨hm.forall_isTokenPart, List.forall_mem_cons.mpr ⟨hletter, ?_⟩⟩
    exact List.forall_mem_append.mpr ⟨hsigns, hv.forall_isTokenPart⟩

/-- The characters of a token, those of a text apart. -/
theorem Spelling.forall_isTokenPart (h : Spelling t w) (ht : ∀ s, t ≠ .text s) :
    ∀ c ∈ w, isTokenPart c := by
  cases h with
  | name hname =>
    obtain ⟨d, ds, hs, hd, hds⟩ := isName_eq_cons hname
    rw [hs]
    refine List.forall_mem_cons.mpr ⟨?_, fun c hc => isTokenPart_of_isNamePart (hds c hc)⟩
    exact isTokenPart_of_isNamePart (isNamePart_of_isNameStart hd)
  | number hw _ => exact hw.forall_isTokenPart
  | text => exact absurd rfl (ht _)
  | symbol hw =>
    have hsymbols : ∀ c ∈ w, c ∈ symbols := by
      cases t with
      | name | number | text => cases hw
      | _ =>
        cases hw
        simp [symbols]
    exact fun c hc => isTokenPart_of_mem_symbols (hsymbols c hc)

theorem isTokenPart_of_quote {q : Char} (hq : q = '"' ∨ q = '\'') : isTokenPart q :=
  isTokenPart_of_mem_symbols (by rcases hq with rfl | rfl <;> decide)

/-- No token ends with white space. -/
theorem Spelling.getLast_not_blank (h : Spelling t w) (hc : w.getLast? = some c) :
    Text.isBlank c = false := by
  refine isBlank_eq_false_of_isTokenPart ?_
  by_cases ht : ∃ s, t = .text s
  · obtain ⟨s, rfl⟩ := ht
    cases h with
    | @text q s hq _ =>
      rw [← List.cons_append, List.getLast?_concat] at hc
      obtain rfl := Option.some.inj hc
      exact isTokenPart_of_quote hq
    | symbol h => cases h
  · exact h.forall_isTokenPart (fun s hs => ht ⟨s, hs⟩) c (List.mem_of_getLast? hc)

/-! ## Characters that are refused -/

/-- Of a text in quotes, the quotes are allowed. -/
theorem isAllowed_or_insideText_of_quoted {q : Char} {s : List Char} (hq : q = '"' ∨ q = '\'')
    (hs : q ∉ s) (h : q :: (s ++ [q]) = before ++ c :: after) (rest : List Char) :
    isAllowed c ∨ InsideText before c (after ++ rest) := by
  have hquote : isAllowed q := isAllowed_of_isTokenPart (isTokenPart_of_quote hq)
  cases before with
  | nil =>
    obtain ⟨rfl, _⟩ := List.cons.inj h
    exact .inl hquote
  | cons d opened =>
    rw [List.cons_append, List.cons.injEq] at h
    obtain ⟨rfl, h⟩ := h
    rcases List.eq_nil_or_concat' after with rfl | ⟨closing, d, rfl⟩
    · obtain ⟨_, hc⟩ := List.append_inj' h rfl
      obtain rfl := List.singleton_inj.mp hc
      exact .inl hquote
    · rw [← List.cons_append, ← List.append_assoc] at h
      obtain ⟨rfl, hd⟩ := List.append_inj' h rfl
      obtain rfl := List.singleton_inj.mp hd
      rw [List.append_assoc]
      exact .inr (.intro Lexes.nil hq hs)

/-- What is inside a text stays inside it behind a blank. -/
theorem InsideText.blank {d : Char} (hd : Text.isBlank d) (h : InsideText before c after) :
    InsideText (d :: before) c after := by
  obtain ⟨hfront, hq, hfree⟩ := h
  exact .intro (.blank hd hfront) hq hfree

/-- A token that ends before some text ends before its front as well. -/
theorem Token.Ends.of_append {front back : List Char} (h : t.Ends (front ++ back)) :
    t.Ends front := by
  intro d hd
  obtain ⟨ds, rfl⟩ := List.head?_eq_some_iff.mp hd
  exact h d rfl

/-- What is inside a text stays inside it behind a token that ends there. -/
theorem InsideText.token (hw : Spelling t w) (hends : t.Ends (before ++ c :: after))
    (h : InsideText before c after) : InsideText (w ++ before) c after := by
  obtain ⟨hfront, hq, hfree⟩ := h
  rw [List.append_assoc] at hends
  rw [← List.append_assoc]
  exact .intro (hw.lexes hends.of_append hfront) hq hfree

/-- Every character of a text that falls into tokens is allowed or stands inside a quoted text. -/
theorem Lexes.isAllowed_or_insideText (h : Lexes cs ts) (hcs : cs = before ++ c :: after) :
    isAllowed c ∨ InsideText before c after := by
  induction h generalizing before with
  | nil => cases before <;> cases hcs
  | @blank d cs ts hd _ ih =>
    cases before with
    | nil =>
      obtain ⟨rfl, _⟩ := List.cons.inj hcs
      exact .inl (isAllowed_of_isBlank hd)
    | cons b before =>
      rw [List.cons_append, List.cons.injEq] at hcs
      obtain ⟨rfl, hcs⟩ := hcs
      exact (ih hcs).imp_right (·.blank hd)
  | @token d cs t rest ts hd hsplit _ ih =>
    obtain ⟨w, hw, hspelling, hends⟩ := Token.exists_spelling hsplit
    have hbehind : ∀ between, rest = between ++ c :: after →
        isAllowed c ∨ InsideText (w ++ between) c after := by
      rintro between rfl
      exact (ih rfl).imp_right (·.token hspelling hends)
    -- the character stands behind the token or is a part of it
    rcases List.append_eq_append_iff.mp (hw.symm.trans hcs) with
      ⟨between, rfl, hrest⟩ | ⟨own, hown, hc⟩
    · exact hbehind between hrest
    · cases own with
      | nil =>
        rw [List.append_nil] at hown
        subst hown
        simpa using hbehind [] hc.symm
      | cons b own =>
        obtain ⟨rfl, rfl⟩ := List.cons.inj hc
        by_cases ht : ∃ s, t = .text s
        · obtain ⟨s, rfl⟩ := ht
          cases hspelling with
          | text hq hs => exact isAllowed_or_insideText_of_quoted hq hs hown rest
          | symbol h => cases h
        · refine .inl (isAllowed_of_isTokenPart ?_)
          refine hspelling.forall_isTokenPart (fun s hs => ht ⟨s, hs⟩) c ?_
          rw [hown]
          exact List.mem_append_right before List.mem_cons_self

/-! ## Trimmed texts -/

/-- White space at the end of a text belongs to none of its tokens. -/
theorem Lexes.of_append_blanks (h : Lexes (cs ++ blanks) ts)
    (hblanks : ∀ c ∈ blanks, Text.isBlank c) : Lexes cs ts := by
  generalize hall : cs ++ blanks = all at h
  induction h generalizing cs blanks with
  | nil =>
    obtain ⟨rfl, _⟩ := List.append_eq_nil_iff.mp hall
    exact .nil
  | @blank d all ts hd _ ih =>
    rcases List.append_eq_cons_iff.mp hall with ⟨rfl, rfl⟩ | ⟨cs, rfl, rfl⟩
    · exact ih (List.forall_mem_cons.mp hblanks).2 (List.nil_append all)
    · exact .blank hd (ih hblanks rfl)
  | @token d all t rest ts hd hsplit _ ih =>
    obtain ⟨w, hw, hspelling, hends⟩ := Token.exists_spelling hsplit
    rcases List.append_eq_append_iff.mp (hall.trans hw) with ⟨own, hown, hrest⟩ | ⟨more, rfl, rfl⟩
    · -- were any of the white space part of the token, then so would be its last character
      cases own with
      | nil =>
        rw [List.append_nil] at hown
        subst hown
        have hlexes : Lexes [] ts := ih hblanks hrest
        have hends : t.Ends [] := nofun
        simpa using hspelling.lexes hends hlexes
      | cons b own =>
        have hlast : (b :: own).getLast? = some _ := List.getLast?_cons
        have hblank := hblanks _ (hrest ▸ List.mem_append_left rest (List.mem_of_getLast? hlast))
        rw [hspelling.getLast_not_blank (by rw [hown, List.getLast?_append, hlast]; rfl)] at hblank
        cases hblank
    · exact hspelling.lexes hends.of_append (ih hblanks rfl)

theorem Lexes.dropWhile (h : Lexes cs ts) : Lexes (cs.dropWhile Text.isBlank) ts := by
  induction h with
  | nil => exact .nil
  | blank hd _ ih => rwa [List.dropWhile_cons_of_pos hd]
  | token hd hsplit h _ =>
    rw [List.dropWhile_cons_of_neg (Bool.eq_false_iff.mp hd)]
    exact .token hd hsplit h

theorem Lexes.trim (h : Lexes cs ts) : Lexes (Text.trim cs) ts := by
  have hblanks : ∀ c ∈ ((cs.dropWhile Text.isBlank).reverse.takeWhile Text.isBlank).reverse,
      Text.isBlank c :=
    fun c hc => List.all_eq_true.mp List.all_takeWhile c (List.mem_reverse.mp hc)
  refine Lexes.of_append_blanks ?_ hblanks
  rw [Text.trim, ← List.reverse_append, List.takeWhile_append_dropWhile, List.reverse_reverse]
  exact h.dropWhile

theorem Text.length_trim_le (cs : List Char) : (Text.trim cs).length ≤ cs.length := by
  have hfront := (List.dropWhile_sublist Text.isBlank (l := cs)).length_le
  have hback := (List.dropWhile_sublist Text.isBlank
    (l := (cs.dropWhile Text.isBlank).reverse)).length_le
  rw [List.length_reverse] at hback
  rw [Text.trim, List.length_reverse]
  exact hback.trans hfront

/-- What can be read falls into tokens, and is not white space only. -/
theorem Expr.exists_lexes_of_ofText (h : Expr.ofText policy text = .ok e) :
    ∃ t ts, Lexes text.toList (t :: ts) := by
  rw [Expr.ofText_eq (Expr.length_le_of_ofText h)] at h
  obtain ⟨hfault, h⟩ := ReadingRules.derives_of_ofTokens h
  obtain ⟨t, ts, hts, _⟩ := h.exists_cons
  exact ⟨t, ts, hts ▸ lexes_scan _ hfault⟩

/-- What is read of a text is read of it without the white space at its ends. -/
theorem Expr.ofText_trimmed (h : Expr.ofText policy text = .ok e) :
    Expr.ofText policy (trimmed text) = .ok e := by
  have hlength := Expr.length_le_of_ofText h
  obtain ⟨t, ts, hlexes⟩ := Expr.exists_lexes_of_ofText h
  have htrimmed : (trimmed text).toList = Text.trim text.toList := String.toList_ofList
  have hlength' : (trimmed text).length ≤ text.length := by
    rw [← String.length_toList, ← String.length_toList, htrimmed]
    exact Text.length_trim_le _
  rw [Expr.ofText_eq hlength, lexes_iff_scan_eq.mp hlexes] at h
  rw [Expr.ofText_eq (hlength'.trans hlength), htrimmed, lexes_iff_scan_eq.mp hlexes.trim]
  exact h

/-! ## Texts that can be read -/

theorem screen_ne_empty_of_ofText (h : Expr.ofText policy text = .ok e) : screen text ≠ .empty := by
  obtain ⟨t, ts, hlexes⟩ := Expr.exists_lexes_of_ofText h
  intro hempty
  have hnil : text.toList.dropWhile Text.isBlank = [] :=
    List.dropWhile_eq_nil_iff.mpr (screen_eq_empty.mp hempty)
  have hlexes := hlexes.dropWhile
  rw [hnil] at hlexes
  cases hlexes

/-- A text that can be read is refused only for a character inside a quoted text. -/
theorem insideText_of_refused (h : Expr.ofText policy text = .ok e)
    (hscreen : screen text = .refused c) :
    ∃ before after, text.toList = before ++ c :: after ∧ (∀ b ∈ before, isAllowed b) ∧
      isAllowed c = false ∧ InsideText before c after := by
  obtain ⟨_, before, after, htext, hbefore, hc⟩ := screen_eq_refused.mp hscreen
  obtain ⟨t, ts, hlexes⟩ := Expr.exists_lexes_of_ofText h
  refine ⟨before, after, htext, hbefore, hc, (hlexes.isAllowed_or_insideText htext).resolve_left ?_⟩
  exact Bool.eq_false_iff.mp hc

/-- Of a text that can be read, screening can refuse nothing but what stands inside quoted texts. If
all of that is allowed, the text is accepted, and its calculation is to read what is left of it by
trimming, which is no other expression, and to evaluate. A calculation that is refused names the first
character that is not allowed, which stands inside a quoted text. -/
theorem screening_spares_readable (h : Expr.ofText policy text = .ok e) :
    ((∀ before c after, text.toList = before ++ c :: after → InsideText before c after →
        isAllowed c) →
      screen text = .accepted ∧
      (∀ ctx : Context,
        ctx.calculate text = Expr.ofText ctx.policy (trimmed text) >>= (·.result ctx)) ∧
      ∀ ctx : Context, ctx.policy = policy → ctx.calculate text = e.result ctx) ∧
    ∀ (ctx : Context) (c : Char), ctx.calculate text = .error (.refused c) →
      ∃ before after, text.toList = before ++ c :: after ∧ (∀ b ∈ before, isAllowed b) ∧
        isAllowed c = false ∧ InsideText before c after := by
  constructor
  · intro hinside
    have haccepted : screen text = .accepted := by
      cases hscreen : screen text with
      | empty => exact absurd hscreen (screen_ne_empty_of_ofText h)
      | refused c =>
        obtain ⟨before, after, htext, _, hc, hquoted⟩ := insideText_of_refused h hscreen
        rw [hinside before c after htext hquoted] at hc
        cases hc
      | accepted => rfl
    refine ⟨haccepted, fun ctx => ctx.calculate_of_accepted haccepted, ?_⟩
    rintro ctx rfl
    rw [ctx.calculate_of_accepted haccepted, Expr.ofText_trimmed h]
    rfl
  · intro ctx c hrefused
    exact insideText_of_refused h
      (screen_eq_refused.mpr ((ctx.calculate_eq_error_refused c).mp hrefused))

/-- A name of letters that are all allowed, and a text that holds a character which is not. -/
theorem screening_spares_readable_dollar :
    let ctx : Context := ⟨.empty, .empty, {}⟩
    screen " größe" = .accepted ∧ ctx.calculate " größe" = (Expr.name "größe").result ctx ∧
      ctx.calculate "'a$'" = .error (.refused '$') ∧
      ∃ before after, "'a$'".toList = before ++ '$' :: after ∧ InsideText before '$' after := by
  intro ctx
  have hname : Expr.ofText {} " größe" = .ok (.name "größe") := by
    have hlexes : Lexes " größe".toList [.name "größe"] :=
      lexes_iff_scan_eq.mpr (by decide +kernel)
    exact Expr.ofText_of_derives (by decide) (by decide) hlexes
      (.expr_of_factor (.ofPower (.ofPrimary .name)))
  have htext : Expr.ofText {} "'a$'" = .ok (.text "a$") := by
    have hlexes : Lexes "'a$'".toList [.text "a$"] := .token rfl rfl .nil
    exact Expr.ofText_of_derives (by decide) (by decide) hlexes
      (.expr_of_factor (.ofPower (.ofPrimary .text)))
  have hallowed : ∀ c ∈ " größe".toList, isAllowed c :=
    List.all_eq_true.mp (by decide +kernel)
  have hbefore : ∀ b ∈ ['\'', 'a'], isAllowed b := List.all_eq_true.mp (by decide +kernel)
  have hrefused : ctx.calculate "'a$'" = .error (.refused '$') := by
    refine (ctx.calculate_eq_error_refused '$').mpr ⟨fun hblank => ?_, _, ['\''], rfl, hbefore,
      by decide +kernel⟩
    exact absurd (hblank '$' (by decide)) (by decide)
  obtain ⟨haccepted, _, hcalculate⟩ := (screening_spares_readable hname).1 fun before c after h _ =>
    hallowed c (h ▸ List.mem_append_right before List.mem_cons_self)
  obtain ⟨before, after, happend, _, _, hinside⟩ :=
    (screening_spares_readable htext).2 ctx '$' hrefused
  exact ⟨haccepted, hcalculate ctx rfl, hrefused, before, after, happend, hinside⟩

end MetricFormula
