import Mathlib.Data.List.Chain
import MetricFormula.Proofs.Grammar.Derivation
import MetricFormula.Proofs.Grammar.Lexing
import MetricFormula.Proofs.Grammar.Numeral

/-! # Spelling tokens

How each token may be spelled, and what must not follow it right away. Tokens that are written one
after the other, with white space anywhere between them or none, are what the text falls into, as
long as no two of them would run into each other (`Written.lexes`). -/

namespace MetricFormula

/-- A letter or an underscore, and then letters, numerals and underscores. -/
def isName (s : String) : Bool :=
  match s.toList with
  | [] => false
  | c :: cs => isNameStart c && cs.all isNamePart

namespace Token

/-- The spelling of a token that has only one. -/
def symbol? : Token → Option (List Char)
  | name _ | number _ | text _ => none
  | comma => some [',']
  | leftParen => some ['(']
  | rightParen => some [')']
  | plus => some ['+']
  | minus => some ['-']
  | star => some ['*']
  | starStar => some ['*', '*']
  | slash => some ['/']
  | slashSlash => some ['/', '/']

/-- Whether the character would make another token of the one before it. -/
def continues : Token → Char → Bool
  | name _, c => isNamePart c
  | number _, c => runsOn c
  | star, c => c = '*'
  | slash, c => c = '/'
  | _, _ => false

/-- The text behind the token goes on with nothing that would continue it, or ends. -/
def Ends (t : Token) (rest : List Char) : Prop := ∀ c ∈ rest.head?, t.continues c = false

/-- Whether the token begins with a character that continues another one. -/
def multiplies : Token → Bool
  | star | starStar | slash | slashSlash => true
  | _ => false

/-- The second token may follow the first one without white space between them. -/
structure Apart (t u : Token) : Prop where
  symbol : t.symbol?.isSome ∨ u.symbol?.isSome
  operator : t.multiplies = false ∨ u.multiplies = false

end Token

/-- The characters spell the token. -/
inductive Spelling : Token → List Char → Prop
  | name {s} : isName s → Spelling (.name s) s.toList
  | number {w x} : NumberLiteral w → Binary64.ofText? (numeral w) = some x →
      Spelling (.number x) w
  | text {q s} : q = '"' ∨ q = '\'' → q ∉ s.toList → Spelling (.text s) (q :: (s.toList ++ [q]))
  | symbol {t w} : t.symbol? = some w → Spelling t w

/-- The tokens one after the other, with white space anywhere between them. -/
inductive Written : List Token → List Char → Prop
  | nil : Written [] []
  | blank {c ts cs} : Text.isBlank c → Written ts cs → Written ts (c :: cs)
  | token {t w ts cs} : Spelling t w → Written ts cs → Written (t :: ts) (w ++ cs)

variable {c : Char} {cs w rest : List Char} {s : String} {t u : Token} {ts : List Token}

/-! ## One token -/

theorem takeWhile_append_eq {α : Type} {p : α → Bool} {w rest : List α} (hw : ∀ c ∈ w, p c)
    (h : ∀ c ∈ rest.head?, p c = false) : (w ++ rest).takeWhile p = w := by
  rw [List.takeWhile_append_of_pos hw]
  cases rest with
  | nil => exact List.append_nil w
  | cons c cs => rw [List.takeWhile_cons_of_neg (by simp [h c rfl]), List.append_nil]

theorem dropWhile_append_eq {α : Type} {p : α → Bool} {w rest : List α} (hw : ∀ c ∈ w, p c)
    (h : ∀ c ∈ rest.head?, p c = false) : (w ++ rest).dropWhile p = rest := by
  rw [List.dropWhile_append_of_pos hw]
  cases rest with
  | nil => rfl
  | cons c cs => rw [List.dropWhile_cons_of_neg (by simp [h c rfl])]

theorem splitText_append {q : Char} (h : q ∉ s.toList) :
    splitText q (s.toList ++ q :: rest) = .ok (.text s, rest) := by
  have hall : ∀ c ∈ s.toList, decide (c ≠ q) = true := by
    intro c hc
    exact decide_eq_true fun heq => h (heq ▸ hc)
  have hquote : ∀ c ∈ (q :: rest).head?, decide (c ≠ q) = false := by
    rintro _ ⟨⟩
    exact decide_eq_false (not_not_intro rfl)
  rw [splitText, dropWhile_append_eq hall hquote, takeWhile_append_eq hall hquote,
    String.ofList_toList]

/-- Letters, digits and points fall under none of the cases of single characters. -/
theorem Token.split_of_runsOn (h : runsOn c) :
    Token.split c cs =
      if c.isDigit || c = '.' then splitNumber (c :: cs)
      else if isNameStart c then
        .ok (.name (String.ofList (c :: cs.takeWhile isNamePart)), cs.dropWhile isNamePart)
      else .error (.unexpectedChar c) := by
  unfold Token.split
  split
  case h_12 => rfl
  all_goals
    rw [runsOn_of_mem_symbols (by decide) (by decide)] at h
    cases h

/-- Where a number may begin, only a number can be split off. -/
theorem Token.split_eq_splitNumber (hc : c.isDigit ∨ c = '.') (cs : List Char) :
    Token.split c cs = splitNumber (c :: cs) := by
  have hruns : runsOn c := by
    rcases hc with hdigit | rfl
    · exact runsOn_of_isDigit hdigit
    · exact runsOn_point
  rw [Token.split_of_runsOn hruns, if_pos (by simpa using hc)]

theorem Token.split_name (hc : isNameStart c) (hw : ∀ d ∈ w, isNamePart d)
    (h : ∀ d ∈ rest.head?, isNamePart d = false) :
    Token.split c (w ++ rest) = .ok (.name (String.ofList (c :: w)), rest) := by
  have hpart := isNamePart_of_isNameStart hc
  have hdigit : c.isDigit = false :=
    Bool.eq_false_iff.mpr fun hd => by simp [isNameStart_eq_false_of_isDigit hd] at hc
  have hpoint : c ≠ '.' := by
    rintro rfl
    exact absurd hc (by decide +kernel)
  rw [Token.split_of_runsOn (runsOn_of_isNamePart hpart), takeWhile_append_eq hw h,
    dropWhile_append_eq hw h]
  simp [hdigit, hpoint, hc]

theorem isBlank_eq_false_of_isNamePart (h : isNamePart c) : Text.isBlank c = false :=
  Bool.eq_false_iff.mpr fun hblank => by simp [isNamePart_eq_false_of_isBlank hblank] at h

theorem isName_eq_cons (h : isName s) :
    ∃ c cs, s.toList = c :: cs ∧ isNameStart c ∧ ∀ d ∈ cs, isNamePart d := by
  rw [isName] at h
  split at h
  · cases h
  · rename_i c cs hs
    obtain ⟨hc, hcs⟩ := Bool.and_eq_true_iff.mp h
    exact ⟨c, cs, hs, hc, List.all_eq_true.mp hcs⟩

theorem Token.split_star (h : Token.star.Ends rest) :
    Token.split '*' rest = .ok (.star, rest) := by
  cases rest with
  | nil => rfl
  | cons c cs =>
    have hc : c ≠ '*' := by simpa [continues] using h c rfl
    simp [Token.split, hc]

theorem Token.split_slash (h : Token.slash.Ends rest) :
    Token.split '/' rest = .ok (.slash, rest) := by
  cases rest with
  | nil => rfl
  | cons c cs =>
    have hc : c ≠ '/' := by simpa [continues] using h c rfl
    simp [Token.split, hc]

/-- A token that has been spelled is split off wherever nothing continues it. -/
theorem Spelling.split_append (h : Spelling t w) (hends : t.Ends rest) :
    ∃ c cs, w = c :: cs ∧ Text.isBlank c = false ∧ Token.split c (cs ++ rest) = .ok (t, rest) := by
  cases h with
  | @name s hname =>
    obtain ⟨c, cs, hs, hc, hcs⟩ := isName_eq_cons hname
    refine ⟨c, cs, hs, isBlank_eq_false_of_isNamePart (isNamePart_of_isNameStart hc), ?_⟩
    rw [Token.split_name hc hcs hends, ← hs, String.ofList_toList]
  | number hw hx =>
    obtain ⟨c, cs, rfl, hc⟩ := hw.exists_cons
    refine ⟨c, cs, rfl, ?_, ?_⟩
    · rcases hc with hdigit | rfl
      · have hpart : isNamePart c := by simp [isNamePart, Text.isNumeric_of_isDigit hdigit]
        exact isBlank_eq_false_of_isNamePart hpart
      · rfl
    · rw [Token.split_eq_splitNumber hc]
      exact hw.splitNumber_append hx hends
  | @text q s hq hs =>
    refine ⟨q, s.toList ++ [q], rfl, ?_, ?_⟩
    · rcases hq with rfl | rfl <;> rfl
    · rw [List.append_assoc, List.singleton_append, ← splitText_append hs]
      rcases hq with rfl | rfl <;> rfl
  | symbol hw =>
    cases t with
    | name | number | text => cases hw
    | star =>
      cases hw
      exact ⟨'*', [], rfl, rfl, Token.split_star hends⟩
    | slash =>
      cases hw
      exact ⟨'/', [], rfl, rfl, Token.split_slash hends⟩
    | comma | leftParen | rightParen | plus | minus | starStar | slashSlash =>
      cases hw
      exact ⟨_, _, rfl, rfl, rfl⟩

/-- A text falls into a token that has been spelled and what the rest falls into. -/
theorem Spelling.lexes (h : Spelling t w) (hends : t.Ends rest) (hrest : Lexes rest ts) :
    Lexes (w ++ rest) (t :: ts) := by
  obtain ⟨c, cs, rfl, hblank, hsplit⟩ := h.split_append hends
  exact .token hblank hsplit hrest

/-! ## One token behind another -/

/-- White space continues no token. -/
theorem Token.continues_eq_false_of_isBlank (h : Text.isBlank c) : t.continues c = false := by
  have hpart := isNamePart_eq_false_of_isBlank h
  have hne : ∀ d, Text.isBlank d = false → c ≠ d := by
    rintro d hd rfl
    rw [h] at hd
    cases hd
  cases t with
  | name s => exact hpart
  | number x => simp [continues, runsOn, hpart, hne '.' rfl]
  | star => simp [continues, hne '*' rfl]
  | slash => simp [continues, hne '/' rfl]
  | _ => rfl

theorem Spelling.symbol?_eq (h : Spelling t w) (ht : t.symbol?.isSome) : t.symbol? = some w := by
  cases h with
  | symbol hw => exact hw
  | name | number | text => cases ht

theorem Token.runsOn_of_symbol? (h : u.symbol? = some (c :: cs)) : runsOn c = false := by
  cases u with
  | name | number | text => cases h
  | _ =>
    cases h
    exact runsOn_of_mem_symbols (by decide) (by decide)

theorem Spelling.ne_of_multiplies (h : Spelling u (c :: cs)) (hu : u.multiplies = false) :
    c ≠ '*' ∧ c ≠ '/' := by
  have hruns : ∀ {d}, runsOn d → d ≠ '*' ∧ d ≠ '/' := by
    rintro d hd
    constructor
    · rintro rfl
      rw [runsOn_of_mem_symbols (by decide) (by decide)] at hd
      cases hd
    · rintro rfl
      rw [runsOn_of_mem_symbols (by decide) (by decide)] at hd
      cases hd
  generalize hcs : c :: cs = w at h
  cases h with
  | name hname =>
    obtain ⟨d, ds, hs, hd, _⟩ := isName_eq_cons hname
    obtain ⟨rfl, rfl⟩ := List.cons.inj (hcs.trans hs)
    exact hruns (runsOn_of_isNamePart (isNamePart_of_isNameStart hd))
  | number hw _ =>
    obtain ⟨d, ds, rfl, hd⟩ := hw.exists_cons
    obtain ⟨rfl, rfl⟩ := List.cons.inj hcs
    rcases hd with hdigit | rfl
    · exact hruns (runsOn_of_isDigit hdigit)
    · decide
  | text hq _ =>
    obtain ⟨rfl, rfl⟩ := List.cons.inj hcs
    rcases hq with rfl | rfl <;> decide
  | symbol hw =>
    subst hcs
    cases u with
    | comma | leftParen | rightParen | plus | minus =>
      cases hw
      decide
    | name | number | text => cases hw
    | star | starStar | slash | slashSlash => cases hu

/-- What a token is spelled with does not continue a token that it stands apart from. -/
theorem Token.Apart.continues_eq_false (h : t.Apart u) (hu : Spelling u (c :: cs)) :
    t.continues c = false := by
  have hsymbol : t.symbol? = none → runsOn c = false := by
    intro ht
    have hsome : u.symbol?.isSome := by simpa [ht] using h.symbol
    exact runsOn_of_symbol? (hu.symbol?_eq hsome)
  cases t with
  | name s => exact (Bool.or_eq_false_iff.mp (hsymbol rfl)).1
  | number x => exact hsymbol rfl
  | star =>
    have hne := hu.ne_of_multiplies (by simpa [multiplies] using h.operator)
    simpa [continues] using hne.1
  | slash =>
    have hne := hu.ne_of_multiplies (by simpa [multiplies] using h.operator)
    simpa [continues] using hne.2
  | _ => rfl

/-- Where a written text ends or goes on. -/
theorem Written.head? (h : Written ts cs) (hc : c ∈ cs.head?) :
    Text.isBlank c ∨ ∃ u ∈ ts.head?, ∃ w, Spelling u (c :: w) := by
  cases h with
  | nil => cases hc
  | blank hblank _ =>
    cases hc
    exact .inl hblank
  | @token t _ _ _ hspelling _ =>
    have hends : t.Ends [] := nofun
    obtain ⟨d, ds, rfl, _⟩ := hspelling.split_append hends
    cases hc
    exact .inr ⟨_, rfl, ds, hspelling⟩

/-- Tokens that stand apart are what the text falls into wherever they are written one after the
other. -/
theorem Written.lexes (h : Written ts cs) (hapart : ts.IsChain Token.Apart) : Lexes cs ts := by
  induction h with
  | nil => exact .nil
  | blank hblank _ ih => exact .blank hblank (ih hapart)
  | @token t w ts cs hspelling hwritten ih =>
    have hends : t.Ends cs := by
      intro c hc
      rcases hwritten.head? hc with hblank | ⟨u, hu, w, hspelling⟩
      · exact Token.continues_eq_false_of_isBlank hblank
      · exact (hapart.rel_head? hu).continues_eq_false hspelling
    exact hspelling.lexes hends (ih hapart.tail)

/-! ## Phrases of the grammar -/

/-- Tokens that stand apart from each other, and from an operator on either side. -/
structure Phrase (ts : List Token) : Prop where
  ne_nil : ts ≠ []
  apart : ts.IsChain Token.Apart
  first : ∀ t ∈ ts.head?, t.multiplies = false
  last : ∀ t ∈ ts.getLast?, t.multiplies = false

namespace Phrase

theorem singleton (ht : t.multiplies = false) : Phrase [t] where
  ne_nil := List.cons_ne_nil t []
  apart := .singleton t
  first := by rintro _ ⟨⟩; exact ht
  last := by rintro _ ⟨⟩; exact ht

theorem append {us : List Token} (hts : Phrase ts) (hus : Phrase us)
    (h : ∀ t ∈ ts.getLast?, ∀ u ∈ us.head?, t.symbol?.isSome ∨ u.symbol?.isSome) :
    Phrase (ts ++ us) where
  ne_nil := List.append_ne_nil_of_left_ne_nil hts.ne_nil us
  apart := List.isChain_append.mpr
    ⟨hts.apart, hus.apart, fun t ht u hu => ⟨h t ht u hu, .inl (hts.last t ht)⟩⟩
  first := by
    rw [List.head?_append_of_ne_nil _ hts.ne_nil]
    exact hts.first
  last := by
    rw [List.getLast?_append_of_ne_nil _ hus.ne_nil]
    exact hus.last

/-- Any operator may stand between two phrases. -/
theorem join {us : List Token} (hts : Phrase ts) (ht : t.symbol?.isSome) (hus : Phrase us) :
    Phrase (ts ++ t :: us) where
  ne_nil := List.append_ne_nil_of_left_ne_nil hts.ne_nil _
  apart := by
    have hright : (t :: us).IsChain Token.Apart :=
      List.isChain_cons.mpr ⟨fun u hu => ⟨.inl ht, .inr (hus.first u hu)⟩, hus.apart⟩
    refine List.isChain_append.mpr ⟨hts.apart, hright, ?_⟩
    rintro s hs _ ⟨⟩
    exact ⟨.inr ht, .inl (hts.last s hs)⟩
  first := by
    rw [List.head?_append_of_ne_nil _ hts.ne_nil]
    exact hts.first
  last := by
    rw [List.getLast?_append_of_ne_nil _ (List.cons_ne_nil t us),
      List.getLast?_cons_of_ne_nil hus.ne_nil]
    exact hus.last

theorem parens (h : Phrase ts) : Phrase (.leftParen :: ts ++ [.rightParen]) := by
  have hleft : Phrase ([.leftParen] ++ ts) :=
    (singleton rfl).append h (by rintro _ ⟨⟩ _ _; exact .inl rfl)
  exact hleft.append (singleton rfl) (by rintro _ _ _ ⟨⟩; exact .inr rfl)

theorem named {name : String} (h : Phrase (.leftParen :: ts)) :
    Phrase (.name name :: .leftParen :: ts) :=
  (singleton (t := .name name) rfl).append h (by rintro _ _ _ ⟨⟩; exact .inr rfl)

end Phrase

variable {ignoreCase : Bool}

mutual

/-- What the grammar derives is a phrase. -/
theorem Derives.phrase {nt : Nonterminal} {ts : List Token} {e : Expr}
    (h : Derives ignoreCase nt ts e) : Phrase ts := by
  match h with
  | .ofTerm h | .ofFactor h | .ofPower h | .ofPrimary h => exact h.phrase
  | .sum hl hop hr => exact hl.phrase.join (by cases hop <;> rfl) hr.phrase
  | .product hl hop hr => exact hl.phrase.join (by cases hop <;> rfl) hr.phrase
  | .pow hl hr => exact hl.phrase.join rfl hr.phrase
  | .signed hsign h =>
    refine (Phrase.singleton ?_).append h.phrase ?_
    · cases hsign <;> rfl
    · rintro _ ⟨⟩ _ _
      cases hsign <;> exact .inl rfl
  | .number | .text | .name => exact .singleton rfl
  | .parens h => exact h.phrase.parens
  | .call _ hargs _ =>
    rcases hargs.phrase with rfl | h
    · have hparens : Phrase ([.leftParen] ++ [.rightParen]) :=
        (Phrase.singleton rfl).append (.singleton rfl) (by rintro _ ⟨⟩ _ _; exact .inl rfl)
      exact hparens.named
    · exact h.parens.named

theorem DerivesArguments.phrase {ts : List Token} {args : List Expr}
    (h : DerivesArguments ignoreCase ts args) : ts = [] ∨ Phrase ts := by
  match h with
  | .empty => exact .inl rfl
  | .list h => exact .inr h.phrase

theorem DerivesList.phrase {ts : List Token} {args : List Expr}
    (h : DerivesList ignoreCase ts args) : Phrase ts := by
  match h with
  | .last h => exact h.phrase
  | .comma h hrest => exact h.phrase.join rfl hrest.phrase

end

/-- What the grammar derives can be written with white space anywhere between its tokens or none. -/
theorem Derives.lexes_of_written {nt : Nonterminal} {ts : List Token} {e : Expr}
    (h : Derives ignoreCase nt ts e) (hwritten : Written ts cs) : Lexes cs ts :=
  hwritten.lexes h.phrase.apart

end MetricFormula
