import MetricFormula.Decimal.Literal
import MetricFormula.Formula.Alphabet
import MetricFormula.Formula.Fault

/-! # Lexemes

How a formula text falls into tokens. `Token.split` takes one token off the front of a text,
`scan` all of them, up to the first piece that is no token. A number is digits with single
underscores between them, with at most one point and an optional exponent; it must not run into
a name or another point. -/

namespace MetricFormula

/-! ## Numbers -/

/-- Digits that continue a run of digits, without the underscores between them, and the rest. -/
def splitMoreDigits : List Char → List Char × List Char
  | [] => ([], [])
  | '_' :: d :: cs =>
    if d.isDigit then
      let (digits, rest) := splitMoreDigits cs
      (d :: digits, rest)
    else ([], '_' :: d :: cs)
  | c :: cs =>
    if c.isDigit then
      let (digits, rest) := splitMoreDigits cs
      (c :: digits, rest)
    else ([], c :: cs)

/-- A run of digits that begins with a digit, and the rest. -/
def splitDigits : List Char → List Char × List Char
  | [] => ([], [])
  | c :: cs =>
    if c.isDigit then
      let (digits, rest) := splitMoreDigits cs
      (c :: digits, rest)
    else ([], c :: cs)

/-- The digits around a point, which is kept, and the rest. -/
def splitMantissa (cs : List Char) : List Char × List Char :=
  let (whole, rest) := splitDigits cs
  match rest with
  | '.' :: rest =>
    let (fraction, rest) := splitDigits rest
    (whole ++ '.' :: fraction, rest)
  | rest => (whole, rest)

/-- A sign that may stand in front of an exponent, as it is written, and the rest. -/
def splitSignChar : List Char → List Char × List Char
  | '+' :: cs => (['+'], cs)
  | '-' :: cs => (['-'], cs)
  | cs => ([], cs)

/-- The exponent behind the letter `e` of a number whose text so far is `mantissa`. -/
def splitExponent (mantissa cs : List Char) : Except Malformed (List Char × List Char) :=
  let (sign, cs) := splitSignChar cs
  let (digits, rest) := splitDigits cs
  let written := mantissa ++ 'e' :: sign
  if digits.isEmpty then .error (.noExponent (String.ofList written))
  else .ok (written ++ digits, rest)

/-- The text of a number without underscores and with a small `e`, and the rest. -/
def splitNumeral (cs : List Char) : Except Malformed (List Char × List Char) :=
  let (mantissa, rest) := splitMantissa cs
  if mantissa = ['.'] then .error .strayPoint
  else match rest with
    | 'e' :: rest | 'E' :: rest => splitExponent mantissa rest
    | rest => .ok (mantissa, rest)

/-- Whether a number must not be followed by the character. -/
def runsOn (c : Char) : Bool := isNamePart c || c = '.'

/-- A number, which has to end where its text ends. -/
def splitNumber (cs : List Char) : Except Malformed (Token × List Char) := do
  let (numeral, rest) ← splitNumeral cs
  match rest.head?.filter runsOn, Binary64.ofText? numeral with
  | some c, _ => .error (.followedBy (String.ofList numeral) c)
  | none, some x => .ok (.number x, rest)
  | none, none => .error (.badNumber (String.ofList numeral))

/-! ## Tokens -/

/-- The text behind an opening quote. -/
def splitText (quote : Char) (cs : List Char) : Except Malformed (Token × List Char) :=
  match cs.dropWhile (· ≠ quote) with
  | [] => .error .unterminated
  | _ :: rest => .ok (.text (String.ofList (cs.takeWhile (· ≠ quote))), rest)

/-- The token that begins with `c` and goes on in `cs`, and the rest. -/
def Token.split (c : Char) (cs : List Char) : Except Malformed (Token × List Char) :=
  match c, cs with
  | '(', cs => .ok (.leftParen, cs)
  | ')', cs => .ok (.rightParen, cs)
  | ',', cs => .ok (.comma, cs)
  | '+', cs => .ok (.plus, cs)
  | '-', cs => .ok (.minus, cs)
  | '*', '*' :: cs => .ok (.starStar, cs)
  | '*', cs => .ok (.star, cs)
  | '/', '/' :: cs => .ok (.slashSlash, cs)
  | '/', cs => .ok (.slash, cs)
  | '"', cs => splitText '"' cs
  | '\'', cs => splitText '\'' cs
  | c, cs =>
    if c.isDigit || c = '.' then splitNumber (c :: cs)
    else if isNameStart c then
      .ok (.name (String.ofList (c :: cs.takeWhile isNamePart)), cs.dropWhile isNamePart)
    else .error (.unexpectedChar c)

/-! ## Lengths -/

private theorem length_splitMoreDigits_le (cs : List Char) :
    (splitMoreDigits cs).2.length ≤ cs.length := by
  fun_induction splitMoreDigits cs with
  | case1 | case3 | case5 => exact Nat.le_refl _
  | case2 d cs _ digits rest heq ih =>
    rw [heq] at ih
    simp only [List.length_cons] at ih ⊢
    omega
  | case4 c cs _ _ digits rest heq ih =>
    rw [heq] at ih
    simp only [List.length_cons] at ih ⊢
    omega

private theorem length_splitDigits_le (cs : List Char) :
    (splitDigits cs).2.length ≤ cs.length := by
  fun_cases splitDigits cs with
  | case1 | case3 => exact Nat.le_refl _
  | case2 c cs _ digits rest heq =>
    have hle := length_splitMoreDigits_le cs
    rw [heq] at hle
    exact Nat.le_succ_of_le hle

private theorem length_splitDigits_cons_le {c : Char} (cs : List Char) (h : c.isDigit) :
    (splitDigits (c :: cs)).2.length ≤ cs.length := by
  simpa [splitDigits, h] using length_splitMoreDigits_le cs

/-- What follows a mantissa that begins with a digit or a point is shorter. -/
private theorem length_splitMantissa_le {c : Char} (cs : List Char)
    (h : c.isDigit ∨ c = '.') : (splitMantissa (c :: cs)).2.length ≤ cs.length := by
  rcases h with h | rfl
  · have hrest := length_splitDigits_cons_le cs h
    simp only [splitMantissa]
    split
    · rename_i rest heq
      have := length_splitDigits_le rest
      simp_all
      omega
    · simpa using hrest
  · have := length_splitDigits_le cs
    simp [splitMantissa, splitDigits]
    exact this

private theorem length_splitSignChar_le (cs : List Char) :
    (splitSignChar cs).2.length ≤ cs.length := by
  unfold splitSignChar
  split <;> simp

private theorem length_splitExponent_le {mantissa cs numeral rest : List Char}
    (h : splitExponent mantissa cs = .ok (numeral, rest)) : rest.length ≤ cs.length := by
  have hle := Nat.le_trans (length_splitDigits_le _) (length_splitSignChar_le cs)
  simp only [splitExponent] at h
  split at h
  · simp at h
  · simp only [Except.ok.injEq, Prod.mk.injEq] at h
    rwa [← h.2]

private theorem length_splitNumeral_le {c : Char} {cs numeral rest : List Char}
    (hc : c.isDigit ∨ c = '.') (h : splitNumeral (c :: cs) = .ok (numeral, rest)) :
    rest.length ≤ cs.length := by
  have hmantissa := length_splitMantissa_le cs hc
  simp only [splitNumeral] at h
  split at h
  · simp at h
  · split at h
    · rename_i heq
      have := length_splitExponent_le h
      rw [heq, List.length_cons] at hmantissa
      omega
    · rename_i heq
      have := length_splitExponent_le h
      rw [heq, List.length_cons] at hmantissa
      omega
    · simp_all

private theorem length_splitNumber_le {c : Char} {cs rest : List Char} {t : Token}
    (hc : c.isDigit ∨ c = '.') (h : splitNumber (c :: cs) = .ok (t, rest)) :
    rest.length ≤ cs.length := by
  unfold splitNumber at h
  cases hn : splitNumeral (c :: cs) with
  | error f => simp [hn, bind, Except.bind] at h
  | ok p =>
    have hle := length_splitNumeral_le hc hn
    simp only [hn, bind, Except.bind] at h
    split at h
    · simp at h
    · simp only [Except.ok.injEq, Prod.mk.injEq] at h
      rwa [← h.2]
    · simp at h

private theorem length_splitText_le {quote : Char} {cs rest : List Char} {t : Token}
    (h : splitText quote cs = .ok (t, rest)) : rest.length ≤ cs.length := by
  unfold splitText at h
  split at h
  · simp at h
  · rename_i heq
    have := (List.dropWhile_sublist (· ≠ quote) (l := cs)).length_le
    rw [heq] at this
    simp_all
    omega

theorem Token.length_split_le {c : Char} {cs rest : List Char} {t : Token}
    (h : Token.split c cs = .ok (t, rest)) : rest.length ≤ cs.length := by
  unfold Token.split at h
  split at h
  case h_10 | h_11 => exact length_splitText_le h
  case h_12 =>
    split at h
    · rename_i hc
      exact length_splitNumber_le (by simpa using hc) h
    · split at h
      · simp only [Except.ok.injEq, Prod.mk.injEq] at h
        rw [← h.2]
        exact (List.dropWhile_sublist _).length_le
      · simp at h
  all_goals
    simp only [Except.ok.injEq, Prod.mk.injEq] at h
    simp [← h.2]

/-! ## Scanning -/

/-- The tokens of a text, up to the first fault in it. -/
structure Scan where
  tokens : List Token
  fault : Option Malformed
  deriving DecidableEq

def scan (cs : List Char) : Scan :=
  match hcs : cs.dropWhile Text.isBlank with
  | [] => ⟨[], none⟩
  | c :: ds =>
    match hsplit : Token.split c ds with
    | .error f => ⟨[], some f⟩
    | .ok (t, rest) =>
      have : rest.length < cs.length := by
        have hdrop := (List.dropWhile_sublist Text.isBlank (l := cs)).length_le
        rw [hcs, List.length_cons] at hdrop
        exact Nat.lt_of_le_of_lt (Token.length_split_le hsplit) hdrop
      let s := scan rest
      ⟨t :: s.tokens, s.fault⟩
termination_by cs.length

end MetricFormula
