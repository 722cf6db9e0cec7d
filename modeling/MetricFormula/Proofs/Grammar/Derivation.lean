import MetricFormula.Formula.Expr

/-! # The grammar of formulas

The documented grammar over tokens, with one nonterminal for each strength of binding:

    expr    := term | expr ('+' | '-') term
    term    := factor | term ('*' | '/' | '//') factor
    factor  := power | ('+' | '-') factor
    power   := primary | primary '**' factor
    primary := number | text | name | '(' expr ')' | name '(' [expr (',' expr)*] ')'

`Derives` says which tokens derive which tree. The grammar is left-recursive where operators group
from the left, and knows nothing of how a formula is read. -/

namespace MetricFormula

/-- The nonterminals, from the loosest binding to the tightest. -/
inductive Nonterminal where
  | expr
  | term
  | factor
  | power
  | primary

/-- Operators between terms. -/
inductive Additive : Token → BinaryOp → Prop
  | add : Additive .plus .add
  | sub : Additive .minus .sub

/-- Operators between factors. -/
inductive Multiplicative : Token → BinaryOp → Prop
  | mul : Multiplicative .star .mul
  | div : Multiplicative .slash .div
  | floorDiv : Multiplicative .slashSlash .floorDiv

/-- Signs before a factor. -/
inductive Prefixed : Token → Sign → Prop
  | plus : Prefixed .plus .plus
  | minus : Prefixed .minus .minus

mutual

/-- The tokens derive the tree from the nonterminal, where letter case in the names of functions may
be of no account. -/
inductive Derives (ignoreCase : Bool) : Nonterminal → List Token → Expr → Prop
  | ofTerm : Derives ignoreCase .term ts e → Derives ignoreCase .expr ts e
  | sum : Derives ignoreCase .expr ts l → Additive t op → Derives ignoreCase .term us r →
      Derives ignoreCase .expr (ts ++ t :: us) (.binary op l r)
  | ofFactor : Derives ignoreCase .factor ts e → Derives ignoreCase .term ts e
  | product : Derives ignoreCase .term ts l → Multiplicative t op →
      Derives ignoreCase .factor us r →
      Derives ignoreCase .term (ts ++ t :: us) (.binary op l r)
  | ofPower : Derives ignoreCase .power ts e → Derives ignoreCase .factor ts e
  | signed : Prefixed t sign → Derives ignoreCase .factor ts e →
      Derives ignoreCase .factor (t :: ts) (.signed sign e)
  | ofPrimary : Derives ignoreCase .primary ts e → Derives ignoreCase .power ts e
  | pow : Derives ignoreCase .primary ts b → Derives ignoreCase .factor us x →
      Derives ignoreCase .power (ts ++ .starStar :: us) (.binary .pow b x)
  | number : Derives ignoreCase .primary [.number x] (.number x)
  | text : Derives ignoreCase .primary [.text s] (.text s)
  | name : Derives ignoreCase .primary [.name s] (.name s)
  | parens : Derives ignoreCase .expr ts e →
      Derives ignoreCase .primary (.leftParen :: ts ++ [.rightParen]) e
  | call : Function.lookup? ignoreCase s = some f → DerivesArguments ignoreCase ts args →
      f.arity.admits args.length →
      Derives ignoreCase .primary (.name s :: .leftParen :: ts ++ [.rightParen]) (.call f args)

/-- The tokens between the parentheses of a call derive its arguments. -/
inductive DerivesArguments (ignoreCase : Bool) : List Token → List Expr → Prop
  | empty : DerivesArguments ignoreCase [] []
  | list : DerivesList ignoreCase ts args → DerivesArguments ignoreCase ts args

/-- The tokens derive expressions separated by commas. -/
inductive DerivesList (ignoreCase : Bool) : List Token → List Expr → Prop
  | last : Derives ignoreCase .expr ts e → DerivesList ignoreCase ts [e]
  | comma : Derives ignoreCase .expr ts e → DerivesList ignoreCase us es →
      DerivesList ignoreCase (ts ++ .comma :: us) (e :: es)

end

variable {ignoreCase : Bool}

/-! ## The first token -/

/-- Every phrase begins with a token, and that closes nothing. -/
theorem Derives.exists_cons {nt : Nonterminal} {ts : List Token} {e : Expr}
    (h : Derives ignoreCase nt ts e) : ∃ t us, ts = t :: us ∧ t ≠ .rightParen := by
  match h with
  | .ofTerm h | .ofFactor h | .ofPower h | .ofPrimary h => exact h.exists_cons
  | .sum h _ _ | .product h _ _ | .pow h _ =>
    obtain ⟨t, us, rfl, ht⟩ := h.exists_cons
    exact ⟨t, _, rfl, ht⟩
  | .signed hsign _ => exact ⟨_, _, rfl, by cases hsign <;> nofun⟩
  | .number | .text | .name => exact ⟨_, _, rfl, nofun⟩
  | .parens _ => exact ⟨_, _, rfl, nofun⟩
  | .call .. => exact ⟨_, _, rfl, nofun⟩

end MetricFormula
