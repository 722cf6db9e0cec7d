import MetricFormula.Proofs.Expression.Subexpression

/-! # Rendering expressions

The tokens of an expression, with parentheses only where the grammar asks for a tighter phrase than
the expression makes up. They derive the expression (`Expr.derives_tokens`), and no tokens that
derive it open fewer parentheses (`Derives.openings_tokens_le`). -/

namespace MetricFormula

/-- How tightly a phrase of the nonterminal binds. -/
def Nonterminal.rank : Nonterminal → Nat
  | expr => 0
  | term => 1
  | factor => 2
  | power => 3
  | primary => 4

theorem Nonterminal.rank_le_primary (nt : Nonterminal) : nt.rank ≤ primary.rank := by
  cases nt <;> decide

/-- The tokens of a phrase of `layer` as a phrase of `nt`. -/
def grouped (nt layer : Nonterminal) (ts : List Token) : List Token :=
  if nt.rank ≤ layer.rank then ts else .leftParen :: ts ++ [.rightParen]

def Sign.token : Sign → Token
  | plus => .plus
  | minus => .minus

namespace BinaryOp

def token : BinaryOp → Token
  | add => .plus
  | sub => .minus
  | mul => .star
  | div => .slash
  | floorDiv => .slashSlash
  | pow => .starStar

/-- What an operator and its operands make up. -/
def layer : BinaryOp → Nonterminal
  | add | sub => .expr
  | mul | div | floorDiv => .term
  | pow => .power

/-- What stands to the left of an operator. -/
def left : BinaryOp → Nonterminal
  | add | sub => .expr
  | mul | div | floorDiv => .term
  | pow => .primary

/-- What stands to the right of an operator. -/
def right : BinaryOp → Nonterminal
  | add | sub => .term
  | mul | div | floorDiv | pow => .factor

end BinaryOp

mutual

/-- The tokens of an expression as a phrase of the nonterminal. -/
def Expr.tokens : Nonterminal → Expr → List Token
  | _, .number x => [.number x]
  | _, .text s => [.text s]
  | _, .name s => [.name s]
  | _, .call f args => .name f.name :: .leftParen :: argumentTokens args ++ [.rightParen]
  | nt, .signed sign e => grouped nt .factor (sign.token :: e.tokens .factor)
  | nt, .binary op l r => grouped nt op.layer (l.tokens op.left ++ op.token :: r.tokens op.right)

/-- The tokens between the parentheses of a call. -/
def argumentTokens : List Expr → List Token
  | [] => []
  | [a] => a.tokens .expr
  | a :: b :: args => a.tokens .expr ++ .comma :: argumentTokens (b :: args)

end

variable {ignoreCase : Bool} {nt layer : Nonterminal} {ts us : List Token} {e : Expr}
  {t : Token} {op : BinaryOp} {l r : Expr}

/-! ## The tokens derive the expression -/

/-- A phrase is a phrase of everything that binds more loosely. -/
theorem Derives.loosen (h : Derives ignoreCase layer ts e) (hle : nt.rank ≤ layer.rank) :
    Derives ignoreCase nt ts e := by
  cases layer with
  | expr =>
    cases nt with
    | expr => exact h
    | _ => exact absurd hle (by decide)
  | term =>
    cases nt with
    | expr => exact .ofTerm h
    | term => exact h
    | _ => exact absurd hle (by decide)
  | factor =>
    cases nt with
    | expr => exact .ofTerm (.ofFactor h)
    | term => exact .ofFactor h
    | factor => exact h
    | _ => exact absurd hle (by decide)
  | power =>
    cases nt with
    | expr => exact .ofTerm (.ofFactor (.ofPower h))
    | term => exact .ofFactor (.ofPower h)
    | factor => exact .ofPower h
    | power => exact h
    | primary => exact absurd hle (by decide)
  | primary =>
    cases nt with
    | expr => exact .ofTerm (.ofFactor (.ofPower (.ofPrimary h)))
    | term => exact .ofFactor (.ofPower (.ofPrimary h))
    | factor => exact .ofPower (.ofPrimary h)
    | power => exact .ofPrimary h
    | primary => exact h

theorem Derives.of_primary (h : Derives ignoreCase .primary ts e) : Derives ignoreCase nt ts e :=
  h.loosen nt.rank_le_primary

theorem Derives.group (h : Derives ignoreCase layer ts e) :
    Derives ignoreCase nt (grouped nt layer ts) e := by
  rw [grouped]
  split
  · rename_i hle
    exact h.loosen hle
  · exact .of_primary (.parens (h.loosen (Nat.zero_le _)))

theorem Derives.binary (hl : Derives ignoreCase op.left ts l)
    (hr : Derives ignoreCase op.right us r) :
    Derives ignoreCase op.layer (ts ++ op.token :: us) (.binary op l r) := by
  cases op with
  | add => exact .sum hl .add hr
  | sub => exact .sum hl .sub hr
  | mul => exact .product hl .mul hr
  | div => exact .product hl .div hr
  | floorDiv => exact .product hl .floorDiv hr
  | pow => exact .pow hl hr

theorem derivesList_argumentTokens {a : Expr} {args : List Expr}
    (h : ∀ b ∈ a :: args, Derives ignoreCase .expr (b.tokens .expr) b) :
    DerivesList ignoreCase (argumentTokens (a :: args)) (a :: args) := by
  induction args generalizing a with
  | nil => exact .last (h a (.head _))
  | cons b args ih =>
    obtain ⟨ha, hargs⟩ := List.forall_mem_cons.mp h
    exact .comma ha (ih hargs)

theorem derivesArguments_argumentTokens {args : List Expr}
    (h : ∀ a ∈ args, Derives ignoreCase .expr (a.tokens .expr) a) :
    DerivesArguments ignoreCase (argumentTokens args) args := by
  cases args with
  | nil => exact .empty
  | cons a args => exact .list (derivesList_argumentTokens h)

/-- An expression whose calls have as many arguments as their functions take is what its tokens
derive. -/
theorem Expr.derives_tokens (h : e.CallsAdmitted) (nt : Nonterminal) :
    Derives ignoreCase nt (e.tokens nt) e := by
  induction e generalizing nt with
  | number x => exact .of_primary .number
  | text s => exact .of_primary .text
  | name s => exact .of_primary .name
  | call f args ih =>
    have hargs : ∀ a ∈ args, Derives ignoreCase .expr (a.tokens .expr) a := fun a ha =>
      ih a ha (fun g as hwithin => h g as (.argument ha hwithin)) .expr
    have hlookup := f.lookup?_name ignoreCase
    exact .of_primary (.call hlookup (derivesArguments_argumentTokens hargs) (h f args .refl))
  | signed sign e ih =>
    have he := ih (fun g as hwithin => h g as (.operand hwithin)) .factor
    have hsign : Prefixed sign.token sign := by cases sign <;> constructor
    exact Derives.group (.signed hsign he)
  | binary op l r ihl ihr =>
    have hl := ihl (fun g as hwithin => h g as (.left hwithin)) op.left
    have hr := ihr (fun g as hwithin => h g as (.right hwithin)) op.right
    exact Derives.group (.binary hl hr)

/-! ## No fewer parentheses -/

/-- How many parentheses the tokens open. -/
def openings (ts : List Token) : Nat := ts.count .leftParen

theorem openings_append (ts us : List Token) : openings (ts ++ us) = openings ts + openings us :=
  List.count_append

theorem openings_cons (h : t ≠ .leftParen) (ts : List Token) : openings (t :: ts) = openings ts :=
  List.count_cons_of_ne h

theorem openings_parens (ts : List Token) :
    openings (.leftParen :: ts ++ [.rightParen]) = openings ts + 1 := by
  rw [openings_append, openings, List.count_cons_self]
  rfl

theorem openings_call (name : String) (ts : List Token) :
    openings (.name name :: .leftParen :: ts ++ [.rightParen]) = openings ts + 1 := by
  rw [List.cons_append, openings_cons (t := .name name) nofun, openings_parens]

theorem openings_grouped :
    openings (grouped nt layer ts) = openings ts + if nt.rank ≤ layer.rank then 0 else 1 := by
  rw [grouped]
  split
  · rfl
  · exact openings_parens ts

theorem openings_argumentTokens_cons_le (a : Expr) (args : List Expr) :
    openings (argumentTokens (a :: args)) ≤
      openings (a.tokens .expr) + openings (argumentTokens args) := by
  cases args with
  | nil => exact Nat.le_refl _
  | cons b args =>
    have hcomma := openings_cons (t := .comma) nofun (argumentTokens (b :: args))
    have happend := openings_append (a.tokens .expr) (.comma :: argumentTokens (b :: args))
    exact Nat.le_of_eq (happend.trans (congrArg _ hcomma))

namespace Expr

/-- A looser phrase of an expression needs no more parentheses than a tighter one. -/
theorem openings_tokens_mono {nt' : Nonterminal} (hle : nt.rank ≤ nt'.rank) (e : Expr) :
    openings (e.tokens nt) ≤ openings (e.tokens nt') := by
  cases e with
  | number | text | name | call => simp only [tokens, Nat.le_refl]
  | signed | binary =>
    simp only [tokens, openings_grouped]
    split <;> split <;> omega

/-- One pair of parentheses makes any phrase of an expression out of any other. -/
theorem openings_tokens_le_add_one (e : Expr) :
    openings (e.tokens nt) ≤ openings (e.tokens .expr) + 1 := by
  cases e with
  | number | text | name | call => simp only [tokens, Nat.le_add_right]
  | signed | binary =>
    simp only [tokens, openings_grouped]
    split <;> split <;> omega

theorem openings_tokens_binary_le (op : BinaryOp) (hl : openings (l.tokens op.left) ≤ openings ts)
    (hr : openings (r.tokens op.right) ≤ openings us) :
    openings ((binary op l r).tokens op.layer) ≤ openings (ts ++ op.token :: us) := by
  have htoken : op.token ≠ .leftParen := by cases op <;> nofun
  rw [tokens, openings_grouped, if_pos (Nat.le_refl _), openings_append, openings_append,
    openings_cons htoken, openings_cons htoken]
  omega

theorem openings_tokens_signed_le (sign : Sign) (h : openings (e.tokens .factor) ≤ openings ts) :
    openings ((signed sign e).tokens .factor) ≤ openings (sign.token :: ts) := by
  have htoken : sign.token ≠ .leftParen := by cases sign <;> nofun
  rw [tokens, openings_grouped, if_pos (Nat.le_refl _), openings_cons htoken, openings_cons htoken]
  exact h

end Expr

mutual

/-- Tokens that derive an expression open at least the parentheses of its own tokens. -/
theorem Derives.openings_tokens_le {nt : Nonterminal} {ts : List Token} {e : Expr}
    (h : Derives ignoreCase nt ts e) : openings (e.tokens nt) ≤ openings ts := by
  match h with
  | .ofTerm h | .ofFactor h | .ofPower h | .ofPrimary h =>
    exact Nat.le_trans (e.openings_tokens_mono (by decide)) h.openings_tokens_le
  | .sum hl hop hr =>
    have hleft := hl.openings_tokens_le
    have hright := hr.openings_tokens_le
    cases hop with
    | add => exact Expr.openings_tokens_binary_le .add hleft hright
    | sub => exact Expr.openings_tokens_binary_le .sub hleft hright
  | .product hl hop hr =>
    have hleft := hl.openings_tokens_le
    have hright := hr.openings_tokens_le
    cases hop with
    | mul => exact Expr.openings_tokens_binary_le .mul hleft hright
    | div => exact Expr.openings_tokens_binary_le .div hleft hright
    | floorDiv => exact Expr.openings_tokens_binary_le .floorDiv hleft hright
  | .pow hl hr =>
    exact Expr.openings_tokens_binary_le .pow hl.openings_tokens_le hr.openings_tokens_le
  | .signed hsign h =>
    cases hsign with
    | plus => exact Expr.openings_tokens_signed_le .plus h.openings_tokens_le
    | minus => exact Expr.openings_tokens_signed_le .minus h.openings_tokens_le
  | .number | .text | .name => exact Nat.le_refl _
  | .parens h =>
    rw [openings_parens]
    exact Nat.le_trans e.openings_tokens_le_add_one (Nat.add_le_add_right h.openings_tokens_le 1)
  | .call _ hargs _ =>
    rw [Expr.tokens, openings_call, openings_call]
    exact Nat.add_le_add_right hargs.openings_argumentTokens_le 1

theorem DerivesArguments.openings_argumentTokens_le {ts : List Token} {args : List Expr}
    (h : DerivesArguments ignoreCase ts args) :
    openings (argumentTokens args) ≤ openings ts := by
  match h with
  | .empty => exact Nat.le_refl _
  | .list h => exact h.openings_argumentTokens_le

theorem DerivesList.openings_argumentTokens_le {ts : List Token} {args : List Expr}
    (h : DerivesList ignoreCase ts args) : openings (argumentTokens args) ≤ openings ts := by
  match h with
  | .last h => exact h.openings_tokens_le
  | .comma h hrest =>
    have hfirst := h.openings_tokens_le
    have hothers := hrest.openings_argumentTokens_le
    rw [openings_append, openings_cons (t := .comma) nofun]
    exact Nat.le_trans (openings_argumentTokens_cons_le _ _) (Nat.add_le_add hfirst hothers)

end

end MetricFormula
