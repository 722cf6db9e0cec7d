import MetricFormula.Formula.Expr
import MetricFormula.Formula.Lexeme
import MetricFormula.Formula.Policy
import MetricFormula.Taken

/-! # Reading expressions

Sums bind loosest, then products, signs, and powers. A sum is a chain of products and a product a
chain of factors, both grouped from the left; a factor is a sign before a factor, or an operand, or
an operand raised to a factor. Everything behind a sign, an operator or an opening parenthesis is
read with one level of nesting less to spend, and the reader recurses on what is left to spend.

A text may have a fault behind the tokens scanned from it. It comes to light when the token before
it has been taken, ahead of any other fault. -/

namespace MetricFormula

/-- How loosely the expression that is read may bind. -/
inductive Level where
  | sum
  | product
  | factor
  deriving DecidableEq

namespace Level

/-- The operators that join the parts of a chain. -/
def operator? : Level → Token → Option BinaryOp
  | sum, .plus => some .add
  | sum, .minus => some .sub
  | product, .star => some .mul
  | product, .slash => some .div
  | product, .slashSlash => some .floorDiv
  | _, _ => none

/-- What stands to the right of an operator of a chain. -/
def part : Level → Level
  | sum => product
  | product | factor => factor

end Level

/-- What reading depends on besides the tokens. -/
structure ReadingRules where
  ignoreCase : Bool
  maxNesting : Nat
  /-- The fault behind the tokens. -/
  ending : Option Malformed

/-- Reads an expression of some level from the front of some tokens. -/
abbrev ExprReader := Level → (ts : List Token) → Except Fault (Taken ts Expr)

namespace ReadingRules

variable (rules : ReadingRules)

/-- Make sure that a token, or the proper end, follows what has been taken. -/
def look (rest : List Token) : Except Fault Unit :=
  match rest, rules.ending with
  | [], some cause => .error (.malformed cause)
  | _, _ => .ok ()

def closeParen : (ts : List Token) → Except Fault (Taken ts Unit)
  | .rightParen :: rest => do
    rules.look rest
    return ⟨(), rest, by simp⟩
  | ts => .error (.malformed (.expected .rightParen ts.head?))

/-- Arguments separated by commas, up to the closing parenthesis. -/
def moreArguments (read : ExprReader) (ts : List Token) : Except Fault (Taken ts (List Expr)) := do
  let arg ← read .sum ts
  have harg := arg.shorter
  match hrest : arg.rest with
  | .comma :: rest =>
    rules.look rest
    have hlt : rest.length < ts.length := by simp_all; omega
    let args ← moreArguments read rest
    return (args.map (arg.value :: ·)).widen (Nat.le_of_lt hlt)
  | rest =>
    let close ← rules.closeParen rest
    return (close.map fun _ => [arg.value]).widen (by simp_all; omega)
termination_by ts.length

/-- Arguments behind an opening parenthesis; there may be none. -/
def arguments (read : ExprReader) (ts : List Token) : Except Fault (Taken ts (List Expr)) :=
  match ts with
  | .rightParen :: rest => do
    rules.look rest
    return ⟨[], rest, by simp⟩
  | ts => rules.moreArguments read ts

/-- A call of the function of that name, behind its opening parenthesis. -/
def call (deeper : Except Fault ExprReader) (name : String) (ts : List Token) :
    Except Fault (Taken ts Expr) :=
  match Function.lookup? rules.ignoreCase name with
  | none => .error (.unknownFunction name)
  | some f => do
    rules.look ts
    let args ← rules.arguments (← deeper) ts
    if f.arity.admits args.value.length then return args.map (.call f)
    else throw (.arity f args.value.length)

/-- A number, a text, a name, a call, or an expression in parentheses. -/
def operand (deeper : Except Fault ExprReader) (ts : List Token) : Except Fault (Taken ts Expr) :=
  match ts with
  | .number x :: rest => do
    rules.look rest
    return ⟨.number x, rest, by simp⟩
  | .text s :: rest => do
    rules.look rest
    return ⟨.text s, rest, by simp⟩
  | .name s :: .leftParen :: rest => do
    let e ← rules.call deeper s rest
    return e.widen (by simp +arith)
  | .name s :: rest => do
    rules.look rest
    return ⟨.name s, rest, by simp⟩
  | .leftParen :: rest => do
    rules.look rest
    let e ← (← deeper) .sum rest
    let close ← rules.closeParen e.rest
    have := e.shorter
    return (close.map fun _ => e.value).widen (by simp; omega)
  | ts => .error (.malformed (.noOperand ts.head?))

/-- An operand, which may be raised to a power. -/
def power (deeper : Except Fault ExprReader) (ts : List Token) : Except Fault (Taken ts Expr) := do
  let base ← rules.operand deeper ts
  have hbase := base.shorter
  match hrest : base.rest with
  | .starStar :: rest =>
    rules.look rest
    let exponent ← (← deeper) .factor rest
    return (exponent.map (.binary .pow base.value)).widen (by simp_all; omega)
  | _ => return base

/-- A power with any number of signs before it. -/
def factor (deeper : Except Fault ExprReader) (ts : List Token) : Except Fault (Taken ts Expr) :=
  let signed (sign : Sign) (rest : List Token) : Except Fault (Taken rest Expr) := do
    rules.look rest
    let e ← (← deeper) .factor rest
    return e.map (.signed sign)
  match ts with
  | .plus :: rest => (signed .plus rest).map (·.widen (by simp))
  | .minus :: rest => (signed .minus rest).map (·.widen (by simp))
  | ts => rules.power deeper ts

/-- The rest of a chain whose parts so far make up `left`. -/
def chain (deeper : Except Fault ExprReader) (level : Level) {ts : List Token}
    (left : Taken ts Expr) : Except Fault (Taken ts Expr) :=
  have hleft := left.shorter
  match hrest : left.rest with
  | [] => .ok left
  | t :: rest =>
    match level.operator? t with
    | none => .ok left
    | some op => do
      rules.look rest
      let right ← (← deeper) level.part rest
      have hright := right.shorter
      have hlt : right.rest.length < left.rest.length := by simp_all; omega
      chain deeper level ⟨.binary op left.value right.value, right.rest, Nat.lt_trans hlt hleft⟩
termination_by left.rest.length

/-- An expression of any level, where `deeper` reads what is nested in it. -/
def expression (deeper : Except Fault ExprReader) : ExprReader
  | .factor, ts => rules.factor deeper ts
  | .product, ts => do rules.chain deeper .product (← rules.factor deeper ts)
  | .sum, ts => do
    rules.chain deeper .sum (← rules.chain deeper .product (← rules.factor deeper ts))

/-- An expression with the given number of levels of nesting left to spend. -/
def readExpr : (nesting : Nat) → ExprReader
  | 0 => rules.expression (.error (.tooComplex (.nesting rules.maxNesting)))
  | nesting + 1 => rules.expression (.ok (readExpr nesting))

/-- The expression that all of the tokens make up. -/
def ofTokens (ts : List Token) : Except Fault Expr := do
  rules.look ts
  let e ← rules.readExpr rules.maxNesting .sum ts
  match e.rest with
  | [] => return e.value
  | t :: _ => throw (.malformed (.trailing (some t)))

end ReadingRules

/-- The expression that a text denotes. -/
def Expr.ofText (policy : Policy) (text : String) : Except Fault Expr :=
  if policy.maxLength.toNat < text.length then .error (.tooComplex (.length policy.maxLength.toNat))
  else
    let s := scan text.toList
    ReadingRules.ofTokens ⟨policy.ignoreCase, policy.maxNesting.toNat, s.fault⟩ s.tokens

end MetricFormula
