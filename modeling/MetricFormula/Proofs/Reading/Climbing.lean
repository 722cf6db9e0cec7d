import MetricFormula.Proofs.Reading.Success

/-! # Reading by precedence climbing

An expression read in one loop for all operators, each with a number for how tightly it binds, and
with a counter for the depth of nesting: it goes up before a signed operand, a right operand, an
expression in parentheses and a list of arguments, and down behind them. How many activations of the
loop are open is counted too, and what the greatest number of them has been so far. -/

namespace MetricFormula

/-- What is counted while an expression is read. -/
structure Gauge where
  depth : Nat
  /-- How many activations are open. -/
  opened : Nat
  /-- How many activations have been open at once, at most. -/
  most : Nat
  deriving DecidableEq

/-- Reading that counts. What is counted until there is a fault stays known. -/
abbrev Counted := ExceptT Fault (StateM Gauge)

namespace Counted

variable {α : Type}

/-- The outcome, and the gauge at the end, whatever the outcome is. -/
def runFrom (x : Counted α) (g : Gauge) : Except Fault α × Gauge := x.run.run g

/-- Count one level up, which is too much beyond the limit. -/
def descend (limit : Nat) : Counted Unit := do
  modify fun g => { g with depth := g.depth + 1 }
  if limit < (← get).depth then throw (.tooComplex (.nesting limit))

/-- Count one level down. -/
def ascend : Counted Unit := modify fun g => { g with depth := g.depth - 1 }

/-- An activation is open while `x` goes on, until it ends with a value or with a fault. -/
def activation (x : Counted α) : Counted α := fun g =>
  let opened := g.opened + 1
  let (outcome, g) := x.runFrom ⟨g.depth, opened, max g.most opened⟩
  (outcome, { g with opened := g.opened - 1 })

end Counted

/-- The operator that a token is between operands, and how tightly it binds. -/
def Token.binding? : Token → Option (BinaryOp × Nat)
  | plus => some (.add, 1)
  | minus => some (.sub, 1)
  | star => some (.mul, 2)
  | slash => some (.div, 2)
  | slashSlash => some (.floorDiv, 2)
  | starStar => some (.pow, 4)
  | _ => none

/-- How tightly operators bind to the right of an operator; only powers group from the right. -/
def BinaryOp.tightnessBehind (op : BinaryOp) (tightness : Nat) : Nat :=
  if op = .pow then tightness else tightness + 1

namespace ReadingRules

variable (rules : ReadingRules)

mutual

/-- An expression whose operators bind no less tightly than asked for. -/
def climb (least : Nat) (ts : List Token) : Counted (Taken ts Expr) :=
  Counted.activation do
    let left ← climbStart ts
    have := left.shorter
    climbOn least left
termination_by (ts.length, 1)

/-- The loop over the operators behind `left`. -/
def climbOn (least : Nat) {ts : List Token} (left : Taken ts Expr) : Counted (Taken ts Expr) :=
  have hleft := left.shorter
  match hrest : left.rest with
  | [] => return left
  | t :: rest =>
    match t.binding? with
    | none => return left
    | some (op, tightness) =>
      if tightness < least then return left
      else do
        rules.look rest
        Counted.descend rules.maxNesting
        have hshort : rest.length < left.rest.length := by simp [hrest]
        let right ← climb (op.tightnessBehind tightness) rest
        Counted.ascend
        have hlt := Nat.lt_trans right.shorter hshort
        climbOn least ⟨.binary op left.value right.value, right.rest, Nat.lt_trans hlt hleft⟩
termination_by (left.rest.length, 0)

/-- What an expression begins with: a sign and what it is a sign of, or an operand. -/
def climbStart (ts : List Token) : Counted (Taken ts Expr) :=
  match ts with
  | .plus :: rest => do
    let e ← climbSigned .plus rest
    return e.widen (by simp)
  | .minus :: rest => do
    let e ← climbSigned .minus rest
    return e.widen (by simp)
  | .number x :: rest => do
    rules.look rest
    return ⟨.number x, rest, by simp⟩
  | .text s :: rest => do
    rules.look rest
    return ⟨.text s, rest, by simp⟩
  | .name s :: rest => climbName s rest
  | .leftParen :: rest => do
    rules.look rest
    Counted.descend rules.maxNesting
    let e ← climb 0 rest
    Counted.ascend
    let close ← rules.closeParen e.rest
    return (close.map fun _ => e.value).widen (Nat.le_of_lt (Nat.lt_succ_of_lt e.shorter))
  | ts => throw (.malformed (.noOperand ts.head?))
termination_by (ts.length, 0)

/-- What stands behind a sign. -/
def climbSigned (sign : Sign) (ts : List Token) : Counted (Taken ts Expr) := do
  rules.look ts
  Counted.descend rules.maxNesting
  let e ← climb 3 ts
  Counted.ascend
  return e.map (.signed sign)
termination_by (ts.length, 2)

/-- A name, or a call of the function of that name. -/
def climbName (s : String) (rest : List Token) : Counted (Taken (.name s :: rest) Expr) :=
  match rest with
  | .leftParen :: ts =>
    match Function.lookup? rules.ignoreCase s with
    | none => throw (.unknownFunction s)
    | some f => do
      rules.look ts
      Counted.descend rules.maxNesting
      let args ← climbArguments ts
      if f.arity.admits args.value.length then
        return (args.map (.call f)).widen (by simp +arith)
      else throw (.arity f args.value.length)
  | rest => do
    rules.look rest
    return ⟨.name s, rest, by simp⟩
termination_by (rest.length, 3)

/-- The arguments behind an opening parenthesis. The counter goes down before the closing one. -/
def climbArguments (ts : List Token) : Counted (Taken ts (List Expr)) :=
  match ts with
  | .rightParen :: rest => do
    Counted.ascend
    rules.look rest
    return ⟨[], rest, by simp⟩
  | ts => climbList ts
termination_by (ts.length, 3)

/-- The loop over arguments, and the closing parenthesis. -/
def climbList (ts : List Token) : Counted (Taken ts (List Expr)) := do
  let arg ← climb 0 ts
  have harg := arg.shorter
  match hrest : arg.rest with
  | .comma :: rest =>
    rules.look rest
    have hlt : rest.length < ts.length := by simp_all; omega
    let args ← climbList rest
    return (args.map (arg.value :: ·)).widen (Nat.le_of_lt hlt)
  | rest =>
    Counted.ascend
    let close ← rules.closeParen rest
    return (close.map fun _ => [arg.value]).widen (by simp_all; omega)
termination_by (ts.length, 2)

end

/-- The expression that all of the tokens make up. -/
def climbTokens (ts : List Token) : Counted Expr := do
  rules.look ts
  let e ← rules.climb 0 ts
  match e.rest with
  | [] => return e.value
  | t :: _ => throw (.malformed (.trailing (some t)))

end ReadingRules

/-- The expression that a text denotes, read while counting. -/
def Expr.climbText (policy : Policy) (text : String) : Counted Expr :=
  if policy.maxLength.toNat < text.length then throw (.tooComplex (.length policy.maxLength.toNat))
  else
    let s := scan text.toList
    ReadingRules.climbTokens ⟨policy.ignoreCase, policy.maxNesting.toNat, s.fault⟩ s.tokens

end MetricFormula
