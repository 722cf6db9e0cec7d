import MetricFormula.Formula.Function
import MetricFormula.Formula.Token
import MetricFormula.Formula.Value

/-! # Faults

Why a formula has no value. Faults of the text come first (an empty or refused text, malformed
tokens or structure, an unknown function, a wrong number of arguments), then faults of the
evaluation. Each fault records its cause; `Fault.message` is its wording. -/

namespace MetricFormula

/-- A text that is no formula. -/
inductive Malformed where
  /-- A point that belongs to no number. -/
  | strayPoint
  /-- A number whose exponent has no digits. -/
  | noExponent (written : String)
  /-- A number that runs into something else. -/
  | followedBy (written : String) (next : Char)
  | badNumber (written : String)
  | unterminated
  | unexpectedChar (c : Char)
  /-- Something other than the token that has to stand here. -/
  | expected (token : Token) (found : Option Token)
  /-- Something behind a complete formula. -/
  | trailing (found : Option Token)
  /-- Something that begins no operand. -/
  | noOperand (found : Option Token)
  deriving DecidableEq

/-- A limit that a formula exceeds. -/
inductive Excess where
  | length (limit : Nat)
  | nesting (limit : Nat)
  deriving DecidableEq

/-- An operation that has no result. -/
inductive ArithmeticFault where
  | divisionByZero
  | powerTooLarge (base exponent : Binary64)
  | zeroToNegative
  | negativeToFraction (base exponent : Binary64)
  | notFinite (result : Binary64)
  deriving DecidableEq

/-- The place of an operand. -/
inductive OperandRole where
  | unary
  | left
  | right
  deriving DecidableEq

/-- A value of the wrong kind. -/
inductive Mismatch where
  | operand (role : OperandRole) (got : ValueKind)
  | roundedValue (got : ValueKind)
  | roundingDigits (got : ValueKind)
  | fractionalDigits (digits : Binary64)
  | fieldKey (got : ValueKind)
  | numberAsKey (got : Binary64)
  | unknownComparator (name : String)
  | comparator (got : ValueKind)
  | comparand (got : Value)
  | result (got : ValueKind)
  deriving DecidableEq

inductive Fault where
  | empty
  | refused (c : Char)
  | malformed (cause : Malformed)
  | tooComplex (excess : Excess)
  | unbound (name : String)
  | arithmetic (cause : ArithmeticFault)
  | mismatch (cause : Mismatch)
  | unknownFunction (name : String)
  | arity (function : Function) (got : Nat)
  deriving DecidableEq

/-- The coarse classes of faults. -/
inductive FaultKind where
  | syntaxRejected
  | emptyExpression
  | undefinedReference
  | arithmeticFault
  | typeMismatch
  | malformedCall
  deriving DecidableEq

def FaultKind.name : FaultKind → String
  | syntaxRejected => "SyntaxRejected"
  | emptyExpression => "EmptyExpression"
  | undefinedReference => "UndefinedReference"
  | arithmeticFault => "ArithmeticFault"
  | typeMismatch => "TypeMismatch"
  | malformedCall => "MalformedCall"

/-! ## Wording -/

def Malformed.message : Malformed → String
  | strayPoint => "unexpected '.'"
  | noExponent w => s!"invalid number {Text.quoted w} (expected exponent digits)"
  | followedBy w c => s!"invalid number {Text.quoted w} followed by {Text.quotedChar c}"
  | badNumber w => s!"invalid number {Text.quoted w}"
  | unterminated => "unterminated string"
  | unexpectedChar c => s!"unexpected character {Text.quotedChar c}"
  | expected t found => s!"expected {t.description}, found {Token.describeNext found}"
  | trailing found => s!"unexpected token {Token.describeNext found}"
  | noOperand found => s!"unexpected token in expression: {Token.describeNext found}"

def Excess.message : Excess → String
  | length n => s!"expression longer than {n} characters"
  | nesting n => s!"nesting deeper than {n}"

def ArithmeticFault.message : ArithmeticFault → String
  | divisionByZero => "division by zero"
  | powerTooLarge b e =>
    s!"power operands too large: {Notation.plain.text b} ** {Notation.plain.text e}"
  | zeroToNegative => "zero raised to a negative power"
  | negativeToFraction b e =>
    s!"negative base {Notation.plain.text b} with fractional exponent {Notation.plain.text e}"
  | notFinite x => s!"non-finite result {Notation.plain.text x}"

def OperandRole.name : OperandRole → String
  | unary => "unary operand"
  | left => "left operand"
  | right => "right operand"

def Mismatch.message : Mismatch → String
  | operand role got => s!"{role.name} must be a number, got {got.name}"
  | roundedValue got => s!"ROUND expects a number, got {got.name}"
  | roundingDigits got => s!"ROUND digits must be a number, got {got.name}"
  | fractionalDigits d => s!"ROUND digits must be an integer, got {Notation.plain.text d}"
  | fieldKey got => s!"KPI_FIELD field key must be a quoted string, got {got.name}"
  | numberAsKey x => s!"expected a field key, got number {Notation.plain.text x}"
  | unknownComparator name => s!"unknown comparison operator {Text.quoted name}"
  | comparator got => s!"expected a comparison operator, got {got.name}"
  | comparand got => s!"comparison value must be numeric, got {got.description}"
  | result got => s!"formula must produce a number, got {got.name}"

namespace Fault

def kind : Fault → FaultKind
  | empty => .emptyExpression
  | refused _ | malformed _ | tooComplex _ => .syntaxRejected
  | unbound _ => .undefinedReference
  | arithmetic _ => .arithmeticFault
  | mismatch _ => .typeMismatch
  | unknownFunction _ | arity .. => .malformedCall

def message : Fault → String
  | empty => "expression is empty"
  | refused c => s!"disallowed character {Text.quotedChar c} in expression"
  | malformed cause => s!"parse error: {cause.message}"
  | tooComplex excess => s!"expression too complex: {excess.message}"
  | unbound name => s!"undefined name: {name}"
  | arithmetic cause => s!"arithmetic fault: {cause.message}"
  | mismatch cause => s!"type error: {cause.message}"
  | unknownFunction name => s!"unknown function: {name}"
  | arity f got => s!"{f.name} expects {f.arity.text} argument(s), got {got}"

end Fault
end MetricFormula
