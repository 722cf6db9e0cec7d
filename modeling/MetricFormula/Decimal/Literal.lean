import MetricFormula.Decimal.Basic

/-! # Number texts

The grammar of numbers in plain text: digits with at most one point and at least one digit on
either side of it, then an optional exponent. `Decimal.ofText?` reads an unsigned number and
`Binary64.ofText?` a number with an optional sign; both take the whole text or nothing. -/

namespace MetricFormula

/-- A sign that may stand in front, and what follows it. -/
def splitSign : List Char → Bool × List Char
  | '-' :: rest => (true, rest)
  | '+' :: rest => (false, rest)
  | rest => (false, rest)

namespace Decimal

/-- The exponent behind the letter `e`: an optional sign and at least one digit. -/
def exponentOfText? (cs : List Char) : Option Int :=
  let (negative, digits) := splitSign cs
  if digits.isEmpty || !digits.all Char.isDigit then none
  else some (if negative then -digitsValue digits else digitsValue digits)

def ofText? (cs : List Char) : Option Decimal :=
  let whole := cs.takeWhile Char.isDigit
  let (fraction, rest) := match cs.dropWhile Char.isDigit with
    | '.' :: rest => (rest.takeWhile Char.isDigit, rest.dropWhile Char.isDigit)
    | rest => ([], rest)
  if whole.isEmpty && fraction.isEmpty then none
  else match rest with
    | [] => some (ofParts whole fraction 0)
    | c :: rest =>
      if c = 'e' || c = 'E' then (exponentOfText? rest).map (ofParts whole fraction) else none

end Decimal

/-- The double nearest to a signed number text. -/
def Binary64.ofText? (cs : List Char) : Option Binary64 :=
  let (negative, unsigned) := splitSign cs
  (Decimal.ofText? unsigned).map (·.toBinary64 negative)

end MetricFormula
