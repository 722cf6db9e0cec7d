import MetricFormula.Decimal.Notation
import MetricFormula.Text.Quoted

/-! # Tokens

The smallest units of a formula, and how messages spell them. -/

namespace MetricFormula

inductive Token where
  | name (text : String)
  | number (value : Binary64)
  | text (content : String)
  | comma
  | leftParen
  | rightParen
  | plus
  | minus
  | star
  | starStar
  | slash
  | slashSlash
  deriving DecidableEq

namespace Token

def description : Token → String
  | name s => s!"Identifier({Text.quoted s})"
  | number x => s!"Number({Notation.literal.text x})"
  | text s => s!"String({Text.quoted s})"
  | comma => "Comma"
  | leftParen => "LParen"
  | rightParen => "RParen"
  | plus => "Plus"
  | minus => "Minus"
  | star => "Star"
  | starStar => "StarStar"
  | slash => "Slash"
  | slashSlash => "SlashSlash"

/-- The next token, which may be missing at the end. -/
def describeNext (next : Option Token) : String := (next.map description).getD "Eof"

end Token
end MetricFormula
