import MetricFormula.Text.Extending
import MetricFormula.Text.Unprintable

/-! # Quoted text

Characters and texts as they are quoted in messages: between quotes, with the quote in use, the
backslash and the common controls escaped by a backslash, and whatever would not show by itself
written as a code point in hexadecimal. -/

namespace MetricFormula.Text

/-- A character by its code point. -/
def codePointEscape (c : Char) : List Char :=
  ['\\', 'u', '\x7b'] ++ Nat.toDigits 16 c.toNat ++ ['\x7d']

/-- A character as it stands between two `quote`s. -/
def quoteChar (quote c : Char) : List Char :=
  match c with
  | '\x00' => ['\\', '0']
  | '\t' => ['\\', 't']
  | '\r' => ['\\', 'r']
  | '\n' => ['\\', 'n']
  | '\\' => ['\\', '\\']
  | c =>
    if c = quote then ['\\', c]
    else if isExtending c || isUnprintable c then codePointEscape c
    else [c]

def quotedWith (quote : Char) (cs : List Char) : String :=
  String.ofList (quote :: cs.flatMap (quoteChar quote) ++ [quote])

/-- A text between double quotes. -/
def quoted (s : String) : String := quotedWith '"' s.toList

/-- A character between single quotes. -/
def quotedChar (c : Char) : String := quotedWith '\'' [c]

end MetricFormula.Text
