import MetricFormula.Decimal.Notation
import MetricFormula.Json.Basic

/-! # Writing JSON

Documents are written either on one line or with every item on a line of its own. Quotes,
backslashes and control characters are escaped, all other characters stand for themselves. -/

namespace MetricFormula.Json

/-- Two hexadecimal digits. -/
def hexByte (n : Nat) : List Char := [Nat.digitChar (n / 16), Nat.digitChar (n % 16)]

/-- A character as it stands in a written text. -/
def escapeChar (c : Char) : List Char :=
  match c with
  | '"' => ['\\', '"']
  | '\\' => ['\\', '\\']
  | '\x08' => ['\\', 'b']
  | '\t' => ['\\', 't']
  | '\n' => ['\\', 'n']
  | '\x0c' => ['\\', 'f']
  | '\r' => ['\\', 'r']
  | c => if c.toNat < 0x20 then ['\\', 'u', '0', '0'] ++ hexByte c.toNat else [c]

def writeText (s : String) : String := String.ofList ('"' :: s.toList.flatMap escapeChar ++ ['"'])

/-- Where lines break, by the depth of the line that follows, and what follows a key. -/
structure Style where
  lineBreak : (depth : Nat) → String
  colon : String

namespace Style

def compact : Style := ⟨fun _ => "", ":"⟩

def pretty : Style :=
  ⟨fun depth => String.ofList ('\n' :: List.replicate (2 * depth) ' '), ": "⟩

/-- Parts between brackets, separated by commas. -/
def enclose (style : Style) (depth : Nat) (opening closing : Char) (parts : List String) : String :=
  match parts with
  | [] => String.ofList [opening, closing]
  | parts =>
    let separator := "," ++ style.lineBreak (depth + 1)
    String.singleton opening ++ style.lineBreak (depth + 1) ++ separator.intercalate parts
      ++ style.lineBreak depth ++ String.singleton closing

end Style

mutual

def write (style : Style) (depth : Nat) : Json → String
  | .null | .unusable => "null"
  | .bool b => if b then "true" else "false"
  | .int n => toString n
  | .float x => Notation.document.text x
  | .string s => writeText s
  | .array items => style.enclose depth '[' ']' (writeItems style (depth + 1) items)
  | .object members => style.enclose depth '\x7b' '\x7d' (writeMembers style (depth + 1) members)

def writeItems (style : Style) (depth : Nat) : List Json → List String
  | [] => []
  | j :: js => write style depth j :: writeItems style depth js

def writeMembers (style : Style) (depth : Nat) : List (String × Json) → List String
  | [] => []
  | (key, j) :: ms =>
    (writeText key ++ style.colon ++ write style depth j) :: writeMembers style depth ms

end

/-- The document on one line. -/
def compact (j : Json) : String := j.write .compact 0

/-- The document with an item on each line. -/
def pretty (j : Json) : String := j.write .pretty 0

end MetricFormula.Json
