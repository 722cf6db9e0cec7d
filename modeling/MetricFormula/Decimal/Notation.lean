import MetricFormula.Decimal.Shortest

/-! # Notations for doubles

A notation fixes everything about the text of a double but its digits: where positional writing
gives way to an exponent, how whole numbers and exponents look, how ties between equally short
decimals go, and the names of what is not finite. -/

namespace MetricFormula

structure Notation where
  tie : Decimal.Tie
  /-- The least and greatest exponent of a first digit that is written positionally. -/
  positional : Option (Int × Int)
  /-- What follows a whole number that is written positionally. -/
  wholeMark : String
  /-- The sign of an exponent that is not negative. -/
  exponentSign : String
  nan : String
  infinity : (negative : Bool) → String

namespace Notation

/-- The infinities in running text. -/
def infinityWord (negative : Bool) : String := if negative then "-inf" else "inf"

/-- The value in running text: always positional, whole numbers bare. -/
def plain : Notation := ⟨.up, none, "", "", "NaN", infinityWord⟩

/-- The value as it is quoted in a token: a point in every positional number. -/
def literal : Notation := ⟨.up, some (-4, 15), ".0", "", "NaN", infinityWord⟩

/-- The value in a document, where what is not finite is absent. -/
def document : Notation := ⟨.even, some (-5, 15), ".0", "+", "null", fun _ => "null"⟩

/-- Digits with the point set behind the digit of exponent zero. -/
def positionalText (f : Notation) (d : Decimal) : String :=
  let digits := d.digits
  if 0 ≤ d.exponent then
    String.ofList (digits ++ List.replicate d.exponent.toNat '0') ++ f.wholeMark
  else if 0 ≤ d.leading then
    let whole := d.leading.toNat + 1
    String.ofList (digits.take whole) ++ "." ++ String.ofList (digits.drop whole)
  else
    "0." ++ String.ofList (List.replicate (-d.leading - 1).toNat '0' ++ digits)

/-- The first digit, the others behind a point, and the exponent of the first. -/
def scientificText (f : Notation) (d : Decimal) : String :=
  let fraction := match d.digits.drop 1 with
    | [] => ""
    | digits => "." ++ String.ofList digits
  let exponent := if d.leading < 0 then toString d.leading else f.exponentSign ++ toString d.leading
  String.ofList (d.digits.take 1) ++ fraction ++ "e" ++ exponent

def magnitudeText (f : Notation) (m : Magnitude) : String :=
  if m.significand = 0 then f.positionalText ⟨0, 0⟩
  else
    let d := Decimal.shortest f.tie m
    let positional := match f.positional with
      | none => true
      | some (least, greatest) => least ≤ d.leading && d.leading ≤ greatest
    if positional then f.positionalText d else f.scientificText d

def text (f : Notation) : Binary64 → String
  | .nan => f.nan
  | .infinity negative => f.infinity negative
  | .finite false m => f.magnitudeText m
  | .finite true m => "-" ++ f.magnitudeText m

end Notation
end MetricFormula
