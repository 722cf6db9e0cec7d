/-! # Double-precision numbers

A double is not a number, an infinity, or a signed multiple of the least positive double
`2 ^ -1074`. Zeros keep their sign; there is one not-a-number. Every finite double has exactly one
`Magnitude`, so equality of doubles here is equality of all that can be observed of them, and it
tells `0` from `-0`. The numeric comparison is `Binary64.compare?`. -/

namespace MetricFormula

/-- A finite magnitude `significand · 2 ^ scale`, counted in units of `2 ^ -1074`. -/
structure Magnitude where
  significand : Nat
  scale : Nat
  significand_lt : significand < 1 <<< 53
  scale_le : scale ≤ 2045
  normal : 1 <<< 52 ≤ significand ∨ scale = 0
  deriving DecidableEq

inductive Binary64 where
  | nan
  | infinity (negative : Bool)
  | finite (negative : Bool) (magnitude : Magnitude)
  deriving DecidableEq

namespace Magnitude

def zero : Magnitude := ⟨0, 0, by decide, by decide, .inr rfl⟩

/-- The magnitude as a count of least positive doubles. -/
def units (m : Magnitude) : Nat := m.significand <<< m.scale

/-- How many least positive doubles make one. -/
def unitsPerOne : Nat := 1 <<< 1074

def toRat (m : Magnitude) : Rat := mkRat m.units unitsPerOne

end Magnitude

namespace Binary64

def zero : Binary64 := .finite false .zero

instance : Inhabited Binary64 := ⟨zero⟩

def isFinite : Binary64 → Bool
  | .finite .. => true
  | _ => false

def isNaN : Binary64 → Bool
  | .nan => true
  | _ => false

/-- Whether the sign is minus; not a number has none. -/
def isNegative : Binary64 → Bool
  | .nan => false
  | .infinity negative | .finite negative _ => negative

/-- The exact value of a finite double; `0` for the others. -/
def toRat : Binary64 → Rat
  | .finite false m => m.toRat
  | .finite true m => -m.toRat
  | _ => 0

def neg : Binary64 → Binary64
  | .nan => .nan
  | .infinity negative => .infinity !negative
  | .finite negative m => .finite (!negative) m

def abs : Binary64 → Binary64
  | .nan => .nan
  | .infinity _ => .infinity false
  | .finite _ m => .finite false m

/-- Whether the double is one of the two zeros. -/
def isZero : Binary64 → Bool
  | .finite _ m => m.significand = 0
  | _ => false

end Binary64
end MetricFormula
