/-! # Functions of the formula language

Seventeen functions in three families: over the arguments themselves, over a column of a list
field, and over a column of those rows of a list field that pass a comparison. -/

namespace MetricFormula

/-- How a sequence of numbers becomes one number. -/
inductive Reduction where
  | sum
  | average
  | least
  | greatest
  deriving DecidableEq

inductive Function where
  /-- Over the numbers among the arguments. -/
  | reduce (r : Reduction)
  | count
  | round
  /-- Over a column of a list. -/
  | reduceItems (r : Reduction)
  | countItems
  /-- Over a column of the matching rows of a list. -/
  | reduceItemsWhere (r : Reduction)
  | countItemsWhere
  /-- The number of another entity. -/
  | entityField
  deriving DecidableEq

/-- How many arguments a function takes; no `most` means any number. -/
structure Arity where
  least : Nat
  most : Option Nat
  deriving DecidableEq

namespace Arity

def exactly (n : Nat) : Arity := ⟨n, some n⟩

def admits (a : Arity) (n : Nat) : Bool := a.least ≤ n && a.most.all (n ≤ ·)

def text (a : Arity) : String :=
  match a.most with
  | none => s!"at least {a.least}"
  | some most => if most = a.least then s!"{a.least}" else s!"{a.least} to {most}"

end Arity

namespace Reduction

def name : Reduction → String
  | sum => "SUM"
  | average => "AVG"
  | least => "MIN"
  | greatest => "MAX"

end Reduction

namespace Function

/-- All functions in the order in which they are listed. -/
def all : List Function :=
  [reduce .sum, reduce .average, count, reduce .least, reduce .greatest, round,
   reduceItems .sum, reduceItems .average, countItems, reduceItems .least, reduceItems .greatest,
   reduceItemsWhere .sum, reduceItemsWhere .average, countItemsWhere, reduceItemsWhere .least,
   reduceItemsWhere .greatest, entityField]

theorem mem_all (f : Function) : f ∈ all := by
  cases f with
  | reduce r | reduceItems r | reduceItemsWhere r => cases r <;> decide
  | count | round | countItems | countItemsWhere | entityField => decide

def name : Function → String
  | reduce r => r.name
  | count => "COUNT"
  | round => "ROUND"
  | reduceItems r => r.name ++ "_ITEMS"
  | countItems => "COUNT_ITEMS"
  | reduceItemsWhere r => r.name ++ "_ITEMS_WHERE"
  | countItemsWhere => "COUNT_ITEMS_WHERE"
  | entityField => "KPI_FIELD"

def arity : Function → Arity
  | reduce _ | count => ⟨0, none⟩
  | round | countItems => ⟨1, some 2⟩
  | reduceItems _ | entityField => .exactly 2
  | countItemsWhere => .exactly 4
  | reduceItemsWhere _ => .exactly 5

/-- The function of that name, where letter case may be of no account. -/
def lookup? (ignoreCase : Bool) (name : String) : Option Function :=
  all.find? fun f => if ignoreCase then f.name = name.toUpper else f.name = name

theorem lookup?_name (ignoreCase : Bool) (f : Function) :
    lookup? ignoreCase f.name = some f := by
  have hall : ∀ ignoreCase : Bool, ∀ f ∈ all, lookup? ignoreCase f.name = some f := by
    decide +kernel
  exact hall ignoreCase f f.mem_all

end Function
end MetricFormula
