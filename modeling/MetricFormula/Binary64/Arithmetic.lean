import MetricFormula.Binary64.Bits

/-! # Arithmetic of doubles

Every operation on finite doubles computes its exact rational result and rounds it once with
`Binary64.ofRat`; only `pow` is left to the machine. What remains to be said for each operation
is the sign of an exact zero and the treatment of infinities and not-a-number. -/

namespace MetricFormula.Binary64

protected def add : Binary64 → Binary64 → Binary64
  | .nan, _ | _, .nan => .nan
  | .infinity s, .infinity t => if s = t then .infinity s else .nan
  | .infinity s, .finite .. => .infinity s
  | .finite .., .infinity t => .infinity t
  | .finite s m, .finite t n =>
    ofRat (s && t) (toRat (.finite s m) + toRat (.finite t n))

protected def sub (x y : Binary64) : Binary64 := x.add y.neg

protected def mul : Binary64 → Binary64 → Binary64
  | .nan, _ | _, .nan => .nan
  | .infinity s, .infinity t => .infinity (s != t)
  | .infinity s, .finite t n => if isZero (.finite t n) then .nan else .infinity (s != t)
  | .finite s m, .infinity t => if isZero (.finite s m) then .nan else .infinity (s != t)
  | .finite s m, .finite t n =>
    ofRat (s != t) (toRat (.finite s m) * toRat (.finite t n))

/-- The rounded quotient. A nonzero dividend over a zero is infinite. -/
protected def div : Binary64 → Binary64 → Binary64
  | .nan, _ | _, .nan => .nan
  | .infinity _, .infinity _ => .nan
  | .infinity s, .finite t _ => .infinity (s != t)
  | .finite s _, .infinity t => .finite (s != t) .zero
  | .finite s m, .finite t n =>
    if isZero (.finite t n) then
      if isZero (.finite s m) then .nan else .infinity (s != t)
    else ofRat (s != t) (toRat (.finite s m) / toRat (.finite t n))

instance : Neg Binary64 := ⟨Binary64.neg⟩
instance : Add Binary64 := ⟨Binary64.add⟩
instance : Sub Binary64 := ⟨Binary64.sub⟩
instance : Mul Binary64 := ⟨Binary64.mul⟩
instance : Div Binary64 := ⟨Binary64.div⟩

/-- `x * y + z` with a single rounding. -/
def mulAdd (x y z : Binary64) : Binary64 :=
  match x, y, z with
  | .finite s m, .finite t n, .finite u k =>
    let product := toRat (.finite s m) * toRat (.finite t n)
    ofRat ((s != t) && u) (product + toRat (.finite u k))
  | .finite .., .finite .., z => z
  | x, y, z => x * y + z

/-- Whether the double is an integer. -/
def isInteger (x : Binary64) : Bool := x.isFinite && x.toRat.isInt

/-- `base` raised to the natural power `n`, by repeated squaring with a rounding at each step. -/
def powNat (base : Binary64) (n : Nat) : Binary64 :=
  go n base (ofInt 1)
where
  go (n : Nat) (square result : Binary64) : Binary64 :=
    let result := if n % 2 = 1 then result * square else result
    if n / 2 = 0 then result else go (n / 2) (square * square) result
  termination_by n

/-- The machine's power function. -/
def pow (x y : Binary64) : Binary64 :=
  ofBits (Float.pow (Float.ofBits x.toBits) (Float.ofBits y.toBits)).toBits

end MetricFormula.Binary64
