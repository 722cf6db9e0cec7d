/-! # Reading from the front

What a reader takes from the front of a list, together with a rest that is shorter than the list.
The bound on the rest is what makes readers that call one another end. -/

namespace MetricFormula

structure Taken {σ : Type} (front : List σ) (α : Type) where
  value : α
  rest : List σ
  shorter : rest.length < front.length

namespace Taken

variable {σ α β : Type} {front behind : List σ}

def map (f : α → β) (t : Taken front α) : Taken front β := ⟨f t.value, t.rest, t.shorter⟩

/-- The same reading, seen from a list that is no shorter. -/
def widen (t : Taken behind α) (h : behind.length ≤ front.length) : Taken front α :=
  ⟨t.value, t.rest, Nat.lt_of_lt_of_le t.shorter h⟩

end Taken
end MetricFormula
