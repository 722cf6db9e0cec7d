import MetricFormula.Proofs.Json.Admission
import MetricFormula.Proofs.Json.RoundTrip

/-! # Text layers

How documents are written as bytes and read from bytes is left to a text layer. Of that layer no
more is relied on than that documents read back, and that what is read has numbers in range and is
not nested too deep (`TextLayer.Sound`). The printer in any style and the reader make up such a
layer (`Json.Style.Blank.sound`). -/

namespace MetricFormula

structure TextLayer where
  write : Json → ByteArray
  read? : ByteArray → Option Json

namespace TextLayer

/-- What is relied on. -/
structure Sound (layer : TextLayer) : Prop where
  /-- A document reads back from its text, with its strings and finite doubles as they are, unless it
  is nested too deep. -/
  read?_write : ∀ {j}, j.WellFormed → j.depth ≤ Json.nestingLimit →
    layer.read? (layer.write j) = some j
  /-- Integers that are read have 64 bits and other numbers are finite. What is nested too deep is
  not read. -/
  admitted : ∀ {bytes j}, layer.read? bytes = some j → Json.Admitted Json.nestingLimit j

variable {α : Type}

/-- What the document that some bytes consist of is decoded as. -/
def decode? (layer : TextLayer) (decode : Json → Option α) (bytes : ByteArray) : Option α :=
  (layer.read? bytes).bind decode

/-- What is read from the text of a document that is not nested too deep. -/
theorem Sound.decode?_write {layer : TextLayer} (h : layer.Sound) {j : Json} (hj : j.WellFormed)
    (hdepth : j.depth ≤ Json.nestingLimit) (decode : Json → Option α) :
    layer.decode? decode (layer.write j) = decode j := by
  rw [decode?, h.read?_write hj hdepth]
  rfl

/-- The printer in a style, and the reader. -/
def ofStyle (style : Json.Style) : TextLayer where
  write j := (j.write style 0).toUTF8
  read? := Json.readBytes?

end TextLayer

theorem Json.Style.Blank.sound {style : Style} (h : style.Blank) :
    (TextLayer.ofStyle style).Sound where
  read?_write hj hdepth := hj.readBytes?_write h hdepth
  admitted := admitted_of_readBytes?

end MetricFormula
