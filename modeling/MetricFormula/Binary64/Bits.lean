import MetricFormula.Binary64.Rounding

/-! # Interchange words

The 64-bit word of a double: a sign bit, eleven exponent bits and 52 fraction bits. The hidden
bit of a significand and the bias of a scale cancel, so the low 63 bits of a finite double are
simply `scale · 2 ^ 52 + significand`. `Binary64.ofBits_toBits` says that a double is known by its
word. -/

namespace MetricFormula

/-- The low 63 bits of the word of a finite double. -/
def Magnitude.field (m : Magnitude) : Nat := (m.scale <<< 52) + m.significand

/-- The magnitude with the given low 63 bits, unless they stand for no finite double. -/
def Magnitude.ofField? (field : Nat) : Option Magnitude :=
  let exponent := field >>> 52
  let fraction := field % (1 <<< 52)
  have hfraction : fraction < 1 <<< 52 := Nat.mod_lt _ (by decide)
  if exponent = 0 then
    some ⟨fraction, 0, by omega, by omega, .inr rfl⟩
  else if h : exponent ≤ 2046 then
    some ⟨(1 <<< 52) + fraction, exponent - 1, by omega, by omega, .inl (by omega)⟩
  else none

namespace Binary64

/-- The field of an infinity: all exponent bits set. -/
def infinityField : Nat := 2047 <<< 52

def toBits (x : Binary64) : UInt64 :=
  let withSign (negative : Bool) (field : Nat) : UInt64 :=
    UInt64.ofNat (if negative then (1 <<< 63) + field else field)
  match x with
  | .nan => UInt64.ofNat (infinityField + (1 <<< 51))
  | .infinity negative => withSign negative infinityField
  | .finite negative m => withSign negative m.field

def ofBits (bits : UInt64) : Binary64 :=
  let negative : Bool := 1 <<< 63 ≤ bits.toNat
  let field := bits.toNat % (1 <<< 63)
  match Magnitude.ofField? field with
  | some m => .finite negative m
  | none => if field = infinityField then .infinity negative else .nan

end Binary64

/-! ## Reading a word back -/

theorem Magnitude.field_lt (m : Magnitude) : m.field < Binary64.infinityField := by
  have hsig := m.significand_lt
  have hscale := m.scale_le
  unfold Magnitude.field Binary64.infinityField
  omega

theorem Magnitude.ofField?_field (m : Magnitude) : Magnitude.ofField? m.field = some m := by
  obtain ⟨sig, scale, hsig, hscale, hnormal⟩ := m
  unfold Magnitude.ofField? Magnitude.field
  dsimp only
  split
  · simp only [Option.some.injEq, Magnitude.mk.injEq, Nat.one_shiftLeft]
    omega
  · split
    · simp only [Option.some.injEq, Magnitude.mk.injEq, Nat.one_shiftLeft]
      omega
    · omega

private theorem Binary64.toNat_toBits_finite (negative : Bool) (m : Magnitude) :
    (Binary64.toBits (.finite negative m)).toNat =
      if negative then (1 <<< 63) + m.field else m.field := by
  have hlt := m.field_lt
  unfold infinityField at hlt
  refine Nat.mod_eq_of_lt ?_
  split <;> omega

theorem Binary64.ofBits_toBits (x : Binary64) : ofBits x.toBits = x := by
  cases x with
  | nan => decide +kernel
  | infinity negative => cases negative <;> decide +kernel
  | finite negative m =>
    have hlt := m.field_lt
    unfold infinityField at hlt
    have hfield : (if negative then (1 <<< 63) + m.field else m.field) % (1 <<< 63) = m.field := by
      rw [Nat.one_shiftLeft]
      split <;> omega
    have hsign : decide (1 <<< 63 ≤ if negative then (1 <<< 63) + m.field else m.field) =
        negative := by
      cases negative with
      | false => exact decide_eq_false (by simp only [Bool.false_eq_true, if_false]; omega)
      | true => exact decide_eq_true (Nat.le_add_right _ _)
    unfold ofBits
    simp only [toNat_toBits_finite, hfield, hsign, m.ofField?_field]

end MetricFormula
