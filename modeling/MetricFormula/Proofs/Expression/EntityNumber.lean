import MetricFormula.Formula.Evaluation
import MetricFormula.Proofs.Binary64.Representable

/-! # Numbers that name entities

Which entity a number names where the field of another entity is asked for. An integer of 64 bits
names the entity of that id, and other numbers name none, with one exception: `2 ^ 63`, the first
integer past the ids, is the bound as it is compared with, and is taken for the greatest id. -/

namespace MetricFormula

/-- The number is exactly the id of an entity. -/
def Binary64.Denotes (x : Binary64) (id : Int64) : Prop := x.isFinite ∧ x.toRat = id.toInt

/-- The first integer past the ids. -/
def pastLastId : Int := Int64.maxValue.toInt + 1

variable {x : Binary64} {id : Int64}

/-! ## The entity of a number -/

theorem entityOfNumber?_eq {n : Int} (hfinite : x.isFinite) (h : x.toRat = n)
    (hlower : Int64.minValue.toInt ≤ n) (hupper : n ≤ pastLastId) :
    entityOfNumber? x = some (.ofInt (min n Int64.maxValue.toInt)) := by
  obtain ⟨hinteger, hnum⟩ := Binary64.isInteger_of_toRat hfinite h
  rw [entityOfNumber?, hinteger, hnum, if_pos]
  simp only [Bool.true_and, Bool.and_eq_true, decide_eq_true_eq]
  exact ⟨hlower, hupper⟩

theorem Binary64.Denotes.entityOfNumber?_eq (h : x.Denotes id) : entityOfNumber? x = some id := by
  have hupper := id.toInt_le
  rw [MetricFormula.entityOfNumber?_eq h.1 h.2 id.minValue_le_toInt (Int.le_add_one hupper),
    Int.min_eq_left hupper, Int64.ofInt_toInt]

theorem entityOfNumber?_pastLastId (h : x.toRat = pastLastId) :
    entityOfNumber? x = some .maxValue := by
  have hfinite : x.isFinite := by
    refine Binary64.isFinite_of_toRat_ne_zero ?_
    rw [h]
    decide
  rw [entityOfNumber?_eq hfinite h (by decide) (Int.le_refl _)]
  rfl

/-- A number that is taken for an id is that id, or the first integer past the ids. -/
theorem denotes_of_entityOfNumber? (h : entityOfNumber? x = some id) :
    x.Denotes id ∨ x.toRat = pastLastId := by
  simp only [entityOfNumber?, Option.ite_none_right_eq_some, Bool.and_eq_true,
    decide_eq_true_eq, Option.some.injEq] at h
  obtain ⟨⟨⟨hinteger, hlower⟩, hupper⟩, rfl⟩ := h
  obtain ⟨hfinite, hvalue⟩ := Binary64.toRat_of_isInteger hinteger
  generalize x.toRat.num = n at hlower hupper hvalue
  rcases Int.lt_or_le Int64.maxValue.toInt n with hlt | hle
  · refine .inr ?_
    rw [hvalue, pastLastId, Int.le_antisymm hupper hlt]
  · refine .inl ⟨hfinite, ?_⟩
    rw [hvalue, Int.min_eq_left hle, Int64.toInt_ofInt_of_le hlower (Int.lt_add_one_of_le hle)]

/-! ## Fields of other entities -/

namespace Expr

variable {scope : Scope} {snapshot : Snapshot} {e key : Expr} {k : String}

theorem eval_entityField {v : Value} (he : e.eval scope snapshot = .ok v)
    (hkey : key.eval scope snapshot = .ok (.text k)) :
    (call .entityField [e, key]).eval scope snapshot =
      .ok (.number (match v.coerce?.bind entityOfNumber? with
        | some id => snapshot.get ⟨id, k⟩
        | none => .zero)) := by
  simp only [eval, evalArguments, Function.apply, he, hkey, bind, Except.bind]
  cases v.coerce?.bind entityOfNumber? <;> rfl

theorem not_denotes_of_toRat (h : x.toRat = pastLastId) (id : Int64) : ¬x.Denotes id := by
  intro hid
  have heq := Rat.intCast_inj.mp (hid.2.symm.trans h)
  have hle := id.toInt_le
  rw [heq] at hle
  exact absurd hle (by decide)

/-- The first integer past the ids is no id, but the field of the last entity is read for it. -/
theorem entityField_reads_last_for_past :
    let snapshot := Snapshot.empty.insert ⟨.maxValue, "k"⟩ (.ofInt 5)
    (∀ id, ¬(Binary64.ofInt pastLastId).Denotes id) ∧
    (call .entityField [.number (.ofInt pastLastId), .text "k"]).eval .empty snapshot =
      .ok (.number (.ofInt 5)) ∧
    Binary64.ofInt 5 ≠ .zero := by
  intro snapshot
  have hpast : (Binary64.ofInt pastLastId).toRat = pastLastId := by decide +kernel
  refine ⟨not_denotes_of_toRat hpast, ?_, by decide +kernel⟩
  rw [eval_entityField (v := .number (.ofInt pastLastId)) (k := "k") (by rw [eval]) (by rw [eval])]
  simp only [Value.coerce?, Option.bind_some, entityOfNumber?_pastLastId hpast, Snapshot.get,
    snapshot, Snapshot.lookup?_insert, if_pos, Option.getD_some]

/-- The field of the entity whose id the number is; zero for a number that is no id, but for the first
integer past the ids, for which the field of the last entity is read. A text is read as the
number it stands for, and what stands for no number reads as zero. -/
theorem entityField_reads_denoted (hkey : key.eval scope snapshot = .ok (.text k)) :
    let read (e : Expr) := (call .entityField [e, key]).eval scope snapshot
    (∀ (e : Expr) (x : Binary64), e.eval scope snapshot = .ok (.number x) →
      (∀ id, x.Denotes id → read e = .ok (.number (snapshot.get ⟨id, k⟩))) ∧
      ((∀ id, ¬x.Denotes id) → x.toRat ≠ pastLastId → read e = .ok (.number .zero)) ∧
      (x.toRat = pastLastId → (∀ id, ¬x.Denotes id) ∧
        read e = .ok (.number (snapshot.get ⟨.maxValue, k⟩)))) ∧
    (∀ (e : Expr) (s : String) (x : Binary64), e.eval scope snapshot = .ok (.text s) →
      numberOfText? s = some x → read e = read (.number x)) ∧
    ∀ (e : Expr) (v : Value), e.eval scope snapshot = .ok v → v.coerce? = none →
      read e = .ok (.number .zero) := by
  intro read
  have hread {e : Expr} {v : Value} (he : e.eval scope snapshot = .ok v) :=
    eval_entityField he hkey
  refine ⟨fun e x he => ⟨fun id h => ?_, fun h hpast => ?_, fun hpast =>
    ⟨not_denotes_of_toRat hpast, ?_⟩⟩, fun e s x he hs => ?_, fun e v he hv => ?_⟩
  · simp only [read, hread he, Value.coerce?, Option.bind_some, h.entityOfNumber?_eq]
  · have hnone : entityOfNumber? x = none := by
      refine Option.eq_none_iff_forall_ne_some.mpr fun id hid => ?_
      exact (denotes_of_entityOfNumber? hid).elim (h id) hpast
    simp only [read, hread he, Value.coerce?, Option.bind_some, hnone]
  · simp only [read, hread he, Value.coerce?, Option.bind_some, entityOfNumber?_pastLastId hpast]
  · have hnumber : (number x).eval scope snapshot = .ok (.number x) := by rw [eval]
    simp only [read, hread he, hread hnumber, Value.coerce?, hs]
  · simp only [read, hread he, hv, Option.bind_none]

/-- An id in quotes, with the number of its entity, and a name that is no number. -/
theorem entityField_reads_denoted_quoted :
    let snapshot := Snapshot.empty.insert ⟨-7, "k"⟩ (.ofInt 5)
    (call .entityField [.text " -7.0", .text "k"]).eval .empty snapshot =
      .ok (.number (.ofInt 5)) ∧
    (call .entityField [.number (.ofRat false (1 / 2)), .text "k"]).eval .empty snapshot =
      .ok (.number .zero) ∧
    (call .entityField [.text "seven", .text "k"]).eval .empty snapshot =
      .ok (.number .zero) := by
  intro snapshot
  have hkey : (text "k").eval .empty snapshot = .ok (.text "k") := by rw [eval]
  have hseven : (Binary64.ofInt (-7)).Denotes (-7) := by
    constructor <;> decide +kernel
  have hhalf : ∀ id, ¬(Binary64.ofRat false (1 / 2)).Denotes id := by
    rintro id ⟨_, h⟩
    have hden := congrArg Rat.den h
    rw [Rat.den_intCast] at hden
    exact absurd hden (by decide +kernel)
  obtain ⟨hnumber, htext, hnone⟩ := entityField_reads_denoted hkey
  refine ⟨?_, ?_, ?_⟩
  · have hread := (hnumber (.number (.ofInt (-7))) _ (by rw [eval])).1 (-7) hseven
    rw [Snapshot.get, Snapshot.lookup?_insert, if_pos rfl, Option.getD_some] at hread
    exact (htext _ _ _ (by rw [eval]) (by decide +kernel)).trans hread
  · exact (hnumber _ _ (by rw [eval])).2.1 hhalf (by decide +kernel)
  · exact hnone _ _ (by rw [eval]) (by decide +kernel)

end Expr

end MetricFormula
