import Mathlib.Data.List.Forall2
import MetricFormula.Proofs.Computation.Causality
import MetricFormula.Proofs.Outcome
import MetricFormula.Proofs.Snapshot.LastWriter

/-! # Entities in a batch

Each entity of a batch is computed with the numbers of its siblings and with nothing else: not with
other entities of the batch, and not with what is stored for it among the siblings. So no formula
of an entity reads back an earlier result of the entity. -/

namespace MetricFormula

variable {policy : Policy} {x : Int64} {s t : Sibling} {siblings others : List Sibling}

/-- The number stored for a key; a key stored as absent has none. -/
def Sibling.number? (s : Sibling) (key : String) : Option Binary64 := s.numbers[key]?.join

/-- The siblings differ, if at all, in numbers for keys that they declare neither as a number nor
as a formula. -/
structure Sibling.Alike (s t : Sibling) : Prop where
  id : s.id = t.id
  fields : s.fields = t.fields
  numbers : ∀ f ∈ s.fields, f.kind.isShared → s.number? f.key = t.number? f.key

/-- Entries of one entity apart, the siblings are alike, one by one. -/
def AlikeBut (x : Int64) (siblings others : List Sibling) : Prop :=
  List.Forall₂ Sibling.Alike (siblings.filter (·.id ≠ x)) (others.filter (·.id ≠ x))

/-! ## The snapshot of an entity -/

namespace Snapshot

theorem entriesOf_eq_of_alike (h : s.Alike t) : entriesOf s = entriesOf t := by
  rw [entriesOf, entriesOf, ← h.fields, ← h.id]
  refine List.filterMap_congr fun f hf => ?_
  split
  · rename_i hshared
    exact congrArg _ (h.numbers f hf hshared)
  · rfl

theorem flatMap_entriesOf_eq (h : List.Forall₂ Sibling.Alike siblings others) :
    siblings.flatMap entriesOf = others.flatMap entriesOf := by
  induction h with
  | nil => rfl
  | cons hst _ ih => rw [List.flatMap_cons, List.flatMap_cons, entriesOf_eq_of_alike hst, ih]

/-- An entity sees alike siblings alike, whatever is stored for the entity among them. -/
theorem ofSiblings_eq_of_alikeBut (h : AlikeBut x siblings others) :
    ofSiblings x siblings = ofSiblings x others := by
  rw [ofSiblings, ofSiblings, flatMap_entriesOf_eq h]

/-- An entity finds no number of its own. -/
theorem lookup?_ofSiblings_self (x : Int64) (siblings : List Sibling) (field : String) :
    (ofSiblings x siblings).lookup? ⟨x, field⟩ = none := by
  refine Option.eq_none_iff_forall_ne_some.mpr fun y hy => ?_
  obtain ⟨s, _, hother, hs⟩ := (lookup?_ofSiblings.mp hy).exists_mem
  exact hother hs.id

end Snapshot

/-- Whatever names the entity itself, its own fields read as zero. -/
theorem Expr.eval_entityField_self {scope : Scope} {e key : Expr} {v : Value} {field : String}
    (he : e.eval scope (.ofSiblings x siblings) = .ok v)
    (hv : v.coerce?.bind entityOfNumber? = some x)
    (hkey : key.eval scope (.ofSiblings x siblings) = .ok (.text field)) :
    (Expr.call .entityField [e, key]).eval scope (.ofSiblings x siblings) =
      .ok (.number .zero) := by
  simp only [eval, evalArguments, Function.apply, he, hkey, hv, bind, Except.bind, Snapshot.get,
    Snapshot.lookup?_ofSiblings_self, Option.getD_none, pure, Except.pure]

/-! ## Batches -/

/-- What an entity is computed to be, with siblings but by itself. -/
def Entity.compute (policy : Policy) (siblings : List Sibling) (e : Entity) : EntityResult :=
  ⟨e.id, results policy (.ofSiblings e.id siblings) e.values e.fields⟩

theorem computeEntities_eq_map (entities : List Entity) :
    computeEntities policy siblings entities = entities.map (·.compute policy siblings) := rfl

theorem Entity.compute_eq_of_alikeBut {e : Entity} (h : AlikeBut e.id siblings others) :
    e.compute policy siblings = e.compute policy others := by
  rw [compute, compute, Snapshot.ofSiblings_eq_of_alikeBut h]

/-- The result of an entity is the same in any batch, wherever it stands in it, and among any siblings
that are alike but for entries of the entity itself. A batch in another order has the same
results in that order, and a formula that asks for a field of its own entity is given zero. -/
theorem entities_isolated (policy : Policy) :
    (∀ siblings others (es es' : List Entity) (i j : Nat) (e : Entity), AlikeBut e.id siblings others →
      es[i]? = some e → es'[j]? = some e →
      ∃ result : EntityResult, result.id = e.id ∧
        result.fields.map (·.key) = formulaKeys e.fields ∧
        (computeEntities policy siblings es)[i]? = some result ∧
        (computeEntities policy others es')[j]? = some result) ∧
    (∀ siblings (es es' : List Entity), es.Perm es' →
      (es.zip (computeEntities policy siblings es)).Perm
        (es'.zip (computeEntities policy siblings es'))) ∧
    ∀ x siblings scope (e key : Expr) v field, e.eval scope (.ofSiblings x siblings) = .ok v →
      v.coerce?.bind entityOfNumber? = some x →
      key.eval scope (.ofSiblings x siblings) = .ok (.text field) →
      (Expr.call .entityField [e, key]).eval scope (.ofSiblings x siblings) =
        .ok (.number .zero) := by
  refine ⟨?_, ?_, fun x siblings scope e key v field => Expr.eval_entityField_self⟩
  · intro siblings others es es' i j e halike hi hj
    refine ⟨e.compute policy siblings, rfl, keys_results e.fields, ?_, ?_⟩
    · rw [computeEntities_eq_map, List.getElem?_map, hi, Option.map_some]
    · rw [computeEntities_eq_map, List.getElem?_map, hj, Option.map_some,
        Entity.compute_eq_of_alikeBut halike]
  · intro siblings es es' hperm
    have hzip (es : List Entity) : es.zip (computeEntities policy siblings es) =
        es.map fun e => (e, e.compute policy siblings) := by
      rw [computeEntities_eq_map, List.map_prod_left_eq_zip]
    rw [hzip, hzip]
    exact hperm.map _

/-- An entity that asks for its own earlier result, which is stored among the siblings or not, by
itself or behind another entity in the batch. -/
theorem entities_isolated_own :
    let fields : List Field := [⟨"q", .number⟩, ⟨"note", .text⟩]
    let numbers : Std.ExtTreeMap String (Option Binary64) :=
      (∅ : Std.ExtTreeMap String (Option Binary64)).insert "q" (some (.ofInt 1))
    let own : Entity := ⟨7, [⟨"r", .formula "KPI_FIELD(7, 'r')"⟩], .empty⟩
    let siblings : List Sibling :=
      [⟨7, own.fields, numbers.insert "r" (some (.ofInt 2))⟩, ⟨8, fields, numbers⟩]
    let others : List Sibling := [⟨8, fields, numbers.insert "note" (some (.ofInt 3))⟩]
    (∃ result : EntityResult, result.id = 7 ∧ result.fields.map (·.key) = ["r"] ∧
      (computeEntities {} siblings [own])[0]? = some result ∧
      (computeEntities {} others [⟨8, fields, .empty⟩, own])[1]? = some result) ∧
    (Expr.call .entityField [.number (.ofInt 7), .text "r"]).eval .empty (.ofSiblings 7 siblings) =
      .ok (.number .zero) := by
  intro fields numbers own siblings others
  obtain ⟨hbatch, _, hown⟩ := entities_isolated {}
  have halike : AlikeBut own.id siblings others := by
    refine .cons ⟨rfl, rfl, fun f hf hshared => ?_⟩ .nil
    simp only [fields, List.mem_cons, List.not_mem_nil, or_false] at hf
    rcases hf with rfl | rfl
    · simp [Sibling.number?, Std.ExtTreeMap.getElem?_insert]
    · nomatch hshared
  have hseven : (Value.number (.ofInt 7)).coerce?.bind entityOfNumber? = some 7 := by
    decide +kernel
  exact ⟨hbatch siblings others _ _ 0 1 own halike rfl rfl,
    hown 7 siblings .empty _ _ _ _ rfl hseven rfl⟩

end MetricFormula
