import MetricFormula.Proofs.Computation.Finiteness
import MetricFormula.Proofs.Exchange.Data
import MetricFormula.Proofs.Json.RoundTrip
import MetricFormula.Report.Command

/-! # What is reported

The text that the command prints is a document with the computed fields in order. If the policy asks
for finite results nothing of them is lost in it, and null stands for what has no number and for
nothing else. -/

namespace MetricFormula

variable {policy : Policy} {snapshot : Snapshot} {values : StoredValues} {fields : List Field}

/-- The text lists what was computed for some keys. -/
structure Lists (text : String) (keys : List String) (computed : List ComputedField) : Prop where
  keys_eq : computed.map (·.key) = keys
  /-- There is an object for each field in order, whose value is null where there is no number and
  only there. -/
  objects : ∃ items, Json.read? text = some (.array items) ∧
    List.Forall₂ (fun item (f : ComputedField) => ∃ value,
      item = .object [("key", .string f.key), ("value", value)] ∧ (value = .null ↔ f.value = none))
      items computed
  decoded : (Json.read? text).bind (Json.list? ComputedField.ofJson?) = some computed

theorem ComputedField.valueToJson_eq_null {value : Option Binary64}
    (h : ∀ x ∈ value, x.isFinite) : valueToJson value = .null ↔ value = none := by
  cases value with
  | none => exact iff_of_true rfl rfl
  | some x =>
    have hvalue : valueToJson (some x) = .float x := Json.Faithful.ofNumber_eq_float (h x rfl)
    rw [hvalue]
    exact iff_of_false nofun nofun

/-- Finite numbers are listed as they are. -/
theorem lists_of_isPlain {computed : List ComputedField} (h : ∀ f ∈ computed, f.IsPlain)
    {style : Json.Style} (hstyle : style.Blank) :
    Lists ((Json.ofList ComputedField.toJson computed).write style 0 ++ "\n")
      (computed.map (·.key)) computed := by
  have hdepth : (Json.ofList ComputedField.toJson computed).depth ≤ Json.nestingLimit := by
    refine Json.depth_array_le.mpr ⟨126, rfl, fun j hj => ?_⟩
    obtain ⟨f, _, rfl⟩ := List.mem_map.mp hj
    exact Nat.le_trans f.depth_toJson_le (by decide)
  have hread := (ComputedField.faithful.list.wellFormed computed).read?_write hstyle hdepth "\n"
    (List.forall_mem_singleton.mpr rfl)
  refine ⟨rfl, ⟨_, hread, ?_⟩, ?_⟩
  · refine List.forall₂_map_left_iff.mpr (List.forall₂_same.mpr fun f hf => ?_)
    exact ⟨_, rfl, ComputedField.valueToJson_eq_null (h f hf)⟩
  · rw [hread]
    exact ComputedField.faithful.list.decode_encode h

theorem Report.output_ofOutcomes (style : ReportStyle) (os : List Outcome) :
    ∃ jsonStyle : Json.Style, jsonStyle.Blank ∧ (ofOutcomes style os).output =
      (Json.ofList ComputedField.toJson (os.map (·.computed))).write jsonStyle 0 ++ "\n" := by
  have hlist : Json.ofList (fun o : Outcome => o.computed.toJson) os =
      Json.ofList ComputedField.toJson (os.map (·.computed)) := by
    rw [Json.ofList, Json.ofList, List.map_map]
    rfl
  cases hpretty : style.pretty with
  | true => exact ⟨.pretty, .pretty, by rw [← hlist]; simp [ofOutcomes, hpretty, Json.pretty]⟩
  | false => exact ⟨.compact, .compact, by rw [← hlist]; simp [ofOutcomes, hpretty, Json.compact]⟩

theorem isPlain_of_mem_results (hfinite : policy.finiteOnly) :
    ∀ f ∈ results policy snapshot values fields, f.IsPlain := by
  intro f hf x hx
  obtain ⟨o, ho, rfl⟩ := List.mem_map.mp hf
  exact isFinite_of_mem_outcomesIn hfinite ho (toOption_eq_some.mp hx)

/-- The report of a pass with finite results only lists the result of each formula. -/
theorem lists_results (hfinite : policy.finiteOnly) (style : ReportStyle) :
    Lists (Report.ofOutcomes style (outcomes policy snapshot values fields)).output
      (formulaKeys fields) (results policy snapshot values fields) := by
  obtain ⟨jsonStyle, hstyle, houtput⟩ := Report.output_ofOutcomes style
    (outcomes policy snapshot values fields)
  rw [houtput, ← keys_results]
  exact lists_of_isPlain (isPlain_of_mem_results hfinite) hstyle

/-! ## Documents that hold an entity only -/

theorem Document.ofJson?_entity {e : Entity} (he : e.IsPlain) (order : EntryOrder) :
    ofJson? (e.toJson order) = some ⟨e, [], []⟩ := by
  have husable := (e.wellFormed_toJson order).all_isUsable
  have hentity : Entity.ofMembers? _ = some e := (Entity.faithful order).decode_encode he
  simp only [List.all_cons, List.all_nil, Bool.and_true, Bool.and_eq_true] at husable
  simp [ofJson?, Entity.toJson, Json.members?, husable, hentity, Json.optional?, Json.valuesOf]

theorem loadDocument_entity {e : Entity} (he : e.IsPlain) (order : EntryOrder)
    {style : Json.Style} (hstyle : style.Blank)
    (hdepth : (e.toJson order).depth ≤ Json.nestingLimit) (name : String) :
    loadDocument ⟨name, some ((e.toJson order).write style 0).toUTF8⟩ = .ok ⟨e, [], []⟩ := by
  have hread := (e.wellFormed_toJson order).readBytes?_write hstyle hdepth
  rw [loadDocument]
  dsimp only
  rw [hread, Option.bind_some, Document.ofJson?_entity he]

/-! ## Reports of finite results -/

/-- If the policy asks for finite results all computed numbers are finite, also those that formulas
bring into scope, whatever is stored. So the command reports them without loss. -/
theorem finite_results_reported :
    (∀ policy snapshot values fields, policy.finiteOnly →
      (∀ f ∈ results policy snapshot values fields, ∀ x, f.value = some x → x.isFinite) ∧
      (∀ fs key text,
        let before := scopeAfter policy snapshot values .empty fs
        let behind := scopeAfter policy snapshot values .empty (fs ++ [⟨key, .formula text⟩])
        behind = before ∨ ∃ x, x.isFinite ∧ behind = before.bindNumber key (some x)) ∧
      ∀ style, Lists (Report.ofOutcomes style (outcomes policy snapshot values fields)).output
        (formulaKeys fields) (results policy snapshot values fields)) ∧
    ∀ style settings source policy document, loadPolicy settings = .ok policy →
      loadDocument source = .ok document → policy.finiteOnly →
      ∃ report, runCommand style settings source = .ok report ∧
        Lists report.output (formulaKeys document.entity.fields)
          (results policy document.snapshot document.entity.values document.entity.fields) := by
  constructor
  · intro policy snapshot values fields hfinite
    exact ⟨fun f hf x hx => isPlain_of_mem_results hfinite f hf x hx, scopeAfter_formula hfinite,
      lists_results hfinite⟩
  · intro style settings source policy document hpolicy hdocument hfinite
    refine ⟨_, ?_, lists_results hfinite style⟩
    rw [runCommand, hpolicy, hdocument]
    rfl

/-- A stored infinity that a formula reads, and a document with an entity and nothing else. -/
theorem finite_results_reported_entity :
    let fields : List Field := [⟨"a", .number⟩, ⟨"b", .formula "a"⟩]
    let values : StoredValues :=
      ⟨(∅ : Std.ExtTreeMap String _).insert "a" (some (Binary64.infinity false)), ∅⟩
    let e : Entity := ⟨7, fields, .empty⟩
    let source : Source := ⟨"entity", some (e.toJson .ascending).compact.toUTF8⟩
    (∀ f ∈ results {} .empty values fields, ∀ x, f.value = some x → x.isFinite) ∧
    loadDocument source = .ok ⟨e, [], []⟩ ∧
    ∃ report, runCommand {} none source = .ok report ∧
      Lists report.output ["b"] (results {} .empty .empty fields) := by
  intro fields values e source
  have hplain : e.IsPlain := StoredValues.isPlain_empty
  have hdepth : (e.toJson .ascending).depth ≤ Json.nestingLimit := by decide
  have hdocument := loadDocument_entity hplain .ascending .compact hdepth "entity"
  exact ⟨(finite_results_reported.1 {} .empty values fields rfl).1, hdocument,
    finite_results_reported.2 {} none source {} ⟨e, [], []⟩ rfl hdocument rfl⟩

end MetricFormula
