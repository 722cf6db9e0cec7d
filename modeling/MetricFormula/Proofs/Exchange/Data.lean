import MetricFormula.Exchange.Entity
import MetricFormula.Exchange.Policy
import MetricFormula.Exchange.Result
import MetricFormula.Exchange.Snapshot
import MetricFormula.Proofs.Exchange.Faithful

/-! # Faithful coding of data

Fields and policies are coded faithfully whatever they hold, and so is everything else whose numbers
are finite and whose cells are plain: a bare value stands for no date, and for no document but
arrays and objects. What is stored may be written in any order: the normal form does not show it. -/

namespace MetricFormula

open Json (Admitted Faithful)

variable {room : Nat}

/-! ## Cells and rows -/

/-- Cells that bare values stand for: no date, and documents that no other cell is written as. -/
inductive Cell.IsPlain : Cell → Prop
  | null : IsPlain .null
  | bool (b : Bool) : IsPlain (.bool b)
  | number {x : Binary64} : x.isFinite → IsPlain (.number x)
  | text (s : String) : IsPlain (.text s)
  | array {items : List Json} (h : (Json.array items).Normal) : IsPlain (.json ⟨.array items, h⟩)
  | object {members : List (String × Json)} (h : (Json.object members).Normal) :
    IsPlain (.json ⟨.object members, h⟩)

namespace Cell

theorem ofDocument?_eq_some {j : Json} {c : Cell} :
    ofDocument? j = some c ↔
      ∃ (k : Json) (h : k.Normal), j.normalize? = some k ∧ c = .json ⟨k, h⟩ := by
  unfold ofDocument?
  split
  · rename_i k hk
    constructor
    · intro h
      exact ⟨k, Json.normal_of_normalize? hk, hk, (Option.some.inj h).symm⟩
    · rintro ⟨k', h, hk', rfl⟩
      obtain rfl := Option.some.inj (hk.symm.trans hk')
      rfl
  · rename_i hnone
    constructor
    · exact nofun
    · rintro ⟨k, _, hk, _⟩
      cases hnone.symm.trans hk

theorem wellFormed_toJson (c : Cell) : c.toJson.WellFormed := by
  cases c with
  | null => exact .null
  | bool b => exact .bool b
  | number x => exact Faithful.number.wellFormed x
  | text s => exact .string s
  | date d => exact .string _
  | json j => exact j.property.wellFormed

theorem faithful : Faithful toJson ofJson? IsPlain 0 where
  wellFormed := wellFormed_toJson
  decode_encode h := by
    cases h with
    | null | bool | text => rfl
    | number hx =>
      rw [toJson, Faithful.ofNumber_eq_float hx]
      rfl
    | array h | object h => exact ofDocument?_eq_some.mpr ⟨_, h, h.normalize?_eq, rfl⟩
  of_decode {room j c} hj _ h := by
    cases j with
    | null =>
      obtain rfl := Option.some.inj h
      exact ⟨.null, Nat.zero_le _⟩
    | bool b =>
      obtain rfl := Option.some.inj h
      exact ⟨.bool b, Nat.zero_le _⟩
    | int n =>
      obtain rfl := Option.some.inj h
      have hn := Faithful.number.of_decode hj (Nat.zero_le _) rfl
      exact ⟨.number hn.1, hn.2⟩
    | float x =>
      obtain rfl := Option.some.inj h
      have hx := Faithful.number.of_decode hj (Nat.zero_le _) rfl
      exact ⟨.number hx.1, hx.2⟩
    | string s =>
      obtain rfl := Option.some.inj h
      exact ⟨.text s, Nat.zero_le _⟩
    | array items =>
      obtain ⟨k, hk, hnormalize, rfl⟩ := ofDocument?_eq_some.mp h
      have hdepth := Json.depth_le_of_normalize? hnormalize
      obtain ⟨_, _, rfl⟩ := Option.map_eq_some_iff.mp hnormalize
      exact ⟨.array hk, Nat.le_trans hdepth hj.depth_le⟩
    | object members =>
      obtain ⟨k, hk, hnormalize, rfl⟩ := ofDocument?_eq_some.mp h
      have hdepth := Json.depth_le_of_normalize? hnormalize
      obtain ⟨_, _, rfl⟩ := Option.map_eq_some_iff.mp hnormalize
      exact ⟨.object hk, Nat.le_trans hdepth hj.depth_le⟩
    | unusable =>
      have h : ofDocument? .unusable = some c := h
      obtain ⟨_, _, hnormalize, _⟩ := ofDocument?_eq_some.mp h
      cases hnormalize

end Cell

def Row.IsPlain (r : Row) : Prop := ∀ (column : String) c, r[column]? = some c → c.IsPlain

theorem Row.faithful : Faithful toJson ofJson? IsPlain 1 := Cell.faithful.map .ascending

/-- A row that one cell was put into has no other. -/
theorem Row.eq_of_getElem?_insert_empty {column column' : String} {c c' : Cell}
    (h : ((∅ : Row).insert column c)[column']? = some c') : c' = c := by
  rw [Std.ExtTreeMap.getElem?_insert] at h
  split at h
  · exact (Option.some.inj h).symm
  · simp at h

/-! ## Stored values -/

structure StoredValues.IsPlain (v : StoredValues) : Prop where
  scalars : ∀ (key : String) o, v.scalars[key]? = some o → ∀ x ∈ o, x.isFinite
  lists : ∀ (key : String) rows, v.lists[key]? = some rows → ∀ row ∈ rows, Row.IsPlain row

namespace StoredValues

theorem wellFormed_toJson (order : EntryOrder) (v : StoredValues) :
    (v.toJson order).WellFormed := by
  have hscalars := (Faithful.optionalNumber.map order).wellFormed v.scalars
  have hlists := (Row.faithful.list.map order).wellFormed v.lists
  refine .object (show ["scalars", "lists"].Nodup by decide) ?_
  simp [hlists, hscalars]

theorem faithful (order : EntryOrder) : Faithful (toJson order) ofJson? IsPlain 4 where
  wellFormed := wellFormed_toJson order
  decode_encode {v} hv := by
    have h := wellFormed_toJson order v
    have hscalars := (Faithful.optionalNumber.map order).optional?_eq h hv.scalars (.head _)
    have hlists := (Row.faithful.list.map order).optional?_eq h hv.lists (.tail _ (.head _))
    simp [toJson, ofJson?, Json.fields?, hlists, hscalars]
  of_decode {room j v} hj hlevels h := by
    obtain ⟨n, members, rfl, hmembers, h⟩ := hj.exists_of_fields? h
    obtain ⟨scalars, hscalars, h⟩ := Option.bind_eq_some_iff.mp h
    obtain ⟨lists, hlists, h⟩ := Option.bind_eq_some_iff.mp h
    obtain rfl := Option.some.inj h
    have hscalars := (Faithful.optionalNumber.map order).of_optional? (by omega) hmembers
      hscalars Faithful.map_empty
    have hlists := (Row.faithful.list.map order).of_optional? (by omega) hmembers hlists
      Faithful.map_empty
    refine ⟨⟨hscalars.1, hlists.1⟩, Json.depth_object_le.mpr ⟨n, rfl, ?_⟩⟩
    simp [hlists.2, hscalars.2]

theorem isPlain_empty : empty.IsPlain where
  scalars := by simp [empty]
  lists := by simp [empty]

theorem depth_toJson_empty (order : EntryOrder) : (empty.toJson order).depth ≤ 4 := by
  refine Json.depth_object_le.mpr ⟨3, rfl, ?_⟩
  simp [empty, Faithful.depth_ofMap_empty]

end StoredValues

/-! ## Fields -/

theorem FieldTag.faithful : Faithful (fun tag => .string tag.name) ofJson? (fun _ => True) 0 where
  wellFormed _ := .string _
  decode_encode {tag} _ := by cases tag <;> rfl
  of_decode _ _ _ := ⟨trivial, Nat.zero_le _⟩

namespace Field

theorem wellFormed_toJson (f : Field) : f.toJson.WellFormed := by
  obtain ⟨key, kind⟩ := f
  cases kind with
  | number | text | date | boolean =>
    refine .object (show ["key", "type"].Nodup by decide) ?_
    simp [Json.WellFormed.string]
  | items columns =>
    have hcolumns := Faithful.string.list.wellFormed columns
    refine .object (show ["key", "type", "sub_fields"].Nodup by decide) ?_
    simp [Json.WellFormed.string, hcolumns]
  | formula expression =>
    refine .object (show ["key", "type", "expression"].Nodup by decide) ?_
    simp [Json.WellFormed.string]

theorem depth_toJson_le (f : Field) : f.toJson.depth ≤ 2 := by
  obtain ⟨key, kind⟩ := f
  refine Json.depth_object_le.mpr ⟨1, rfl, ?_⟩
  cases kind with
  | number | text | date | boolean | formula expression => simp [Json.depth]
  | items columns =>
    have hcolumns : (Json.ofList .string columns).depth ≤ 1 :=
      Json.depth_array_le.mpr ⟨0, rfl, by simp [Json.depth]⟩
    simp [Json.depth, hcolumns]

theorem faithful : Faithful toJson ofJson? (fun _ => True) 2 where
  wellFormed := wellFormed_toJson
  decode_encode {f} _ := by
    have h := f.wellFormed_toJson
    obtain ⟨key, kind⟩ := f
    cases kind with
    | number | text | date | boolean =>
      have husable := h.all_isUsable
      have hkey := Faithful.string.required?_eq h trivial (.head _)
      have htag := FieldTag.faithful.required?_eq h trivial (.tail _ (.head _))
      simp [toJson, ofJson?, Json.members?, husable, hkey, htag, FieldTag.kind?]
    | items columns =>
      have husable := h.all_isUsable
      have hkey := Faithful.string.required?_eq h trivial (.head _)
      have htag := FieldTag.faithful.required?_eq h trivial (.tail _ (.head _))
      have hcolumns := Faithful.string.list.optional?_eq h (fun _ _ => trivial)
        (.tail _ (.tail _ (.head _)))
      simp [toJson, ofJson?, Json.members?, husable, hkey, htag, hcolumns, FieldTag.kind?]
    | formula expression =>
      have husable := h.all_isUsable
      have hkey := Faithful.string.required?_eq h trivial (.head _)
      have htag := FieldTag.faithful.required?_eq h trivial (.tail _ (.head _))
      have hexpression :=
        Faithful.string.required?_eq h trivial (.tail _ (.tail _ (.head _)))
      simp [toJson, ofJson?, Json.members?, husable, hkey, htag, hexpression, FieldTag.kind?]
  of_decode {room j f} _ hlevels _ := ⟨trivial, Nat.le_trans f.depth_toJson_le hlevels⟩

end Field

/-! ## Entities and siblings -/

namespace Entity

def IsPlain (e : Entity) : Prop := e.values.IsPlain

theorem wellFormed_toJson (order : EntryOrder) (e : Entity) : (e.toJson order).WellFormed := by
  have hid := Faithful.int64.wellFormed e.id
  have hfields := Field.faithful.list.wellFormed e.fields
  have hvalues := e.values.wellFormed_toJson order
  refine .object (show ["entity_id", "fields", "values"].Nodup by decide) ?_
  simp [hid, hfields, hvalues]

theorem faithful (order : EntryOrder) : Faithful (toJson order) ofJson? IsPlain 5 where
  wellFormed := wellFormed_toJson order
  decode_encode {e} he := by
    have h := wellFormed_toJson order e
    have hid := Faithful.int64.required?_eq h trivial (.head _)
    have hfields := Field.faithful.list.required?_eq h (fun _ _ => trivial) (.tail _ (.head _))
    have hvalues :=
      (StoredValues.faithful order).optional?_eq h he (.tail _ (.tail _ (.head _)))
    simp [toJson, ofJson?, ofMembers?, Json.fields?, hid, hfields, hvalues]
  of_decode {room j e} hj hlevels h := by
    obtain ⟨n, members, rfl, hmembers, h⟩ := hj.exists_of_fields? h
    obtain ⟨id, hid, h⟩ := Option.bind_eq_some_iff.mp h
    obtain ⟨fields, hfields, h⟩ := Option.bind_eq_some_iff.mp h
    obtain ⟨values, hvalues, h⟩ := Option.bind_eq_some_iff.mp h
    obtain rfl := Option.some.inj h
    have hfields := Field.faithful.list.of_required? (by omega) hmembers hfields
    have hvalues := (StoredValues.faithful order).of_optional? (by omega) hmembers hvalues
      ⟨StoredValues.isPlain_empty, StoredValues.depth_toJson_empty order⟩
    refine ⟨hvalues.1, Json.depth_object_le.mpr ⟨n, rfl, ?_⟩⟩
    simp [Json.depth, hfields.2, hvalues.2]

end Entity

namespace Sibling

def IsPlain (s : Sibling) : Prop :=
  ∀ (key : String) o, s.numbers[key]? = some o → ∀ x ∈ o, x.isFinite

theorem wellFormed_toJson (order : EntryOrder) (s : Sibling) : (s.toJson order).WellFormed := by
  have hid := Faithful.int64.wellFormed s.id
  have hfields := Field.faithful.list.wellFormed s.fields
  have hnumbers := (Faithful.optionalNumber.map order).wellFormed s.numbers
  refine .object (show ["entity_id", "fields", "numbers"].Nodup by decide) ?_
  simp [hid, hfields, hnumbers]

theorem faithful (order : EntryOrder) : Faithful (toJson order) ofJson? IsPlain 4 where
  wellFormed := wellFormed_toJson order
  decode_encode {s} hs := by
    have h := wellFormed_toJson order s
    have hid := Faithful.int64.required?_eq h trivial (.head _)
    have hfields := Field.faithful.list.required?_eq h (fun _ _ => trivial) (.tail _ (.head _))
    have hnumbers := (Faithful.optionalNumber.map order).optional?_eq h hs
      (.tail _ (.tail _ (.head _)))
    simp [toJson, ofJson?, Json.fields?, hid, hfields, hnumbers]
  of_decode {room j s} hj hlevels h := by
    obtain ⟨n, members, rfl, hmembers, h⟩ := hj.exists_of_fields? h
    obtain ⟨id, hid, h⟩ := Option.bind_eq_some_iff.mp h
    obtain ⟨fields, hfields, h⟩ := Option.bind_eq_some_iff.mp h
    obtain ⟨numbers, hnumbers, h⟩ := Option.bind_eq_some_iff.mp h
    obtain rfl := Option.some.inj h
    have hfields := Field.faithful.list.of_required? (by omega) hmembers hfields
    have hnumbers := (Faithful.optionalNumber.map order).of_optional? (by omega) hmembers
      hnumbers Faithful.map_empty
    refine ⟨hnumbers.1, Json.depth_object_le.mpr ⟨n, rfl, ?_⟩⟩
    simp [Json.depth, hfields.2, hnumbers.2]

end Sibling

/-! ## Results -/

namespace ComputedField

def IsPlain (f : ComputedField) : Prop := ∀ x ∈ f.value, x.isFinite

theorem valueFaithful : Faithful valueToJson valueOfJson? (fun o => ∀ x ∈ o, x.isFinite) 0 :=
  Faithful.optionalNumber

theorem wellFormed_toJson (f : ComputedField) : f.toJson.WellFormed := by
  have hvalue := valueFaithful.wellFormed f.value
  refine .object (show ["key", "value"].Nodup by decide) ?_
  simp [Json.WellFormed.string, hvalue]

theorem depth_toJson_le (f : ComputedField) : f.toJson.depth ≤ 1 := by
  have hvalue : (valueToJson f.value).depth = 0 := by
    cases f.value with
    | none => rfl
    | some x => exact Faithful.depth_ofNumber x
  exact Json.depth_object_le.mpr ⟨0, rfl, by simp [Json.depth, hvalue]⟩

theorem faithful : Faithful toJson ofJson? IsPlain 1 where
  wellFormed := wellFormed_toJson
  decode_encode {f} hf := by
    have h := wellFormed_toJson f
    have hkey := Faithful.string.required?_eq h trivial (.head _)
    have hvalue := valueFaithful.optional?_eq h hf (.tail _ (.head _))
    simp [toJson, ofJson?, valueOf?, Json.fields?, hkey, hvalue]
  of_decode {room j f} hj hlevels h := by
    obtain ⟨n, members, rfl, hmembers, h⟩ := hj.exists_of_fields? h
    obtain ⟨key, hkey, h⟩ := Option.bind_eq_some_iff.mp h
    obtain ⟨value, hvalue, h⟩ := Option.bind_eq_some_iff.mp h
    obtain rfl := Option.some.inj h
    have hvalue : (∀ x ∈ value, x.isFinite) ∧ (valueToJson value).depth ≤ n := by
      unfold valueOf? at hvalue
      split at hvalue
      · exact valueFaithful.of_required? (Nat.zero_le n) hmembers hvalue
      · exact valueFaithful.of_optional? (Nat.zero_le n) hmembers hvalue ⟨by simp, Nat.le_refl 0⟩
    refine ⟨hvalue.1, Json.depth_object_le.mpr ⟨n, rfl, ?_⟩⟩
    simp [Json.depth, hvalue.2]

end ComputedField

namespace EntityResult

def IsPlain (r : EntityResult) : Prop := ∀ f ∈ r.fields, f.IsPlain

theorem wellFormed_toJson (r : EntityResult) : r.toJson.WellFormed := by
  have hid := Faithful.int64.wellFormed r.id
  have hfields := ComputedField.faithful.list.wellFormed r.fields
  refine .object (show ["entity_id", "fields"].Nodup by decide) ?_
  simp [hid, hfields]

theorem faithful : Faithful toJson ofJson? IsPlain 3 where
  wellFormed := wellFormed_toJson
  decode_encode {r} hr := by
    have h := wellFormed_toJson r
    have hid := Faithful.int64.required?_eq h trivial (.head _)
    have hfields := ComputedField.faithful.list.required?_eq h hr (.tail _ (.head _))
    simp [toJson, ofJson?, Json.fields?, hid, hfields]
  of_decode {room j r} hj hlevels h := by
    obtain ⟨n, members, rfl, hmembers, h⟩ := hj.exists_of_fields? h
    obtain ⟨id, hid, h⟩ := Option.bind_eq_some_iff.mp h
    obtain ⟨fields, hfields, h⟩ := Option.bind_eq_some_iff.mp h
    obtain rfl := Option.some.inj h
    have hfields := ComputedField.faithful.list.of_required? (by omega) hmembers hfields
    refine ⟨hfields.1, Json.depth_object_le.mpr ⟨n, rfl, ?_⟩⟩
    simp [Json.depth, hfields.2]

end EntityResult

/-! ## Policies -/

namespace Policy

theorem wellFormed_toJson (p : Policy) : p.toJson.WellFormed := by
  have hlength := Faithful.uint64.wellFormed p.maxLength
  have hnesting := Faithful.uint64.wellFormed p.maxNesting
  refine .object (show ["max_expression_len", "max_nesting_depth", "case_insensitive_functions",
    "require_finite_results"].Nodup by decide) ?_
  simp [Json.WellFormed.bool, hlength, hnesting]

section
variable {p : Policy} {members : List (String × Json)}
  (hlength : ∀ d, Json.optional? members "max_expression_len" Json.uint64? d = some p.maxLength)
  (hnesting : ∀ d, Json.optional? members "max_nesting_depth" Json.uint64? d = some p.maxNesting)
  (hcase : ∀ d,
    Json.optional? members "case_insensitive_functions" Json.bool? d = some p.ignoreCase)
  (hfinite : ∀ d,
    Json.optional? members "require_finite_results" Json.bool? d = some p.finiteOnly)
include hlength hnesting hcase hfinite

theorem ofJson?_object : ofJson? (.object members) = some p := by
  simp [ofJson?, Json.fields?, hlength, hnesting, hcase, hfinite]

end

theorem faithful : Faithful toJson ofJson? (fun _ => True) 1 where
  wellFormed := wellFormed_toJson
  decode_encode {p} _ := by
    have h := p.wellFormed_toJson
    exact ofJson?_object
      (Faithful.uint64.optional?_eq h trivial (.head _))
      (Faithful.uint64.optional?_eq h trivial (.tail _ (.head _)))
      (Faithful.bool.optional?_eq h trivial (.tail _ (.tail _ (.head _))))
      (Faithful.bool.optional?_eq h trivial (.tail _ (.tail _ (.tail _ (.head _)))))
  of_decode {room j p} _ hlevels _ := by
    refine ⟨trivial, Nat.le_trans (Json.depth_object_le.mpr ⟨0, rfl, ?_⟩) hlevels⟩
    simp [Json.depth]

end Policy

/-! ## Snapshots -/

theorem wellFormed_entryToJson (entry : Address × Binary64) : (entryToJson entry).WellFormed := by
  have hid := Faithful.int64.wellFormed entry.1.entity
  have hvalue := Faithful.number.wellFormed entry.2
  refine .object (show ["entity_id", "field_key", "value"].Nodup by decide) ?_
  simp [Json.WellFormed.string, hid, hvalue]

theorem entryFaithful : Faithful entryToJson entryOfJson? (fun entry => entry.2.isFinite) 1 where
  wellFormed := wellFormed_entryToJson
  decode_encode {entry} hx := by
    have h := wellFormed_entryToJson entry
    have hid := Faithful.int64.required?_eq h trivial (.head _)
    have hfield := Faithful.string.required?_eq h trivial (.tail _ (.head _))
    have hvalue := Faithful.number.required?_eq h hx (.tail _ (.tail _ (.head _)))
    simp [entryToJson, entryOfJson?, Json.fields?, hid, hfield, hvalue]
  of_decode {room j entry} hj hlevels h := by
    obtain ⟨n, members, rfl, hmembers, h⟩ := hj.exists_of_fields? h
    obtain ⟨entity, hentity, h⟩ := Option.bind_eq_some_iff.mp h
    obtain ⟨field, hfield, h⟩ := Option.bind_eq_some_iff.mp h
    obtain ⟨value, hvalue, h⟩ := Option.bind_eq_some_iff.mp h
    obtain rfl := Option.some.inj h
    have hvalue := Faithful.number.of_required? (Nat.zero_le n) hmembers hvalue
    refine ⟨hvalue.1, Json.depth_object_le.mpr ⟨n, rfl, ?_⟩⟩
    simp [Json.depth, hvalue.2]

namespace Snapshot

def IsPlain (s : Snapshot) : Prop := ∀ a x, s.lookup? a = some x → x.isFinite

theorem values_insertAll (s : Snapshot) (entries : List (Address × Binary64)) :
    (s.insertAll entries).values = entries.foldl (fun t (a, x) => t.insert a x) s.values := by
  induction entries generalizing s with
  | nil => rfl
  | cons entry entries ih => exact ih (s.insert entry.1 entry.2)

theorem values_ofEntries (entries : List (Address × Binary64)) :
    (ofEntries entries).values = .ofList entries Address.order := by
  rw [ofEntries, values_insertAll, Std.ExtTreeMap.ofList_eq_foldl]
  rfl

theorem ofEntries_dump (s : Snapshot) : ofEntries s.dump = s :=
  congrArg Snapshot.mk ((values_ofEntries s.dump).trans (ofList_toList s.values))

theorem mem_of_lookup?_ofEntries {entries : List (Address × Binary64)} {a : Address}
    {x : Binary64} (h : (ofEntries entries).lookup? a = some x) : (a, x) ∈ entries := by
  rw [lookup?, values_ofEntries] at h
  exact mem_of_getElem?_ofList h

theorem faithful : Faithful toJson ofJson? IsPlain 2 where
  wellFormed s := entryFaithful.list.wellFormed s.dump
  decode_encode {s} hs := by
    have hentries := entryFaithful.list.decode_encode (a := s.dump) fun _ hentry =>
      hs _ _ (mem_dump.mp hentry)
    rw [ofJson?, toJson, hentries, Option.map_some, ofEntries_dump]
  of_decode {room j s} hj hlevels h := by
    obtain ⟨entries, hentries, rfl⟩ := Option.map_eq_some_iff.mp h
    have hentries := entryFaithful.list.of_decode hj hlevels hentries
    obtain ⟨n, rfl, hentry⟩ := Json.depth_array_le.mp hentries.2
    refine ⟨fun a x hx => hentries.1 _ (mem_of_lookup?_ofEntries hx),
      Json.depth_array_le.mpr ⟨n, rfl, fun j hj => ?_⟩⟩
    obtain ⟨⟨a, x⟩, hdump, rfl⟩ := List.mem_map.mp hj
    have hmem := mem_of_lookup?_ofEntries (mem_dump.mp hdump)
    exact hentry _ (List.mem_map_of_mem hmem)

end Snapshot
end MetricFormula
