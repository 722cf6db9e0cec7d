import MetricFormula.Binary64.Rounding
import MetricFormula.Listing

/-! # JSON documents

A document keeps what its text says: members of an object in the order written, repeated keys
included, and integers of 64 bits apart from other numbers. A piece of text may be well formed and
still stand for no value; it is then `unusable`, which is of no consequence where a reader ignores
it.

`Json.Normal` singles out the documents that are data: nothing is unusable and the keys of every
object increase. `Json.normalize?` brings a document into that form, where the last of several
members with one key counts. -/

namespace MetricFormula

inductive Json where
  | null
  | bool (b : Bool)
  | int (n : Int)
  | float (x : Binary64)
  | string (s : String)
  | array (items : List Json)
  | object (members : List (String × Json))
  /-- A number beyond the doubles, a text with half a surrogate pair or a stray byte, an object with
  such a key, or a value nested too deep. -/
  | unusable

namespace Json

/-- Whether an integer has 64 bits, with or without a sign. -/
def FitsWord (n : Int) : Prop := Int64.minValue.toInt ≤ n ∧ n < UInt64.size

instance (n : Int) : Decidable (FitsWord n) := inferInstanceAs (Decidable (_ ∧ _))

/-- Whether the keys of an object increase. -/
def KeysIncrease (members : List (String × Json)) : Prop :=
  members.Pairwise fun a b => compare a.1 b.1 = .lt

inductive Normal : Json → Prop where
  | null : Normal null
  | bool (b : Bool) : Normal (bool b)
  | int {n : Int} : FitsWord n → Normal (int n)
  | float {x : Binary64} : x.isFinite → Normal (float x)
  | string (s : String) : Normal (string s)
  | array {items : List Json} : (∀ j ∈ items, Normal j) → Normal (array items)
  | object {members : List (String × Json)} :
    KeysIncrease members → (∀ m ∈ members, Normal m.2) → Normal (object members)

/-- The members in the order of their keys, the last one with each key. -/
def sortMembers (members : List (String × Json)) : List (String × Json) :=
  (Std.ExtTreeMap.ofList members : Std.ExtTreeMap String Json).toList

mutual

def normalize? : Json → Option Json
  | .null => some .null
  | .bool b => some (.bool b)
  | .int n => if FitsWord n then some (.int n) else none
  | .float x => if x.isFinite then some (.float x) else none
  | .string s => some (.string s)
  | .array items => (normalizeItems? items).map .array
  | .object members => (normalizeMembers? members).map fun ms => .object (sortMembers ms)
  | .unusable => none

def normalizeItems? : List Json → Option (List Json)
  | [] => some []
  | j :: js => do return (← normalize? j) :: (← normalizeItems? js)

def normalizeMembers? : List (String × Json) → Option (List (String × Json))
  | [] => some []
  | (key, j) :: ms => do return (key, ← normalize? j) :: (← normalizeMembers? ms)

end

/-- Whether no part of the document is unusable. -/
def isUsable (j : Json) : Bool := (normalize? j).isSome

/-! ## Normal documents -/

theorem keysIncrease_sortMembers (members : List (String × Json)) :
    KeysIncrease (sortMembers members) := Std.ExtTreeMap.ordered_keys_toList

theorem mem_of_mem_sortMembers {members : List (String × Json)} {m : String × Json}
    (h : m ∈ sortMembers members) : m ∈ members :=
  mem_of_getElem?_ofList (Std.ExtTreeMap.mem_toList_iff_getElem?_eq_some.mp h)

mutual

theorem normal_of_normalize? {j k : Json} (h : normalize? j = some k) : Normal k := by
  match j with
  | .null | .bool _ | .string _ =>
    simp only [normalize?, Option.some.injEq] at h
    subst h
    constructor
  | .int n =>
    simp only [normalize?, Option.ite_none_right_eq_some, Option.some.injEq] at h
    obtain ⟨hn, rfl⟩ := h
    exact .int hn
  | .float x =>
    simp only [normalize?, Option.ite_none_right_eq_some, Option.some.injEq] at h
    obtain ⟨hx, rfl⟩ := h
    exact .float hx
  | .array items =>
    simp only [normalize?, Option.map_eq_some_iff] at h
    obtain ⟨js, hjs, rfl⟩ := h
    exact .array (normal_of_normalizeItems? hjs)
  | .object members =>
    simp only [normalize?, Option.map_eq_some_iff] at h
    obtain ⟨ms, hms, rfl⟩ := h
    exact .object (keysIncrease_sortMembers ms) fun m hm =>
      normal_of_normalizeMembers? hms m (mem_of_mem_sortMembers hm)
  | .unusable => simp [normalize?] at h

theorem normal_of_normalizeItems? {js ks : List Json} (h : normalizeItems? js = some ks) :
    ∀ k ∈ ks, Normal k := by
  match js with
  | [] =>
    simp only [normalizeItems?, Option.some.injEq] at h
    simp [← h]
  | j :: js =>
    simp only [normalizeItems?, Option.bind_eq_bind, Option.bind_eq_some_iff, Option.pure_def,
      Option.some.injEq] at h
    obtain ⟨k, hk, ks, hks, rfl⟩ := h
    intro k' hk'
    rcases List.mem_cons.mp hk' with rfl | hk'
    · exact normal_of_normalize? hk
    · exact normal_of_normalizeItems? hks k' hk'

theorem normal_of_normalizeMembers? {js ks : List (String × Json)}
    (h : normalizeMembers? js = some ks) : ∀ m ∈ ks, Normal m.2 := by
  match js with
  | [] =>
    simp only [normalizeMembers?, Option.some.injEq] at h
    simp [← h]
  | (key, j) :: js =>
    simp only [normalizeMembers?, Option.bind_eq_bind, Option.bind_eq_some_iff, Option.pure_def,
      Option.some.injEq] at h
    obtain ⟨k, hk, ks, hks, rfl⟩ := h
    intro m hm
    rcases List.mem_cons.mp hm with rfl | hm
    · exact normal_of_normalize? hk
    · exact normal_of_normalizeMembers? hks m hm

end

end Json
end MetricFormula
