import MetricFormula.Entity.Basic
import MetricFormula.Listing

/-! # Numbers of other entities

A snapshot holds numbers by entity and field. Its dump is the list of its entries in the order of
entities and then of fields, and so it is what sorting makes of any list of the entries. -/

namespace MetricFormula

structure Address where
  entity : Int64
  field : String
  deriving DecidableEq

namespace Address

def order : Address → Address → Ordering := compareLex (compareOn entity) (compareOn field)

instance : Std.TransCmp order :=
  inferInstanceAs (Std.TransCmp (compareLex (compareOn entity) (compareOn field)))

instance : Std.LawfulEqCmp order where
  eq_of_compare {a b} h := by
    simp only [order, compareLex_eq_eq, compareOn, Std.LawfulEqCmp.compare_eq_iff_eq] at h
    cases a
    cases b
    simp_all

end Address

structure Snapshot where
  values : Std.ExtTreeMap Address Binary64 Address.order

namespace Snapshot

def empty : Snapshot := ⟨∅⟩

def insert (s : Snapshot) (a : Address) (x : Binary64) : Snapshot := ⟨s.values.insert a x⟩

def lookup? (s : Snapshot) (a : Address) : Option Binary64 := s.values[a]?

/-- The number at an address, zero where there is none. -/
def get (s : Snapshot) (a : Address) : Binary64 := (s.lookup? a).getD .zero

def size (s : Snapshot) : Nat := s.values.size

/-- The entries in the order of their addresses. -/
def dump (s : Snapshot) : List (Address × Binary64) := s.values.toList

def insertAll (s : Snapshot) (entries : List (Address × Binary64)) : Snapshot :=
  entries.foldl (fun s (a, x) => s.insert a x) s

/-- The last entry at each address. -/
def ofEntries (entries : List (Address × Binary64)) : Snapshot := empty.insertAll entries

/-- The numbers that a sibling stores for its number and formula fields. -/
def entriesOf (sibling : Sibling) : List (Address × Binary64) :=
  sibling.fields.filterMap fun field =>
    if field.kind.isShared then
      sibling.numbers[field.key]?.join.map (⟨sibling.id, field.key⟩, ·)
    else none

/-- What the siblings of an entity hold; its own entries are left out. -/
def ofSiblings (current : Int64) (siblings : List Sibling) : Snapshot :=
  ofEntries ((siblings.filter (·.id ≠ current)).flatMap entriesOf)

/-! ## Lookup and dump -/

theorem lookup?_empty (a : Address) : empty.lookup? a = none := rfl

theorem lookup?_insert (s : Snapshot) (a b : Address) (x : Binary64) :
    (s.insert a x).lookup? b = if a = b then some x else s.lookup? b := by
  simp [lookup?, insert, Std.ExtTreeMap.getElem?_insert]

theorem ext_lookup? {s t : Snapshot} (h : ∀ a, s.lookup? a = t.lookup? a) : s = t :=
  congrArg Snapshot.mk (Std.ExtTreeMap.ext_getElem? h)

theorem mem_dump {s : Snapshot} {a : Address} {x : Binary64} :
    (a, x) ∈ s.dump ↔ s.lookup? a = some x := Std.ExtTreeMap.mem_toList_iff_getElem?_eq_some

theorem dump_increases (s : Snapshot) : s.dump.Pairwise fun p q => p.1.order q.1 = .lt :=
  Std.ExtTreeMap.ordered_keys_toList

/-- In whatever order the entries are listed, sorting them by their addresses makes the dump. -/
theorem mergeSort_eq_dump {s : Snapshot} {entries : List (Address × Binary64)}
    (h : entries.Perm s.dump) : entries.mergeSort (fun p q => (p.1.order q.1).isLE) = s.dump :=
  mergeSort_eq_toList h

end Snapshot
end MetricFormula
