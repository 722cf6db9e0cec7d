import Mathlib.Data.Finset.Dedup
import Mathlib.Data.Finset.Card
import Mathlib.Data.List.Induction
import MetricFormula.Entity.Scope

/-! # Scopes by their history

A scope built by registering numbers and lists one after another can be told from its history alone:
a name denotes the last number registered for it, a list only where no number has its name, and a
column only where neither has (`History.meaning`). So the order of registrations matters only
among numbers, and among lists, of one name. -/

namespace MetricFormula

/-- What is registered in a scope at a time. -/
inductive Registration where
  | number (key : String) (x : Option Binary64)
  | list (key : String) (rows : List Row) (columns : List String)

def Scope.register (s : Scope) : Registration → Scope
  | .number key x => s.bindNumber key x
  | .list key rows columns => s.bindList key rows columns

namespace Registration

/-- Whether a number is registered for the name. -/
def isNumber (name : String) : Registration → Bool
  | number key _ => key = name
  | list .. => false

/-- Whether a list is registered for the name. -/
def isList (name : String) : Registration → Bool
  | number .. => false
  | list key .. => key = name

/-- The number that is registered for the name, where an absent one counts as zero. -/
def number? (name : String) : Registration → Option Binary64
  | number key x => if key = name then some (x.getD .zero) else none
  | list .. => none

/-- The rows that are registered for the name. -/
def rows? (name : String) : Registration → Option (List Row)
  | number .. => none
  | list key rows _ => if key = name then some rows else none

/-- Whether a list with that column is registered. -/
def hasColumn (name : String) : Registration → Bool
  | number .. => false
  | list _ rows columns => name ∈ columns ∨ ∃ row ∈ rows, name ∈ row

/-- The names that a registration binds, whatever they denote. -/
def names : Registration → List String
  | number key _ => [key]
  | list key rows columns => key :: (columns ++ rows.flatMap (·.keys))

theorem mem_names {r : Registration} {name : String} :
    name ∈ r.names ↔ r.isNumber name ∨ r.isList name ∨ r.hasColumn name := by
  cases r with
  | number key x => simp [names, isNumber, isList, hasColumn, @eq_comm _ key]
  | list key rows columns => simp [names, isNumber, isList, hasColumn, @eq_comm _ key]

theorem isSome_number? (name : String) (r : Registration) :
    (r.number? name).isSome = r.isNumber name := by
  cases r with
  | number key x => by_cases h : key = name <;> simp [number?, isNumber, h]
  | list key rows columns => rfl

theorem isSome_rows? (name : String) (r : Registration) :
    (r.rows? name).isSome = r.isList name := by
  cases r with
  | number key x => rfl
  | list key rows columns => by_cases h : key = name <;> simp [rows?, isList, h]

end Registration

/-- Registrations in the order in which they are made. -/
abbrev History := List Registration

/-- The scope after some more registrations. -/
def Scope.registerAll (s : Scope) (history : History) : Scope := history.foldl register s

def Scope.ofHistory (history : History) : Scope := history.foldl register empty

theorem Scope.registerAll_append (s : Scope) (history more : History) :
    s.registerAll (history ++ more) = (s.registerAll history).registerAll more := List.foldl_append

theorem Scope.ofHistory_concat (history : History) (r : Registration) :
    ofHistory (history ++ [r]) = (ofHistory history).register r := List.foldl_concat ..

namespace History

variable {history other : History} {name : String}

/-- The numbers registered for a name. -/
def numbers (history : History) (name : String) : List Binary64 :=
  history.filterMap (·.number? name)

/-- The rows registered for a name, one list of rows for each list. -/
def lists (history : History) (name : String) : List (List Row) :=
  history.filterMap (·.rows? name)

/-- What a name denotes after all registrations. -/
def meaning (history : History) (name : String) : Option Binding :=
  match (history.numbers name).getLast? with
  | some x => some (.number x)
  | none =>
    if history.any (·.isList name) then some .list
    else if history.any (·.hasColumn name) then some .column
    else none

/-- The rows of a name after all registrations, whatever it denotes. -/
def rows (history : History) (name : String) : List Row := (history.lists name).getLast?.getD []

/-- All names that are bound at some time. -/
def names (history : History) : Finset String := (history.flatMap (·.names)).toFinset

/-- The same registrations in another order, but in the same order among the numbers and among the
lists of each name. -/
structure Reordered (history other : History) : Prop where
  perm : history.Perm other
  numbers : ∀ name, history.filter (·.isNumber name) = other.filter (·.isNumber name)
  lists : ∀ name, history.filter (·.isList name) = other.filter (·.isList name)

/-! ## One registration more -/

theorem getLast?_numbers_concat (r : Registration) :
    (numbers (history ++ [r]) name).getLast? =
      (r.number? name).or (history.numbers name).getLast? := by
  cases h : r.number? name <;> simp [numbers, h]

theorem getLast?_lists_concat (r : Registration) :
    (lists (history ++ [r]) name).getLast? =
      (r.rows? name).or (history.lists name).getLast? := by
  cases h : r.rows? name <;> simp [lists, h]

theorem meaning_concat_number (key : String) (x : Option Binary64) :
    meaning (history ++ [.number key x]) name =
      if key = name then some (.number (x.getD .zero)) else history.meaning name := by
  rw [meaning, getLast?_numbers_concat, List.any_append, List.any_append]
  by_cases h : key = name
  · simp [Registration.number?, h]
  · simp [Registration.number?, Registration.isList, Registration.hasColumn, meaning, h]

/-- A list changes what its name and its columns denote as it changes the scope. -/
theorem meaning_concat_list (key : String) (rows : List Row) (columns : List String) :
    meaning (history ++ [.list key rows columns]) name =
      match history.meaning name with
      | some (.number x) => some (.number x)
      | some .list => some .list
      | some .column | none =>
        if key = name then some .list
        else if name ∈ columns ∨ ∃ row ∈ rows, name ∈ row then some .column
        else history.meaning name := by
  have hnumber : Registration.number? name (.list key rows columns) = none := rfl
  have hlist : Registration.isList name (.list key rows columns) = decide (key = name) := rfl
  have hcolumn : Registration.hasColumn name (.list key rows columns) =
      decide (name ∈ columns ∨ ∃ row ∈ rows, name ∈ row) := rfl
  simp only [meaning, getLast?_numbers_concat, List.any_append, List.any_cons, List.any_nil,
    hnumber, hlist, hcolumn, Option.none_or, Bool.or_false]
  cases (history.numbers name).getLast? with
  | some x => rfl
  | none =>
    cases history.any (·.isList name) with
    | true => rfl
    | false =>
      by_cases hkey : key = name
      · cases history.any (·.hasColumn name) <;> simp [hkey]
      · cases history.any (·.hasColumn name) <;> simp [hkey]

/-! ## The whole history -/

theorem lookup?_ofHistory (history : History) (name : String) :
    (Scope.ofHistory history).lookup? name = history.meaning name := by
  induction history using List.reverseRecOn with
  | nil => simp [Scope.ofHistory, Scope.empty, Scope.lookup?, meaning, numbers]
  | append_singleton history r ih =>
    rw [Scope.ofHistory_concat]
    cases r with
    | number key x =>
      rw [Scope.register, Scope.lookup?_bindNumber, meaning_concat_number, ih]
    | list key rows columns =>
      have hlookup := Scope.lookup?_bindList (Scope.ofHistory history) key name rows columns
      rw [ih] at hlookup
      exact hlookup.trans (meaning_concat_list key rows columns).symm

theorem rows_ofHistory (history : History) (name : String) :
    (Scope.ofHistory history).rows name = history.rows name := by
  induction history using List.reverseRecOn with
  | nil => simp [Scope.ofHistory, Scope.empty, Scope.rows, rows, lists]
  | append_singleton history r ih =>
    rw [Scope.ofHistory_concat, rows, getLast?_lists_concat]
    cases r with
    | number key x =>
      rw [Scope.register, Scope.rows_bindNumber]
      exact ih
    | list key listed columns =>
      rw [Scope.register, Scope.rows_bindList, ih, Registration.rows?]
      by_cases h : key = name <;> simp [h, rows]

theorem getLast?_numbers_eq_none :
    (history.numbers name).getLast? = none ↔ history.any (·.isNumber name) = false := by
  simp [numbers, ← Registration.isSome_number?]

/-- A name denotes something once it has been bound, and then for good. -/
theorem isSome_meaning : (history.meaning name).isSome ↔ name ∈ history.names := by
  have hnames : name ∈ history.names ↔ history.any (·.isNumber name) ∨
      history.any (·.isList name) ∨ history.any (·.hasColumn name) := by
    simp only [names, List.mem_toFinset, List.mem_flatMap, Registration.mem_names, List.any_eq_true,
      and_or_left, exists_or]
  rw [hnames, meaning]
  cases hlast : (history.numbers name).getLast? with
  | some x =>
    have hany : history.any (·.isNumber name) ≠ false := fun h => by
      rw [getLast?_numbers_eq_none.mpr h] at hlast
      nomatch hlast
    simp only [Bool.ne_false_iff.mp hany, true_or, Option.isSome_some]
  | none =>
    rw [getLast?_numbers_eq_none.mp hlast]
    cases history.any (·.isList name) <;> cases history.any (·.hasColumn name) <;> simp

theorem size_ofHistory (history : History) :
    (Scope.ofHistory history).size = history.names.card := by
  have hmem (name : String) :
      name ∈ (Scope.ofHistory history).bindings.keys ↔ name ∈ history.names := by
    rw [Std.ExtTreeMap.mem_keys, ← isSome_meaning, ← lookup?_ofHistory, Scope.lookup?,
      Std.ExtTreeMap.mem_iff_isSome_getElem?]
  have hnodup := (Scope.ofHistory history).bindings.nodup_keys
  have hkeys : (Scope.ofHistory history).bindings.keys.toFinset = history.names := by
    ext name
    rw [List.mem_toFinset, hmem]
  rw [Scope.size, ← Std.ExtTreeMap.length_keys, ← hkeys, List.toFinset_card_of_nodup hnodup]

/-! ## Other orders -/

/-- What a filter keeps of a list is enough for what is picked from it. -/
theorem filterMap_filter_of_isSome {f : Registration → Option α} {p : Registration → Bool}
    (h : ∀ r, (f r).isSome = p r) (history : History) :
    (history.filter p).filterMap f = history.filterMap f := by
  rw [List.filterMap_filter]
  congr 1
  funext r
  rw [← h]
  cases f r <;> rfl

theorem Reordered.numbers_eq (h : history.Reordered other) (name : String) :
    history.numbers name = other.numbers name := by
  have hpick := filterMap_filter_of_isSome (Registration.isSome_number? name)
  calc history.numbers name
    _ = (history.filter (·.isNumber name)).filterMap (·.number? name) := (hpick history).symm
    _ = (other.filter (·.isNumber name)).filterMap (·.number? name) := by rw [h.numbers]
    _ = other.numbers name := hpick other

theorem Reordered.lists_eq (h : history.Reordered other) (name : String) :
    history.lists name = other.lists name := by
  have hpick := filterMap_filter_of_isSome (Registration.isSome_rows? name)
  calc history.lists name
    _ = (history.filter (·.isList name)).filterMap (·.rows? name) := (hpick history).symm
    _ = (other.filter (·.isList name)).filterMap (·.rows? name) := by rw [h.lists]
    _ = other.lists name := hpick other

theorem Reordered.meaning_eq (h : history.Reordered other) (name : String) :
    history.meaning name = other.meaning name := by
  rw [meaning, meaning, h.numbers_eq, h.perm.any_eq, h.perm.any_eq]

theorem Reordered.rows_eq (h : history.Reordered other) (name : String) :
    history.rows name = other.rows name := by
  rw [rows, rows, h.lists_eq]

/-- After any history a scope is what the history says, and any reordering of it leads to the same
lookups and the same rows. -/
theorem ofHistory_eq_meaning (history : History) :
    (∀ name, (Scope.ofHistory history).lookup? name = history.meaning name) ∧
    (∀ name, (Scope.ofHistory history).rows name = history.rows name) ∧
    (Scope.ofHistory history).size = history.names.card ∧
    ∀ other, history.Reordered other → ∀ name,
      (Scope.ofHistory other).lookup? name = (Scope.ofHistory history).lookup? name ∧
      (Scope.ofHistory other).rows name = (Scope.ofHistory history).rows name := by
  refine ⟨lookup?_ofHistory history, rows_ofHistory history, size_ofHistory history, ?_⟩
  intro other h name
  constructor
  · rw [lookup?_ofHistory, lookup?_ofHistory, h.meaning_eq]
  · rw [rows_ofHistory, rows_ofHistory, h.rows_eq]

/-- A list that comes before a number of its name gives way to it as one that comes after it. -/
theorem ofHistory_eq_meaning_swap :
    (Scope.ofHistory [.list "a" [] ["b"], .number "a" none]).lookup? "a" =
        (Scope.ofHistory [.number "a" none, .list "a" [] ["b"]]).lookup? "a" ∧
      (Scope.ofHistory [.list "a" [] ["b"], .number "a" none]).rows "a" =
        (Scope.ofHistory [.number "a" none, .list "a" [] ["b"]]).rows "a" := by
  have h : Reordered [.number "a" none, .list "a" [] ["b"]] [.list "a" [] ["b"], .number "a" none] := {
    perm := .swap ..
    numbers := fun name => by by_cases h : "a" = name <;> simp [Registration.isNumber, h]
    lists := fun name => by by_cases h : "a" = name <;> simp [Registration.isList, h] }
  exact (ofHistory_eq_meaning [.number "a" none, .list "a" [] ["b"]]).2.2.2 _ h "a"

end History
end MetricFormula
