import MetricFormula.Entity.Basic

/-! # Names in scope

A scope holds what the names of a formula denote, one binding a name, and the rows of the lists. A
number takes the name it is bound to from whatever had it, a list from anything but a number, and a
column only where nothing has it. The rows of a list stay with its key even where the name denotes a
number. -/

namespace MetricFormula

/-- What a name denotes. -/
inductive Binding where
  | number (x : Binary64)
  | list
  | column
  deriving DecidableEq

/-- What a name denotes once a list has its key. -/
def Binding.underList : Option Binding → Binding
  | some (number x) => number x
  | some list | some column | none => list

structure Scope where
  bindings : Std.ExtTreeMap String Binding
  lists : Std.ExtTreeMap String (List Row)

namespace Scope

def empty : Scope := ⟨∅, ∅⟩

/-- Bind a number; an absent one counts as zero. -/
def bindNumber (s : Scope) (key : String) (x : Option Binary64) : Scope :=
  { s with bindings := s.bindings.insert key (.number (x.getD .zero)) }

/-- Bind a column unless the name is taken. -/
def bindColumn (s : Scope) (name : String) : Scope :=
  { s with bindings := s.bindings.insertIfNew name .column }

/-- Bind the key of a list, and keep its rows. -/
def bindKey (s : Scope) (key : String) (rows : List Row) : Scope where
  bindings := s.bindings.insert key (.underList s.bindings[key]?)
  lists := s.lists.insert key rows

/-- Bind a list, its declared columns and the columns of its rows. -/
def bindList (s : Scope) (key : String) (rows : List Row) (columns : List String) : Scope :=
  (columns ++ rows.flatMap (·.keys)).foldl bindColumn (s.bindKey key rows)

/-- All stored values at once. -/
def ofValues (v : StoredValues) : Scope :=
  let lists := v.lists.foldl (fun s key rows => s.bindList key rows []) empty
  v.scalars.foldl bindNumber lists

def lookup? (s : Scope) (name : String) : Option Binding := s.bindings[name]?

def isBound (s : Scope) (name : String) : Bool := (s.lookup? name).isSome

/-- The rows of a list, whatever else its name denotes; an unknown list has none. -/
def rows (s : Scope) (list : String) : List Row := s.lists[list]?.getD []

/-- The number of names that are bound. -/
def size (s : Scope) : Nat := s.bindings.size

/-! ## What binding changes -/

variable (s : Scope) (key name : String)

theorem lookup?_bindNumber (x : Option Binary64) :
    (s.bindNumber key x).lookup? name =
      if key = name then some (.number (x.getD .zero)) else s.lookup? name := by
  simp [lookup?, bindNumber, Std.ExtTreeMap.getElem?_insert]

theorem rows_bindNumber (x : Option Binary64) : (s.bindNumber key x).rows name = s.rows name := rfl

theorem lookup?_bindColumn :
    (s.bindColumn key).lookup? name =
      (s.lookup? name).or (if key = name then some .column else none) := by
  simp only [lookup?, bindColumn, Std.ExtTreeMap.getElem?_insertIfNew,
    Std.ExtTreeMap.mem_iff_isSome_getElem?, Std.LawfulEqCmp.compare_eq_iff_eq]
  by_cases h : key = name
  · subst h
    cases s.bindings[key]? <;> simp
  · simp [h]

theorem lookup?_bindColumns (columns : List String) :
    (columns.foldl bindColumn s).lookup? name =
      (s.lookup? name).or (if name ∈ columns then some .column else none) := by
  induction columns generalizing s with
  | nil => simp
  | cons column columns ih =>
    rw [List.foldl_cons, ih, lookup?_bindColumn]
    cases s.lookup? name <;> grind

theorem lists_bindColumns (columns : List String) :
    (columns.foldl bindColumn s).lists = s.lists := by
  induction columns generalizing s with
  | nil => rfl
  | cons column columns ih => exact ih (s.bindColumn column)

theorem lookup?_bindKey (rows : List Row) :
    (s.bindKey key rows).lookup? name =
      if key = name then some (.underList (s.lookup? name)) else s.lookup? name := by
  by_cases h : key = name <;> simp [lookup?, bindKey, Std.ExtTreeMap.getElem?_insert, h]

/-- A list gives way to a number of its name, and a column to both. -/
theorem lookup?_bindList (rows : List Row) (columns : List String) :
    (s.bindList key rows columns).lookup? name =
      match s.lookup? name with
      | some (.number x) => some (.number x)
      | some .list => some .list
      | some .column | none =>
        if key = name then some .list
        else if name ∈ columns ∨ ∃ row ∈ rows, name ∈ row then some .column
        else s.lookup? name := by
  rw [bindList, lookup?_bindColumns, lookup?_bindKey]
  by_cases h : key = name
  · rcases s.lookup? name with _ | (_ | _ | _) <;> simp [h, Binding.underList]
  · rcases s.lookup? name with _ | (_ | _ | _) <;> simp [h]

theorem getElem?_lists_bindList (rows : List Row) (columns : List String) :
    (s.bindList key rows columns).lists[name]? =
      if key = name then some rows else s.lists[name]? := by
  rw [bindList, lists_bindColumns]
  simp [bindKey, Std.ExtTreeMap.getElem?_insert]

theorem rows_bindList (rows : List Row) (columns : List String) :
    (s.bindList key rows columns).rows name = if key = name then rows else s.rows name := by
  rw [Scope.rows, getElem?_lists_bindList]
  by_cases h : key = name <;> simp [Scope.rows, h]

theorem ext_getElem? {s t : Scope}
    (hbindings : ∀ name : String, s.bindings[name]? = t.bindings[name]?)
    (hlists : ∀ name : String, s.lists[name]? = t.lists[name]?) : s = t := by
  cases s
  cases t
  congr
  · exact Std.ExtTreeMap.ext_getElem? hbindings
  · exact Std.ExtTreeMap.ext_getElem? hlists

end Scope
end MetricFormula
