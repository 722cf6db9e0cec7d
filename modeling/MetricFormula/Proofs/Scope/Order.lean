import MetricFormula.Proofs.Scope.History

/-! # The order of registrations

Reordering a history as far as it is of no account leads to the very same scope. Where no two
registrations of a kind have the same name, that is any order at all: so it does not matter in
which order stored values are brought into scope at once. -/

namespace MetricFormula

namespace History

variable {history other : History}

theorem getElem?_lists_ofHistory (history : History) (name : String) :
    (Scope.ofHistory history).lists[name]? = (history.lists name).getLast? := by
  induction history using List.reverseRecOn with
  | nil => simp [Scope.ofHistory, Scope.empty, lists]
  | append_singleton history r ih =>
    rw [Scope.ofHistory_concat, getLast?_lists_concat, ← ih]
    cases r with
    | number key x => rfl
    | list key rows columns =>
      rw [Scope.register, Scope.getElem?_lists_bindList, Registration.rows?]
      by_cases h : key = name <;> simp [h]

theorem Reordered.ofHistory_eq (h : history.Reordered other) :
    Scope.ofHistory history = Scope.ofHistory other := by
  refine Scope.ext_getElem? (fun name => ?_) (fun name => ?_)
  · rw [← Scope.lookup?, ← Scope.lookup?, lookup?_ofHistory, lookup?_ofHistory, h.meaning_eq]
  · rw [getElem?_lists_ofHistory, getElem?_lists_ofHistory, h.lists_eq]

/-- No two numbers have the same name, nor do two lists. -/
def Distinct (history : History) : Prop :=
  history.Pairwise fun r r' => ∀ name,
    ¬(r.isNumber name ∧ r'.isNumber name) ∧ ¬(r.isList name ∧ r'.isList name)

/-- Of what a list holds only once no order can matter. -/
theorem perm_filter_eq {p : Registration → Bool} (hperm : history.Perm other)
    (h : history.Pairwise fun r r' => ¬(p r ∧ p r')) : history.filter p = other.filter p := by
  have hother : other.Pairwise fun r r' => ¬(p r ∧ p r') :=
    (hperm.pairwise_iff fun hnot hand => hnot hand.symm).mp h
  have hfilter {rs : List Registration} (h : rs.Pairwise fun r r' => ¬(p r ∧ p r')) :
      (rs.filter p).Pairwise fun _ _ => False :=
    (h.filter p).imp_of_mem fun hr hr' hnot =>
      hnot ⟨(List.mem_filter.mp hr).2, (List.mem_filter.mp hr').2⟩
  exact (hperm.filter p).eq_of_pairwise (fun _ _ _ _ => False.elim) (hfilter h) (hfilter hother)

theorem Distinct.reordered (h : history.Distinct) (hperm : history.Perm other) :
    history.Reordered other where
  perm := hperm
  numbers name := perm_filter_eq hperm (h.imp fun hr => (hr name).1)
  lists name := perm_filter_eq hperm (h.imp fun hr => (hr name).2)

end History

/-! ## All stored values at once -/

/-- All stored values, the lists before the scalars and either in the order given. -/
def Scope.ofEntries (lists : List (String × List Row)) (scalars : List (String × Option Binary64)) :
    Scope :=
  scalars.foldl (fun s e => s.bindNumber e.1 e.2)
    (lists.foldl (fun s e => s.bindList e.1 e.2 []) .empty)

/-- Registrations of lists without further columns, and of numbers. -/
def History.ofEntries (lists : List (String × List Row))
    (scalars : List (String × Option Binary64)) : History :=
  lists.map (fun e => .list e.1 e.2 []) ++ scalars.map fun e => .number e.1 e.2

theorem Scope.ofEntries_eq_ofHistory (lists : List (String × List Row))
    (scalars : List (String × Option Binary64)) :
    ofEntries lists scalars = ofHistory (.ofEntries lists scalars) := by
  rw [ofHistory, History.ofEntries, List.foldl_append, List.foldl_map, List.foldl_map]
  rfl

namespace StoredValues

/-- The registrations of all stored values. -/
def history (v : StoredValues) : History := .ofEntries v.lists.toList v.scalars.toList

theorem distinct_history (v : StoredValues) : v.history.Distinct := by
  have hkeys {key key' : String} (hne : ¬compare key key' = .eq) (name : String) :
      ¬(decide (key = name) ∧ decide (key' = name)) := by
    simp only [decide_eq_true_eq]
    rintro ⟨rfl, rfl⟩
    exact hne Std.ReflCmp.compare_self
  refine List.pairwise_append.mpr ⟨?_, ?_, ?_⟩
  · exact List.pairwise_map.mpr (v.lists.distinct_keys_toList.imp fun hne name =>
      ⟨nofun, hkeys hne name⟩)
  · exact List.pairwise_map.mpr (v.scalars.distinct_keys_toList.imp fun hne name =>
      ⟨hkeys hne name, nofun⟩)
  · intro r hr r' hr' name
    obtain ⟨_, _, rfl⟩ := List.mem_map.mp hr
    obtain ⟨_, _, rfl⟩ := List.mem_map.mp hr'
    exact ⟨nofun, nofun⟩

theorem ofValues_eq_ofHistory (v : StoredValues) :
    Scope.ofValues v = .ofHistory v.history := by
  rw [Scope.ofValues, Std.ExtTreeMap.foldl_eq_foldl_toList, Std.ExtTreeMap.foldl_eq_foldl_toList,
    history, ← Scope.ofEntries_eq_ofHistory]
  rfl

/-- In whatever order the stored values are registered, the scope is the same. -/
theorem ofHistory_eq_ofValues {v : StoredValues} {history : History}
    (h : history.Perm v.history) : Scope.ofHistory history = .ofValues v := by
  rw [ofValues_eq_ofHistory]
  exact (v.distinct_history.reordered h.symm).ofHistory_eq.symm

theorem ofEntries_eq_ofValues {v : StoredValues} {lists : List (String × List Row)}
    {scalars : List (String × Option Binary64)} (hlists : lists.Perm v.lists.toList)
    (hscalars : scalars.Perm v.scalars.toList) :
    Scope.ofEntries lists scalars = .ofValues v := by
  rw [Scope.ofEntries_eq_ofHistory]
  exact ofHistory_eq_ofValues ((hlists.map _).append (hscalars.map _))

end StoredValues
end MetricFormula
