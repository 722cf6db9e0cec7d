import MetricFormula.Json.Basic

/-! # Nesting

How deep the arrays and objects of a document are nested, as the limit of the reader counts it. -/

namespace MetricFormula.Json

mutual

/-- How many arrays and objects are nested in one another. -/
def depth : Json → Nat
  | .null | .bool _ | .int _ | .float _ | .string _ | .unusable => 0
  | .array items => depthItems items + 1
  | .object members => depthMembers members + 1

def depthItems : List Json → Nat
  | [] => 0
  | j :: js => max (depth j) (depthItems js)

def depthMembers : List (String × Json) → Nat
  | [] => 0
  | (_, j) :: ms => max (depth j) (depthMembers ms)

end

theorem depthItems_le {items : List Json} {n : Nat} :
    depthItems items ≤ n ↔ ∀ j ∈ items, j.depth ≤ n := by
  induction items with
  | nil => simp [depthItems]
  | cons j js ih => rw [depthItems, Nat.max_le, ih, List.forall_mem_cons]

theorem depthMembers_le {members : List (String × Json)} {n : Nat} :
    depthMembers members ≤ n ↔ ∀ m ∈ members, m.2.depth ≤ n := by
  induction members with
  | nil => simp [depthMembers]
  | cons m ms ih => rw [depthMembers, Nat.max_le, ih, List.forall_mem_cons]

theorem depth_array_le {items : List Json} {n : Nat} :
    (array items).depth ≤ n ↔ ∃ m, n = m + 1 ∧ ∀ j ∈ items, j.depth ≤ m := by
  rw [depth]
  constructor
  · intro h
    obtain ⟨m, rfl⟩ := Nat.exists_eq_add_of_lt h
    exact ⟨_, rfl, depthItems_le.mp (by omega)⟩
  · rintro ⟨m, rfl, h⟩
    exact Nat.succ_le_succ (depthItems_le.mpr h)

theorem depth_object_le {members : List (String × Json)} {n : Nat} :
    (object members).depth ≤ n ↔ ∃ m, n = m + 1 ∧ ∀ member ∈ members, member.2.depth ≤ m := by
  rw [depth]
  constructor
  · intro h
    obtain ⟨m, rfl⟩ := Nat.exists_eq_add_of_lt h
    exact ⟨_, rfl, depthMembers_le.mp (by omega)⟩
  · rintro ⟨m, rfl, h⟩
    exact Nat.succ_le_succ (depthMembers_le.mpr h)

end MetricFormula.Json
