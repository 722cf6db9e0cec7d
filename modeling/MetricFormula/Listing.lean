import Std.Data.ExtTreeMap

/-! # Maps and their lists

A map and the list of its entries in the order of keys determine each other. A list in any order
makes a map too, in which the last entry of a key counts; if the keys are distinct the order does
not matter. Where a map is listed in an order that nothing is known of, that is an `EntryOrder`. -/

namespace MetricFormula

open Std (ExtTreeMap)

variable {α β : Type} {cmp : α → α → Ordering} {l l' : List (α × β)} {key : α} {value : β}

/-- The keys of the entries increase. -/
def Increasing (cmp : α → α → Ordering) (l : List (α × β)) : Prop :=
  l.Pairwise fun a b => cmp a.1 b.1 = .lt

theorem Increasing.distinct (h : Increasing cmp l) :
    l.Pairwise fun a b => ¬cmp a.1 b.1 = .eq :=
  h.imp fun hlt heq => by cases hlt.symm.trans heq

section
variable [Std.TransCmp cmp]

theorem increasing_toList (map : ExtTreeMap α β cmp) : Increasing cmp map.toList :=
  ExtTreeMap.ordered_keys_toList

theorem Increasing.nodup_keys (h : Increasing cmp l) : (l.map Prod.fst).Nodup :=
  List.pairwise_map.mpr <| h.imp fun {a b} hlt heq => by
    have hself : cmp b.1 b.1 = .eq := Std.ReflCmp.compare_self
    rw [heq, hself] at hlt
    cases hlt

theorem Increasing.nodup (h : Increasing cmp l) : l.Nodup :=
  List.Pairwise.of_map Prod.fst (fun _ _ hne heq => hne (congrArg Prod.fst heq)) h.nodup_keys

/-- Entries in order are known by what they are. -/
theorem Increasing.eq_of_mem_iff (h : Increasing cmp l) (h' : Increasing cmp l')
    (hmem : ∀ entry, entry ∈ l ↔ entry ∈ l') : l = l' := by
  have hantisymm : ∀ a b, a ∈ l → b ∈ l' → cmp a.1 b.1 = .lt → cmp b.1 a.1 = .lt → a = b :=
    fun _ _ _ _ hab hba => absurd hba (Std.OrientedCmp.not_lt_of_lt hab)
  exact List.Perm.eq_of_pairwise hantisymm h h'
    ((List.perm_ext_iff_of_nodup h.nodup h'.nodup).mpr hmem)

variable [Std.LawfulEqCmp cmp]

private theorem getElem?_insertAll {map : ExtTreeMap α β cmp}
    (h : (l.foldl (fun t (k, v) => t.insert k v) map)[key]? = some value) :
    map[key]? = some value ∨ (key, value) ∈ l := by
  induction l generalizing map with
  | nil => exact .inl h
  | cons entry l ih =>
    rcases ih h with hhead | h
    · rw [ExtTreeMap.getElem?_insert] at hhead
      split at hhead
      · rename_i heq
        have hkey := Std.LawfulEqCmp.eq_of_compare heq
        simp only [Option.some.injEq] at hhead
        simp [← hkey, ← hhead]
      · exact .inl hhead
    · exact .inr (List.mem_cons_of_mem _ h)

theorem mem_of_getElem?_ofList (h : (ExtTreeMap.ofList l cmp)[key]? = some value) :
    (key, value) ∈ l := by
  rw [ExtTreeMap.ofList_eq_foldl] at h
  rcases getElem?_insertAll h with h | h
  · simp at h
  · exact h

theorem getElem?_ofList_iff (h : l.Pairwise fun a b => ¬cmp a.1 b.1 = .eq) :
    (ExtTreeMap.ofList l cmp)[key]? = some value ↔ (key, value) ∈ l :=
  ⟨mem_of_getElem?_ofList, ExtTreeMap.getElem?_ofList_of_mem Std.ReflCmp.compare_self h⟩

theorem ofList_eq_of_perm (h : l.Pairwise fun a b => ¬cmp a.1 b.1 = .eq) (hperm : l.Perm l') :
    ExtTreeMap.ofList l cmp = ExtTreeMap.ofList l' cmp := by
  have h' := hperm.pairwise h fun hne heq => hne (Std.OrientedCmp.eq_symm heq)
  refine ExtTreeMap.ext_getElem? fun key => Option.ext fun value => ?_
  rw [getElem?_ofList_iff h, getElem?_ofList_iff h', hperm.mem_iff]

/-- Entries in order are those of the map they make. -/
theorem Increasing.toList_ofList (h : Increasing cmp l) : (ExtTreeMap.ofList l cmp).toList = l :=
  (increasing_toList _).eq_of_mem_iff h fun _ =>
    ExtTreeMap.mem_toList_iff_getElem?_eq_some.trans (getElem?_ofList_iff h.distinct)

theorem ofList_toList (map : ExtTreeMap α β cmp) : ExtTreeMap.ofList map.toList cmp = map :=
  ExtTreeMap.toList_inj.mp (increasing_toList map).toList_ofList

/-- Sorting the entries of a map by their keys makes its list, whatever order they come in. -/
theorem mergeSort_eq_toList {map : ExtTreeMap α β cmp} (h : l.Perm map.toList) :
    l.mergeSort (fun a b => (cmp a.1 b.1).isLE) = map.toList := by
  have hperm := (List.mergeSort_perm l fun a b => (cmp a.1 b.1).isLE).trans h
  have hsorted : (l.mergeSort fun a b => (cmp a.1 b.1).isLE).Pairwise
      fun a b => (cmp a.1 b.1).isLE := by
    refine List.pairwise_mergeSort (fun _ _ _ => Std.TransCmp.isLE_trans) (fun a b => ?_) l
    have hswap : cmp b.1 a.1 = (cmp a.1 b.1).swap := Std.OrientedCmp.eq_swap
    rw [hswap]
    cases cmp a.1 b.1 <;> rfl
  refine hperm.eq_of_pairwise (fun a b ha hb hab hba => ?_) hsorted
    ((increasing_toList map).imp fun hlt => by simp [hlt])
  have hkey : a.1 = b.1 := Std.LawfulEqCmp.eq_of_compare (Std.OrientedCmp.isLE_antisymm hab hba)
  have hvalue := ExtTreeMap.mem_toList_iff_getElem?_eq_some.mp (hperm.subset ha)
  rw [hkey, ExtTreeMap.mem_toList_iff_getElem?_eq_some.mp hb] at hvalue
  exact Prod.ext hkey (Option.some.inj hvalue).symm

end

/-! ## Orders of entries -/

/-- How the entries of maps are listed, each of them once and in an order that is left open. -/
structure EntryOrder where
  entries : {α : Type} → ExtTreeMap String α → List (String × α)
  perm : ∀ {α : Type} (map : ExtTreeMap String α), (entries map).Perm map.toList

namespace EntryOrder

/-- The order of the keys. -/
def ascending : EntryOrder := ⟨fun map => map.toList, fun _ => .refl _⟩

variable (order order' : EntryOrder) {γ δ : Type} (map : ExtTreeMap String γ)

theorem mem_entries {key : String} {c : γ} :
    (key, c) ∈ order.entries map ↔ map[key]? = some c :=
  (order.perm map).mem_iff.trans ExtTreeMap.mem_toList_iff_getElem?_eq_some

theorem nodup_keys : ((order.entries map).map Prod.fst).Nodup :=
  ((order.perm map).map Prod.fst).nodup_iff.mpr (increasing_toList map).nodup_keys

/-- Entries whose values are mapped make the map with these values. -/
theorem ofList_map_entries (f : γ → δ) :
    ExtTreeMap.ofList ((order.entries map).map fun entry => (entry.1, f entry.2)) compare =
      map.map fun _ => f := by
  have hsorted := increasing_toList (map.map fun _ => f)
  have hperm := (order.perm map).map fun entry => (entry.1, f entry.2)
  rw [← ExtTreeMap.toList_map (f := fun _ => f)] at hperm
  rw [← ofList_toList (map.map fun _ => f)]
  exact (ofList_eq_of_perm hsorted.distinct hperm.symm).symm

end EntryOrder
end MetricFormula
