import MetricFormula.Listing
import MetricFormula.Proofs.Exchange.Data
import MetricFormula.Proofs.Snapshot.LastWriter
import MetricFormula.Proofs.Text.ByteOrder

/-! # Dumps of snapshots

The dump of a snapshot is its normal form: it ascends by entities and by the bytes of the fields, has
one entry for each number that is stored, and makes the snapshot again. Of any list of entries it keeps
the last one for each address, so snapshots are told apart by their dumps, whether numbers are
compared by what they are or by value. -/

namespace MetricFormula

/-! ## Ascending entries -/

/-- The order of entities, and among those of one entity the order of the bytes of the fields. -/
def Address.Precedes (a b : Address) : Prop :=
  a.entity < b.entity ∨ a.entity = b.entity ∧ Text.bytes a.field < Text.bytes b.field

/-- Every entry comes before all that follow it. -/
def Ascends (entries : List (Address × Binary64)) : Prop :=
  entries.Pairwise fun p q => p.1.Precedes q.1

instance : DecidableRel Address.Precedes := fun _ _ => inferInstanceAs (Decidable (_ ∨ _))

instance : DecidablePred Ascends := fun _ => inferInstanceAs (Decidable (List.Pairwise _ _))

theorem Address.order_eq_lt {a b : Address} : a.order b = .lt ↔ a.Precedes b := by
  have hfield : compareOn Address.field a b = .lt ↔ a.field < b.field :=
    compareOfLessAndEq_eq_lt
  rw [order, compareLex, Ordering.then_eq_lt, hfield, Precedes, Text.bytes_lt_iff, compareOn,
    Std.compare_eq_lt, Std.compare_eq_iff_eq]

theorem ascends_iff_increasing {entries : List (Address × Binary64)} :
    Ascends entries ↔ Increasing Address.order entries :=
  List.Pairwise.iff fun _ _ => Address.order_eq_lt.symm

/-! ## Entries that correspond -/

section
variable {α β γ : Type} {R : β → γ → Prop} {l : List (α × β)} {l' : List (α × γ)}

/-- Entries of the same keys in the same order, with values that are related. -/
def Correspond (R : β → γ → Prop) (l : List (α × β)) (l' : List (α × γ)) : Prop :=
  List.Forall₂ (fun p q => p.1 = q.1 ∧ R p.2 q.2) l l'

theorem Correspond.exists_of_mem (h : Correspond R l l') {a : α} {x : β} (hx : (a, x) ∈ l) :
    ∃ y, (a, y) ∈ l' ∧ R x y := by
  induction h with
  | nil => cases hx
  | @cons p q l l' hpq _ ih =>
    rcases List.mem_cons.mp hx with rfl | hx
    · obtain ⟨_, y⟩ := q
      obtain ⟨rfl, hR⟩ := hpq
      exact ⟨y, .head _, hR⟩
    · obtain ⟨y, hy, hR⟩ := ih hx
      exact ⟨y, .tail _ hy, hR⟩

theorem Correspond.flip (h : Correspond R l l') : Correspond (flip R) l' l :=
  List.Forall₂.flip (h.imp fun _ _ ⟨hkey, hR⟩ => ⟨hkey.symm, hR⟩)

theorem correspond_of_keys (hkeys : l.map Prod.fst = l'.map Prod.fst)
    (hR : ∀ a x y, (a, x) ∈ l → (a, y) ∈ l' → R x y) : Correspond R l l' := by
  induction l generalizing l' with
  | nil =>
    obtain rfl := List.map_eq_nil_iff.mp hkeys.symm
    exact .nil
  | cons p l ih =>
    obtain ⟨q, rest, rfl, hq, hrest⟩ := List.map_eq_cons_iff.mp hkeys.symm
    obtain ⟨a, x⟩ := p
    obtain ⟨_, y⟩ := q
    obtain rfl := hq
    refine .cons ⟨rfl, hR _ x y (.head _) (.head _)⟩ (ih hrest.symm fun a x y hx hy => ?_)
    exact hR a x y (.tail _ hx) (.tail _ hy)

end

section
variable {α β γ : Type} {cmp : α → α → Ordering} [Std.TransCmp cmp] {l : List (α × β)}
  {l' : List (α × γ)}

/-- Two lists in order that have the same keys have them in the same order. -/
theorem Increasing.keys_eq (h : Increasing cmp l) (h' : Increasing cmp l')
    (hmem : ∀ a, (∃ x, (a, x) ∈ l) ↔ ∃ y, (a, y) ∈ l') : l.map Prod.fst = l'.map Prod.fst := by
  -- with the values gone, the lists have the same entries, and lists in order are then the same
  let keyOnly {δ : Type} (p : α × δ) : α × Unit := (p.1, ())
  have hkeys : l.map keyOnly = l'.map keyOnly := by
    have hl : Increasing cmp (l.map keyOnly) := List.pairwise_map.mpr h
    have hl' : Increasing cmp (l'.map keyOnly) := List.pairwise_map.mpr h'
    refine hl.eq_of_mem_iff hl' fun ⟨a, _⟩ => ?_
    simpa [keyOnly] using hmem a
  have hfst := congrArg (List.map Prod.fst) hkeys
  rwa [List.map_map, List.map_map] at hfst

end

/-! ## Snapshots that agree -/

/-- Numbers that are equal by value; what is not a number equals nothing. -/
def Binary64.SameValue (x y : Binary64) : Prop := x.compare? y = some .eq

theorem Binary64.sameValue_self {x : Binary64} (h : x.isNaN = false) : x.SameValue x := by
  cases x with
  | nan => cases h
  | infinity s => simp [SameValue, compare?]
  | finite s m => simp [SameValue, compare?]

namespace Snapshot

/-- The snapshots hold numbers at the same addresses, and these are related. -/
def Agree (R : Binary64 → Binary64 → Prop) (s t : Snapshot) : Prop :=
  ∀ a, Option.Rel R (s.lookup? a) (t.lookup? a)

variable {R : Binary64 → Binary64 → Prop} {s t : Snapshot} {entries : List (Address × Binary64)}
  {a : Address} {x : Binary64}

theorem agree_iff_correspond : s.Agree R t ↔ Correspond R s.dump t.dump := by
  constructor
  · intro h
    have hmem (a : Address) : (∃ x, (a, x) ∈ s.dump) ↔ ∃ y, (a, y) ∈ t.dump := by
      have hrel := h a
      simp only [mem_dump]
      cases hs : s.lookup? a <;> cases ht : t.lookup? a <;> simp_all
    refine correspond_of_keys (Increasing.keys_eq s.dump_increases t.dump_increases hmem)
      fun a x y hx hy => ?_
    have hrel := h a
    rw [mem_dump.mp hx, mem_dump.mp hy] at hrel
    exact Option.rel_some_some.mp hrel
  · intro h a
    cases hs : s.lookup? a with
    | some x =>
      obtain ⟨y, hy, hR⟩ := h.exists_of_mem (mem_dump.mpr hs)
      rw [mem_dump.mp hy]
      exact .some hR
    | none =>
      cases ht : t.lookup? a with
      | none => exact .none
      | some y =>
        obtain ⟨x, hx, _⟩ := h.flip.exists_of_mem (mem_dump.mpr ht)
        cases (mem_dump.mp hx).symm.trans hs

theorem ascends_dump (s : Snapshot) : Ascends s.dump := ascends_iff_increasing.mpr s.dump_increases

/-- Each number that is stored has one entry. -/
theorem lookup?_eq_some_iff_filter :
    s.lookup? a = some x ↔ s.dump.filter (·.1 = a) = [(a, x)] := by
  constructor
  · intro hx
    refine Increasing.eq_of_mem_iff (s.dump_increases.filter _) (List.pairwise_singleton _ _)
      fun ⟨b, y⟩ => ?_
    simp only [List.mem_filter, mem_dump, decide_eq_true_eq, List.mem_singleton, Prod.mk.injEq]
    constructor
    · rintro ⟨hy, rfl⟩
      exact ⟨rfl, Option.some.inj (hy.symm.trans hx)⟩
    · rintro ⟨rfl, rfl⟩
      exact ⟨hx, rfl⟩
  · intro h
    have hmem : (a, x) ∈ s.dump.filter (·.1 = a) := by
      rw [h]
      exact .head _
    exact mem_dump.mp (List.mem_filter.mp hmem).1

theorem mem_dump_ofEntries :
    (a, x) ∈ (ofEntries entries).dump ↔ LastWith (EntryFor a) entries x :=
  mem_dump.trans lookup?_ofEntries

theorem ofEntries_eq_iff_dump {entries' : List (Address × Binary64)} :
    ofEntries entries = ofEntries entries' ↔
      (ofEntries entries).dump = (ofEntries entries').dump := by
  refine ⟨congrArg dump, fun h => ?_⟩
  rw [← ofEntries_dump (ofEntries entries), h, ofEntries_dump]

theorem dump_ofEntries_of_ascends (h : Ascends entries) : (ofEntries entries).dump = entries := by
  rw [dump, values_ofEntries]
  exact (ascends_iff_increasing.mp h).toList_ofList

/-- A dump ascends, has one entry for each number stored, and makes the snapshot again. The dump of
what some entries make is the one ascending list of the last entries for each address; it tells
snapshots apart, and it is the list itself where that ascends. -/
theorem dump_canonical (s : Snapshot) (v w : List (Address × Binary64)) :
    (Ascends s.dump ∧ s.dump.length = s.size ∧
      (∀ a x, s.lookup? a = some x ↔ s.dump.filter (·.1 = a) = [(a, x)]) ∧
      ofEntries s.dump = s ∧
      ((∀ a x, s.lookup? a = some x → x.isNaN = false) →
        (ofEntries s.dump).Agree Binary64.SameValue s)) ∧
    (Ascends (ofEntries v).dump ∧
      (∀ a x, (a, x) ∈ (ofEntries v).dump ↔ LastWith (EntryFor a) v x) ∧
      ∀ l, Ascends l → (∀ a x, (a, x) ∈ l ↔ LastWith (EntryFor a) v x) →
        (ofEntries v).dump = l) ∧
    (ofEntries v = ofEntries w ↔ (ofEntries v).dump = (ofEntries w).dump) ∧
    ((ofEntries v).Agree Binary64.SameValue (ofEntries w) ↔
      Correspond Binary64.SameValue (ofEntries v).dump (ofEntries w).dump) ∧
    (Ascends v → (ofEntries v).dump = v) := by
  refine ⟨⟨s.ascends_dump, Std.ExtTreeMap.length_toList, fun _ _ => lookup?_eq_some_iff_filter,
    s.ofEntries_dump, fun hnumbers a => ?_⟩, ⟨ascends_dump _, fun _ _ => mem_dump_ofEntries,
    fun l hl hmem => ?_⟩, ofEntries_eq_iff_dump, agree_iff_correspond, dump_ofEntries_of_ascends⟩
  · rw [ofEntries_dump]
    cases hs : s.lookup? a with
    | none => exact .none
    | some x => exact .some (Binary64.sameValue_self (hnumbers a x hs))
  · refine Increasing.eq_of_mem_iff (dump_increases _) (ascends_iff_increasing.mp hl)
      fun ⟨a, x⟩ => ?_
    rw [mem_dump_ofEntries, hmem]

/-- An entry that is replaced, and keys whose bytes are in another order than their UTF-16 units. -/
theorem dump_canonical_replaced :
    let seven : Address × Binary64 := (⟨1, "😀"⟩, .ofInt 7)
    let eight : Address × Binary64 := (⟨1, "\uffff"⟩, .ofInt 8)
    let written := [(⟨-2, "b"⟩, .ofInt 5), seven, (⟨-2, "b"⟩, .ofInt 6), eight]
    let sorted := [(⟨-2, "b"⟩, .ofInt 6), eight, seven]
    (ofEntries written).dump = sorted ∧ (ofEntries sorted).dump = sorted ∧
      ofEntries written = ofEntries sorted ∧
      (ofEntries (ofEntries written).dump).Agree Binary64.SameValue (ofEntries written) := by
  intro seven eight written sorted
  have hsorted : Ascends sorted := by decide +kernel
  have hlast : ∀ a x, (a, x) ∈ sorted ↔ LastWith (EntryFor a) written x := by
    intro a x
    have hwritten : written = [] ++ [(⟨-2, "b"⟩, .ofInt 5)] ++ [seven] ++
        [(⟨-2, "b"⟩, .ofInt 6)] ++ [eight] := rfl
    simp only [hwritten, lastWith_concat, lastWith_nil, EntryFor, sorted]
    grind
  have hnumbers : ∀ a x, (ofEntries written).lookup? a = some x → x.isNaN = false := by
    intro a x hx
    have hall : ∀ entry ∈ sorted, entry.2.isNaN = false := by decide +kernel
    rw [lookup?_ofEntries, ← hlast] at hx
    exact hall (a, x) hx
  obtain ⟨⟨_, _, _, _, hagree⟩, ⟨_, _, hunique⟩, hsame, _, _⟩ :=
    dump_canonical (ofEntries written) written sorted
  have hdump := hunique sorted hsorted hlast
  have hself := (dump_canonical (ofEntries sorted) sorted sorted).2.2.2.2 hsorted
  exact ⟨hdump, hself, hsame.mpr (hdump.trans hself.symm), hagree hnumbers⟩

end Snapshot
end MetricFormula
