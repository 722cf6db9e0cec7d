import Mathlib.Data.List.Induction
import Mathlib.Data.List.Nodup
import MetricFormula.Report.Document

/-! # Who wrote a number last

A snapshot is filled by several sources that replace what earlier ones wrote: repeated siblings,
repeated fields within a sibling, and the entries that a document lists. Whatever the sources,
a number is found where it was written last, and fields without a number write nothing. -/

namespace MetricFormula

section LastWith

variable {α β : Type} {R : α → β → Prop} {l : List α} {a : α} {b : β}

/-- The last item of the list that gives anything gives `b`. -/
def LastWith (R : α → β → Prop) (l : List α) (b : β) : Prop :=
  ∃ before a after, l = before ++ a :: after ∧ R a b ∧ ∀ later ∈ after, ∀ c, ¬R later c

theorem lastWith_nil : ¬LastWith R [] b := by
  rintro ⟨before, a, after, h, _⟩
  simp at h

theorem lastWith_concat : LastWith R (l ++ [a]) b ↔ R a b ∨ (∀ c, ¬R a c) ∧ LastWith R l b := by
  constructor
  · rintro ⟨before, a', after, h, hgives, hafter⟩
    rcases List.eq_nil_or_concat after with rfl | ⟨after, last, rfl⟩
    · obtain ⟨_, hlast⟩ := List.append_inj' h rfl
      cases hlast
      exact .inl hgives
    · rw [List.concat_eq_append] at h hafter
      rw [← List.cons_append, ← List.append_assoc] at h
      obtain ⟨rfl, hlast⟩ := List.append_inj' h rfl
      cases hlast
      exact .inr ⟨hafter a (by simp), before, a', after, rfl, hgives,
        fun later h => hafter later (List.mem_append_left _ h)⟩
  · rintro (hgives | ⟨hnothing, before, a', after, rfl, hgives, hafter⟩)
    · exact ⟨l, a, [], rfl, hgives, nofun⟩
    · refine ⟨before, a', after ++ [a], by simp, hgives, fun later h => ?_⟩
      rcases List.mem_append.mp h with h | h
      · exact hafter later h
      · rwa [List.mem_singleton.mp h]

theorem LastWith.exists_mem (h : LastWith R l b) : ∃ a ∈ l, R a b := by
  obtain ⟨before, a, after, rfl, hgives, _⟩ := h
  exact ⟨a, by simp, hgives⟩

theorem exists_lastWith (ha : a ∈ l) (h : R a b) : ∃ c, LastWith R l c := by
  induction l using List.reverseRecOn with
  | nil => nomatch ha
  | append_singleton l last ih =>
    by_cases hlast : ∃ c, R last c
    · obtain ⟨c, hc⟩ := hlast
      exact ⟨c, lastWith_concat.mpr (.inl hc)⟩
    · rw [not_exists] at hlast
      rcases List.mem_append.mp ha with ha | ha
      · obtain ⟨c, hc⟩ := ih ha
        exact ⟨c, lastWith_concat.mpr (.inr ⟨hlast, hc⟩)⟩
      · rw [List.mem_singleton.mp ha] at h
        exact absurd h (hlast b)

/-- Where all items that give anything give the same, it does not matter which is the last. -/
theorem lastWith_iff_exists_mem
    (h : ∀ a ∈ l, ∀ a' ∈ l, ∀ b b', R a b → R a' b' → b = b') :
    LastWith R l b ↔ ∃ a ∈ l, R a b := by
  refine ⟨LastWith.exists_mem, fun ⟨a, ha, hb⟩ => ?_⟩
  obtain ⟨c, hc⟩ := exists_lastWith ha hb
  obtain ⟨a', ha', hc'⟩ := hc.exists_mem
  rwa [h a ha a' ha' b c hb hc']

end LastWith

/-! ## Entries -/

/-- The entry is one for the address, with that number. -/
def EntryFor (a : Address) (entry : Address × Binary64) (x : Binary64) : Prop := entry = (a, x)

namespace Snapshot

variable {s : Snapshot} {entries : List (Address × Binary64)} {a : Address} {x : Binary64}

theorem insertAll_append (more : List (Address × Binary64)) :
    s.insertAll (entries ++ more) = (s.insertAll entries).insertAll more := List.foldl_append

/-- One entry more replaces the number at its address, and no other. -/
theorem lookup?_insertAll_singleton (entry : Address × Binary64) :
    (s.insertAll [entry]).lookup? a = some x ↔
      EntryFor a entry x ∨ (∀ y, ¬EntryFor a entry y) ∧ s.lookup? a = some x := by
  obtain ⟨b, y⟩ := entry
  have hinsert : (s.insertAll [(b, y)]).lookup? a = if b = a then some y else s.lookup? a :=
    lookup?_insert s b a y
  rw [hinsert]
  by_cases hb : b = a <;> simp [EntryFor, hb]

/-- The last entry for an address replaces all others, and what was there before. -/
theorem lookup?_insertAll :
    (s.insertAll entries).lookup? a = some x ↔
      LastWith (EntryFor a) entries x ∨
        (∀ entry ∈ entries, ∀ y, ¬EntryFor a entry y) ∧ s.lookup? a = some x := by
  induction entries using List.reverseRecOn with
  | nil => simp [insertAll, lastWith_nil]
  | append_singleton entries entry ih =>
    rw [insertAll_append, lookup?_insertAll_singleton, lastWith_concat, ih]
    simp only [List.forall_mem_append, List.forall_mem_singleton]
    tauto

theorem lookup?_ofEntries :
    (ofEntries entries).lookup? a = some x ↔ LastWith (EntryFor a) entries x := by
  simp [ofEntries, lookup?_insertAll, lookup?_empty]

/-- What is inserted from a list without two numbers for one address is what is in the list. -/
theorem lookup?_insertAll_of_functional (h : ∀ y z, (a, y) ∈ entries → (a, z) ∈ entries → y = z) :
    (s.insertAll entries).lookup? a = some x ↔
      (a, x) ∈ entries ∨ (∀ y, (a, y) ∉ entries) ∧ s.lookup? a = some x := by
  have hlast : LastWith (EntryFor a) entries x ↔ (a, x) ∈ entries := by
    rw [lastWith_iff_exists_mem]
    · simp [EntryFor]
    · rintro _ hy _ hz y z rfl rfl
      exact h y z hy hz
  simp only [lookup?_insertAll, hlast, EntryFor]
  grind

end Snapshot

/-! ## Siblings -/

/-- The sibling declares the field at an address as a number or a formula, and stores a number for
it. -/
structure Sibling.Holds (s : Sibling) (a : Address) (x : Binary64) : Prop where
  id : s.id = a.entity
  declared : ∃ f ∈ s.fields, f.key = a.field ∧ (f.kind = .number ∨ ∃ e, f.kind = .formula e)
  stored : s.numbers[a.field]? = some (some x)

theorem Sibling.Holds.unique {s : Sibling} {a : Address} {x y : Binary64} (hx : s.Holds a x)
    (hy : s.Holds a y) : x = y := by
  simpa using hx.stored.symm.trans hy.stored

theorem FieldKind.isShared_iff (k : FieldKind) :
    k.isShared ↔ k = .number ∨ ∃ e, k = .formula e := by
  cases k <;> simp [isShared]

/-- The sibling is another entity than the current one, and holds the number. -/
def Sibling.Offers (current : Int64) (a : Address) (s : Sibling) (x : Binary64) : Prop :=
  s.id ≠ current ∧ s.Holds a x

namespace Snapshot

variable {s : Sibling} {siblings : List Sibling} {current : Int64} {a : Address} {x : Binary64}

theorem mem_entriesOf : (a, x) ∈ entriesOf s ↔ s.Holds a x := by
  obtain ⟨entity, key⟩ := a
  simp only [entriesOf, List.mem_filterMap, Option.ite_none_right_eq_some, Option.map_eq_some_iff,
    Option.join_eq_some_iff, Prod.mk.injEq, Address.mk.injEq, FieldKind.isShared_iff]
  constructor
  · rintro ⟨f, hf, hkind, y, hy, ⟨rfl, rfl⟩, rfl⟩
    exact ⟨rfl, ⟨f, hf, rfl, hkind⟩, hy⟩
  · rintro ⟨rfl, ⟨f, hf, rfl, hkind⟩, hx⟩
    exact ⟨f, hf, hkind, x, hx, ⟨rfl, rfl⟩, rfl⟩

/-- One sibling more replaces what it holds, and nothing else. -/
theorem lookup?_ofSiblings_concat :
    (ofSiblings current (siblings ++ [s])).lookup? a = some x ↔
      s.Offers current a x ∨
        (∀ y, ¬s.Offers current a y) ∧ (ofSiblings current siblings).lookup? a = some x := by
  by_cases hid : s.id = current
  · simp [ofSiblings, Sibling.Offers, hid]
  · have hentries : ofSiblings current (siblings ++ [s]) =
        (ofSiblings current siblings).insertAll (entriesOf s) := by
      simp [ofSiblings, ofEntries, hid, insertAll_append]
    rw [hentries, lookup?_insertAll_of_functional]
    · simp [mem_entriesOf, Sibling.Offers, hid]
    · intro y z hy hz
      exact (mem_entriesOf.mp hy).unique (mem_entriesOf.mp hz)

theorem lookup?_ofSiblings :
    (ofSiblings current siblings).lookup? a = some x ↔
      LastWith (Sibling.Offers current a) siblings x := by
  induction siblings using List.reverseRecOn with
  | nil => simp [ofSiblings, lookup?_ofEntries, lastWith_nil]
  | append_singleton siblings s ih => rw [lookup?_ofSiblings_concat, lastWith_concat, ih]

/-- Siblings with ids of their own may come in any order. -/
theorem ofSiblings_perm {siblings' : List Sibling} (hperm : siblings.Perm siblings')
    (hids : (siblings.map (·.id)).Nodup) :
    ofSiblings current siblings' = ofSiblings current siblings := by
  have hmem {l : List Sibling} (hids : (l.map (·.id)).Nodup) (a : Address) (x : Binary64) :
      (ofSiblings current l).lookup? a = some x ↔ ∃ s ∈ l, s.Offers current a x := by
    rw [lookup?_ofSiblings, lastWith_iff_exists_mem]
    intro s hs s' hs' y z hy hz
    obtain rfl := List.inj_on_of_nodup_map hids hs hs' (hy.2.id.trans hz.2.id.symm)
    exact hy.2.unique hz.2
  refine ext_lookup? fun a => Option.ext fun x => ?_
  rw [hmem hids, hmem ((hperm.map _).nodup_iff.mp hids)]
  simp only [hperm.mem_iff]

end Snapshot

/-! ## Documents -/

theorem Document.lookup?_snapshot (d : Document) (a : Address) (x : Binary64) :
    let stored := (Snapshot.ofSiblings d.entity.id d.siblings).lookup? a
    d.snapshot.lookup? a = some x ↔
      stored = some x ∨ stored = none ∧ LastWith (EntryFor a) d.listed x := by
  intro stored
  rw [Document.snapshot, Snapshot.lookup?_insertAll_of_functional, Snapshot.lookup?_ofEntries]
  · simp only [Snapshot.mem_dump, Option.eq_none_iff_forall_ne_some, stored]
  · intro y z hy hz
    exact Option.some.inj ((Snapshot.mem_dump.mp hy).symm.trans (Snapshot.mem_dump.mp hz))

/-- Siblings give at an address what the last of them that holds a number there stores, whatever
others of them declare without a number. The snapshot that a document is evaluated with holds
what its siblings give, and the last of the listed entries where they give nothing. -/
theorem Snapshot.written_last (current : Int64) (siblings : List Sibling) :
    (∀ a x, (ofSiblings current siblings).lookup? a = some x ↔
      LastWith (Sibling.Offers current a) siblings x) ∧
    (∀ a, (ofSiblings current siblings).lookup? a = none ↔
      ∀ s ∈ siblings, ∀ x, ¬s.Offers current a x) ∧
    (∀ siblings', siblings.Perm siblings' → (siblings.map (·.id)).Nodup →
      ofSiblings current siblings' = ofSiblings current siblings) ∧
    ∀ d : Document, ∃ m : Snapshot,
      (∀ policy, d.outcomes policy = outcomes policy m d.entity.values d.entity.fields) ∧
      ∀ a x, let stored := (ofSiblings d.entity.id d.siblings).lookup? a
        m.lookup? a = some x ↔
          stored = some x ∨ stored = none ∧ LastWith (EntryFor a) d.listed x := by
  refine ⟨fun _ _ => lookup?_ofSiblings, fun a => ?_, fun _ => ofSiblings_perm, fun d =>
    ⟨d.snapshot, fun _ => rfl, d.lookup?_snapshot⟩⟩
  simp only [Option.eq_none_iff_forall_ne_some, ne_eq, lookup?_ofSiblings]
  constructor
  · intro h s hs x hx
    obtain ⟨y, hy⟩ := exists_lastWith hs hx
    exact h y hy
  · intro h x hx
    obtain ⟨s, hs, hoffers⟩ := hx.exists_mem
    exact h s hs x hoffers

/-- A sibling that comes again without a number takes nothing back. -/
theorem Snapshot.written_last_again :
    let stored : Sibling := ⟨2, [⟨"k", .number⟩], .ofList [("k", some (Binary64.ofInt 5))]⟩
    let again : Sibling := ⟨2, [⟨"k", .formula "a"⟩], .ofList [("k", none)]⟩
    let other : Sibling := ⟨3, [⟨"k", .number⟩], .ofList [("k", some (Binary64.ofInt 7))]⟩
    (ofSiblings 1 [stored, again, other]).lookup? ⟨2, "k"⟩ = some (.ofInt 5) ∧
      ofSiblings 1 [other, stored] = ofSiblings 1 [stored, other] := by
  intro stored again other
  have hstored : stored.Offers 1 ⟨2, "k"⟩ (.ofInt 5) := by
    refine ⟨by decide, rfl, ⟨⟨"k", .number⟩, by simp [stored], rfl, .inl rfl⟩, ?_⟩
    simp [stored]
  have hagain : ∀ x, ¬again.Offers 1 ⟨2, "k"⟩ x := by
    rintro x ⟨_, _, _, h⟩
    simp [again] at h
  have hother : ∀ x, ¬other.Offers 1 ⟨2, "k"⟩ x := by
    rintro x ⟨_, h, _⟩
    exact absurd h (by decide)
  obtain ⟨hlast, _, hperm, _⟩ := written_last 1 [stored, again, other]
  constructor
  · refine (hlast _ _).mpr ⟨[], stored, [again, other], rfl, hstored, fun later h => ?_⟩
    simp only [List.mem_cons, List.not_mem_nil, or_false] at h
    rcases h with rfl | rfl
    · exact hagain
    · exact hother
  · exact (written_last 1 [stored, other]).2.2.1 _ (.swap ..) (by decide)

end MetricFormula
