import MetricFormula.Json.Reader
import MetricFormula.Proofs.Json.Nesting

/-! # What the reader gives

The reader gives documents whose numbers are integers of 64 bits and finite doubles, and in which
no more arrays and objects are nested than it has room for (`Json.admitted_of_readBytes?`). -/

namespace MetricFormula.Json

/-- Integers have 64 bits, and other numbers are finite doubles. -/
inductive Representable : Json → Prop where
  | null : Representable null
  | bool (b : Bool) : Representable (bool b)
  | int {n : Int} : FitsWord n → Representable (int n)
  | float {x : Binary64} : x.isFinite → Representable (float x)
  | string (s : String) : Representable (string s)
  | array {items : List Json} : (∀ j ∈ items, Representable j) → Representable (array items)
  | object {members : List (String × Json)} :
    (∀ m ∈ members, Representable m.2) → Representable (object members)
  | unusable : Representable unusable

/-- A document for whose arrays and objects there is room. -/
structure Admitted (room : Nat) (j : Json) : Prop where
  representable : j.Representable
  depth_le : j.depth ≤ room

variable {room : Nat} {ss : List Symbol} {cs : List Char} {j : Json} {first : Bool}

namespace Admitted

theorem unusable : Admitted room .unusable := ⟨.unusable, Nat.zero_le _⟩

theorem array {items : List Json} (h : ∀ j ∈ items, Admitted room j) :
    Admitted (room + 1) (.array items) where
  representable := .array fun j hj => (h j hj).representable
  depth_le := depth_array_le.mpr ⟨room, rfl, fun j hj => (h j hj).depth_le⟩

theorem object {members : List (String × Json)} (h : ∀ m ∈ members, Admitted room m.2) :
    Admitted (room + 1) (.object members) where
  representable := .object fun m hm => (h m hm).representable
  depth_le := depth_object_le.mpr ⟨room, rfl, fun m hm => (h m hm).depth_le⟩

theorem exists_items {items : List Json} (h : Admitted room (.array items)) :
    ∃ n, room = n + 1 ∧ ∀ j ∈ items, Admitted n j := by
  obtain ⟨hrepresentable, hdepth⟩ := h
  obtain ⟨n, rfl, hitems⟩ := depth_array_le.mp hdepth
  cases hrepresentable with
  | array h => exact ⟨n, rfl, fun j hj => ⟨h j hj, hitems j hj⟩⟩

theorem exists_members {members : List (String × Json)} (h : Admitted room (.object members)) :
    ∃ n, room = n + 1 ∧ ∀ m ∈ members, Admitted n m.2 := by
  obtain ⟨hrepresentable, hdepth⟩ := h
  obtain ⟨n, rfl, hmembers⟩ := depth_object_le.mp hdepth
  cases hrepresentable with
  | object h => exact ⟨n, rfl, fun m hm => ⟨h m hm, hmembers m hm⟩⟩

end Admitted

/-! ## Numbers and words -/

theorem admitted_of_numberOfParts? {negative : Bool} (h : numberOfParts? negative cs = some j) :
    Admitted room j := by
  unfold numberOfParts? at h
  generalize (if negative then -(digitsValue cs : Int) else digitsValue cs) = n at h
  dsimp only at h
  split at h
  · rename_i hn
    simp only [Bool.and_eq_true, decide_eq_true_eq] at hn
    obtain rfl := Option.some.inj h
    exact ⟨.int hn.1.2, Nat.zero_le _⟩
  · obtain ⟨d, _, rfl⟩ := Option.map_eq_some_iff.mp h
    split
    · rename_i hx
      exact ⟨.float hx, Nat.zero_le _⟩
    · exact .unusable

theorem admitted_of_numberOfText? (h : numberOfText? cs = some j) : Admitted room j := by
  unfold numberOfText? at h
  dsimp only at h
  split at h <;> exact admitted_of_numberOfParts? (Option.ite_none_right_eq_some.mp h).2

theorem admitted_of_scalarOfText? (h : scalarOfText? cs = some j) : Admitted room j := by
  rw [scalarOfText?] at h
  split at h
  · obtain rfl := Option.some.inj h
    exact ⟨.null, Nat.zero_le _⟩
  · split at h
    · obtain rfl := Option.some.inj h
      exact ⟨.bool true, Nat.zero_le _⟩
    · split at h
      · obtain rfl := Option.some.inj h
        exact ⟨.bool false, Nat.zero_le _⟩
      · exact admitted_of_numberOfText? h

/-! ## Steps of the reader -/

/-- What a value can be. -/
theorem readValue?_cases {t : Taken ss Json} (h : readValue? room ss = some t) :
    (∀ n, Admitted n t.value) ∨ ∃ n ds, room = n + 1 ∧ ds.length < ss.length ∧
      ((∃ u, readItems? n true ds = some u ∧ t.value = .array u.value) ∨
        ∃ u ms, readMembers? n true ds = some u ∧ u.value = some ms ∧ t.value = .object ms) := by
  rw [readValue?] at h
  obtain ⟨⟨c, ds, hds⟩, _, h⟩ := Option.bind_eq_some_iff.mp h
  dsimp only at h
  split at h
  · obtain ⟨u, hu, h⟩ := Option.bind_eq_some_iff.mp h
    obtain rfl := Option.some.inj h
    refine .inl fun n => ?_
    show Admitted n ((u.value.map Json.string).getD .unusable)
    cases u.value with
    | none => exact .unusable
    | some s => exact ⟨.string s, Nat.zero_le _⟩
  · obtain ⟨u, hu, h⟩ := Option.bind_eq_some_iff.mp h
    obtain rfl := Option.some.inj h
    cases room with
    | zero => exact .inl fun _ => .unusable
    | succ n => exact .inr ⟨n, ds, rfl, hds, .inl ⟨u, hu, rfl⟩⟩
  · obtain ⟨u, hu, h⟩ := Option.bind_eq_some_iff.mp h
    obtain rfl := Option.some.inj h
    cases room with
    | zero => exact .inl fun _ => .unusable
    | succ n =>
      have hvalue : ∀ ms, u.value = ms →
          ((u.map fun ms : Option _ => if n + 1 = 0 then Json.unusable
            else (ms.map Json.object).getD .unusable).widen (Nat.le_of_lt hds)).value =
          (ms.map Json.object).getD .unusable := by
        rintro _ rfl
        rfl
      cases hms : u.value with
      | none => exact .inl fun _ => hvalue _ hms ▸ .unusable
      | some ms => exact .inr ⟨n, ds, rfl, hds, .inr ⟨u, ms, hu, hms, hvalue _ hms⟩⟩
  · obtain ⟨j, hj, h⟩ := Option.bind_eq_some_iff.mp h
    obtain rfl := Option.some.inj h
    exact .inl fun _ => admitted_of_scalarOfText? hj

/-- Each item is a value, or an item of a shorter text. -/
theorem readItems?_cases {t : Taken ss (List Json)} (h : readItems? room first ss = some t) :
    t.value = [] ∨ ∃ u, readValue? room ss = some u ∧ (t.value = [u.value] ∨
      ∃ ds v, ds.length < ss.length ∧ readItems? room false ds = some v ∧
        t.value = u.value :: v.value) := by
  rw [readItems?] at h
  obtain ⟨⟨c, ds, hds⟩, _, h⟩ := Option.bind_eq_some_iff.mp h
  dsimp only at h
  split at h
  · obtain rfl := Option.some.inj h
    exact .inl rfl
  · obtain ⟨u, hu, h⟩ := Option.bind_eq_some_iff.mp h
    obtain ⟨⟨c, es, hes⟩, _, h⟩ := Option.bind_eq_some_iff.mp h
    dsimp only at h
    split at h
    · obtain rfl := Option.some.inj h
      exact .inr ⟨u, hu, .inl rfl⟩
    · obtain ⟨v, hv, h⟩ := Option.bind_eq_some_iff.mp h
      obtain rfl := Option.some.inj h
      exact .inr ⟨u, hu, .inr ⟨es, v, Nat.lt_trans hes u.shorter, hv, rfl⟩⟩
    · cases h

theorem readMembers?_cases {t : Taken ss (Option (List (String × Json)))}
    {ms : List (String × Json)} (h : readMembers? room first ss = some t)
    (hms : t.value = some ms) :
    ms = [] ∨ ∃ key ds u, ds.length < ss.length ∧ readValue? room ds = some u ∧
      (ms = [(key, u.value)] ∨ ∃ es v ms', es.length < ss.length ∧
        readMembers? room false es = some v ∧ v.value = some ms' ∧
        ms = (key, u.value) :: ms') := by
  rw [readMembers?] at h
  obtain ⟨⟨c, ds, hds⟩, _, h⟩ := Option.bind_eq_some_iff.mp h
  dsimp only at h
  split at h
  · split at h
    · obtain rfl := Option.some.inj h
      obtain rfl := Option.some.inj hms
      exact .inl rfl
    · cases h
  · obtain ⟨key, hkey, h⟩ := Option.bind_eq_some_iff.mp h
    obtain ⟨_, _, h⟩ := Option.bind_eq_some_iff.mp h
    split at h
    · rename_i es hes _
      obtain ⟨u, hu, h⟩ := Option.bind_eq_some_iff.mp h
      obtain ⟨⟨c, fs, hfs⟩, _, h⟩ := Option.bind_eq_some_iff.mp h
      have hes : es.length < ss.length := Nat.lt_trans hes (Nat.lt_trans key.shorter hds)
      dsimp only at h
      split at h
      · obtain rfl := Option.some.inj h
        obtain ⟨_, hmember, rfl⟩ := Option.map_eq_some_iff.mp hms
        obtain ⟨key, _, rfl⟩ := Option.map_eq_some_iff.mp hmember
        exact .inr ⟨key, es, u, hes, hu, .inl rfl⟩
      · obtain ⟨v, hv, h⟩ := Option.bind_eq_some_iff.mp h
        obtain rfl := Option.some.inj h
        obtain ⟨_, hmember, hms⟩ := Option.bind_eq_some_iff.mp hms
        obtain ⟨key, _, rfl⟩ := Option.map_eq_some_iff.mp hmember
        obtain ⟨ms', hms', hms⟩ := Option.bind_eq_some_iff.mp hms
        obtain rfl := Option.some.inj hms
        have hfs : fs.length < ss.length := Nat.lt_trans hfs (Nat.lt_trans u.shorter hes)
        exact .inr ⟨key, es, u, hes, hu, .inr ⟨fs, v, ms', hfs, hv, hms', rfl⟩⟩
      · cases h
    · cases h
  · cases h

/-! ## Whole documents -/

/-- Whatever is read from the symbols, and from symbols behind them, is admitted. -/
theorem admitted_of_reads (ss : List Symbol) :
    (∀ room t, readValue? room ss = some t → Admitted room t.value) ∧
    (∀ room first t, readItems? room first ss = some t → ∀ j ∈ t.value, Admitted room j) ∧
    ∀ room first t ms, readMembers? room first ss = some t → t.value = some ms →
      ∀ m ∈ ms, Admitted room m.2 := by
  induction hlength : ss.length using Nat.strongRecOn generalizing ss with
  | _ n ih =>
    subst hlength
    have hvalue : ∀ room t, readValue? room ss = some t → Admitted room t.value := by
      intro room t h
      rcases readValue?_cases h with h | ⟨n, ds, rfl, hds, ⟨u, hu, hj⟩ | ⟨u, ms, hu, hms, hj⟩⟩
      · exact h room
      · rw [hj]
        exact .array ((ih _ hds ds rfl).2.1 n true u hu)
      · rw [hj]
        exact .object ((ih _ hds ds rfl).2.2 n true u ms hu hms)
    refine ⟨hvalue, fun room first t h => ?_, fun room first t ms h hms => ?_⟩
    · rcases readItems?_cases h with hj | ⟨u, hu, hj | ⟨ds, v, hds, hv, hj⟩⟩
      · rw [hj]
        exact List.forall_mem_nil _
      · rw [hj]
        exact List.forall_mem_singleton.mpr (hvalue room u hu)
      · rw [hj]
        exact List.forall_mem_cons.mpr ⟨hvalue room u hu, (ih _ hds ds rfl).2.1 room false v hv⟩
    · rcases readMembers?_cases h hms with
        rfl | ⟨key, ds, u, hds, hu, rfl | ⟨es, v, ms, hes, hv, hv', rfl⟩⟩
      · exact List.forall_mem_nil _
      · exact List.forall_mem_singleton.mpr ((ih _ hds ds rfl).1 room u hu)
      · exact List.forall_mem_cons.mpr ⟨(ih _ hds ds rfl).1 room u hu,
          (ih _ hes es rfl).2.2 room false v ms hv hv'⟩

/-- A document that is read has no number that is not an integer of 64 bits or a finite double, and
is nested no deeper than the limit. -/
theorem admitted_of_readBytes? {bytes : ByteArray} (h : readBytes? bytes = some j) :
    Admitted nestingLimit j := by
  obtain ⟨t, ht, h⟩ := Option.bind_eq_some_iff.mp h
  obtain rfl := Option.some.inj (Option.ite_none_right_eq_some.mp h).2
  exact (admitted_of_reads _).1 _ t ht

end MetricFormula.Json
