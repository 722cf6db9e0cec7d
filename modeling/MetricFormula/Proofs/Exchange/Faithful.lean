import MetricFormula.Exchange.Codec
import MetricFormula.Proofs.Binary64.Range
import MetricFormula.Proofs.Json.Admission
import MetricFormula.Proofs.Json.Normalization

/-! # Faithful coding

An encoder and a decoder are faithful to data of some kind if decoding undoes encoding and, the
other way round, nothing but data of that kind is decoded, which takes no more nesting to encode
than its document had. The building blocks of encoders and decoders are faithful to what their parts
are faithful to. -/

namespace MetricFormula.Json

variable {α : Type} {encode : α → Json} {decode : Json → Option α} {P : α → Prop}
  {levels room : Nat} {a : α} {key : String} {members : List (String × Json)}

/-- Coding that loses nothing of the data with a property. The levels are those that an encoding
has even where a document did without, say because it left something out. -/
structure Faithful (encode : α → Json) (decode : Json → Option α) (P : α → Prop)
    (levels : Nat) : Prop where
  wellFormed : ∀ a, (encode a).WellFormed
  decode_encode : ∀ {a}, P a → decode (encode a) = some a
  of_decode : ∀ {room j a}, Admitted room j → levels ≤ room → decode j = some a →
    P a ∧ (encode a).depth ≤ room

/-! ## Lists -/

theorem mapM_map_eq {β γ δ : Type} {f : γ → Option δ} {g : β → γ} {k : β → δ} {l : List β}
    (h : ∀ b ∈ l, f (g b) = some (k b)) : (l.map g).mapM f = some (l.map k) := by
  induction l with
  | nil => rfl
  | cons b l ih =>
    obtain ⟨hb, hl⟩ := List.forall_mem_cons.mp h
    rw [List.map_cons, List.mapM_cons, hb, ih hl]
    rfl

theorem exists_of_mem_mapM {β γ : Type} {f : γ → Option β} {cs : List γ} {bs : List β}
    (h : cs.mapM f = some bs) : ∀ b ∈ bs, ∃ c ∈ cs, f c = some b := by
  induction cs generalizing bs with
  | nil =>
    obtain rfl := Option.some.inj h
    exact nofun
  | cons c cs ih =>
    rw [List.mapM_cons] at h
    obtain ⟨b, hb, h⟩ := Option.bind_eq_some_iff.mp h
    obtain ⟨bs, hbs, h⟩ := Option.bind_eq_some_iff.mp h
    obtain rfl := Option.some.inj h
    refine List.forall_mem_cons.mpr ⟨⟨c, .head _, hb⟩, fun b hb => ?_⟩
    obtain ⟨c', hc', hb⟩ := ih hbs b hb
    exact ⟨c', .tail _ hc', hb⟩

/-! ## Parts of documents -/

theorem members?_eq_some {j : Json} {ms : List (String × Json)} :
    j.members? = some ms ↔ j = .object ms := by
  cases j <;> simp [members?]

/-- What is decoded from the members of a document is decoded from members admitted with one level
less. -/
theorem Admitted.exists_of_members? {j : Json} {read : List (String × Json) → Option α}
    (hj : Admitted room j) (h : j.members?.bind read = some a) :
    ∃ n ms, room = n + 1 ∧ (∀ m ∈ ms, Admitted n m.2) ∧ read ms = some a := by
  obtain ⟨ms, hms, h⟩ := Option.bind_eq_some_iff.mp h
  obtain rfl := members?_eq_some.mp hms
  obtain ⟨n, rfl, hadmitted⟩ := hj.exists_members
  exact ⟨n, ms, rfl, hadmitted, h⟩

/-- So it is for a record, whether that is an object or an array. -/
theorem Admitted.exists_of_fields? {j : Json} {fields : List String}
    {read : List (String × Json) → Option α} (hj : Admitted room j)
    (h : (j.fields? fields).bind read = some a) :
    ∃ n ms, room = n + 1 ∧ (∀ m ∈ ms, Admitted n m.2) ∧ read ms = some a := by
  obtain ⟨ms, hms, h⟩ := Option.bind_eq_some_iff.mp h
  cases j with
  | object members =>
    obtain rfl := Option.some.inj hms
    obtain ⟨n, rfl, hadmitted⟩ := hj.exists_members
    exact ⟨n, members, rfl, hadmitted, h⟩
  | array items =>
    obtain rfl := Option.some.inj (Option.ite_none_right_eq_some.mp hms).2
    obtain ⟨n, rfl, hadmitted⟩ := hj.exists_items
    exact ⟨n, _, rfl, fun m hm => hadmitted m.2 (List.of_mem_zip hm).2, h⟩
  | _ => cases hms

theorem mem_of_valuesOf {j : Json} (h : j ∈ valuesOf members key) : (key, j) ∈ members := by
  obtain ⟨⟨k, j'⟩, hm, h⟩ := List.mem_filterMap.mp h
  obtain ⟨rfl, hj⟩ := Option.ite_none_right_eq_some.mp h
  obtain rfl := Option.some.inj hj
  exact hm

theorem exists_of_required? (h : required? members key decode = some a) :
    ∃ j, (key, j) ∈ members ∧ decode j = some a := by
  unfold required? at h
  split at h
  · rename_i j hj
    exact ⟨j, mem_of_valuesOf (by rw [hj]; exact .head _), h⟩
  · cases h

theorem exists_of_optional? {default : α} (h : optional? members key decode default = some a) :
    a = default ∨ ∃ j, (key, j) ∈ members ∧ decode j = some a := by
  unfold optional? at h
  split at h
  · exact .inl (Option.some.inj h).symm
  · rename_i j hj
    exact .inr ⟨j, mem_of_valuesOf (by rw [hj]; exact .head _), h⟩
  · cases h

/-- Where the keys of an object are distinct there is one value for each. -/
theorem valuesOf_eq {j : Json} (h : (members.map Prod.fst).Nodup) (hj : (key, j) ∈ members) :
    valuesOf members key = [j] := by
  induction members with
  | nil => cases hj
  | cons m ms ih =>
    obtain ⟨hm, hms⟩ := List.nodup_cons.mp h
    rw [valuesOf, List.filterMap_cons]
    rcases List.mem_cons.mp hj with rfl | hj
    · have hnone : ms.filterMap (fun m => if m.1 = key then some m.2 else none) = [] := by
        refine List.filterMap_eq_nil_iff.mpr fun m hmem => if_neg ?_
        rintro rfl
        exact hm (List.mem_map.mpr ⟨m, hmem, rfl⟩)
      simp [hnone]
    · have hne : m.1 ≠ key := by
        rintro rfl
        exact hm (List.mem_map.mpr ⟨_, hj, rfl⟩)
      rw [if_neg hne]
      exact ih hms hj

/-! ## Lists and maps of parts that are read from their own documents -/

section
variable {β : Type} {decode : Json → Option β} {f : α → β}

theorem list?_ofList {l : List α} (h : ∀ a ∈ l, decode (encode a) = some (f a)) :
    list? decode (ofList encode l) = some (l.map f) := mapM_map_eq h

/-- In whatever order the entries of a map are written, the map is read. -/
theorem map?_ofMap (order : EntryOrder) {m : Std.ExtTreeMap String α}
    (h : ∀ (key : String) a, m[key]? = some a → decode (encode a) = some (f a)) :
    map? decode (ofMap order encode m) = some (m.map fun _ => f) := by
  have hentries : ((order.entries m).map fun entry => (entry.1, encode entry.2)).mapM
      (fun member => (decode member.2).map (member.1, ·)) =
      some ((order.entries m).map fun entry => (entry.1, f entry.2)) := by
    refine mapM_map_eq fun entry hentry => ?_
    rw [h entry.1 entry.2 ((order.mem_entries m).mp hentry), Option.map_some]
  exact Option.bind_eq_some_iff.mpr
    ⟨_, hentries, congrArg some (order.ofList_map_entries m f)⟩

end

/-! ## Building blocks -/

namespace Faithful

theorem string : Faithful .string string? (fun _ => True) 0 where
  wellFormed _ := .string _
  decode_encode _ := rfl
  of_decode {room j a} _ _ h := by
    cases j with
    | string s =>
      obtain rfl := Option.some.inj h
      exact ⟨trivial, Nat.zero_le _⟩
    | _ => cases h

theorem bool : Faithful .bool bool? (fun _ => True) 0 where
  wellFormed _ := .bool _
  decode_encode _ := rfl
  of_decode {room j a} _ _ h := by
    cases j with
    | bool b =>
      obtain rfl := Option.some.inj h
      exact ⟨trivial, Nat.zero_le _⟩
    | _ => cases h

theorem ofNumber_eq_float {x : Binary64} (hx : x.isFinite) : ofNumber x = .float x := if_pos hx

theorem depth_ofNumber (x : Binary64) : (ofNumber x).depth = 0 := by
  unfold ofNumber
  split <;> rfl

theorem isFinite_ofInt_of_fitsWord {n : Int} (h : FitsWord n) : (Binary64.ofInt n).isFinite := by
  obtain ⟨hmin, hmax⟩ := h
  rw [show Int64.minValue.toInt = -9223372036854775808 from rfl] at hmin
  rw [show UInt64.size = 18446744073709551616 from rfl] at hmax
  exact Binary64.isFinite_ofInt 64 (by omega) (by decide)

theorem number : Faithful ofNumber number? (fun x => x.isFinite) 0 where
  wellFormed x := by
    unfold ofNumber
    split
    · rename_i hx
      exact .float hx
    · exact .null
  decode_encode hx := by rw [ofNumber_eq_float hx]; rfl
  of_decode {room j a} hj _ h := by
    refine ⟨?_, depth_ofNumber a ▸ Nat.zero_le _⟩
    cases j with
    | int n =>
      obtain rfl := Option.some.inj h
      cases hj.representable with
      | int hn => exact isFinite_ofInt_of_fitsWord hn
    | float x =>
      obtain rfl := Option.some.inj h
      cases hj.representable with
      | float hx => exact hx
    | _ => cases h

theorem int64 : Faithful (fun n : Int64 => .int n.toInt) int64? (fun _ => True) 0 where
  wellFormed n := by
    refine .int ⟨n.minValue_le_toInt, Int.lt_of_le_of_lt n.toInt_le ?_⟩
    decide
  decode_encode {n} _ := by
    show (if _ then _ else _) = _
    rw [if_pos ⟨n.minValue_le_toInt, n.toInt_le⟩, Int64.ofInt_toInt]
  of_decode _ _ _ := ⟨trivial, Nat.zero_le _⟩

theorem uint64 : Faithful (fun n : UInt64 => .int n.toNat) uint64? (fun _ => True) 0 where
  wellFormed n := by
    have hmin : Int64.minValue.toInt ≤ 0 := by decide
    exact .int ⟨Int.le_trans hmin (Int.natCast_nonneg _), Int.ofNat_lt.mpr n.toNat_lt⟩
  decode_encode {n} _ := by
    have hbounds : 0 ≤ (n.toNat : Int) ∧ (n.toNat : Int) < UInt64.size :=
      ⟨Int.natCast_nonneg _, Int.ofNat_lt.mpr n.toNat_lt⟩
    rw [uint64?, if_pos hbounds, Int.toNat_natCast, UInt64.ofNat_toNat]
  of_decode _ _ _ := ⟨trivial, Nat.zero_le _⟩

theorem option (hf : Faithful encode decode P levels) (hnull : ∀ {a}, P a → encode a ≠ .null) :
    Faithful (ofOption encode) (option? decode) (fun o => ∀ a ∈ o, P a) levels where
  wellFormed o := by
    cases o with
    | none => exact .null
    | some a => exact hf.wellFormed a
  decode_encode {o} ho := by
    cases o with
    | none => rfl
    | some a =>
      have hdecode := hf.decode_encode (ho a rfl)
      rw [ofOption, option?, hdecode]
      · rfl
      · exact hnull (ho a rfl)
  of_decode {room j o} hj hlevels h := by
    unfold option? at h
    split at h
    · obtain rfl := Option.some.inj h
      exact ⟨nofun, Nat.zero_le _⟩
    · obtain ⟨a, ha, rfl⟩ := Option.map_eq_some_iff.mp h
      obtain ⟨hP, hdepth⟩ := hf.of_decode hj hlevels ha
      exact ⟨by rintro _ ⟨⟩; exact hP, hdepth⟩

theorem optionalNumber :
    Faithful (ofOption ofNumber) (option? number?) (fun o => ∀ x ∈ o, x.isFinite) 0 :=
  number.option fun hx h => by
    rw [ofNumber_eq_float hx] at h
    cases h

theorem list (hf : Faithful encode decode P levels) :
    Faithful (ofList encode) (list? decode) (fun l => ∀ a ∈ l, P a) (levels + 1) where
  wellFormed l := by
    refine .array fun j hj => ?_
    obtain ⟨a, _, rfl⟩ := List.mem_map.mp hj
    exact hf.wellFormed a
  decode_encode {l} hl := by
    have h := list?_ofList fun a ha => hf.decode_encode (hl a ha)
    rwa [List.map_id'] at h
  of_decode {room j l} hj hlevels h := by
    cases j with
    | array items =>
      obtain ⟨n, rfl, hitems⟩ := hj.exists_items
      have hl : ∀ a ∈ l, P a ∧ (encode a).depth ≤ n := by
        intro a ha
        obtain ⟨j, hj, hdecode⟩ := exists_of_mem_mapM h a ha
        exact hf.of_decode (hitems j hj) (Nat.le_of_succ_le_succ hlevels) hdecode
      refine ⟨fun a ha => (hl a ha).1, depth_array_le.mpr ⟨n, rfl, fun j hj => ?_⟩⟩
      obtain ⟨a, ha, rfl⟩ := List.mem_map.mp hj
      exact (hl a ha).2
    | _ => cases h

theorem depth_ofMap_le {order : EntryOrder} {m : Std.ExtTreeMap String α} {n : Nat}
    (h : ∀ (key : String) a, m[key]? = some a → (encode a).depth ≤ n) :
    (ofMap order encode m).depth ≤ n + 1 := by
  refine depth_object_le.mpr ⟨n, rfl, fun member hmember => ?_⟩
  obtain ⟨⟨key, a⟩, ha, rfl⟩ := List.mem_map.mp hmember
  exact h key a ((order.mem_entries m).mp ha)

theorem map (hf : Faithful encode decode P levels) (order : EntryOrder) :
    Faithful (ofMap order encode) (map? decode)
      (fun m => ∀ (key : String) a, m[key]? = some a → P a) (levels + 1) where
  wellFormed m := by
    refine .object ?_ fun member hmember => ?_
    · rw [List.map_map]
      exact order.nodup_keys m
    · obtain ⟨⟨_, a⟩, _, rfl⟩ := List.mem_map.mp hmember
      exact hf.wellFormed a
  decode_encode {m} hm := by
    have h := map?_ofMap order fun key a ha => hf.decode_encode (hm key a ha)
    rwa [Std.ExtTreeMap.map_id] at h
  of_decode {room j m} hj hlevels h := by
    obtain ⟨n, members, rfl, hmembers, h⟩ := hj.exists_of_members? h
    obtain ⟨entries, hentries, h⟩ := Option.bind_eq_some_iff.mp h
    obtain rfl := Option.some.inj h
    have hm : ∀ (key : String) a, (Std.ExtTreeMap.ofList entries compare)[key]? = some a →
        P a ∧ (encode a).depth ≤ n := by
      intro key a ha
      obtain ⟨⟨_, j⟩, hj, h⟩ := exists_of_mem_mapM hentries _ (mem_of_getElem?_ofList ha)
      obtain ⟨_, hdecode, h⟩ := Option.map_eq_some_iff.mp h
      cases h
      exact hf.of_decode (hmembers _ hj) (Nat.le_of_succ_le_succ hlevels) hdecode
    exact ⟨fun key a ha => (hm key a ha).1, depth_ofMap_le fun key a ha => (hm key a ha).2⟩

theorem depth_ofMap_empty (order : EntryOrder) (encode : α → Json) (levels : Nat) :
    (ofMap order encode ∅).depth ≤ levels + 1 := depth_ofMap_le (by simp)

theorem map_empty {order : EntryOrder} :
    (∀ (key : String) a, (∅ : Std.ExtTreeMap String α)[key]? = some a → P a) ∧
      (ofMap order encode ∅).depth ≤ levels + 1 :=
  ⟨by simp, depth_ofMap_empty order encode levels⟩

/-- In an object that is well formed, what a member was encoded from is found under its key. -/
theorem required?_eq (hf : Faithful encode decode P levels) (h : (Json.object members).WellFormed)
    (ha : P a) (hmember : (key, encode a) ∈ members) :
    required? members key decode = some a := by
  cases h with
  | object hkeys _ =>
    rw [required?, valuesOf_eq hkeys hmember]
    exact hf.decode_encode ha

theorem optional?_eq (hf : Faithful encode decode P levels) (h : (Json.object members).WellFormed)
    (ha : P a) (hmember : (key, encode a) ∈ members) (default : α) :
    optional? members key decode default = some a := by
  cases h with
  | object hkeys _ =>
    rw [optional?, valuesOf_eq hkeys hmember]
    exact hf.decode_encode ha

theorem of_required? {n : Nat} (hf : Faithful encode decode P levels) (hlevels : levels ≤ n)
    (hmembers : ∀ m ∈ members, Admitted n m.2) (h : required? members key decode = some a) :
    P a ∧ (encode a).depth ≤ n := by
  obtain ⟨j, hj, h⟩ := exists_of_required? h
  exact hf.of_decode (hmembers _ hj) hlevels h

theorem of_optional? {n : Nat} {default : α} (hf : Faithful encode decode P levels)
    (hlevels : levels ≤ n) (hmembers : ∀ m ∈ members, Admitted n m.2)
    (h : optional? members key decode default = some a)
    (hdefault : P default ∧ (encode default).depth ≤ levels) : P a ∧ (encode a).depth ≤ n := by
  rcases exists_of_optional? h with rfl | ⟨j, hj, h⟩
  · exact ⟨hdefault.1, Nat.le_trans hdefault.2 hlevels⟩
  · exact hf.of_decode (hmembers _ hj) hlevels h

end Faithful
end MetricFormula.Json
