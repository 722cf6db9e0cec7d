import MetricFormula.Proofs.Json.Nesting
import MetricFormula.Proofs.Json.Normalization
import MetricFormula.Proofs.Json.Number
import MetricFormula.Proofs.Json.Steps

/-! # Documents read back

A document that is well formed and not nested too deep reads back from its text, on one line or on
many (`Json.WellFormed.read?_write`). -/

namespace MetricFormula.Json

variable {c : Char} {blanks : List Char} {rest : List Symbol} {room : Nat} {j : Json}

/-! ## Styles of writing -/

/-- What a style puts between items is white space. -/
structure Style.Blank (style : Style) : Prop where
  lineBreak : ∀ depth, ∀ c ∈ (style.lineBreak depth).toList, Symbol.isSpace (.char c)
  colon : ∃ blanks, style.colon.toList = ':' :: blanks ∧
    ∀ c ∈ blanks, Symbol.isSpace (.char c)

theorem Style.Blank.compact : Style.compact.Blank where
  lineBreak _ := nofun
  colon := ⟨[], rfl, nofun⟩

theorem Style.Blank.pretty : Style.pretty.Blank where
  lineBreak depth c hc := by
    rw [Style.pretty, String.toList_ofList] at hc
    rcases List.mem_cons.mp hc with rfl | hc
    · rfl
    · rw [(List.mem_replicate.mp hc).2]
      rfl
  colon := ⟨[' '], rfl, List.forall_mem_singleton.mpr rfl⟩

theorem isScalar_eq_false_of_isSpace (h : Symbol.isSpace (.char c)) :
    Symbol.isScalar (.char c) = false := by
  simp only [Symbol.isSpace, Bool.or_eq_true, decide_eq_true_eq] at h
  rcases h with ((rfl | rfl) | rfl) | rfl <;> rfl

theorem isSpace_eq_false_of_isScalar (h : Symbol.isScalar (.char c)) :
    Symbol.isSpace (.char c) = false :=
  Bool.eq_false_iff.mpr fun hspace => by simp [isScalar_eq_false_of_isSpace hspace] at h

/-- White space and a character of none end a number or a word. -/
theorem ends_of_blanks (hblanks : ∀ c ∈ blanks, Symbol.isSpace (.char c))
    (hc : Symbol.isScalar (.char c) = false) (rest : List Symbol) :
    ∀ s ∈ (symbols blanks ++ .char c :: rest).head?, s.isScalar = false := by
  cases blanks with
  | nil =>
    rintro _ ⟨⟩
    exact hc
  | cons b bs =>
    rintro _ ⟨⟩
    exact isScalar_eq_false_of_isSpace (hblanks b (.head _))

/-! ## Values in their places -/

variable {style : Style} {items : List Json} {members : List (String × Json)} {depth : Nat}

/-- The value reads back where it is written, with white space before it and anything behind it
that ends a number. -/
structure ReadsBack (style : Style) (j : Json) : Prop where
  opens : ∀ depth, ∃ c cs, (j.write style depth).toList = c :: cs ∧
    Symbol.isSpace (.char c) = false ∧ c ≠ ']'
  gives : ∀ {room depth blanks rest}, j.depth ≤ room → (∀ c ∈ blanks, Symbol.isSpace (.char c)) →
    (∀ s ∈ rest.head?, s.isScalar = false) →
    Gives (readValue? room (symbols blanks ++ (symbols (j.write style depth).toList ++ rest))) j
      rest

theorem ReadsBack.scalar (h : ∀ depth, Scalar (j.write style depth).toList j) :
    ReadsBack style j where
  opens depth := by
    obtain ⟨hne, hscalar, _⟩ := h depth
    obtain ⟨c, cs, heq⟩ := List.exists_cons_of_ne_nil hne
    have hc := hscalar c (by rw [heq]; exact .head _)
    refine ⟨c, cs, heq, isSpace_eq_false_of_isScalar hc, ?_⟩
    rintro rfl
    cases hc
  gives {room depth blanks rest} _ hblanks hrest := by
    obtain ⟨hne, hscalar, hvalue⟩ := h depth
    obtain ⟨c, cs, heq⟩ := List.exists_cons_of_ne_nil hne
    rw [heq] at hscalar hvalue ⊢
    obtain ⟨hc, hcs⟩ := List.forall_mem_cons.mp hscalar
    have hspace := isSpace_eq_false_of_isScalar hc
    have hbracket : c ∉ ['"', '[', '\x7b'] := by
      intro hmem
      simp only [List.mem_cons, List.not_mem_nil, or_false] at hmem
      rcases hmem with rfl | rfl | rfl <;> cases hc
    exact gives_readValue?_scalar (gives_next? hblanks hspace _) hbracket rfl hcs hrest hvalue

theorem ReadsBack.string (s : String) : ReadsBack style (.string s) where
  opens _ := ⟨'"', _, String.toList_ofList, rfl, by decide⟩
  gives {room depth blanks rest} _ hblanks _ := by
    show Gives (readValue? room (symbols blanks ++ (symbols (writeText s).toList ++ rest))) _ _
    rw [symbols_writeText]
    exact gives_readValue?_text (gives_next? hblanks rfl _) rfl (gives_readText? s rest)

theorem ReadsBack.exists_next? (hj : ReadsBack style j)
    (hblanks : ∀ c ∈ blanks, Symbol.isSpace (.char c)) (depth : Nat) (rest : List Symbol) :
    ∃ c ds, Gives (next? (symbols blanks ++ (symbols (j.write style depth).toList ++ rest))) c ds ∧
      c ≠ ']' := by
  obtain ⟨c, cs, heq, hspace, hbracket⟩ := hj.opens depth
  rw [heq]
  exact ⟨c, _, gives_next? hblanks hspace _, hbracket⟩

/-! ## Items and members in their places -/

theorem gives_next?_char (hc : Symbol.isSpace (.char c) = false) (rest : List Symbol) :
    Gives (next? (.char c :: rest)) c rest := gives_next? (List.forall_mem_nil _) hc rest

section
variable (hstyle : style.Blank) {after : List Symbol}
  (hends : ∀ s ∈ after.head?, s.isScalar = false)
include hstyle hends

/-- Items up to the closing bracket, with white space in front of the first. -/
theorem gives_readItems? (first : Bool) (hne : items ≠ [])
    (hitems : ∀ j ∈ items, ReadsBack style j ∧ j.depth ≤ room)
    (hblanks : ∀ c ∈ blanks, Symbol.isSpace (.char c)) (hclose : Gives (next? after) ']' rest) :
    Gives (readItems? room first (symbols blanks ++
      (symbols (("," ++ style.lineBreak depth).intercalate (writeItems style depth items)).toList ++
        after))) items rest := by
  induction items generalizing first blanks with
  | nil => exact absurd rfl hne
  | cons j js ih =>
    obtain ⟨⟨hj, hroom⟩, hjs⟩ := List.forall_mem_cons.mp hitems
    cases js with
    | nil =>
      rw [writeItems, writeItems, String.intercalate_singleton]
      obtain ⟨c, ds, hnext, hbracket⟩ := hj.exists_next? hblanks depth after
      exact gives_readItems?_last hnext hbracket (hj.gives hroom hblanks hends) hclose
    | cons j' js =>
      have htail := ih false (List.cons_ne_nil j' js) hjs (hstyle.lineBreak depth)
      rw [writeItems, writeItems, String.intercalate_cons_cons, ← writeItems]
      generalize String.intercalate _ _ = tail at htail ⊢
      have hsplit :
          symbols (j.write style depth ++ ("," ++ style.lineBreak depth) ++ tail).toList ++ after =
            symbols (j.write style depth).toList ++ .char ',' ::
              (symbols (style.lineBreak depth).toList ++ (symbols tail.toList ++ after)) := by
        simp
      rw [hsplit]
      obtain ⟨c, ds, hnext, hbracket⟩ := hj.exists_next? hblanks depth
        (.char ',' :: (symbols (style.lineBreak depth).toList ++ (symbols tail.toList ++ after)))
      refine gives_readItems?_cons hnext hbracket (hj.gives hroom hblanks ?_)
        (gives_next?_char rfl _) htail
      rintro _ ⟨⟩
      rfl

/-- Members up to the closing brace, with white space in front of the first. -/
theorem gives_readMembers? (first : Bool) (hne : members ≠ [])
    (hmembers : ∀ m ∈ members, ReadsBack style m.2 ∧ m.2.depth ≤ room)
    (hblanks : ∀ c ∈ blanks, Symbol.isSpace (.char c)) (hclose : Gives (next? after) '\x7d' rest) :
    Gives (readMembers? room first (symbols blanks ++
      (symbols (("," ++ style.lineBreak depth).intercalate
        (writeMembers style depth members)).toList ++ after))) (some members) rest := by
  obtain ⟨spaces, hcolon, hspaces⟩ := hstyle.colon
  induction members generalizing first blanks with
  | nil => exact absurd rfl hne
  | cons m ms ih =>
    obtain ⟨key, j⟩ := m
    obtain ⟨⟨hj, hroom⟩, hms⟩ := List.forall_mem_cons.mp hmembers
    cases ms with
    | nil =>
      have hsplit : symbols (writeText key ++ style.colon ++ j.write style depth).toList ++ after =
          .char '"' :: (symbols (key.toList.flatMap escapeChar) ++ .char '"' :: .char ':' ::
            (symbols spaces ++ (symbols (j.write style depth).toList ++ after))) := by
        simp [writeText, hcolon]
      rw [writeMembers, writeMembers, String.intercalate_singleton, hsplit]
      exact gives_readMembers?_last (gives_next? hblanks rfl _) rfl (gives_readText? key _)
        (gives_next?_char rfl _) (hj.gives hroom hspaces hends) hclose
    | cons m' ms =>
      have htail := ih false (List.cons_ne_nil m' ms) hms (hstyle.lineBreak depth)
      rw [writeMembers, writeMembers, String.intercalate_cons_cons, ← writeMembers]
      generalize String.intercalate _ _ = tail at htail ⊢
      have hsplit : symbols (writeText key ++ style.colon ++ j.write style depth ++
            ("," ++ style.lineBreak depth) ++ tail).toList ++ after =
          .char '"' :: (symbols (key.toList.flatMap escapeChar) ++ .char '"' :: .char ':' ::
            (symbols spaces ++ (symbols (j.write style depth).toList ++ .char ',' ::
              (symbols (style.lineBreak depth).toList ++ (symbols tail.toList ++ after))))) := by
        simp [writeText, hcolon]
      rw [hsplit]
      refine gives_readMembers?_cons (gives_next? hblanks rfl _) rfl (gives_readText? key _)
        (gives_next?_char rfl _) (hj.gives hroom hspaces ?_) (gives_next?_char rfl _) htail
      rintro _ ⟨⟩
      rfl

end

/-! ## Documents -/

variable {opening closing : Char} {parts : List String}

theorem symbols_enclose_nil (rest : List Symbol) :
    symbols (style.enclose depth opening closing []).toList ++ rest =
      .char opening :: .char closing :: rest := by
  simp [Style.enclose]

theorem symbols_enclose (hne : parts ≠ []) (rest : List Symbol) :
    symbols (style.enclose depth opening closing parts).toList ++ rest =
      .char opening :: (symbols (style.lineBreak (depth + 1)).toList ++
        (symbols (("," ++ style.lineBreak (depth + 1)).intercalate parts).toList ++
          (symbols (style.lineBreak depth).toList ++ .char closing :: rest))) := by
  cases parts with
  | nil => exact absurd rfl hne
  | cons part parts =>
    rw [Style.enclose]
    · generalize String.intercalate _ _ = text
      simp
    · exact hne

theorem exists_enclose_eq (style : Style) (depth : Nat) (opening closing : Char)
    (parts : List String) :
    ∃ cs, (style.enclose depth opening closing parts).toList = opening :: cs := by
  cases parts with
  | nil => exact ⟨_, String.toList_ofList⟩
  | cons part parts => exact ⟨_, by simp [Style.enclose]; rfl⟩

theorem ReadsBack.array (hstyle : style.Blank) (hitems : ∀ j ∈ items, ReadsBack style j) :
    ReadsBack style (.array items) where
  opens depth := by
    obtain ⟨cs, hcs⟩ := exists_enclose_eq style depth '[' ']' (writeItems style (depth + 1) items)
    exact ⟨'[', cs, hcs, rfl, by decide⟩
  gives {room depth blanks rest} hroom hblanks _ := by
    obtain ⟨room, rfl, hdepth⟩ := depth_array_le.mp hroom
    rw [write]
    rcases eq_or_ne items [] with rfl | hne
    · rw [writeItems, symbols_enclose_nil]
      exact gives_readValue?_array (gives_next? hblanks rfl _) rfl
        (gives_readItems?_nil (gives_next?_char rfl _) rfl)
    · have hparts : writeItems style (depth + 1) items ≠ [] := by
        cases items with
        | nil => exact absurd rfl hne
        | cons j js => exact List.cons_ne_nil _ _
      rw [symbols_enclose hparts]
      refine gives_readValue?_array (gives_next? hblanks rfl _) rfl ?_
      exact gives_readItems? hstyle
        (ends_of_blanks (c := ']') (hstyle.lineBreak depth) rfl rest) true hne
        (fun j hj => ⟨hitems j hj, hdepth j hj⟩) (hstyle.lineBreak (depth + 1))
        (gives_next? (hstyle.lineBreak depth) rfl rest)

theorem ReadsBack.object (hstyle : style.Blank) (hmembers : ∀ m ∈ members, ReadsBack style m.2) :
    ReadsBack style (.object members) where
  opens depth := by
    obtain ⟨cs, hcs⟩ :=
      exists_enclose_eq style depth '\x7b' '\x7d' (writeMembers style (depth + 1) members)
    exact ⟨'\x7b', cs, hcs, rfl, by decide⟩
  gives {room depth blanks rest} hroom hblanks _ := by
    obtain ⟨room, rfl, hdepth⟩ := depth_object_le.mp hroom
    rw [write]
    rcases eq_or_ne members [] with rfl | hne
    · rw [writeMembers, symbols_enclose_nil]
      exact gives_readValue?_object (gives_next? hblanks rfl _) rfl
        (gives_readMembers?_nil (gives_next?_char rfl _) rfl)
    · have hparts : writeMembers style (depth + 1) members ≠ [] := by
        cases members with
        | nil => exact absurd rfl hne
        | cons m ms => exact List.cons_ne_nil _ _
      rw [symbols_enclose hparts]
      refine gives_readValue?_object (gives_next? hblanks rfl _) rfl ?_
      exact gives_readMembers? hstyle
        (ends_of_blanks (c := '\x7d') (hstyle.lineBreak depth) rfl rest) true hne
        (fun m hm => ⟨hmembers m hm, hdepth m hm⟩) (hstyle.lineBreak (depth + 1))
        (gives_next? (hstyle.lineBreak depth) rfl rest)

theorem WellFormed.readsBack (hj : j.WellFormed) (hstyle : style.Blank) : ReadsBack style j := by
  induction hj with
  | null => exact .scalar fun _ => .null
  | bool b => exact .scalar fun _ => .bool b
  | int hn => exact .scalar fun _ => .int hn
  | float hx => exact .scalar fun _ => .float hx
  | string s => exact .string s
  | array _ ih => exact .array hstyle ih
  | object _ _ ih => exact .object hstyle ih

/-- A document that is well formed and nested no deeper than the reader admits reads back from its
text, with white space behind it or none. -/
theorem WellFormed.read?_write (hj : j.WellFormed) (hstyle : style.Blank)
    (hdepth : j.depth ≤ nestingLimit) (trailing : String) (htrailing : ∀ c ∈ trailing.toList, Symbol.isSpace (.char c)) :
    read? (j.write style 0 ++ trailing) = some j := by
  have hspaces : ∀ s ∈ symbols trailing.toList, s.isSpace := by simpa using htrailing
  have hends : ∀ s ∈ (symbols trailing.toList).head?, s.isScalar = false := by
    intro s hs
    obtain ⟨c, hc, rfl⟩ := List.mem_map.mp (List.mem_of_mem_head? hs)
    exact isScalar_eq_false_of_isSpace (htrailing c hc)
  obtain ⟨h, hvalue⟩ : Gives (readValue? nestingLimit (symbols (j.write style 0).toList ++
      symbols trailing.toList)) j (symbols trailing.toList) :=
    (hj.readsBack hstyle).gives hdepth (List.forall_mem_nil _) hends
  rw [read?, readWithin?, Symbol.ofText, String.toList_append, List.map_append, hvalue]
  simpa using hspaces

theorem WellFormed.readBytes?_write {j : Json} {style : Style} (hj : j.WellFormed)
    (hstyle : style.Blank) (hdepth : j.depth ≤ nestingLimit) : readBytes? (j.write style 0).toUTF8 = some j := by
  have h := hj.read?_write hstyle hdepth "" nofun
  rwa [String.append_empty, ← readBytes?_toUTF8] at h

end MetricFormula.Json
