import MetricFormula.Proofs.Exchange.Data
import MetricFormula.Proofs.Expression.Likeness
import MetricFormula.Proofs.Json.TextLayer

/-! # Cells that come back as others

A date is read from its own text as a text, and a document that is no array and no object as the
bare value that it is. Formulas see no difference: a date is no number text, and a bare value is
null, or a number, where the document was. Only a document that is a string is not looked into for a
number, while the text that it comes back as is. -/

namespace MetricFormula

/-! ## Dates are no numbers -/

theorem Text.trim_eq_self {cs : List Char} (h : ∀ c ∈ cs, isBlank c = false) : trim cs = cs := by
  have hkept {ds : List Char} (hds : ∀ c ∈ ds, isBlank c = false) : ds.dropWhile isBlank = ds := by
    cases ds with
    | nil => rfl
    | cons d ds => exact List.dropWhile_cons_of_neg (by simp [hds d (.head _)])
  have hreverse : ∀ c ∈ cs.reverse, isBlank c = false := fun c hc => h c (List.mem_reverse.mp hc)
  rw [trim, hkept h, hkept hreverse, List.reverse_reverse]

/-- A number text does not go on behind its digits with a hyphen. -/
theorem Decimal.ofText?_hyphen {w : List Char} (hw : ∀ c ∈ w, c.isDigit) (rest : List Char) :
    ofText? (w ++ '-' :: rest) = none := by
  have hhyphen : ∀ c ∈ ('-' :: rest).head?, c.isDigit = false := by
    rintro _ ⟨⟩
    rfl
  simp [ofText?, takeWhile_append_eq hw hhyphen, dropWhile_append_eq hw hhyphen]

namespace Date

theorem isDigit_of_mem_padded {width n : Nat} {c : Char} (h : c ∈ padded width n) : c.isDigit := by
  rcases List.mem_append.mp h with h | h
  · obtain rfl := List.eq_of_mem_replicate h
    rfl
  · exact Nat.isDigit_of_mem_toDigits (by decide) (by decide) h

theorem padded_ne_nil (width n : Nat) : padded width n ≠ [] :=
  List.append_ne_nil_of_right_ne_nil _ Nat.toDigits_ne_nil

theorem ofText?_year (year : Int) (rest : List Char) :
    Binary64.ofText? (yearText year ++ '-' :: rest) = none := by
  have hnone (n : Nat) : Decimal.ofText? (padded 4 n ++ '-' :: rest) = none :=
    Decimal.ofText?_hyphen (fun _ => isDigit_of_mem_padded) rest
  unfold yearText
  split
  · -- no sign is taken off a year that begins with a digit
    obtain ⟨c, cs, hc⟩ := List.exists_cons_of_ne_nil (padded_ne_nil 4 year.toNat)
    have hdigit : c.isDigit := isDigit_of_mem_padded (hc.symm ▸ List.mem_cons_self)
    have h := hnone year.toNat
    rw [hc, List.cons_append] at h ⊢
    rw [Binary64.ofText?_eq hdigit, h]
    rfl
  · split
    all_goals
      simp only [List.cons_append, Binary64.ofText?, splitSign, hnone]
      rfl

theorem isBlank_of_mem_text {d : Date} {c : Char} (h : c ∈ d.text.toList) :
    Text.isBlank c = false := by
  have hdigit {c : Char} (hc : c.isDigit) : Text.isBlank c = false :=
    isBlank_eq_false_of_isNamePart (by simp [isNamePart, Text.isNumeric_of_isDigit hc])
  have hpadded {width n : Nat} (hc : c ∈ padded width n) : Text.isBlank c = false :=
    hdigit (isDigit_of_mem_padded hc)
  have hyear (hc : c ∈ yearText d.year) : Text.isBlank c = false := by
    unfold yearText at hc
    split at hc
    · exact hpadded hc
    · rcases List.mem_cons.mp hc with rfl | hc
      · split <;> rfl
      · exact hpadded hc
  simp only [text, String.toList_ofList, List.mem_append, List.mem_cons] at h
  rcases h with (hc | rfl | hc) | rfl | hc
  · exact hyear hc
  · rfl
  · exact hpadded hc
  · rfl
  · exact hpadded hc

theorem numberOfText?_text (d : Date) : numberOfText? d.text = none := by
  rw [numberOfText?, Text.trim_eq_self fun _ => isBlank_of_mem_text, text, String.toList_ofList,
    List.append_assoc, List.cons_append, ofText?_year]
  rfl

end Date

/-! ## Cells -/

namespace Cell

/-- Whether the number of the cell is finite, if it is one. -/
def isFinite : Cell → Bool
  | number x => x.isFinite
  | _ => true

/-- Whether the cell is a document that is a string with the text of a number. -/
def hidesNumber : Cell → Bool
  | json ⟨.string s, _⟩ => (numberOfText? s).isSome
  | _ => false

/-- What is read from the document that the cell is written as. -/
def reloaded : Cell → Cell
  | date d => text d.text
  | json ⟨.null, _⟩ => null
  | json ⟨.bool b, _⟩ => bool b
  | json ⟨.int n, _⟩ => number (.ofInt n)
  | json ⟨.float x, _⟩ => number x
  | json ⟨.string s, _⟩ => text s
  | c => c

variable {c : Cell}

theorem ofJson?_toJson (h : c.isFinite) : ofJson? c.toJson = some c.reloaded := by
  cases c with
  | null | bool | text | date => rfl
  | number x =>
    rw [toJson, Json.Faithful.ofNumber_eq_float h]
    rfl
  | json j =>
    obtain ⟨j, hj⟩ := j
    cases j with
    | null | bool | int | float | string => rfl
    | array | object => exact ofDocument?_eq_some.mpr ⟨_, hj, hj.normalize?_eq, rfl⟩
    | unusable => cases hj

theorem isNull_reloaded (c : Cell) : c.reloaded.isNull = c.isNull := by
  cases c with
  | null | bool | number | text | date => rfl
  | json j =>
    obtain ⟨j, hj⟩ := j
    cases j <;> rfl

/-- All numbers come back, and none but those that strings hide come to light. -/
theorem coerce?_reloaded (c : Cell) :
    c.reloaded.coerce? = c.coerce? ↔ c.hidesNumber = false := by
  cases c with
  | null | bool | number | text => simp [reloaded, hidesNumber]
  | date d => simp [reloaded, coerce?, hidesNumber, d.numberOfText?_text]
  | json j =>
    obtain ⟨j, hj⟩ := j
    cases j with
    | null | bool | int | float | array | object | unusable =>
      simp [reloaded, coerce?, numberOfJson?, hidesNumber]
    | string s => simp [reloaded, coerce?, numberOfJson?, hidesNumber]

end Cell

/-! ## Rows -/

namespace Row

/-- All cells of the row have a property. -/
def All (P : Cell → Prop) (row : Row) : Prop := ∀ (column : String) c, row[column]? = some c → P c

/-- What is read from the document that the row is written as. -/
def reloaded (row : Row) : Row := row.map fun _ c => c.reloaded

variable {row : Row}

theorem ofJson?_toJson (h : row.All (·.isFinite)) : ofJson? row.toJson = some row.reloaded :=
  Json.map?_ofMap .ascending fun column c hc => Cell.ofJson?_toJson (h column c hc)

theorem decode?_write {layer : TextLayer} (hlayer : layer.Sound) (hfinite : row.All (·.isFinite))
    (hdepth : row.toJson.depth ≤ Json.nestingLimit) :
    layer.decode? ofJson? (layer.write row.toJson) = some row.reloaded :=
  (hlayer.decode?_write (Row.faithful.wellFormed row) hdepth ofJson?).trans
    (ofJson?_toJson hfinite)

theorem view_reloaded (h : row.All (·.hidesNumber = false)) : row.reloaded.view = row.view := by
  funext column
  have hcell : row.reloaded[column]? = row[column]?.map Cell.reloaded :=
    Std.ExtTreeMap.getElem?_map
  rw [view, view, number?, number?, hasValue, hasValue, hcell]
  cases hc : row[column]? with
  | none => rfl
  | some c => simp [(Cell.coerce?_reloaded c).mpr (h column c hc), c.isNull_reloaded]

theorem keys_reloaded (row : Row) : row.reloaded.keys = row.keys := Std.ExtTreeMap.keys_map

variable {rows : List Row}

theorem list?_ofList (h : ∀ row ∈ rows, row.All (·.isFinite)) :
    Json.list? ofJson? (Json.ofList toJson rows) = some (rows.map reloaded) :=
  Json.list?_ofList fun row hrow => ofJson?_toJson (h row hrow)

theorem rowsAlike_reloaded (h : ∀ row ∈ rows, row.All (·.hidesNumber = false)) :
    RowsAlike (rows.map reloaded) rows := by
  rw [RowsAlike, List.map_map]
  exact List.map_congr_left fun row hrow => view_reloaded (h row hrow)

theorem flatMap_keys_reloaded (rows : List Row) :
    (rows.map reloaded).flatMap (·.keys) = rows.flatMap (·.keys) := by
  rw [List.flatMap_map]
  exact congrArg (rows.flatMap ·) (funext keys_reloaded)

end Row

/-! ## Lists that are saved and loaded again -/

/-- What formulas see of cells, of rows and of lists is still there when these are read from their
own text, but for strings with the text of a number, which nobody looked into. The rows of a list
may be read one by one or all together. -/
theorem reloading_unseen {layer : TextLayer} (hlayer : layer.Sound) :
    (∀ c : Cell, c.isFinite → c.toJson.depth ≤ Json.nestingLimit →
      ∃ c', layer.decode? Cell.ofJson? (layer.write c.toJson) = some c' ∧
        c'.isNull = c.isNull ∧ (c'.coerce? = c.coerce? ↔ c.hidesNumber = false)) ∧
    (∀ row : Row, row.All (fun c => c.isFinite ∧ c.hidesNumber = false) →
      row.toJson.depth ≤ Json.nestingLimit →
      ∃ row', layer.decode? Row.ofJson? (layer.write row.toJson) = some row' ∧
        ∀ column, row'.number? column = row.number? column ∧
          row'.hasValue column = row.hasValue column) ∧
    ∀ rows : List Row, (∀ row ∈ rows, row.All fun c => c.isFinite ∧ c.hidesNumber = false) →
      (∀ row ∈ rows, row.toJson.depth ≤ Json.nestingLimit) →
      ∃ rows', (rows.map fun row => layer.write row.toJson).mapM (layer.decode? Row.ofJson?) =
          some rows' ∧
        ((Json.ofList Row.toJson rows).depth ≤ Json.nestingLimit →
          layer.decode? (Json.list? Row.ofJson?) (layer.write (Json.ofList Row.toJson rows)) =
            some rows') ∧
        ∀ (scope : Scope) (key : String) (columns : List String) (more : History)
          (snapshot : Snapshot) (e : Expr),
          e.eval ((scope.bindList key rows' columns).registerAll more) snapshot =
            e.eval ((scope.bindList key rows columns).registerAll more) snapshot := by
  refine ⟨fun c hfinite hdepth => ?_, fun row hcells hdepth => ?_, fun rows hrows hdepth => ?_⟩
  · refine ⟨c.reloaded, ?_, c.isNull_reloaded, c.coerce?_reloaded⟩
    rw [hlayer.decode?_write c.wellFormed_toJson hdepth]
    exact Cell.ofJson?_toJson hfinite
  · have hfinite : row.All (·.isFinite) := fun column c hc => (hcells column c hc).1
    have hview := Row.view_reloaded fun column c hc => (hcells column c hc).2
    exact ⟨row.reloaded, Row.decode?_write hlayer hfinite hdepth,
      fun column => Prod.ext_iff.mp (congrFun hview column)⟩
  · have hfinite : ∀ row ∈ rows, row.All (·.isFinite) :=
      fun row hrow column c hc => (hrows row hrow column c hc).1
    have halike := Row.rowsAlike_reloaded fun row hrow column c hc =>
      (hrows row hrow column c hc).2
    refine ⟨rows.map Row.reloaded, ?_, fun hlist => ?_,
      fun scope key columns more snapshot e => ?_⟩
    · exact Json.mapM_map_eq fun row hrow =>
        Row.decode?_write hlayer (hfinite row hrow) (hdepth row hrow)
    · rw [hlayer.decode?_write (Row.faithful.list.wellFormed rows) hlist]
      exact Row.list?_ofList hfinite
    · have hkeys := Row.flatMap_keys_reloaded rows
      exact e.eval_eq_of_alike
        (((Scope.Alike.refl scope).bindList key halike hkeys columns).registerAll more) snapshot

/-- A row with a date in its one cell, which comes back as a text. -/
theorem reloading_unseen_date :
    let layer := TextLayer.ofStyle .compact
    let date : Cell := .date ⟨2024, 1, 31, by decide, by decide⟩
    let row : Row := (∅ : Row).insert "when" date
    layer.Sound ∧
    (∃ c', layer.decode? Cell.ofJson? (layer.write date.toJson) = some c' ∧
      c'.isNull = false ∧ c'.coerce? = none) ∧
    (∃ row', layer.decode? Row.ofJson? (layer.write row.toJson) = some row' ∧
      row'.number? "when" = none ∧ row'.hasValue "when") ∧
    ∃ rows', layer.decode? (Json.list? Row.ofJson?) (layer.write (Json.ofList Row.toJson [row])) =
        some rows' ∧
      ∀ snapshot (e : Expr), e.eval (Scope.empty.bindList "days" rows' []) snapshot =
        e.eval (Scope.empty.bindList "days" [row] []) snapshot := by
  intro layer date row
  have hlayer : layer.Sound := Json.Style.Blank.compact.sound
  obtain ⟨hcell, hrow, hrows⟩ := reloading_unseen hlayer
  have hcells : row.All fun c => c.isFinite ∧ c.hidesNumber = false := by
    intro column c hc
    obtain rfl := Row.eq_of_getElem?_insert_empty hc
    exact ⟨rfl, rfl⟩
  have hdepth {n : Nat} : row.toJson.depth ≤ n + 1 := by
    refine Json.Faithful.depth_ofMap_le fun column c hc => ?_
    obtain rfl := Row.eq_of_getElem?_insert_empty hc
    exact Nat.zero_le n
  have hlist : (Json.ofList Row.toJson [row]).depth ≤ Json.nestingLimit := by
    refine Json.depth_array_le.mpr ⟨126, rfl, fun j hj => ?_⟩
    obtain rfl := List.mem_singleton.mp hj
    exact hdepth
  have hwhen : row["when"]? = some date := Std.ExtTreeMap.getElem?_insert_self
  refine ⟨hlayer, ?_, ?_, ?_⟩
  · obtain ⟨c', hc', hnull, hnumber⟩ := hcell date rfl (Nat.zero_le _)
    exact ⟨c', hc', hnull, hnumber.mpr rfl⟩
  · obtain ⟨row', hrow', hview⟩ := hrow row hcells hdepth
    obtain ⟨hnumber, hvalue⟩ := hview "when"
    rw [Row.number?, Row.number?, hwhen] at hnumber
    rw [Row.hasValue, Row.hasValue, hwhen] at hvalue
    exact ⟨row', hrow', hnumber, hvalue⟩
  · obtain ⟨rows', _, htogether, heval⟩ :=
      hrows [row] (List.forall_mem_singleton.mpr hcells) (List.forall_mem_singleton.mpr hdepth)
    exact ⟨rows', htogether hlist, fun snapshot e => heval .empty "days" [] [] snapshot e⟩

/-- A string that is kept as a document has no number, and has one once it is read as a text. -/
theorem reloading_finds_number :
    let layer := TextLayer.ofStyle .compact
    let c : Cell := .json ⟨.string "42", .string "42"⟩
    layer.Sound ∧ c.isFinite ∧ c.toJson.depth ≤ Json.nestingLimit ∧
      layer.decode? Cell.ofJson? (layer.write c.toJson) = some (.text "42") ∧
      c.coerce? = none ∧ (Cell.text "42").coerce? = some (.ofInt 42) := by
  intro layer c
  have hlayer : layer.Sound := Json.Style.Blank.compact.sound
  refine ⟨hlayer, rfl, Nat.zero_le _, ?_, rfl, by decide +kernel⟩
  rw [hlayer.decode?_write c.wellFormed_toJson (Nat.zero_le _)]
  rfl

end MetricFormula
