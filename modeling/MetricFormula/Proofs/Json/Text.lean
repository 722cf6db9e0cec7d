import MetricFormula.Json.Printer
import MetricFormula.Json.Reader

/-! # Texts in documents

A text reads back from a document whatever its characters are (`Json.gives_readText?`): an
escaped character reads as the character, and so does one that stands for itself. -/

namespace MetricFormula

/-- The reader takes the value from the front and leaves the rest. -/
def Gives {σ α : Type} {front : List σ} (taken : Option (Taken front α)) (value : α)
    (rest : List σ) : Prop :=
  ∃ h, taken = some ⟨value, rest, h⟩

@[simp] theorem gives_some {σ α : Type} {front rest : List σ} {t : Taken front α} {value : α} :
    Gives (some t) value rest ↔ t.value = value ∧ t.rest = rest := by
  obtain ⟨v, r, h⟩ := t
  constructor
  · rintro ⟨_, ⟨⟩⟩
    exact ⟨rfl, rfl⟩
  · rintro ⟨rfl, rfl⟩
    exact ⟨h, rfl⟩

namespace Json

variable {c e : Char} {rest after : List Symbol} {us : List TextUnit}

/-- What is written of a document, as its reader sees it. -/
abbrev symbols (cs : List Char) : List Symbol := cs.map .char

/-! ## One character -/

theorem gives_readUnits?_plain (hquote : c ≠ '"') (hslash : c ≠ '\\') (hc : 0x20 ≤ c.toNat)
    (h : Gives (readUnits? rest) us after) :
    Gives (readUnits? (.char c :: rest)) (.char c :: us) after := by
  obtain ⟨hlt, h⟩ := h
  rw [readUnits?, if_neg (Nat.not_lt.mpr hc), h]
  · exact ⟨_, rfl⟩
  · exact hquote
  · exact fun _ _ _ _ _ _ => hslash
  · exact fun _ _ _ => hslash
  · exact hslash

theorem gives_readUnits?_escaped (hc : unescape? e = some c)
    (h : Gives (readUnits? rest) us after) :
    Gives (readUnits? (.char '\\' :: .char e :: rest)) (.char c :: us) after := by
  obtain ⟨hlt, h⟩ := h
  rw [readUnits?, hc, h]
  · exact ⟨_, rfl⟩
  · rintro _ _ _ _ _ _ rfl
    cases hc

theorem hexCode?_hexByte : ∀ n < 0x20, hexCode? ('0' :: '0' :: hexByte n) = some n := by
  decide

theorem ofCode_of_lt {n : Nat} (hn : n < 0x20) : TextUnit.ofCode n = .char (Char.ofNat n) := by
  rw [TextUnit.ofCode, if_neg]
  simp only [Bool.and_eq_true, decide_eq_true_eq]
  omega

theorem gives_readUnits?_code {n : Nat} (hn : n < 0x20) (h : Gives (readUnits? rest) us after) :
    Gives (readUnits? (symbols (['\\', 'u', '0', '0'] ++ hexByte n) ++ rest))
      (.char (Char.ofNat n) :: us) after := by
  obtain ⟨hlt, h⟩ := h
  have hcode : hexCode? ['0', '0', Nat.digitChar (n / 16), Nat.digitChar (n % 16)] = some n :=
    hexCode?_hexByte n hn
  rw [← ofCode_of_lt hn]
  show Gives (readUnits? (.char '\\' :: .char 'u' :: .char '0' :: .char '0' ::
    .char (Nat.digitChar (n / 16)) :: .char (Nat.digitChar (n % 16)) :: rest)) _ _
  rw [readUnits?, hcode, h]
  exact ⟨_, rfl⟩

/-- The ways in which a character is written. -/
theorem escapeChar_cases (c : Char) :
    (∃ e, unescape? e = some c ∧ escapeChar c = ['\\', e]) ∨
    (c.toNat < 0x20 ∧ escapeChar c = ['\\', 'u', '0', '0'] ++ hexByte c.toNat) ∨
    (c ≠ '"' ∧ c ≠ '\\' ∧ 0x20 ≤ c.toNat ∧ escapeChar c = [c]) := by
  unfold escapeChar
  split
  case h_8 hquote hslash _ _ _ _ _ =>
    split
    · rename_i hc
      exact .inr (.inl ⟨hc, rfl⟩)
    · rename_i hc
      exact .inr (.inr ⟨hquote, hslash, Nat.not_lt.mp hc, rfl⟩)
  all_goals exact .inl ⟨_, rfl, rfl⟩

theorem gives_readUnits?_escapeChar (h : Gives (readUnits? rest) us after) :
    Gives (readUnits? (symbols (escapeChar c) ++ rest)) (.char c :: us) after := by
  rcases escapeChar_cases c with ⟨e, he, hc⟩ | ⟨hn, hc⟩ | ⟨hquote, hslash, hn, hc⟩
  · rw [hc]
    exact gives_readUnits?_escaped he h
  · rw [hc]
    simpa using gives_readUnits?_code hn h
  · rw [hc]
    exact gives_readUnits?_plain hquote hslash hn h

/-! ## Whole texts -/

theorem gives_readUnits? (cs : List Char) (after : List Symbol) :
    Gives (readUnits? (symbols (cs.flatMap escapeChar) ++ .char '"' :: after))
      (cs.map TextUnit.char) after := by
  induction cs with
  | nil =>
    show Gives (readUnits? (.char '"' :: after)) [] after
    rw [readUnits?]
    exact ⟨_, rfl⟩
  | cons c cs ih =>
    rw [List.flatMap_cons, symbols, List.map_append, List.append_assoc]
    exact gives_readUnits?_escapeChar ih

theorem join?_map_char (cs : List Char) : TextUnit.join? (cs.map .char) = some cs := by
  induction cs with
  | nil => rfl
  | cons c cs ih => rw [List.map_cons, TextUnit.join?, ih, Option.map_some]

/-- A text that is written, behind its opening quote. -/
theorem gives_readText? (s : String) (after : List Symbol) :
    Gives (readText? (symbols (s.toList.flatMap escapeChar) ++ .char '"' :: after)) (some s)
      after := by
  obtain ⟨hlt, h⟩ := gives_readUnits? s.toList after
  rw [readText?, h]
  refine ⟨hlt, ?_⟩
  simp [Taken.map, join?_map_char]

theorem symbols_writeText (s : String) (after : List Symbol) :
    symbols (writeText s).toList ++ after =
      .char '"' :: (symbols (s.toList.flatMap escapeChar) ++ .char '"' :: after) := by
  simp [writeText]

end Json
end MetricFormula
