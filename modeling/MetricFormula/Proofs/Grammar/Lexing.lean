import MetricFormula.Formula.Lexeme

/-! # Texts that fall into tokens

`Lexes` says which tokens a text falls into, with white space left out. Scanning finds exactly these
(`lexes_iff_scan_eq`), so no text falls into tokens in two ways. -/

namespace MetricFormula

/-- The text falls into the tokens, to its end. -/
inductive Lexes : List Char → List Token → Prop
  | nil : Lexes [] []
  | blank : Text.isBlank c → Lexes cs ts → Lexes (c :: cs) ts
  | token : Text.isBlank c = false → Token.split c cs = .ok (t, rest) → Lexes rest ts →
      Lexes (c :: cs) (t :: ts)

variable {c : Char} {cs rest : List Char} {t : Token} {ts us : List Token}

/-! ## Steps of scanning -/

/-- One step of scanning, without the bound on the rest. -/
theorem scan_eq (cs : List Char) :
    scan cs =
      match cs.dropWhile Text.isBlank with
      | [] => ⟨[], none⟩
      | c :: ds =>
        match Token.split c ds with
        | .error f => ⟨[], some f⟩
        | .ok (t, rest) => ⟨t :: (scan rest).tokens, (scan rest).fault⟩ := by
  rw [scan]
  split
  · rename_i hcs
    rw [hcs]
  · rename_i hcs
    split
    · rename_i hsplit
      simp only [hcs, hsplit]
    · rename_i hsplit
      simp only [hcs, hsplit]

theorem scan_nil : scan [] = ⟨[], none⟩ := scan_eq []

theorem scan_blank (h : Text.isBlank c) : scan (c :: cs) = scan cs := by
  rw [scan_eq, scan_eq cs, List.dropWhile_cons_of_pos h]

theorem scan_token (hc : Text.isBlank c = false) (h : Token.split c cs = .ok (t, rest)) :
    scan (c :: cs) = ⟨t :: (scan rest).tokens, (scan rest).fault⟩ := by
  rw [scan_eq, List.dropWhile_cons_of_neg (Bool.eq_false_iff.mp hc)]
  simp only [h]

/-! ## Scanning finds the tokens -/

theorem lexes_dropWhile : Lexes (cs.dropWhile Text.isBlank) ts → Lexes cs ts := by
  induction cs with
  | nil => exact id
  | cons c cs ih =>
    intro h
    by_cases hc : Text.isBlank c
    · rw [List.dropWhile_cons_of_pos hc] at h
      exact .blank hc (ih h)
    · rwa [List.dropWhile_cons_of_neg hc] at h

theorem lexes_scan (cs : List Char) (h : (scan cs).fault = none) : Lexes cs (scan cs).tokens := by
  fun_induction scan cs with
  | case1 cs hcs =>
    refine lexes_dropWhile ?_
    rw [hcs]
    exact .nil
  | case2 cs c ds hcs f hsplit => nomatch h
  | case3 cs c ds hcs t rest hsplit _ s ih =>
    have hc : Text.isBlank c = false := by
      have := List.head?_dropWhile_not Text.isBlank cs
      rw [hcs] at this
      simpa using this
    refine lexes_dropWhile ?_
    rw [hcs]
    exact .token hc hsplit (ih h)

/-- Scanning ends without a fault exactly if the text falls into tokens, and finds these. -/
theorem lexes_iff_scan_eq : Lexes cs ts ↔ scan cs = ⟨ts, none⟩ := by
  constructor
  · intro h
    induction h with
    | nil => exact scan_nil
    | blank hc _ ih => rw [scan_blank hc, ih]
    | token hc hsplit _ ih => rw [scan_token hc hsplit, ih]
  · intro h
    have hlexes := lexes_scan cs (by rw [h])
    rwa [h] at hlexes

theorem Lexes.unique (h : Lexes cs ts) (h' : Lexes cs us) : ts = us :=
  (Scan.mk.inj ((lexes_iff_scan_eq.mp h).symm.trans (lexes_iff_scan_eq.mp h'))).1

/-- Every token takes up a character at least. -/
theorem Lexes.length_le (h : Lexes cs ts) : ts.length ≤ cs.length := by
  induction h with
  | nil => exact Nat.le_refl _
  | blank _ _ ih => exact Nat.le_succ_of_le ih
  | token _ hsplit _ ih =>
    have := Token.length_split_le hsplit
    simp only [List.length_cons]
    omega

end MetricFormula
