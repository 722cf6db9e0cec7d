import Mathlib.Data.List.TakeWhile
import MetricFormula.Proofs.Faults.Calculation
import MetricFormula.Proofs.Grammar.Splitting
import MetricFormula.Proofs.Reading.Language

/-! # White space in formulas

White space that is inserted between the tokens of a text, or at its ends, is of no account: the text
still falls into the same tokens, so it reads the same. What is calculated does not even depend on
how much white space there is at the ends, since texts are trimmed before they are measured. -/

namespace MetricFormula

/-! ## Inserting white space -/

/-- The second text is the first with white space inserted: before its tokens, between them and behind
them, but in none of them. -/
inductive Spaced : List Char → List Char → Prop
  | nil : Spaced [] []
  | insert : Text.isBlank c → Spaced cs ds → Spaced cs (c :: ds)
  | blank : Text.isBlank c → Spaced cs ds → Spaced (c :: cs) (c :: ds)
  | token : Text.isBlank c = false → c :: cs = w ++ rest → Token.split c cs = .ok (t, rest) →
      Spaced rest ds → Spaced (c :: cs) (w ++ ds)

variable {c : Char} {cs ds rest : List Char} {t : Token} {ts : List Token}

/-- Behind a token, white space is all that can have come in. -/
theorem Spaced.head? (h : Spaced cs ds) (hc : c ∈ ds.head?) : Text.isBlank c ∨ c ∈ cs.head? := by
  cases h with
  | nil => cases hc
  | insert hblank _ =>
    cases hc
    exact .inl hblank
  | blank hblank _ => exact .inr hc
  | @token d cs w rest t ds _ hcs hsplit _ =>
    obtain ⟨v, hv, hspelling, hends⟩ := Token.exists_spelling hsplit
    obtain rfl := List.append_cancel_right (hcs.symm.trans hv)
    obtain ⟨e, es, rfl, _⟩ := hspelling.split_append hends
    obtain ⟨rfl, _⟩ := List.cons.inj hcs
    exact .inr hc

theorem Spaced.lexes (h : Spaced cs ds) (hlexes : Lexes cs ts) : Lexes ds ts := by
  induction h generalizing ts with
  | nil => exact hlexes
  | insert hblank _ ih => exact .blank hblank (ih hlexes)
  | blank hblank _ ih =>
    cases hlexes with
    | blank _ hlexes => exact .blank hblank (ih hlexes)
    | token hnot => cases hnot.symm.trans hblank
  | @token c cs w rest t ds hnot hcs hsplit hspaced ih =>
    cases hlexes with
    | blank hblank => cases hnot.symm.trans hblank
    | token _ hsplit' hlexes =>
      obtain ⟨rfl, rfl⟩ := Prod.mk.inj (Except.ok.inj (hsplit.symm.trans hsplit'))
      obtain ⟨v, hv, hspelling, hends⟩ := Token.split_eq_ok_iff.mp hsplit
      obtain rfl := List.append_cancel_right (hcs.symm.trans hv)
      -- the token still ends there: blanks continue no token
      have hends' : t.Ends ds := by
        intro d hd
        rcases hspaced.head? hd with hblank | hd
        · exact Token.continues_eq_false_of_isBlank hblank
        · exact hends d hd
      exact hspelling.lexes hends' (ih hlexes)

/-- A text that falls into tokens is scanned the same with white space inserted. -/
theorem Spaced.scan_eq (h : Spaced cs ds) (hfault : (scan cs).fault = none) : scan ds = scan cs := by
  have hlexes := lexes_scan cs hfault
  rw [lexes_iff_scan_eq.mp hlexes, lexes_iff_scan_eq.mp (h.lexes hlexes)]

/-! ## White space at the ends -/

variable {before text after : List Char}

theorem Text.trim_append (hbefore : ∀ c ∈ before, isBlank c) (hafter : ∀ c ∈ after, isBlank c) :
    trim (before ++ text ++ after) = trim text := by
  have hreverse : ∀ c ∈ after.reverse, isBlank c := fun c hc =>
    hafter c (List.mem_reverse.mp hc)
  rw [trim, trim, List.append_assoc, List.dropWhile_append_of_pos hbefore, List.dropWhile_append]
  split
  · rename_i hempty
    rw [List.dropWhile_eq_nil_iff.mpr hafter, List.isEmpty_iff.mp hempty]
  · rw [List.reverse_append, List.dropWhile_append_of_pos hreverse]

theorem isAllowed_of_isBlank (h : Text.isBlank c) : isAllowed c := by simp [isAllowed, h]

theorem screen_append {before text after : String} (hbefore : ∀ c ∈ before.toList, Text.isBlank c)
    (hafter : ∀ c ∈ after.toList, Text.isBlank c) :
    screen (before ++ text ++ after) = screen text := by
  have hnone {s : String} (hs : ∀ c ∈ s.toList, Text.isBlank c) :
      s.toList.find? (!isAllowed ·) = none :=
    List.find?_eq_none.mpr fun c hc => by simp [isAllowed_of_isBlank (hs c hc)]
  have hall {s : String} (hs : ∀ c ∈ s.toList, Text.isBlank c) : s.toList.all Text.isBlank = true :=
    List.all_eq_true.mpr hs
  simp only [screen, String.toList_append, List.all_append, List.find?_append, hall hbefore,
    hall hafter, hnone hbefore, hnone hafter, Bool.true_and, Bool.and_true, Option.none_or,
    Option.or_none]

/-! ## Reading and calculating -/

/-- White space between the tokens of a text changes neither the tokens nor what is read of them, as
long as the text does not become too long. White space at the ends changes nothing that is
calculated, and counts for no limit. -/
theorem spacing_irrelevant :
    (∀ text spaced : String, (scan text.toList).fault = none →
      Spaced text.toList spaced.toList →
        scan spaced.toList = scan text.toList ∧
        ∀ policy : Policy, text.length ≤ policy.maxLength.toNat →
          spaced.length ≤ policy.maxLength.toNat →
          Expr.ofText policy spaced = Expr.ofText policy text) ∧
    ∀ (ctx : Context) (before text after : String), (∀ c ∈ before.toList, Text.isBlank c) →
      (∀ c ∈ after.toList, Text.isBlank c) →
        ctx.calculate (before ++ text ++ after) = ctx.calculate text := by
  constructor
  · intro text spaced hfault hspaced
    have hscan := hspaced.scan_eq hfault
    refine ⟨hscan, fun policy hlength hlength' => ?_⟩
    rw [Expr.ofText_eq hlength, Expr.ofText_eq hlength', hscan]
  · intro ctx before text after hbefore hafter
    rw [Context.calculate, Context.calculate, screen_append hbefore hafter, String.toList_append,
      String.toList_append, Text.trim_append hbefore hafter]

/-- A doubled operator, a separated numeral and a text that holds white space of its own; and a text
that is too long but for the white space at its ends. -/
theorem spacing_irrelevant_doubled :
    let ctx : Context := ⟨.empty, .empty, { maxLength := 3 }⟩
    scan "2_0\u3000** 'b  c'\n".toList = scan "2_0**'b  c'".toList ∧
      Expr.ofText {} "2_0\u3000** 'b  c'\n" = Expr.ofText {} "2_0**'b  c'" ∧
      ctx.calculate " \t1+1\u2003" = ctx.calculate "1+1" := by
  intro ctx
  have hspaced : Spaced "2_0**'b  c'".toList "2_0\u3000** 'b  c'\n".toList :=
    .token (w := ['2', '_', '0']) rfl rfl (t := .number (.ofInt 20)) (by decide +kernel) <|
    .insert rfl <| .token (w := ['*', '*']) rfl rfl rfl <| .insert rfl <|
    .token (w := ['\'', 'b', ' ', ' ', 'c', '\'']) rfl rfl rfl <| .insert rfl .nil
  obtain ⟨hscan, hread⟩ := spacing_irrelevant.1 _ _ (by decide +kernel) hspaced
  refine ⟨hscan, hread {} (by decide) (by decide), ?_⟩
  exact spacing_irrelevant.2 ctx " \t" "1+1" "\u2003" (List.all_eq_true.mp rfl)
    (List.all_eq_true.mp rfl)

end MetricFormula
