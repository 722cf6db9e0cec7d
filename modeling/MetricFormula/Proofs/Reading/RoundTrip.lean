import MetricFormula.Proofs.Decimal.Positional
import MetricFormula.Proofs.Grammar.Rendering
import MetricFormula.Proofs.Reading.Language

/-! # Texts that read back

An expression whose leaves can be spelled, and whose calls are admitted, has a text: its tokens,
with no parentheses but those that the grammar asks for. Every spelling of these tokens reads back
as the expression, and no text that reads back as it holds fewer parentheses. -/

namespace MetricFormula

/-- The expression can be written as a formula. Numbers have no sign of their own, and what a text
holds has to leave one of the quotes to it. -/
inductive Expr.Expressible : Expr → Prop
  | number {x} : x.isFinite → x.isNegative = false → Expressible (.number x)
  | text {s} : '"' ∉ s.toList ∨ '\'' ∉ s.toList → Expressible (.text s)
  | name {s} : isName s → Expressible (.name s)
  | call {f args} : f.arity.admits args.length → (∀ a ∈ args, Expressible a) →
      Expressible (.call f args)
  | signed {sign e} : Expressible e → Expressible (.signed sign e)
  | binary {op l r} : Expressible l → Expressible r → Expressible (.binary op l r)

/-- One spelling of a token: a number as in running text, a text between double quotes if it holds
none. -/
def Token.spelling : Token → List Char
  | name s => s.toList
  | number x => (Notation.plain.text x).toList
  | text s =>
    let quote := if '"' ∈ s.toList then '\'' else '"'
    quote :: (s.toList ++ [quote])
  | t => t.symbol?.getD []

/-- The tokens of an expression with no white space between them. -/
def Expr.render (e : Expr) : String := String.ofList ((e.tokens .expr).flatMap Token.spelling)

variable {e : Expr} {ts : List Token}

/-! ## Spelling the tokens -/

theorem Spelling.ofSymbol {t : Token} (h : t.symbol?.isSome) : Spelling t t.spelling := by
  cases t with
  | name | number | text => cases h
  | _ => exact .symbol rfl

theorem Spelling.ofText {s : String} (h : '"' ∉ s.toList ∨ '\'' ∉ s.toList) :
    Spelling (.text s) (Token.text s).spelling := by
  simp only [Token.spelling]
  split
  · rename_i hdouble
    exact .text (.inr rfl) (h.resolve_left (not_not_intro hdouble))
  · rename_i hdouble
    exact .text (.inl rfl) hdouble

theorem isName_of_isAlpha {s : String} (hhead : s.toList.head?.any Char.isAlpha)
    (h : s.toList.all fun c => c.isAlpha || c = '_') : isName s := by
  rw [isName]
  cases hs : s.toList with
  | nil =>
    rw [hs] at hhead
    cases hhead
  | cons c cs =>
    rw [hs] at hhead h
    have hstart : isNameStart c := by
      simp [isNameStart, Text.isAlphabetic_of_isAlpha (show c.isAlpha from hhead)]
    have hparts : ∀ d ∈ cs, isNamePart d := by
      intro d hd
      rcases Bool.or_eq_true_iff.mp (List.all_eq_true.mp h d (.tail c hd)) with halpha | hunderscore
      · simp [isNamePart, Text.isAlphabetic_of_isAlpha halpha]
      · simp [isNamePart, of_decide_eq_true hunderscore]
    exact Bool.and_eq_true_iff.mpr ⟨hstart, List.all_eq_true.mpr hparts⟩

theorem Function.isName_name (f : Function) : isName f.name := by
  have hhead : (all.all fun f => f.name.toList.head?.any Char.isAlpha) = true := by
    decide +kernel
  have hall : (all.all fun f => f.name.toList.all fun c => c.isAlpha || c = '_') = true := by
    decide +kernel
  exact isName_of_isAlpha (List.all_eq_true.mp hhead f f.mem_all)
    (List.all_eq_true.mp hall f f.mem_all)

theorem written_flatMap_spelling (h : ∀ t ∈ ts, Spelling t t.spelling) :
    Written ts (ts.flatMap Token.spelling) := by
  induction ts with
  | nil => exact .nil
  | cons t ts ih =>
    obtain ⟨ht, hts⟩ := List.forall_mem_cons.mp h
    exact .token ht (ih hts)

theorem forall_mem_grouped {nt layer : Nonterminal} {p : Token → Prop} (hleft : p .leftParen)
    (hright : p .rightParen) (h : ∀ t ∈ ts, p t) : ∀ t ∈ grouped nt layer ts, p t := by
  rw [grouped]
  split
  · exact h
  · exact List.forall_mem_append.mpr
      ⟨List.forall_mem_cons.mpr ⟨hleft, h⟩, List.forall_mem_singleton.mpr hright⟩

theorem forall_mem_argumentTokens {p : Token → Prop} (hcomma : p .comma) {args : List Expr}
    (h : ∀ a ∈ args, ∀ t ∈ a.tokens .expr, p t) : ∀ t ∈ argumentTokens args, p t := by
  induction args with
  | nil => nofun
  | cons a args ih =>
    obtain ⟨ha, hargs⟩ := List.forall_mem_cons.mp h
    cases args with
    | nil => exact ha
    | cons b args =>
      exact List.forall_mem_append.mpr ⟨ha, List.forall_mem_cons.mpr ⟨hcomma, ih hargs⟩⟩

namespace Expr.Expressible

theorem callsAdmitted (h : e.Expressible) : e.CallsAdmitted := by
  induction h with
  | number | text | name =>
    intro f args hwithin
    cases hwithin
  | call hadmits _ ih => exact .call hadmits ih
  | signed _ ih => exact .signed ih
  | binary _ _ ihl ihr => exact .binary ihl ihr

theorem spelling (h : e.Expressible) (nt : Nonterminal) :
    ∀ t ∈ e.tokens nt, Spelling t t.spelling := by
  induction h generalizing nt with
  | number hfinite hsign => exact List.forall_mem_singleton.mpr (.plainText hfinite hsign)
  | text hs => exact List.forall_mem_singleton.mpr (.ofText hs)
  | name hs => exact List.forall_mem_singleton.mpr (.name hs)
  | @call f args _ _ ih =>
    have hargs := forall_mem_argumentTokens (.ofSymbol rfl) fun a ha => ih a ha .expr
    refine List.forall_mem_cons.mpr
      ⟨.name f.isName_name, List.forall_mem_cons.mpr ⟨.ofSymbol rfl, ?_⟩⟩
    exact List.forall_mem_append.mpr ⟨hargs, List.forall_mem_singleton.mpr (.ofSymbol rfl)⟩
  | @signed sign e _ ih =>
    have hsign : sign.token.symbol?.isSome := by cases sign <;> rfl
    exact forall_mem_grouped (.ofSymbol rfl) (.ofSymbol rfl)
      (List.forall_mem_cons.mpr ⟨.ofSymbol hsign, ih .factor⟩)
  | @binary op l r _ _ ihl ihr =>
    have hop : op.token.symbol?.isSome := by cases op <;> rfl
    exact forall_mem_grouped (.ofSymbol rfl) (.ofSymbol rfl)
      (List.forall_mem_append.mpr
        ⟨ihl op.left, List.forall_mem_cons.mpr ⟨.ofSymbol hop, ihr op.right⟩⟩)

theorem written_render (h : e.Expressible) : Written (e.tokens .expr) e.render.toList := by
  rw [render, String.toList_ofList]
  exact written_flatMap_spelling (h.spelling .expr)

end Expr.Expressible

/-! ## Reading them back -/

/-- What reads back as an expression holds at least the parentheses of its tokens. -/
theorem Expr.openings_tokens_le {policy : Policy} {text : String}
    (h : Expr.ofText policy text = .ok e) :
    openings (e.tokens .expr) ≤ openings (scan text.toList).tokens := by
  rw [Expr.ofText] at h
  split at h
  · cases h
  · exact (ReadingRules.derives_of_ofTokens h).2.openings_tokens_le

/-- Every expressible expression has a text. However its tokens are spelled, and whatever white
space stands between them, they read back as the expression under every policy whose limits are at
least the length of the text. No text that reads back as the expression holds fewer
parentheses. -/
theorem Expr.Expressible.ofText_written (he : e.Expressible) :
    Written (e.tokens .expr) e.render.toList ∧
    (∀ policy text, Written (e.tokens .expr) text.toList →
      text.length ≤ policy.maxLength.toNat → text.length ≤ policy.maxNesting.toNat →
      Expr.ofText policy text = .ok e) ∧
    ∀ policy text, Expr.ofText policy text = .ok e →
      openings (e.tokens .expr) ≤ openings (scan text.toList).tokens := by
  refine ⟨he.written_render, ?_, fun _ _ => Expr.openings_tokens_le⟩
  intro policy text hwritten hlength hnesting
  have hderives : Derives policy.ignoreCase .expr (e.tokens .expr) e :=
    Expr.derives_tokens he.callsAdmitted .expr
  exact Expr.ofText_of_derives hlength hnesting (hderives.lexes_of_written hwritten) hderives

theorem Expr.Expressible.ofText_written_quoted :
    let e : Expr := .binary .mul (.binary .add (.name "a") (.number (.ofInt 2)))
      (.signed .minus (.binary .pow (.name "b") (.text "it's")))
    Expr.ofText {} "(a + 2_0e-1)*-b ** \"it's\"" = .ok e ∧
      ∀ policy text, Expr.ofText policy text = .ok e → 1 ≤ openings (scan text.toList).tokens := by
  intro e
  have he : e.Expressible :=
    .binary (.binary (.name (by decide)) (.number (by decide +kernel) (by decide +kernel)))
      (.signed (.binary (.name (by decide)) (.text (.inl (by decide)))))
  have hnumber : Spelling (.number (.ofInt 2)) ['2', '_', '0', 'e', '-', '1'] :=
    .number (.scientific (.whole (.digits rfl (.separated rfl .nil))) (.inl rfl) (.inr (.inr rfl))
      (.digits rfl .nil)) (by decide +kernel)
  have hwritten : Written (e.tokens .expr) "(a + 2_0e-1)*-b ** \"it's\"".toList :=
    .token (w := ['(']) (.symbol rfl) <| .token (.name (by decide)) <| .blank rfl <|
    .token (w := ['+']) (.symbol rfl) <| .blank rfl <| .token hnumber <|
    .token (w := [')']) (.symbol rfl) <| .token (w := ['*']) (.symbol rfl) <|
    .token (w := ['-']) (.symbol rfl) <| .token (.name (by decide)) <| .blank rfl <|
    .token (w := ['*', '*']) (.symbol rfl) <| .blank rfl <|
    .token (.text (.inl rfl) (by decide)) .nil
  obtain ⟨_, hread, hfewest⟩ := he.ofText_written
  exact ⟨hread {} _ hwritten (by decide) (by decide), hfewest⟩

end MetricFormula
