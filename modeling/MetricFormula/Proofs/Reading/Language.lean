import MetricFormula.Proofs.Grammar.Lexing
import MetricFormula.Proofs.Reading.Completeness

/-! # The language of formulas

Reading a text gives exactly the tree that the grammar derives from its tokens, wherever the limits
leave room for as much nesting as the text has characters. That the reader is a function makes the
grammar unambiguous, and its trees group as the grammar of layers says. -/

namespace MetricFormula

variable {ignoreCase : Bool} {ts us vs : List Token} {e e' : Expr}

/-! ## One tree for the tokens -/

/-- Rules under which nothing but the grammar decides about so many tokens. -/
def ReadingRules.plain (ignoreCase : Bool) (length : Nat) : ReadingRules :=
  ⟨ignoreCase, length, none⟩

theorem ReadingRules.ofTokens_plain :
    (plain ignoreCase ts.length).ofTokens ts = .ok e ↔ Derives ignoreCase .expr ts e := by
  rw [ofTokens_eq_ok_iff_derives (Nat.le_refl _)]
  exact ⟨And.right, fun h => ⟨rfl, h⟩⟩

theorem Derives.unique (h : Derives ignoreCase .expr ts e) (h' : Derives ignoreCase .expr ts e') :
    e' = e :=
  Except.ok.inj ((ReadingRules.ofTokens_plain.mpr h').symm.trans (ReadingRules.ofTokens_plain.mpr h))

/-- What derives a tree derives nothing else. -/
theorem Derives.expr_iff (h : Derives ignoreCase .expr ts e) :
    Derives ignoreCase .expr ts e' ↔ e' = e :=
  ⟨h.unique, fun heq => heq ▸ h⟩

theorem Derives.expr_of_factor (h : Derives ignoreCase .factor ts e) :
    Derives ignoreCase .expr ts e := .ofTerm (.ofFactor h)

/-! ## Grouping -/

/-- How operators in a row group, whatever stands between them. -/
structure Grouping (ignoreCase : Bool) : Prop where
  sums {ts us vs t t' op op' l m r} : Derives ignoreCase .expr ts l → Additive t op →
    Derives ignoreCase .term us m → Additive t' op' → Derives ignoreCase .term vs r →
    ∀ e, Derives ignoreCase .expr (ts ++ t :: us ++ t' :: vs) e ↔
      e = .binary op' (.binary op l m) r
  products {ts us vs t t' op op' l m r} : Derives ignoreCase .term ts l → Multiplicative t op →
    Derives ignoreCase .factor us m → Multiplicative t' op' → Derives ignoreCase .factor vs r →
    ∀ e, Derives ignoreCase .expr (ts ++ t :: us ++ t' :: vs) e ↔
      e = .binary op' (.binary op l m) r
  powers {ts us vs b m x} : Derives ignoreCase .primary ts b → Derives ignoreCase .primary us m →
    Derives ignoreCase .factor vs x →
    ∀ e, Derives ignoreCase .expr (ts ++ .starStar :: (us ++ .starStar :: vs)) e ↔
      e = .binary .pow b (.binary .pow m x)
  /-- A sign before a power is a sign of all of it. -/
  signs {ts us t sign b x} : Prefixed t sign → Derives ignoreCase .primary ts b →
    Derives ignoreCase .factor us x →
    ∀ e, Derives ignoreCase .expr (t :: (ts ++ .starStar :: us)) e ↔
      e = .signed sign (.binary .pow b x)
  signedExponents {ts us t sign b x} : Derives ignoreCase .primary ts b → Prefixed t sign →
    Derives ignoreCase .factor us x →
    ∀ e, Derives ignoreCase .expr (ts ++ .starStar :: t :: us) e ↔
      e = .binary .pow b (.signed sign x)

theorem grouping (ignoreCase : Bool) : Grouping ignoreCase where
  sums hl hop hm hop' hr _ := (Derives.sum (.sum hl hop hm) hop' hr).expr_iff
  products hl hop hm hop' hr _ :=
    (Derives.ofTerm (.product (.product hl hop hm) hop' hr)).expr_iff
  powers hb hm hx _ := (Derives.expr_of_factor (.ofPower (.pow hb (.ofPower (.pow hm hx))))).expr_iff
  signs hsign hb hx _ := (Derives.expr_of_factor (.signed hsign (.ofPower (.pow hb hx)))).expr_iff
  signedExponents hb hsign hx _ :=
    (Derives.expr_of_factor (.ofPower (.pow hb (.signed hsign hx)))).expr_iff

/-! ## Texts -/

/-- Reading the tokens of a text, to its end or to a fault in it. -/
theorem Expr.ofText_eq {policy : Policy} {text : String}
    (h : text.length ≤ policy.maxLength.toNat) :
    Expr.ofText policy text =
      ReadingRules.ofTokens
        ⟨policy.ignoreCase, policy.maxNesting.toNat, (scan text.toList).fault⟩
        (scan text.toList).tokens :=
  if_neg (Nat.not_lt_of_le h)

/-- A tree that the grammar derives from a text within the limits is what is read. -/
theorem Expr.ofText_of_derives {policy : Policy} {text : String}
    (hlength : text.length ≤ policy.maxLength.toNat)
    (hnesting : text.length ≤ policy.maxNesting.toNat) (hlexes : Lexes text.toList ts)
    (h : Derives policy.ignoreCase .expr ts e) : Expr.ofText policy text = .ok e := by
  have hlen := hlexes.length_le
  rw [String.length_toList] at hlen
  rw [Expr.ofText_eq hlength, lexes_iff_scan_eq.mp hlexes]
  exact (ReadingRules.ofTokens_eq_ok_iff_derives (Nat.le_trans hlen hnesting)).mpr ⟨rfl, h⟩

/-- A text within the limits is read exactly if it falls into tokens from which the grammar derives a
tree, which is then what is read. There is only one such tree, and it groups as it should. -/
theorem Expr.ofText_eq_ok_iff_derives (policy : Policy) (text : String)
    (hlength : text.length ≤ policy.maxLength.toNat)
    (hnesting : text.length ≤ policy.maxNesting.toNat) :
    (∀ e, Expr.ofText policy text = .ok e ↔
      ∃ ts, Lexes text.toList ts ∧ Derives policy.ignoreCase .expr ts e) ∧
    (∀ ts us e e', Lexes text.toList ts → Derives policy.ignoreCase .expr ts e →
      Lexes text.toList us → Derives policy.ignoreCase .expr us e' → us = ts ∧ e' = e) ∧
    Grouping policy.ignoreCase := by
  refine ⟨fun e => ?_, fun ts us e e' hts he hus he' => ?_, grouping policy.ignoreCase⟩
  · rw [Expr.ofText_eq hlength]
    constructor
    · intro h
      obtain ⟨hfault, h⟩ := ReadingRules.derives_of_ofTokens h
      exact ⟨_, lexes_scan _ hfault, h⟩
    · rintro ⟨ts, hlexes, he⟩
      have hlen := hlexes.length_le
      rw [String.length_toList] at hlen
      rw [lexes_iff_scan_eq.mp hlexes]
      exact (ReadingRules.ofTokens_eq_ok_iff_derives (Nat.le_trans hlen hnesting)).mpr ⟨rfl, he⟩
  · obtain rfl := hus.unique hts
    exact ⟨rfl, he.unique he'⟩

theorem Expr.ofText_signed_power :
    Expr.ofText {} "-'a' ** -'b'" =
      .ok (.signed .minus (.binary .pow (.text "a") (.signed .minus (.text "b")))) := by
  obtain ⟨hread, _, hgrouping⟩ :=
    Expr.ofText_eq_ok_iff_derives {} "-'a' ** -'b'" (by decide) (by decide)
  refine (hread _).mpr ⟨[.minus, .text "a", .starStar, .minus, .text "b"], ?_, ?_⟩
  · exact .token rfl rfl (.token rfl rfl (.blank rfl (.token rfl rfl (.blank rfl
      (.token rfl rfl (.token rfl rfl .nil))))))
  · exact (hgrouping.signs .minus .text (.signed .minus (.ofPower (.ofPrimary .text))) _).mpr rfl

end MetricFormula
