import MetricFormula.Proofs.Grammar.Nesting
import MetricFormula.Proofs.Reading.Success

/-! # Readings are derivations

Whatever a reader takes derives, in the grammar, the tree that the reader gives, and nests no deeper
than the reader may go. Reading recurses on the nesting that is left, so each statement assumes as
much of the reader of what is nested, and the statement about all of them, `takes_readExpr_nested`,
is by induction on the nesting. -/

namespace MetricFormula

/-- The nonterminal of the expressions of a level. -/
def Level.nonterminal : Level → Nonterminal
  | sum => .expr
  | product => .term
  | factor => .factor

variable {operand n : Nat} {ignoreCase : Bool}

/-- Chains of both levels are left-recursive in the same way. -/
theorem NestsWithin.join {level : Level} {ts us : List Token} {t : Token} {op : BinaryOp} {l r : Expr}
    (hl : NestsWithin operand ignoreCase (n + operand) level.nonterminal ts l)
    (hop : level.operator? t = some op)
    (hr : NestsWithin operand ignoreCase n level.part.nonterminal us r) :
    NestsWithin operand ignoreCase (n + operand) level.nonterminal (ts ++ t :: us)
      (.binary op l r) := by
  unfold Level.operator? at hop
  split at hop <;> cases hop
  · exact .sum hl .add hr
  · exact .sum hl .sub hr
  · exact .product hl .mul hr
  · exact .product hl .div hr
  · exact .product hl .floorDiv hr

namespace ReadingRules

/-- What has been taken derives the tree within `n` levels of nesting, and there is something to look
at behind it. -/
def Nested (rules : ReadingRules) (n : Nat) (nt : Nonterminal) (ts : List Token) (e : Expr)
    (rest : List Token) : Prop :=
  (∃ front, ts = front ++ rest ∧ NestsWithin 1 rules.ignoreCase n nt front e) ∧ rules.Follows rest

/-- The reader takes derivations within `n` levels of nesting. -/
def TakesNested (rules : ReadingRules) (read : ExprReader) (n : Nat) : Prop :=
  ∀ {level ts e rest}, Takes (read level) ts e rest → rules.Nested n level.nonterminal ts e rest

/-- The reader of what is nested, if there is one, takes derivations within one level less than `n`. -/
def NestsDeeper (rules : ReadingRules) (deeper : Except Fault ExprReader) (n : Nat) : Prop :=
  ∀ read, deeper = .ok read → ∃ m, n = m + 1 ∧ rules.TakesNested read m

variable {rules : ReadingRules} {deeper : Except Fault ExprReader} {read : ExprReader}
  {level : Level} {ts rest : List Token} {e : Expr} {args : List Expr}

theorem TakesList.nested (hread : rules.TakesNested read n)
    (h : rules.TakesList read ts args rest) :
    (∃ front, ts = front ++ .rightParen :: rest ∧
      ListNestsWithin 1 rules.ignoreCase n front args) ∧ rules.Follows rest := by
  induction h with
  | last ha hfollows =>
    obtain ⟨⟨front, rfl, hfront⟩, _⟩ := hread ha
    exact ⟨⟨front, rfl, .last hfront⟩, hfollows⟩
  | comma ha _ _ ih =>
    obtain ⟨⟨front, rfl, hfront⟩, _⟩ := hread ha
    obtain ⟨⟨more, rfl, hmore⟩, hfollows⟩ := ih
    exact ⟨⟨front ++ .comma :: more, by simp, .comma hfront hmore⟩, hfollows⟩

theorem TakesArguments.nested (hread : rules.TakesNested read n)
    (h : rules.TakesArguments read ts args rest) :
    (∃ front, ts = front ++ .rightParen :: rest ∧
      ArgumentsNestWithin 1 rules.ignoreCase n front args) ∧ rules.Follows rest := by
  cases h with
  | empty hfollows => exact ⟨⟨[], rfl, .empty⟩, hfollows⟩
  | list _ h =>
    obtain ⟨⟨front, hts, hfront⟩, hfollows⟩ := h.nested hread
    exact ⟨⟨front, hts, .list hfront⟩, hfollows⟩

section
variable (hdeeper : rules.NestsDeeper deeper n)
include hdeeper

theorem TakesDeeper.nested (h : TakesDeeper deeper level ts e rest) :
    ∃ m, n = m + 1 ∧ rules.Nested m level.nonterminal ts e rest := by
  obtain ⟨read, hread, h⟩ := h
  obtain ⟨m, rfl, hnested⟩ := hdeeper read hread
  exact ⟨m, rfl, hnested h⟩

theorem TakesOperand.nested (h : rules.TakesOperand deeper ts e rest) :
    rules.Nested n .primary ts e rest := by
  cases h with
  | number hfollows => exact ⟨⟨_, rfl, .number⟩, hfollows⟩
  | text hfollows => exact ⟨⟨_, rfl, .text⟩, hfollows⟩
  | name _ hfollows => exact ⟨⟨_, rfl, .name⟩, hfollows⟩
  | call h =>
    obtain ⟨hf, _, hread, hargs, hadmits⟩ := h
    obtain ⟨m, rfl, hnested⟩ := hdeeper _ hread
    obtain ⟨⟨front, rfl, hfront⟩, hfollows⟩ := hargs.nested hnested
    exact ⟨⟨_, by simp, .call hf hfront hadmits⟩, hfollows⟩
  | parens _ he hfollows =>
    obtain ⟨m, rfl, ⟨front, rfl, hfront⟩, _⟩ := he.nested hdeeper
    exact ⟨⟨_, by simp, .parens hfront⟩, hfollows⟩

theorem TakesPower.nested (h : rules.TakesPower deeper ts e rest) :
    rules.Nested n .power ts e rest := by
  cases h with
  | operand h =>
    obtain ⟨⟨front, hts, hfront⟩, hfollows⟩ := h.nested hdeeper
    exact ⟨⟨front, hts, .ofPrimary hfront⟩, hfollows⟩
  | pow h _ hx =>
    obtain ⟨⟨base, rfl, hbase⟩, _⟩ := h.nested hdeeper
    obtain ⟨m, rfl, ⟨exponent, rfl, hexponent⟩, hfollows⟩ := hx.nested hdeeper
    exact ⟨⟨_, by simp, .pow hbase hexponent⟩, hfollows⟩

theorem TakesFactor.nested (h : rules.TakesFactor deeper ts e rest) :
    rules.Nested n .factor ts e rest := by
  cases h with
  | plus _ he =>
    obtain ⟨m, rfl, ⟨front, rfl, hfront⟩, hfollows⟩ := he.nested hdeeper
    exact ⟨⟨_, rfl, .signed .plus hfront⟩, hfollows⟩
  | minus _ he =>
    obtain ⟨m, rfl, ⟨front, rfl, hfront⟩, hfollows⟩ := he.nested hdeeper
    exact ⟨⟨_, rfl, .signed .minus hfront⟩, hfollows⟩
  | power h =>
    obtain ⟨⟨front, hts, hfront⟩, hfollows⟩ := h.nested hdeeper
    exact ⟨⟨front, hts, .ofPower hfront⟩, hfollows⟩

/-- A chain goes on with a derivation of what has been joined so far. -/
theorem TakesChain.nested {left : Expr} {mid : List Token}
    (h : rules.TakesChain deeper level left mid e rest)
    (hleft : rules.Nested n level.nonterminal ts left mid) :
    rules.Nested n level.nonterminal ts e rest := by
  induction h with
  | stop => exact hleft
  | step hop _ hright _ ih =>
    obtain ⟨⟨front, rfl, hfront⟩, _⟩ := hleft
    obtain ⟨m, rfl, ⟨part, rfl, hpart⟩, hfollows⟩ := hright.nested hdeeper
    exact ih ⟨⟨_, by simp, hfront.join hop hpart⟩, hfollows⟩

theorem TakesExpression.nested (h : rules.TakesExpression deeper level ts e rest) :
    rules.Nested n level.nonterminal ts e rest := by
  induction h with
  | factor h => exact h.nested hdeeper
  | product _ hchain ih =>
    obtain ⟨⟨front, hts, hfront⟩, hfollows⟩ := ih
    exact hchain.nested hdeeper ⟨⟨front, hts, .ofFactor hfront⟩, hfollows⟩
  | sum _ hchain ih =>
    obtain ⟨⟨front, hts, hfront⟩, hfollows⟩ := ih
    exact hchain.nested hdeeper ⟨⟨front, hts, .ofTerm hfront⟩, hfollows⟩

end

theorem takes_readExpr_nested (nesting : Nat) :
    rules.TakesNested (rules.readExpr nesting) nesting := by
  induction nesting with
  | zero =>
    intro level ts e rest h
    have hdeeper : rules.NestsDeeper (.error (.tooComplex (.nesting rules.maxNesting))) 0 := nofun
    exact (takes_expression.mp h).nested hdeeper
  | succ nesting ih =>
    intro level ts e rest h
    refine (takes_expression.mp h).nested fun read hread => ?_
    obtain rfl := Except.ok.inj hread
    exact ⟨nesting, rfl, ih⟩

/-- A tree that is read is derived from all of the tokens, which no fault follows, and nests no deeper
than it may. -/
theorem nestsWithin_of_ofTokens (h : rules.ofTokens ts = .ok e) :
    rules.ending = none ∧ NestsWithin 1 rules.ignoreCase rules.maxNesting .expr ts e := by
  obtain ⟨_, h⟩ := ofTokens_eq_ok.mp h
  obtain ⟨⟨front, rfl, hfront⟩, hfollows⟩ := takes_readExpr_nested rules.maxNesting h
  rw [List.append_nil]
  exact ⟨hfollows rfl, hfront⟩

theorem derives_of_ofTokens (h : rules.ofTokens ts = .ok e) :
    rules.ending = none ∧ Derives rules.ignoreCase .expr ts e :=
  (nestsWithin_of_ofTokens h).imp_right (·.derives)

end ReadingRules
end MetricFormula
