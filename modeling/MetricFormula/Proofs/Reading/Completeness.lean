import MetricFormula.Proofs.Reading.Soundness

/-! # Derivations are read

Where no fault lies behind the tokens, the reader takes whatever the grammar derives and nests no
deeper than the reader may go, provided that what follows does not go on with it. The reader is greedy
and the grammar left-recursive, so a chain is followed from its first part: the reader comes from
there to wherever the chain goes on (`exists_takes_part`). -/

namespace MetricFormula

/-- Whether the token may go on with a phrase of the nonterminal, or with the end of one. -/
def Nonterminal.goesOn : Nonterminal → Token → Bool
  | _, .leftParen => true
  | .power, .starStar | .factor, .starStar | .term, .starStar | .expr, .starStar => true
  | .term, .star | .term, .slash | .term, .slashSlash => true
  | .expr, .star | .expr, .slash | .expr, .slashSlash | .expr, .plus | .expr, .minus => true
  | _, _ => false

/-- A phrase of the nonterminal ends before the tokens. -/
def Nonterminal.EndsBefore (nt : Nonterminal) (rest : List Token) : Prop :=
  ∀ t ∈ rest.head?, nt.goesOn t = false

/-- What ends a phrase ends its last operand: a parenthesis goes on with all of them. -/
theorem Nonterminal.EndsBefore.primary {nt : Nonterminal} {rest : List Token}
    (h : nt.EndsBefore rest) : Nonterminal.primary.EndsBefore rest := by
  intro t ht
  have hnot := h t ht
  cases t <;> first | rfl | nomatch hnot

variable {ignoreCase : Bool} {level : Level} {t : Token} {op : BinaryOp}

theorem Level.goesOn_of_part (h : level.part.nonterminal.goesOn t) : level.nonterminal.goesOn t := by
  cases level <;> cases t <;> first | rfl | nomatch h

/-- An operator of a chain goes on with the chain and not with its parts. -/
theorem Level.goesOn_operator (h : level.operator? t = some op) :
    level.nonterminal.goesOn t = true ∧ level.part.nonterminal.goesOn t = false := by
  unfold Level.operator? at h
  split at h <;> first | exact ⟨rfl, rfl⟩ | nomatch h

theorem Level.endsBefore_part {rest : List Token} (h : level.nonterminal.EndsBefore rest) :
    level.part.nonterminal.EndsBefore rest := fun t ht =>
  Bool.eq_false_iff.mpr fun hpart => Bool.eq_false_iff.mp (h t ht) (Level.goesOn_of_part hpart)

/-- A derivation of a chain ends in a part, which is all of it or stands behind an operator and there
lies one level deeper. -/
theorem NestsWithin.part_or_join {n : Nat} {ts : List Token} {e : Expr}
    (h : NestsWithin 1 ignoreCase n level.nonterminal ts e) :
    NestsWithin 1 ignoreCase n level.part.nonterminal ts e ∨
      ∃ m us t vs op l r, n = m + 1 ∧ ts = us ++ t :: vs ∧ e = .binary op l r ∧
        level.operator? t = some op ∧ NestsWithin 1 ignoreCase n level.nonterminal us l ∧
        NestsWithin 1 ignoreCase m level.part.nonterminal vs r := by
  cases level with
  | factor => exact .inl h
  | product =>
    cases h with
    | ofFactor h => exact .inl h
    | product hl hop hr =>
      exact .inr ⟨_, _, _, _, _, _, _, rfl, rfl, rfl, by cases hop <;> rfl, hl, hr⟩
  | sum =>
    cases h with
    | ofTerm h => exact .inl h
    | sum hl hop hr =>
      exact .inr ⟨_, _, _, _, _, _, _, rfl, rfl, rfl, by cases hop <;> rfl, hl, hr⟩

namespace ReadingRules

/-- The reader takes all derivations within `n` levels of nesting that end before the rest. -/
def CompleteWithin (rules : ReadingRules) (read : ExprReader) (n : Nat) : Prop :=
  ∀ level {ts e} rest, NestsWithin 1 rules.ignoreCase n level.nonterminal ts e →
    level.nonterminal.EndsBefore rest → Takes (read level) (ts ++ rest) e rest

/-- There is a reader of what is nested, and it takes all derivations within one level less than `n`,
unless that is less than none. -/
def CompleteDeeper (rules : ReadingRules) (deeper : Except Fault ExprReader) (n : Nat) : Prop :=
  ∀ m, n = m + 1 → ∃ read, deeper = .ok read ∧ rules.CompleteWithin read m

theorem CompleteDeeper.takes {rules : ReadingRules} {deeper : Except Fault ExprReader} {n m : Nat}
    {ts rest : List Token} {e : Expr} (h : rules.CompleteDeeper deeper n) (hn : n = m + 1)
    (level : Level) (he : NestsWithin 1 rules.ignoreCase m level.nonterminal ts e)
    (hend : level.nonterminal.EndsBefore rest) : TakesDeeper deeper level (ts ++ rest) e rest := by
  obtain ⟨read, hread, hcomplete⟩ := h m hn
  exact ⟨read, hread, hcomplete level rest he hend⟩

section
variable {rules : ReadingRules} (hending : rules.ending = none)
include hending

/-! ## Arguments -/

section
variable {read : ExprReader} {n : Nat} (hread : rules.CompleteWithin read n)
include hread

theorem takesList_of_nestsWithin {ts rest : List Token} {args : List Expr}
    (h : ListNestsWithin 1 rules.ignoreCase n ts args) :
    rules.TakesList read (ts ++ .rightParen :: rest) args rest := by
  match h with
  | .last h => exact .last (hread .sum _ h (by rintro _ ⟨⟩; rfl)) fun _ => hending
  | .comma h hmore =>
    rw [List.append_assoc]
    exact .comma (hread .sum _ h (by rintro _ ⟨⟩; rfl)) (fun _ => hending)
      (takesList_of_nestsWithin hmore)

theorem takesArguments_of_nestsWithin {ts rest : List Token} {args : List Expr}
    (h : ArgumentsNestWithin 1 rules.ignoreCase n ts args) :
    rules.TakesArguments read (ts ++ .rightParen :: rest) args rest := by
  cases h with
  | empty => exact .empty fun _ => hending
  | list h =>
    refine .list ?_ (takesList_of_nestsWithin hending hread h)
    cases h with
    | last h =>
      obtain ⟨t, us, rfl, ht⟩ := h.derives.exists_cons
      rintro vs ⟨⟩
      exact ht rfl
    | comma h _ =>
      obtain ⟨t, us, rfl, ht⟩ := h.derives.exists_cons
      rintro vs ⟨⟩
      exact ht rfl

end

section
variable {deeper : Except Fault ExprReader} {n : Nat} (hdeeper : rules.CompleteDeeper deeper n)
include hdeeper

/-! ## Operands -/

theorem takesOperand_of_nestsWithin {ts rest : List Token} {e : Expr}
    (h : NestsWithin 1 rules.ignoreCase n .primary ts e)
    (hend : Nonterminal.primary.EndsBefore rest) :
    rules.TakesOperand deeper (ts ++ rest) e rest := by
  have hfollows (us : List Token) : rules.Follows us := fun _ => hending
  cases h with
  | number => exact .number (hfollows _)
  | text => exact .text (hfollows _)
  | name =>
    refine .name ?_ (hfollows _)
    rintro us rfl
    exact nomatch hend .leftParen rfl
  | parens h =>
    rw [List.append_assoc]
    exact .parens (hfollows _) (hdeeper.takes rfl .sum h (by rintro _ ⟨⟩; rfl)) (hfollows _)
  | call hf hargs hadmits =>
    obtain ⟨read, hread, hcomplete⟩ := hdeeper _ rfl
    rw [List.append_assoc]
    exact .call (.call hf (hfollows _) hread
      (takesArguments_of_nestsWithin hending hcomplete hargs) hadmits)

/-! ## Powers and factors -/

theorem takesPower_of_nestsWithin {ts rest : List Token} {e : Expr}
    (h : NestsWithin 1 rules.ignoreCase n .power ts e)
    (hend : Nonterminal.factor.EndsBefore rest) :
    rules.TakesPower deeper (ts ++ rest) e rest := by
  cases h with
  | ofPrimary h =>
    refine .operand (takesOperand_of_nestsWithin hending hdeeper h hend.primary) ?_
    rintro us rfl
    exact nomatch hend .starStar rfl
  | pow hb hx =>
    rw [List.append_assoc]
    exact .pow (takesOperand_of_nestsWithin hending hdeeper hb (by rintro _ ⟨⟩; rfl))
      (fun _ => hending) (hdeeper.takes rfl .factor hx hend)

theorem takesFactor_of_nestsWithin {ts rest : List Token} {e : Expr}
    (h : NestsWithin 1 rules.ignoreCase n .factor ts e)
    (hend : Nonterminal.factor.EndsBefore rest) :
    rules.TakesFactor deeper (ts ++ rest) e rest := by
  cases h with
  | ofPower h => exact .power (takesPower_of_nestsWithin hending hdeeper h hend)
  | signed hsign h =>
    have hnested := hdeeper.takes rfl .factor h hend
    cases hsign with
    | plus => exact .plus (fun _ => hending) hnested
    | minus => exact .minus (fun _ => hending) hnested

/-! ## Chains -/

/-- The reader of the parts of a chain takes its first part, and the chain goes on from there to
where the derivation ends. -/
theorem exists_takes_part (level : Level)
    (hpart : ∀ {ts rest e}, NestsWithin 1 rules.ignoreCase n level.part.nonterminal ts e →
      level.part.nonterminal.EndsBefore rest →
      rules.TakesExpression deeper level.part (ts ++ rest) e rest)
    {ts rest : List Token} {e : Expr}
    (h : NestsWithin 1 rules.ignoreCase n level.nonterminal ts e)
    (hend : level.part.nonterminal.EndsBefore rest) :
    ∃ l mid, rules.TakesExpression deeper level.part (ts ++ rest) l mid ∧
      ∀ {e' rest'}, rules.TakesChain deeper level e rest e' rest' →
        rules.TakesChain deeper level l mid e' rest' := by
  induction hlen : ts.length using Nat.strongRecOn generalizing ts rest e with
  | ind k ih =>
    rcases h.part_or_join with h | ⟨m, us, t, vs, op, l, r, hn, rfl, rfl, hop, hl, hr⟩
    · exact ⟨e, rest, hpart h hend, id⟩
    · rw [List.length_append, List.length_cons] at hlen
      have hnext : level.part.nonterminal.EndsBefore (t :: (vs ++ rest)) := by
        rintro _ ⟨⟩
        exact (Level.goesOn_operator hop).2
      obtain ⟨first, mid, hfirst, hgo⟩ := ih us.length (by omega) hl hnext rfl
      have hnested := hdeeper.takes hn level.part hr hend
      rw [List.append_assoc]
      exact ⟨first, mid, hfirst, fun hchain => hgo (.step hop (fun _ => hending) hnested hchain)⟩

theorem takesChain_of_nestsWithin (level : Level)
    (hpart : ∀ {ts rest e}, NestsWithin 1 rules.ignoreCase n level.part.nonterminal ts e →
      level.part.nonterminal.EndsBefore rest →
      rules.TakesExpression deeper level.part (ts ++ rest) e rest)
    {ts rest : List Token} {e : Expr}
    (h : NestsWithin 1 rules.ignoreCase n level.nonterminal ts e)
    (hend : level.nonterminal.EndsBefore rest) :
    ∃ l mid, rules.TakesExpression deeper level.part (ts ++ rest) l mid ∧
      rules.TakesChain deeper level l mid e rest := by
  obtain ⟨l, mid, hfirst, hgo⟩ :=
    exists_takes_part hending hdeeper level hpart h (Level.endsBefore_part hend)
  refine ⟨l, mid, hfirst, hgo (.stop fun t ht => ?_)⟩
  cases hop : level.operator? t with
  | none => rfl
  | some op => exact absurd (Level.goesOn_operator hop).1 (Bool.eq_false_iff.mp (hend t ht))

/-! ## Expressions -/

theorem takesProduct_of_nestsWithin {ts rest : List Token} {e : Expr}
    (h : NestsWithin 1 rules.ignoreCase n .term ts e) (hend : Nonterminal.term.EndsBefore rest) :
    rules.TakesExpression deeper .product (ts ++ rest) e rest := by
  obtain ⟨l, mid, hfirst, hchain⟩ := takesChain_of_nestsWithin hending hdeeper .product
    (fun h hend => .factor (takesFactor_of_nestsWithin hending hdeeper h hend)) h hend
  exact .product hfirst hchain

theorem takesSum_of_nestsWithin {ts rest : List Token} {e : Expr}
    (h : NestsWithin 1 rules.ignoreCase n .expr ts e) (hend : Nonterminal.expr.EndsBefore rest) :
    rules.TakesExpression deeper .sum (ts ++ rest) e rest := by
  obtain ⟨l, mid, hfirst, hchain⟩ := takesChain_of_nestsWithin hending hdeeper .sum
    (fun h hend => takesProduct_of_nestsWithin hending hdeeper h hend) h hend
  exact .sum hfirst hchain

theorem completeWithin_expression : rules.CompleteWithin (rules.expression deeper) n := by
  intro level ts e rest h hend
  apply takes_expression.mpr
  cases level with
  | factor => exact .factor (takesFactor_of_nestsWithin hending hdeeper h hend)
  | product => exact takesProduct_of_nestsWithin hending hdeeper h hend
  | sum => exact takesSum_of_nestsWithin hending hdeeper h hend

end

theorem completeWithin_readExpr (nesting : Nat) :
    rules.CompleteWithin (rules.readExpr nesting) nesting := by
  induction nesting with
  | zero => exact completeWithin_expression hending nofun
  | succ nesting ih =>
    refine completeWithin_expression hending fun m hm => ?_
    obtain rfl := Nat.succ.inj hm
    exact ⟨_, rfl, ih⟩

end

variable {rules : ReadingRules}

/-- Tokens are read as a tree exactly if they derive it and nest no deeper than they may. -/
theorem ofTokens_eq_ok_iff_nestsWithin {ts : List Token} {e : Expr} :
    rules.ofTokens ts = .ok e ↔
      rules.ending = none ∧ NestsWithin 1 rules.ignoreCase rules.maxNesting .expr ts e := by
  refine ⟨nestsWithin_of_ofTokens, fun ⟨hending, h⟩ => ofTokens_eq_ok.mpr ⟨fun _ => hending, ?_⟩⟩
  have := completeWithin_readExpr hending rules.maxNesting .sum [] h nofun
  rwa [List.append_nil] at this

/-- Tokens are read as a tree exactly if they derive it, where nesting is not cut short. -/
theorem ofTokens_eq_ok_iff_derives {ts : List Token} {e : Expr} (hlen : ts.length ≤ rules.maxNesting) :
    rules.ofTokens ts = .ok e ↔ rules.ending = none ∧ Derives rules.ignoreCase .expr ts e :=
  ⟨derives_of_ofTokens, fun ⟨hending, h⟩ =>
    ofTokens_eq_ok_iff_nestsWithin.mpr ⟨hending, h.nestsWithin hlen⟩⟩

end ReadingRules
end MetricFormula
