import MetricFormula.Formula.Reading
import MetricFormula.Proofs.Outcome

/-! # Successful readings

What each reader has done when it succeeds, as a relation between the tokens, the value and the
rest: `Takes read ts a rest` says that the reader takes `a` from the front of `ts` and leaves `rest`.
Each reader has one relation and one theorem that it succeeds exactly as the relation says; how the
readers are programmed is of no account after that. -/

namespace MetricFormula

/-- The reader takes `a` from the front of the tokens and leaves `rest`. -/
def Takes {α : Type} (read : (ts : List Token) → Except Fault (Taken ts α)) (ts : List Token) (a : α)
    (rest : List Token) : Prop :=
  ∃ h, read ts = .ok ⟨a, rest, h⟩

namespace ReadingRules

/-- There is something to look at behind what has been taken: a token or the proper end. -/
def Follows (rules : ReadingRules) (rest : List Token) : Prop := rest = [] → rules.ending = none

/-- The reader of what is nested takes `e`, if there is one. -/
def TakesDeeper (deeper : Except Fault ExprReader) (level : Level) (ts : List Token) (e : Expr)
    (rest : List Token) : Prop :=
  ∃ read, deeper = .ok read ∧ Takes (read level) ts e rest

section
variable (rules : ReadingRules) (deeper : Except Fault ExprReader)

inductive TakesList (read : ExprReader) : List Token → List Expr → List Token → Prop
  | last : Takes (read .sum) ts a (.rightParen :: rest) → rules.Follows rest →
      TakesList read ts [a] rest
  | comma : Takes (read .sum) ts a (.comma :: us) → rules.Follows us →
      TakesList read us as rest → TakesList read ts (a :: as) rest

inductive TakesArguments (read : ExprReader) : List Token → List Expr → List Token → Prop
  | empty : rules.Follows rest → TakesArguments read (.rightParen :: rest) [] rest
  | list : (∀ us, ts ≠ .rightParen :: us) → rules.TakesList read ts args rest →
      TakesArguments read ts args rest

inductive TakesCall (name : String) : List Token → Expr → List Token → Prop
  | call {read : ExprReader} : Function.lookup? rules.ignoreCase name = some f →
      rules.Follows ts → deeper = .ok read → rules.TakesArguments read ts args rest →
      f.arity.admits args.length → TakesCall name ts (.call f args) rest

inductive TakesOperand : List Token → Expr → List Token → Prop
  | number : rules.Follows rest → TakesOperand (.number x :: rest) (.number x) rest
  | text : rules.Follows rest → TakesOperand (.text s :: rest) (.text s) rest
  | name : (∀ us, rest ≠ .leftParen :: us) → rules.Follows rest →
      TakesOperand (.name s :: rest) (.name s) rest
  | call : rules.TakesCall deeper s ts e rest → TakesOperand (.name s :: .leftParen :: ts) e rest
  | parens : rules.Follows ts → TakesDeeper deeper .sum ts e (.rightParen :: rest) →
      rules.Follows rest → TakesOperand (.leftParen :: ts) e rest

inductive TakesPower : List Token → Expr → List Token → Prop
  | operand : rules.TakesOperand deeper ts e rest → (∀ us, rest ≠ .starStar :: us) →
      TakesPower ts e rest
  | pow : rules.TakesOperand deeper ts b (.starStar :: us) → rules.Follows us →
      TakesDeeper deeper .factor us x rest → TakesPower ts (.binary .pow b x) rest

inductive TakesFactor : List Token → Expr → List Token → Prop
  | plus : rules.Follows ts → TakesDeeper deeper .factor ts e rest →
      TakesFactor (.plus :: ts) (.signed .plus e) rest
  | minus : rules.Follows ts → TakesDeeper deeper .factor ts e rest →
      TakesFactor (.minus :: ts) (.signed .minus e) rest
  | power : rules.TakesPower deeper ts e rest → TakesFactor ts e rest

/-- The chain that begins with `left` goes on in the tokens and ends as `e`. -/
inductive TakesChain (level : Level) : Expr → List Token → Expr → List Token → Prop
  | stop : (∀ t ∈ rest.head?, level.operator? t = none) → TakesChain level left rest left rest
  | step : level.operator? t = some op → rules.Follows ts →
      TakesDeeper deeper level.part ts right us →
      TakesChain level (.binary op left right) us e rest → TakesChain level left (t :: ts) e rest

inductive TakesExpression : Level → List Token → Expr → List Token → Prop
  | factor : rules.TakesFactor deeper ts e rest → TakesExpression .factor ts e rest
  | product : TakesExpression .factor ts l mid → rules.TakesChain deeper .product l mid e rest →
      TakesExpression .product ts e rest
  | sum : TakesExpression .product ts l mid → rules.TakesChain deeper .sum l mid e rest →
      TakesExpression .sum ts e rest

end

variable {rules : ReadingRules} {deeper : Except Fault ExprReader} {read : ExprReader}
  {level : Level} {ts rest : List Token} {e : Expr} {args : List Expr}

theorem look_eq_ok {u : Unit} : rules.look rest = .ok u ↔ rules.Follows rest := by
  cases rest <;> cases h : rules.ending <;> simp [look, Follows, h]

/-- A reader of one token takes it if there is something to look at behind it. -/
theorem look_then_eq_ok {α : Type} {us : List Token} {v a : α} {h : us.length < ts.length}
    {h' : rest.length < ts.length} :
    (do rules.look us; return (⟨v, us, h⟩ : Taken ts α)) = .ok ⟨a, rest, h'⟩ ↔
      rules.Follows us ∧ v = a ∧ us = rest := by
  simp only [bind_eq_ok, pure_eq_ok, look_eq_ok, Taken.mk.injEq]
  exact ⟨fun ⟨_, hfollows, heq⟩ => ⟨hfollows, heq⟩, fun ⟨hfollows, heq⟩ => ⟨(), hfollows, heq⟩⟩

theorem look_of_follows (h : rules.Follows rest) : rules.look rest = .ok () := look_eq_ok.mpr h

theorem takes_closeParen :
    Takes rules.closeParen ts () rest ↔ ts = .rightParen :: rest ∧ rules.Follows rest := by
  constructor
  · rintro ⟨h, hread⟩
    unfold closeParen at hread
    split at hread
    · obtain ⟨hfollows, _, rfl⟩ := look_then_eq_ok.mp hread
      exact ⟨rfl, hfollows⟩
    · nomatch hread
  · rintro ⟨rfl, hfollows⟩
    exact ⟨Nat.lt_succ_self _, look_then_eq_ok.mpr ⟨hfollows, rfl, rfl⟩⟩

theorem takes_moreArguments :
    Takes (rules.moreArguments read) ts args rest ↔ rules.TakesList read ts args rest := by
  constructor
  · rintro ⟨h, hread⟩
    fun_induction moreArguments rules read ts generalizing args rest with
    | case1 ts ih =>
      simp only [bind_eq_ok] at hread
      obtain ⟨arg, harg, hread⟩ := hread
      split at hread
      · rename_i us hmid
        simp only [bind_eq_ok, pure_eq_ok, look_eq_ok] at hread
        obtain ⟨_, hfollows, more, hmore, hread⟩ := hread
        obtain ⟨rfl, rfl⟩ := Taken.mk.inj hread
        exact .comma (hmid ▸ ⟨arg.shorter, harg⟩) hfollows (ih arg us hmid _ hmore)
      · simp only [bind_eq_ok, pure_eq_ok] at hread
        obtain ⟨close, hclose, hread⟩ := hread
        obtain ⟨rfl, rfl⟩ := Taken.mk.inj hread
        obtain ⟨hmid, hfollows⟩ := takes_closeParen.mp ⟨close.shorter, hclose⟩
        exact .last (hmid ▸ ⟨arg.shorter, harg⟩) hfollows
  · intro h
    induction h with
    | last ha hfollows =>
      obtain ⟨hlt, ha⟩ := ha
      obtain ⟨hclosed, hclose⟩ := takes_closeParen.mpr ⟨rfl, hfollows⟩
      refine ⟨Nat.lt_trans hclosed hlt, ?_⟩
      rw [moreArguments, ha]
      simp only [bind, Except.bind, hclose]
      rfl
    | comma ha hfollows _ ih =>
      obtain ⟨hlt, ha⟩ := ha
      obtain ⟨hmore, hread⟩ := ih
      refine ⟨Nat.lt_trans hmore (Nat.lt_of_succ_lt hlt), ?_⟩
      rw [moreArguments, ha]
      simp only [bind, Except.bind, look_of_follows hfollows, hread]
      rfl

theorem takes_arguments :
    Takes (rules.arguments read) ts args rest ↔ rules.TakesArguments read ts args rest := by
  constructor
  · rintro ⟨h, hread⟩
    unfold arguments at hread
    split at hread
    · obtain ⟨hfollows, rfl, rfl⟩ := look_then_eq_ok.mp hread
      exact .empty hfollows
    · rename_i hne
      exact .list hne (takes_moreArguments.mp ⟨h, hread⟩)
  · rintro (hfollows | ⟨hne, hlist⟩)
    · exact ⟨Nat.lt_succ_self _, look_then_eq_ok.mpr ⟨hfollows, rfl, rfl⟩⟩
    · obtain ⟨h, hread⟩ := takes_moreArguments.mpr hlist
      refine ⟨h, ?_⟩
      unfold arguments
      split
      · exact absurd rfl (hne _)
      · exact hread

theorem takes_call {name : String} :
    Takes (rules.call deeper name) ts e rest ↔ rules.TakesCall deeper name ts e rest := by
  constructor
  · rintro ⟨h, hread⟩
    unfold call at hread
    split at hread
    · nomatch hread
    · rename_i f hf
      simp only [bind_eq_ok, look_eq_ok] at hread
      obtain ⟨_, hfollows, read, hdeeper, args, hargs, hread⟩ := hread
      split at hread
      · rename_i hadmits
        obtain ⟨rfl, rfl⟩ := Taken.mk.inj (pure_eq_ok.mp hread)
        exact .call hf hfollows hdeeper (takes_arguments.mp ⟨args.shorter, hargs⟩) hadmits
      · nomatch hread
  · rintro ⟨hf, hfollows, hdeeper, hargs, hadmits⟩
    obtain ⟨h, hread⟩ := takes_arguments.mpr hargs
    refine ⟨h, ?_⟩
    unfold call
    simp only [hf, bind, Except.bind, look_of_follows hfollows, hdeeper, hread, hadmits]
    rfl

/-! ## Operands, powers and factors -/

theorem takes_operand :
    Takes (rules.operand deeper) ts e rest ↔ rules.TakesOperand deeper ts e rest := by
  constructor
  · rintro ⟨h, hread⟩
    unfold operand at hread
    split at hread
    · obtain ⟨hfollows, rfl, rfl⟩ := look_then_eq_ok.mp hread
      exact .number hfollows
    · obtain ⟨hfollows, rfl, rfl⟩ := look_then_eq_ok.mp hread
      exact .text hfollows
    · simp only [bind_eq_ok, pure_eq_ok] at hread
      obtain ⟨e, hcall, hread⟩ := hread
      obtain ⟨rfl, rfl⟩ := Taken.mk.inj hread
      exact .call (takes_call.mp ⟨e.shorter, hcall⟩)
    · rename_i hne
      obtain ⟨hfollows, rfl, rfl⟩ := look_then_eq_ok.mp hread
      exact .name hne hfollows
    · simp only [bind_eq_ok, pure_eq_ok, look_eq_ok] at hread
      obtain ⟨_, hfollows, read, hdeeper, e, he, close, hclose, hread⟩ := hread
      obtain ⟨rfl, rfl⟩ := Taken.mk.inj hread
      obtain ⟨hrest, hend⟩ := takes_closeParen.mp ⟨close.shorter, hclose⟩
      exact .parens hfollows ⟨read, hdeeper, hrest ▸ ⟨e.shorter, he⟩⟩ hend
    · nomatch hread
  · intro h
    cases h with
    | number hfollows | text hfollows =>
      exact ⟨Nat.lt_succ_self _, look_then_eq_ok.mpr ⟨hfollows, rfl, rfl⟩⟩
    | name hne hfollows =>
      refine ⟨Nat.lt_succ_self _, ?_⟩
      rw [operand]
      · exact look_then_eq_ok.mpr ⟨hfollows, rfl, rfl⟩
      · exact hne
    | call hcall =>
      obtain ⟨h, hread⟩ := takes_call.mpr hcall
      refine ⟨Nat.lt_of_lt_of_le h (by simp +arith), ?_⟩
      simp only [operand, bind, Except.bind, hread]
      rfl
    | parens hfollows he hend =>
      obtain ⟨read, hdeeper, hlt, he⟩ := he
      obtain ⟨hclosed, hclose⟩ := takes_closeParen.mpr ⟨rfl, hend⟩
      refine ⟨Nat.lt_trans hclosed (Nat.lt_trans hlt (by simp)), ?_⟩
      simp only [operand, bind, Except.bind, look_of_follows hfollows, hdeeper, he, hclose]
      rfl

theorem takes_power :
    Takes (rules.power deeper) ts e rest ↔ rules.TakesPower deeper ts e rest := by
  constructor
  · rintro ⟨h, hread⟩
    simp only [power, bind_eq_ok] at hread
    obtain ⟨base, hbase, hread⟩ := hread
    split at hread
    · rename_i us hrest
      simp only [bind_eq_ok, pure_eq_ok, look_eq_ok] at hread
      obtain ⟨_, hfollows, read, hdeeper, exponent, he, hread⟩ := hread
      obtain ⟨rfl, rfl⟩ := Taken.mk.inj hread
      exact .pow (takes_operand.mp (hrest ▸ ⟨base.shorter, hbase⟩)) hfollows
        ⟨read, hdeeper, exponent.shorter, he⟩
    · rename_i hne
      obtain rfl := pure_eq_ok.mp hread
      exact .operand (takes_operand.mp ⟨h, hbase⟩) hne
  · rintro (⟨hoperand, hne⟩ | ⟨hoperand, hfollows, hexponent⟩)
    · obtain ⟨h, hread⟩ := takes_operand.mpr hoperand
      refine ⟨h, ?_⟩
      simp only [power, bind, Except.bind, hread]
      rfl
    · obtain ⟨hbase, hread⟩ := takes_operand.mpr hoperand
      obtain ⟨read, rfl, h, he⟩ := hexponent
      refine ⟨Nat.lt_trans h (Nat.lt_of_succ_lt hbase), ?_⟩
      simp only [power, bind, Except.bind, hread, look_of_follows hfollows, he]
      rfl

/-- No power begins with a sign. -/
theorem TakesPower.exists_operand (h : rules.TakesPower deeper ts e rest) :
    ∃ e rest, rules.TakesOperand deeper ts e rest := by
  cases h with
  | operand h | pow h => exact ⟨_, _, h⟩

theorem takes_factor :
    Takes (rules.factor deeper) ts e rest ↔ rules.TakesFactor deeper ts e rest := by
  constructor
  · rintro ⟨h, hread⟩
    unfold factor at hread
    split at hread
    · simp only [map_eq_ok, bind_eq_ok, pure_eq_ok, look_eq_ok] at hread
      obtain ⟨_, ⟨_, hfollows, read, hdeeper, e, he, rfl⟩, hread⟩ := hread
      obtain ⟨rfl, rfl⟩ := Taken.mk.inj hread
      exact .plus hfollows ⟨read, hdeeper, e.shorter, he⟩
    · simp only [map_eq_ok, bind_eq_ok, pure_eq_ok, look_eq_ok] at hread
      obtain ⟨_, ⟨_, hfollows, read, hdeeper, e, he, rfl⟩, hread⟩ := hread
      obtain ⟨rfl, rfl⟩ := Taken.mk.inj hread
      exact .minus hfollows ⟨read, hdeeper, e.shorter, he⟩
    · exact .power (takes_power.mp ⟨h, hread⟩)
  · intro h
    cases h with
    | plus hfollows he | minus hfollows he =>
      obtain ⟨read, rfl, hlt, he⟩ := he
      refine ⟨Nat.lt_trans hlt (by simp), ?_⟩
      simp only [factor, bind, Except.bind, look_of_follows hfollows, he]
      rfl
    | power hpower =>
      obtain ⟨h, hread⟩ := takes_power.mpr hpower
      refine ⟨h, ?_⟩
      unfold factor
      split
      · obtain ⟨_, _, hoperand⟩ := hpower.exists_operand
        nomatch hoperand
      · obtain ⟨_, _, hoperand⟩ := hpower.exists_operand
        nomatch hoperand
      · exact hread

/-! ## Chains -/

theorem TakesChain.of_chain {left t : Taken ts Expr} (h : rules.chain deeper level left = .ok t) :
    rules.TakesChain deeper level left.value left.rest t.value t.rest := by
  fun_induction chain rules deeper level left with
  | case1 left _ hrest =>
    obtain rfl := Except.ok.inj h
    exact .stop (by simp [hrest])
  | case2 left _ u us hrest hop =>
    obtain rfl := Except.ok.inj h
    exact .stop (by simp [hrest, hop])
  | case3 left _ u us hrest op hop ih =>
    simp only [bind_eq_ok, look_eq_ok] at h
    obtain ⟨_, hfollows, read, hdeeper, right, hright, h⟩ := h
    rw [hrest]
    exact .step hop hfollows ⟨read, hdeeper, right.shorter, hright⟩ (ih right h)

theorem TakesChain.chain_eq {l : Expr} {mid : List Token}
    (h : rules.TakesChain deeper level l mid e rest) (hlt : mid.length < ts.length) :
    ∃ h', rules.chain deeper level (⟨l, mid, hlt⟩ : Taken ts Expr) = .ok ⟨e, rest, h'⟩ := by
  induction h with
  | @stop left rest hstop =>
    refine ⟨hlt, ?_⟩
    rw [chain]
    cases rest with
    | nil => rfl
    | cons t ts => simp only [hstop t (by simp)]
  | step hop hfollows hright _ ih =>
    obtain ⟨read, rfl, hshort, hright⟩ := hright
    obtain ⟨h', ih⟩ := ih (Nat.lt_trans hshort (Nat.lt_of_succ_lt hlt))
    refine ⟨h', ?_⟩
    rw [chain]
    simp only [hop, bind, Except.bind, look_of_follows hfollows, hright]
    exact ih

/-! ## Expressions -/

theorem takes_expression :
    Takes (rules.expression deeper level) ts e rest ↔
      rules.TakesExpression deeper level ts e rest := by
  constructor
  · rintro ⟨h, hread⟩
    cases level with
    | factor => exact .factor (takes_factor.mp ⟨h, hread⟩)
    | product =>
      obtain ⟨l, hl, hread⟩ := bind_eq_ok.mp hread
      exact .product (.factor (takes_factor.mp ⟨l.shorter, hl⟩)) (.of_chain hread)
    | sum =>
      obtain ⟨l, hl, hread⟩ := bind_eq_ok.mp hread
      obtain ⟨m, hm, hread⟩ := bind_eq_ok.mp hread
      exact .sum (.product (.factor (takes_factor.mp ⟨l.shorter, hl⟩)) (.of_chain hm))
        (.of_chain hread)
  · intro h
    induction h with
    | factor h => exact takes_factor.mpr h
    | product _ hchain ih =>
      obtain ⟨hlt, hl⟩ := ih
      obtain ⟨h, hread⟩ := hchain.chain_eq hlt
      exact ⟨h, bind_eq_ok.mpr ⟨_, hl, hread⟩⟩
    | sum _ hchain ih =>
      obtain ⟨hlt, hl⟩ := ih
      obtain ⟨h, hread⟩ := hchain.chain_eq hlt
      refine ⟨h, ?_⟩
      obtain ⟨l, hl, hm⟩ := bind_eq_ok.mp hl
      exact bind_eq_ok.mpr ⟨l, hl, bind_eq_ok.mpr ⟨_, hm, hread⟩⟩

/-- Reading succeeds when it leaves nothing, and nothing but the proper end was ahead. -/
theorem ofTokens_eq_ok :
    rules.ofTokens ts = .ok e ↔
      rules.Follows ts ∧ Takes (rules.readExpr rules.maxNesting .sum) ts e [] := by
  simp only [ofTokens, bind_eq_ok, look_eq_ok]
  constructor
  · rintro ⟨_, hfollows, t, hread, h⟩
    obtain ⟨value, rest, hlt⟩ := t
    cases rest with
    | nil =>
      obtain rfl := pure_eq_ok.mp h
      exact ⟨hfollows, hlt, hread⟩
    | cons u us => nomatch h
  · rintro ⟨hfollows, hlt, hread⟩
    exact ⟨(), hfollows, _, hread, rfl⟩

end ReadingRules
end MetricFormula
