import MetricFormula.Proofs.Reading.Climbing

/-! # Reading is greedy

An expression that is read ends where no operator follows that could go on with it
(`greedy_readExpr`). So its layers, a power, a chain of products and a chain of sums, can be taken one
after another from any part of it that has been read: what is finished so (`finish`) has either come to
its end or goes on with one operator and a right operand, whichever layer that operator belongs to. -/

namespace MetricFormula

/-- How tightly the operators of an expression of the level bind, at least. -/
def Level.tightness : Level → Nat
  | sum => 1
  | product => 2
  | factor => 3

/-- The level of the expressions whose operators bind no less tightly than that. -/
def Level.ofTightness (least : Nat) : Level :=
  if least ≤ 1 then sum else if least ≤ 2 then product else factor

/-- The operators of a chain bind as tightly as its level says. -/
theorem Level.binding?_of_operator? {level : Level} {t : Token} {op : BinaryOp}
    (h : level.operator? t = some op) : t.binding? = some (op, level.tightness) := by
  unfold operator? at h
  split at h <;> cases h <;> rfl

/-- The right operand of an operator of a chain is a part of it. -/
theorem Level.part_eq_ofTightness {level : Level} {t : Token} {op : BinaryOp}
    (h : level.operator? t = some op) :
    level.part = ofTightness (op.tightnessBehind level.tightness) := by
  unfold operator? at h
  split at h <;> cases h <;> rfl

/-- An operator is that of a power, or belongs to a chain. -/
theorem Token.eq_starStar_or_operator? {t : Token} {op : BinaryOp} {tightness : Nat}
    (h : t.binding? = some (op, tightness)) :
    (t = .starStar ∧ op = .pow ∧ tightness = 4) ∨
      ∃ level : Level, level.operator? t = some op ∧ tightness = level.tightness := by
  unfold binding? at h
  split at h <;> cases h
  · exact .inr ⟨.sum, rfl, rfl⟩
  · exact .inr ⟨.sum, rfl, rfl⟩
  · exact .inr ⟨.product, rfl, rfl⟩
  · exact .inr ⟨.product, rfl, rfl⟩
  · exact .inr ⟨.product, rfl, rfl⟩
  · exact .inl ⟨rfl, rfl, rfl⟩

theorem Token.tightnessBehind_le {t : Token} {op : BinaryOp} {tightness : Nat}
    (h : t.binding? = some (op, tightness)) : op.tightnessBehind tightness ≤ 4 := by
  rcases eq_starStar_or_operator? h with ⟨_, rfl, rfl⟩ | ⟨level, hlevel, rfl⟩
  · decide
  · cases level <;> cases op <;> decide

/-- An operator that binds less tightly than the parts of a chain, and is none of the chain, binds less
tightly than the chain. -/
theorem Level.lt_tightness {level : Level} {t : Token} {op : BinaryOp} {tightness : Nat}
    (hop : t.binding? = some (op, tightness)) (hnone : level.operator? t = none)
    (hlt : tightness < level.part.tightness) : tightness < level.tightness := by
  cases level <;> cases t <;> cases hop <;>
    first | decide | exact absurd hlt (by decide) | cases hnone

/-- No operator follows that binds so tightly. -/
def StopsBefore (least : Nat) (rest : List Token) : Prop :=
  ∀ t ∈ rest.head?, ∀ op tightness, t.binding? = some (op, tightness) → tightness < least

theorem stopsBefore_nil (least : Nat) : StopsBefore least [] := fun _ ht => nomatch ht

theorem stopsBefore_of_none {t : Token} {least : Nat} {rest : List Token} (h : t.binding? = none) :
    StopsBefore least (t :: rest) := by
  rintro _ ⟨⟩ op tightness hop
  cases h.symm.trans hop

theorem stopsBefore_cons {t : Token} {op : BinaryOp} {tightness least : Nat} {rest : List Token}
    (h : t.binding? = some (op, tightness)) (hlt : tightness < least) :
    StopsBefore least (t :: rest) := by
  rintro _ ⟨⟩ op' tightness' hop
  obtain ⟨_, rfl⟩ := Prod.ext_iff.mp (Option.some.inj (h.symm.trans hop))
  exact hlt

theorem StopsBefore.mono {m n : Nat} {rest : List Token} (h : StopsBefore m rest) (hle : m ≤ n) :
    StopsBefore n rest :=
  fun t ht op tightness hop => Nat.lt_of_lt_of_le (h t ht op tightness hop) hle

/-- The reader leaves no operator that belongs to the expression. -/
def ExprReader.Greedy (read : ExprReader) : Prop :=
  ∀ {level ts e rest}, Takes (read level) ts e rest → StopsBefore level.tightness rest

namespace ReadingRules

variable {rules : ReadingRules} {deeper : Except Fault ExprReader} {level : Level}
  {ts rest : List Token} {e : Expr}

section
variable (hgreedy : ∀ read, deeper = .ok read → read.Greedy)
include hgreedy

theorem TakesDeeper.stopsBefore (h : TakesDeeper deeper level ts e rest) :
    StopsBefore level.tightness rest := by
  obtain ⟨read, hread, h⟩ := h
  exact hgreedy read hread h

theorem TakesPower.stopsBefore (h : rules.TakesPower deeper ts e rest) : StopsBefore 3 rest := by
  cases h with
  | operand _ hne =>
    intro t ht op tightness hop
    cases t with
    | starStar =>
      obtain ⟨us, rfl⟩ := List.head?_eq_some_iff.mp ht
      exact absurd rfl (hne us)
    | plus | minus | star | slash | slashSlash =>
      cases hop
      decide
    | _ => cases hop
  | pow _ _ hx => exact hx.stopsBefore hgreedy

theorem TakesFactor.stopsBefore (h : rules.TakesFactor deeper ts e rest) : StopsBefore 3 rest := by
  cases h with
  | plus _ he | minus _ he => exact he.stopsBefore hgreedy
  | power h => exact h.stopsBefore hgreedy

/-- Where a chain stops, no operator of its own follows and none of its parts. -/
theorem TakesChain.stopsBefore {left : Expr} {mid : List Token}
    (h : rules.TakesChain deeper level left mid e rest)
    (hleft : StopsBefore level.part.tightness mid) : StopsBefore level.tightness rest := by
  induction h with
  | stop hstop =>
    intro t ht op tightness hop
    exact Level.lt_tightness hop (hstop t ht) (hleft t ht op tightness hop)
  | step _ _ hright _ ih => exact ih (hright.stopsBefore hgreedy)

theorem TakesExpression.stopsBefore (h : rules.TakesExpression deeper level ts e rest) :
    StopsBefore level.tightness rest := by
  induction h with
  | factor h => exact h.stopsBefore hgreedy
  | product _ hchain ih | sum _ hchain ih => exact hchain.stopsBefore hgreedy ih

end

theorem greedy_readExpr (nesting : Nat) : (rules.readExpr nesting).Greedy := by
  induction nesting with
  | zero =>
    intro level ts e rest h
    have hgreedy : ∀ read : ExprReader,
        .error (Fault.tooComplex (.nesting rules.maxNesting)) = Except.ok read → read.Greedy := nofun
    exact (takes_expression.mp h).stopsBefore hgreedy
  | succ nesting ih =>
    intro level ts e rest h
    refine (takes_expression.mp h).stopsBefore fun read hread => ?_
    obtain rfl := Except.ok.inj hread
    exact ih

/-! ## Finishing an expression -/

section
variable (rules : ReadingRules) (deeper : Except Fault ExprReader)

/-- What an expression begins with: a sign and what it is a sign of, or an operand. -/
def opening (ts : List Token) : Except Fault (Taken ts Expr) :=
  match ts with
  | .plus :: rest => rules.factor deeper (.plus :: rest)
  | .minus :: rest => rules.factor deeper (.minus :: rest)
  | ts => rules.operand deeper ts

/-- A power of what has been read, if an exponent follows. -/
def powerOn (base : Taken ts Expr) : Except Fault (Taken ts Expr) :=
  have hbase := base.shorter
  match hrest : base.rest with
  | .starStar :: rest => do
    rules.look rest
    let exponent ← (← deeper) .factor rest
    have hshort : rest.length + 1 < ts.length := List.length_cons ▸ hrest ▸ hbase
    return (exponent.map (.binary .pow base.value)).widen (Nat.le_of_lt (Nat.lt_of_succ_lt hshort))
  | _ => return base

/-- A layer of an expression, if operators that bind so tightly belong to it. -/
def layer (least tightness : Nat) (read : Taken ts Expr → Except Fault (Taken ts Expr))
    (left : Taken ts Expr) : Except Fault (Taken ts Expr) :=
  if least ≤ tightness then read left else .ok left

/-- Finish an expression that begins with `left` and whose operators bind no less tightly than asked
for. -/
def finish (least : Nat) (left : Taken ts Expr) : Except Fault (Taken ts Expr) :=
  layer least 4 (rules.powerOn deeper) left >>= layer least 2 (rules.chain deeper .product) >>=
    layer least 1 (rules.chain deeper .sum)

end

theorem layer_of_le {least tightness : Nat} {read : Taken ts Expr → Except Fault (Taken ts Expr)}
    (h : least ≤ tightness) : layer least tightness read = read :=
  funext fun _ => if_pos h

theorem layer_of_lt {least tightness : Nat} {read : Taken ts Expr → Except Fault (Taken ts Expr)}
    (h : tightness < least) : layer least tightness read = pure :=
  funext fun _ => if_neg (Nat.not_le_of_lt h)

theorem power_eq : rules.power deeper ts = rules.operand deeper ts >>= rules.powerOn deeper := rfl

theorem powerOn_of_stops {left : Taken ts Expr} (h : StopsBefore 4 left.rest) :
    rules.powerOn deeper left = .ok left := by
  obtain ⟨value, rest, hshort⟩ := left
  unfold powerOn
  split
  · rename_i us hrest
    cases hrest
    exact absurd (h .starStar rfl .pow 4 rfl) (by decide)
  · rfl

theorem chain_of_stops (level : Level) {left : Taken ts Expr}
    (h : StopsBefore level.tightness left.rest) : rules.chain deeper level left = .ok left := by
  obtain ⟨value, rest, hshort⟩ := left
  rw [chain]
  cases rest with
  | nil => rfl
  | cons t rest =>
    have hnone : level.operator? t = none := by
      cases hop : level.operator? t with
      | none => rfl
      | some op => exact absurd (h t rfl op _ (Level.binding?_of_operator? hop)) (Nat.lt_irrefl _)
    simp only [hnone]

theorem chain_step {t : Token} {op : BinaryOp} {l : Expr} (hop : level.operator? t = some op)
    (hshort : (t :: rest).length < ts.length) :
    rules.chain deeper level (⟨l, t :: rest, hshort⟩ : Taken ts Expr) = (do
      rules.look rest
      let right ← (← deeper) level.part rest
      rules.chain deeper level ⟨.binary op l right.value, right.rest,
        Nat.lt_trans right.shorter (Nat.lt_of_succ_lt hshort)⟩) := by
  rw [chain]
  simp only [hop]

section
variable (hgreedy : ∀ read, deeper = .ok read → read.Greedy)
include hgreedy

/-- Nothing can be added to a sign and what it is a sign of. -/
theorem factor_eq : rules.factor deeper ts = rules.opening deeper ts >>= rules.powerOn deeper := by
  have hself : rules.factor deeper ts = rules.factor deeper ts >>= rules.powerOn deeper := by
    refine (bind_pure _).symm.trans (bind_congr_ok fun left hleft => ?_)
    have hstops := (takes_factor.mp ⟨left.shorter, hleft⟩).stopsBefore hgreedy
    exact (powerOn_of_stops (hstops.mono (by decide))).symm
  unfold opening
  split
  · exact hself
  · exact hself
  · rename_i hplus hminus
    rw [factor]
    · exact power_eq
    · exact hplus
    · exact hminus

/-- What comes of a right operand need only be the same where none of its own operators follows. -/
theorem rightOperand_congr {α : Type} {f f' : Taken rest Expr → Except Fault α}
    (h : ∀ right, StopsBefore level.tightness right.rest → f right = f' right) :
    (do rules.look rest; f (← (← deeper) level rest)) =
      (do rules.look rest; f' (← (← deeper) level rest)) :=
  bind_congr_ok fun _ _ => bind_congr_ok fun read hread => bind_congr_ok fun right hright =>
    h right (hgreedy read hread ⟨right.shorter, hright⟩)

/-- Reading an expression is finishing one that has been begun. -/
theorem expression_eq {least : Nat} (hle : least ≤ 4) :
    rules.expression deeper (.ofTightness least) ts =
      rules.opening deeper ts >>= rules.finish deeper least := by
  have hfinish : rules.opening deeper ts >>= rules.finish deeper least =
      rules.factor deeper ts >>= layer least 2 (rules.chain deeper .product) >>=
        layer least 1 (rules.chain deeper .sum) := by
    rw [factor_eq hgreedy, bind_assoc, bind_assoc]
    refine bind_congr_ok fun left _ => ?_
    rw [finish, layer_of_le hle, bind_assoc]
  rw [hfinish]
  unfold Level.ofTightness
  split
  · rename_i hsum
    rw [layer_of_le hsum, layer_of_le (Nat.le_succ_of_le hsum), bind_assoc]
    rfl
  · rename_i hsum
    rw [layer_of_lt (Nat.lt_of_not_le hsum), bind_pure]
    split
    · rename_i hproduct
      rw [layer_of_le hproduct]
      rfl
    · rename_i hproduct
      rw [layer_of_lt (Nat.lt_of_not_le hproduct), bind_pure]
      rfl

end

variable {least tightness : Nat} {left : Taken ts Expr} {t : Token} {op : BinaryOp}

theorem layer_of_stops {n : Nat} {read : Taken ts Expr → Except Fault (Taken ts Expr)}
    (h : StopsBefore least left.rest) (hread : StopsBefore n left.rest → read left = .ok left) :
    layer least n read left = .ok left := by
  unfold layer
  split
  · rename_i hle
    exact hread (h.mono hle)
  · rfl

/-- An expression is finished where no operator follows that belongs to it. -/
theorem finish_of_stops (h : StopsBefore least left.rest) :
    rules.finish deeper least left = .ok left :=
  bind_eq_ok.mpr ⟨left,
    bind_eq_ok.mpr ⟨left, layer_of_stops h powerOn_of_stops,
      layer_of_stops h (chain_of_stops .product)⟩,
    layer_of_stops h (chain_of_stops .sum)⟩

/-- Where no exponent follows, chains are left to finish. -/
theorem finish_of_stops_power (h : StopsBefore 4 left.rest) :
    rules.finish deeper least left =
      layer least 2 (rules.chain deeper .product) left >>= layer least 1 (rules.chain deeper .sum) := by
  have hpower : layer least 4 (rules.powerOn deeper) left = .ok left := by
    rw [layer, powerOn_of_stops h, ite_self]
  rw [finish, hpower]
  rfl

/-- Where no operator of products follows either, a sum is left to finish. -/
theorem finish_of_stops_product (h : StopsBefore 2 left.rest) :
    rules.finish deeper least left = layer least 1 (rules.chain deeper .sum) left := by
  have hproduct : layer least 2 (rules.chain deeper .product) left = .ok left := by
    rw [layer, chain_of_stops .product h, ite_self]
  rw [finish_of_stops_power (h.mono (by decide)), hproduct]
  rfl

/-- An expression goes on with any operator that belongs to it, and is finished behind the right
operand. -/
theorem finish_step (hgreedy : ∀ read, deeper = .ok read → read.Greedy) {l : Expr}
    (hop : t.binding? = some (op, tightness)) (hle : least ≤ tightness)
    (hshort : (t :: rest).length < ts.length) :
    rules.finish deeper least (⟨l, t :: rest, hshort⟩ : Taken ts Expr) = (do
      rules.look rest
      let right ← (← deeper) (.ofTightness (op.tightnessBehind tightness)) rest
      rules.finish deeper least ⟨.binary op l right.value, right.rest,
        Nat.lt_trans right.shorter (Nat.lt_of_succ_lt hshort)⟩) := by
  rcases Token.eq_starStar_or_operator? hop with ⟨rfl, rfl, rfl⟩ | ⟨level, hlevel, rfl⟩
  · rw [finish, layer_of_le hle, powerOn]
    simp only [bind_assoc]
    refine rightOperand_congr hgreedy fun right hstops => ?_
    -- the exponent has taken all powers behind it
    rw [finish_of_stops_power]
    · rfl
    · exact hstops.mono (by decide)
  · rw [← Level.part_eq_ofTightness hlevel]
    cases level with
    | factor => nomatch hlevel
    | product =>
      have hproduct : least ≤ 2 := hle
      rw [finish_of_stops_power (stopsBefore_cons hop (by decide)), layer_of_le hproduct,
        chain_step hlevel]
      simp only [bind_assoc]
      refine rightOperand_congr hgreedy fun right hstops => ?_
      rw [finish_of_stops_power, layer_of_le hproduct]
      exact hstops.mono (by decide)
    | sum =>
      have hsum : least ≤ 1 := hle
      rw [finish_of_stops_product (stopsBefore_cons hop (by decide)), layer_of_le hsum,
        chain_step hlevel]
      refine rightOperand_congr hgreedy fun right hstops => ?_
      rw [finish_of_stops_product, layer_of_le hsum]
      exact hstops

end ReadingRules
end MetricFormula
