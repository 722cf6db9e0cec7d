import MetricFormula.Formula.Reading
import MetricFormula.Proofs.Faults.Stage

/-! # Faults of reading

Whatever the tokens, the reader fails with faults of reading only. Each part of it does so as long as
the reader of what is nested deeper does. -/

namespace MetricFormula
namespace ReadingRules

variable {rules : ReadingRules} {read : ExprReader} {deeper : Except Fault ExprReader}
  {level : Level} {ts : List Token}

theorem failsAt_look (rest : List Token) : FailsAt .reading (rules.look rest) := by
  unfold look
  split
  · exact .throw rfl
  · exact .pure

theorem failsAt_closeParen (ts : List Token) : FailsAt .reading (rules.closeParen ts) := by
  unfold closeParen
  split
  · exact .bind (failsAt_look _) fun _ _ => .pure
  · exact .throw rfl

/-! ## Calls -/

section
variable (hread : ∀ level ts, FailsAt .reading (read level ts))
include hread

theorem failsAt_moreArguments (ts : List Token) :
    FailsAt .reading (rules.moreArguments read ts) := by
  fun_induction moreArguments rules read ts with
  | case1 ts ih =>
    refine .bind (hread _ _) fun arg _ => ?_
    split
    · rename_i us hrest
      exact .bind (failsAt_look _) fun _ _ => .bind (ih arg us hrest) fun _ _ => .pure
    · exact .bind (failsAt_closeParen _) fun _ _ => .pure

theorem failsAt_arguments (ts : List Token) : FailsAt .reading (rules.arguments read ts) := by
  unfold arguments
  split
  · exact .bind (failsAt_look _) fun _ _ => .pure
  · exact failsAt_moreArguments hread _

end

section
variable (hdeeper : FailsAt .reading deeper)
  (hread : ∀ read, deeper = .ok read → ∀ level ts, FailsAt .reading (read level ts))
include hdeeper hread

theorem failsAt_call (name : String) (ts : List Token) :
    FailsAt .reading (rules.call deeper name ts) := by
  unfold call
  split
  · exact .throw rfl
  · refine .bind (failsAt_look _) fun _ _ => .bind hdeeper fun read h => ?_
    refine .bind (failsAt_arguments (hread read h) _) fun args _ => ?_
    split
    · exact .pure
    · exact .throw rfl

/-! ## Operands, powers and factors -/

theorem failsAt_operand (ts : List Token) : FailsAt .reading (rules.operand deeper ts) := by
  unfold operand
  split
  · exact .bind (failsAt_look _) fun _ _ => .pure
  · exact .bind (failsAt_look _) fun _ _ => .pure
  · exact .bind (failsAt_call hdeeper hread _ _) fun _ _ => .pure
  · exact .bind (failsAt_look _) fun _ _ => .pure
  · exact .bind (failsAt_look _) fun _ _ => .bind hdeeper fun read h =>
      .bind (hread read h _ _) fun _ _ => .bind (failsAt_closeParen _) fun _ _ => .pure
  · exact .throw rfl

theorem failsAt_power (ts : List Token) : FailsAt .reading (rules.power deeper ts) := by
  refine .bind (failsAt_operand hdeeper hread _) fun base _ => ?_
  split
  · exact .bind (failsAt_look _) fun _ _ => .bind hdeeper fun read h =>
      .bind (hread read h _ _) fun _ _ => .pure
  · exact .pure

theorem failsAt_factor (ts : List Token) : FailsAt .reading (rules.factor deeper ts) := by
  unfold factor
  split
  · exact .map (.bind (failsAt_look _) fun _ _ => .bind hdeeper fun read h =>
      .bind (hread read h _ _) fun _ _ => .pure)
  · exact .map (.bind (failsAt_look _) fun _ _ => .bind hdeeper fun read h =>
      .bind (hread read h _ _) fun _ _ => .pure)
  · exact failsAt_power hdeeper hread _

/-! ## Chains and expressions -/

theorem failsAt_chain (left : Taken ts Expr) : FailsAt .reading (rules.chain deeper level left) := by
  fun_induction chain rules deeper level left with
  | case1 | case2 => exact .pure
  | case3 left _ t rest hrest op hop ih =>
    exact .bind (failsAt_look _) fun _ _ => .bind hdeeper fun read h =>
      .bind (hread read h _ _) fun right _ => ih right

theorem failsAt_expression (level : Level) (ts : List Token) :
    FailsAt .reading (rules.expression deeper level ts) := by
  cases level with
  | factor => exact failsAt_factor hdeeper hread ts
  | product =>
    exact .bind (failsAt_factor hdeeper hread ts) fun _ _ => failsAt_chain hdeeper hread _
  | sum =>
    exact .bind (failsAt_factor hdeeper hread ts) fun _ _ =>
      .bind (failsAt_chain hdeeper hread _) fun _ _ => failsAt_chain hdeeper hread _

end

theorem failsAt_readExpr (nesting : Nat) (level : Level) (ts : List Token) :
    FailsAt .reading (rules.readExpr nesting level ts) := by
  induction nesting generalizing level ts with
  | zero => exact failsAt_expression (.throw rfl) nofun level ts
  | succ nesting ih =>
    refine failsAt_expression .pure (fun read h => ?_) level ts
    obtain rfl := Except.ok.inj h
    exact ih

theorem failsAt_ofTokens (ts : List Token) : FailsAt .reading (rules.ofTokens ts) := by
  refine .bind (failsAt_look _) fun _ _ => .bind (failsAt_readExpr _ _ _) fun e _ => ?_
  split
  · exact .pure
  · exact .throw rfl

end ReadingRules

theorem Expr.failsAt_ofText (policy : Policy) (text : String) :
    FailsAt .reading (Expr.ofText policy text) := by
  unfold Expr.ofText
  split
  · exact .throw rfl
  · exact ReadingRules.failsAt_ofTokens _

end MetricFormula
