import MetricFormula.Proofs.Reading.Language

/-! # Limits of reading

What a limit on nesting leaves of what is read. A reader that may go less deep takes the same as one
that may go deeper, with the same faults, until it has spent its nesting (`givesWay_readExpr`).
Together with what readers take this says which limits a text is read under. -/

namespace MetricFormula
namespace ReadingRules

/-- The same rules with another limit on nesting. -/
def limited (rules : ReadingRules) (limit : Nat) : ReadingRules := { rules with maxNesting := limit }

/-- The readers of what is nested give the same outcomes, unless there is none or the first has spent
its nesting. -/
inductive DeeperGivesWay (fault : Fault) : Except Fault ExprReader → Except Fault ExprReader → Prop
  | spent {deeper : Except Fault ExprReader} : DeeperGivesWay fault (.error fault) deeper
  | read {read read' : ExprReader} : (∀ level ts, GivesWay fault (read level ts) (read' level ts)) →
      DeeperGivesWay fault (.ok read) (.ok read')

variable {rules : ReadingRules} {limit : Nat} {fault : Fault} {level : Level} {ts : List Token}

theorem DeeperGivesWay.bind {deeper deeper' : Except Fault ExprReader} {α : Type}
    {f f' : ExprReader → Except Fault α} (h : DeeperGivesWay fault deeper deeper')
    (hf : ∀ read read', (∀ level ts, GivesWay fault (read level ts) (read' level ts)) →
      GivesWay fault (f read) (f' read')) :
    GivesWay fault (deeper >>= f) (deeper' >>= f') := by
  cases h with
  | spent => exact .inl rfl
  | read hread => exact hf _ _ hread

/-! ## Arguments -/

section
variable {read read' : ExprReader}
  (hread : ∀ level ts, GivesWay fault (read level ts) (read' level ts))
include hread

theorem givesWay_moreArguments (ts : List Token) :
    GivesWay fault (rules.moreArguments read ts) ((rules.limited limit).moreArguments read' ts) := by
  fun_induction moreArguments rules read ts with
  | case1 ts ih =>
    rw [moreArguments]
    refine .bind (hread _ _) fun arg => ?_
    obtain ⟨value, rest, hshort⟩ := arg
    cases rest with
    | nil => exact .refl _
    | cons t rest =>
      cases t with
      | comma =>
        exact .bind (.refl _) fun _ => .bind (ih ⟨value, _, hshort⟩ rest rfl) fun _ => .refl _
      | _ => exact .refl _

theorem givesWay_arguments (ts : List Token) :
    GivesWay fault (rules.arguments read ts) ((rules.limited limit).arguments read' ts) := by
  unfold arguments
  split
  · exact .refl _
  · exact givesWay_moreArguments hread _

end

section
variable {deeper deeper' : Except Fault ExprReader}
  (hdeeper : DeeperGivesWay fault deeper deeper')
include hdeeper

/-! ## Operands, powers and factors -/

theorem givesWay_call (name : String) (ts : List Token) :
    GivesWay fault (rules.call deeper name ts) ((rules.limited limit).call deeper' name ts) := by
  have hcase : (rules.limited limit).ignoreCase = rules.ignoreCase := rfl
  unfold call
  rw [hcase]
  cases Function.lookup? rules.ignoreCase name with
  | none => exact .refl _
  | some f =>
    exact .bind (.refl _) fun _ => hdeeper.bind fun _ _ hread =>
      .bind (givesWay_arguments hread ts) fun _ => .refl _

theorem givesWay_operand (ts : List Token) :
    GivesWay fault (rules.operand deeper ts) ((rules.limited limit).operand deeper' ts) := by
  unfold operand
  split
  · exact .refl _
  · exact .refl _
  · exact .bind (givesWay_call hdeeper _ _) fun _ => .refl _
  · exact .refl _
  · exact .bind (.refl _) fun _ => hdeeper.bind fun _ _ hread =>
      .bind (hread _ _) fun _ => .refl _
  · exact .refl _

theorem givesWay_power (ts : List Token) :
    GivesWay fault (rules.power deeper ts) ((rules.limited limit).power deeper' ts) := by
  refine .bind (givesWay_operand hdeeper _) fun base => ?_
  obtain ⟨value, rest, hshort⟩ := base
  cases rest with
  | nil => exact .refl _
  | cons t rest =>
    cases t with
    | starStar =>
      exact .bind (.refl _) fun _ => hdeeper.bind fun _ _ hread =>
        .bind (hread _ _) fun _ => .refl _
    | _ => exact .refl _

theorem givesWay_factor (ts : List Token) :
    GivesWay fault (rules.factor deeper ts) ((rules.limited limit).factor deeper' ts) := by
  unfold factor
  split
  · exact .map (.bind (.refl _) fun _ => hdeeper.bind fun _ _ hread =>
      .bind (hread _ _) fun _ => .refl _)
  · exact .map (.bind (.refl _) fun _ => hdeeper.bind fun _ _ hread =>
      .bind (hread _ _) fun _ => .refl _)
  · exact givesWay_power hdeeper _

/-! ## Chains and expressions -/

theorem givesWay_chain (left : Taken ts Expr) :
    GivesWay fault (rules.chain deeper level left)
      ((rules.limited limit).chain deeper' level left) := by
  fun_induction chain rules deeper level left with
  | case1 left _ hrest =>
    obtain ⟨value, rest, hshort⟩ := left
    cases hrest
    rw [chain]
    exact .refl _
  | case2 left _ t rest hrest hop =>
    obtain ⟨value, _, hshort⟩ := left
    cases hrest
    rw [chain]
    simp only [hop]
    exact .refl _
  | case3 left _ t rest hrest op hop ih =>
    obtain ⟨value, _, hshort⟩ := left
    cases hrest
    rw [chain]
    simp only [hop]
    exact .bind (.refl _) fun _ => hdeeper.bind fun _ _ hread =>
      .bind (hread _ _) fun right => ih right

theorem givesWay_expression (level : Level) (ts : List Token) :
    GivesWay fault (rules.expression deeper level ts)
      ((rules.limited limit).expression deeper' level ts) := by
  cases level with
  | factor => exact givesWay_factor hdeeper ts
  | product => exact .bind (givesWay_factor hdeeper ts) fun _ => givesWay_chain hdeeper _
  | sum =>
    exact .bind (givesWay_factor hdeeper ts) fun _ =>
      .bind (givesWay_chain hdeeper _) fun _ => givesWay_chain hdeeper _

end

theorem givesWay_readExpr {n m : Nat} (h : n ≤ m) (level : Level) (ts : List Token) :
    GivesWay (.tooComplex (.nesting rules.maxNesting)) (rules.readExpr n level ts)
      ((rules.limited limit).readExpr m level ts) := by
  induction n generalizing m level ts with
  | zero =>
    cases m with
    | zero => exact givesWay_expression .spent level ts
    | succ m => exact givesWay_expression .spent level ts
  | succ n ih =>
    obtain ⟨m, rfl⟩ := Nat.exists_eq_add_of_le' h
    exact givesWay_expression (.read fun level ts => ih (Nat.le_of_succ_le_succ h) level ts) level ts

theorem givesWay_ofTokens (h : rules.maxNesting ≤ limit) (ts : List Token) :
    GivesWay (.tooComplex (.nesting rules.maxNesting)) (rules.ofTokens ts)
      ((rules.limited limit).ofTokens ts) :=
  .bind (.refl _) fun _ => .bind (givesWay_readExpr h .sum ts) fun _ => .refl _

/-- Of tokens that are read at all, the nesting decides under which limits they are. -/
theorem ofTokens_limited {e : Expr} {spent : Nat} (h : rules.ofTokens ts = .ok e)
    (hspent : Nesting 1 rules.ignoreCase spent ts e) (limit : Nat) :
    ((rules.limited limit).ofTokens ts = .ok e ↔ spent ≤ limit) ∧
      (limit < spent →
        (rules.limited limit).ofTokens ts = .error (.tooComplex (.nesting limit))) := by
  obtain ⟨hending, hnests⟩ := nestsWithin_of_ofTokens h
  have hread : (rules.limited limit).ofTokens ts = .ok e ↔ spent ≤ limit := by
    rw [ofTokens_eq_ok_iff_nestsWithin, ← hspent limit]
    exact and_iff_right hending
  refine ⟨hread, fun hlt => ?_⟩
  have hle : limit ≤ rules.maxNesting := Nat.le_trans (Nat.le_of_lt hlt) ((hspent _).mp hnests)
  have hgives : GivesWay (.tooComplex (.nesting limit)) ((rules.limited limit).ofTokens ts)
      (rules.ofTokens ts) := givesWay_ofTokens hle ts
  rcases hgives with hspent | hsame
  · exact hspent
  · exact absurd (hread.mp (hsame.trans h)) (Nat.not_le_of_lt hlt)

end ReadingRules

variable {policy : Policy} {text : String} {e : Expr}

/-! ## Texts -/

theorem Expr.length_le_of_ofText (h : Expr.ofText policy text = .ok e) :
    text.length ≤ policy.maxLength.toNat := by
  refine Nat.le_of_not_lt fun hlt => ?_
  rw [ofText, if_pos hlt] at h
  nomatch h

theorem Expr.ofText_limited (h : text.length ≤ policy.maxLength.toNat) (limit : UInt64) :
    Expr.ofText { policy with maxNesting := limit } text =
      (ReadingRules.limited
        ⟨policy.ignoreCase, policy.maxNesting.toNat, (scan text.toList).fault⟩
        limit.toNat).ofTokens (scan text.toList).tokens :=
  Expr.ofText_eq h

/-- A sum of two numbers has no parentheses, signs or calls, and yet is too complex where no nesting is
allowed. -/
theorem Expr.ofText_sum_too_complex :
    let ts : List Token := [.number (.ofInt 1), .plus, .number (.ofInt 1)]
    let e : Expr := .binary .add (.number (.ofInt 1)) (.number (.ofInt 1))
    Lexes "1+1".toList ts ∧ Nesting 0 true 0 ts e ∧ Expr.ofText {} "1+1" = .ok e ∧
      Expr.ofText { maxNesting := 0 } "1+1" = .error (.tooComplex (.nesting 0)) := by
  intro ts e
  have hlexes : Lexes "1+1".toList ts := lexes_iff_scan_eq.mpr (by decide +kernel)
  have hnests (operand n : Nat) : NestsWithin operand true (n + operand) .expr ts e :=
    .sum (.ofTerm (.ofFactor (.ofPower (.ofPrimary .number)))) .add
      (.ofFactor (.ofPower (.ofPrimary .number)))
  have hspent : Nesting 1 true 1 ts e := by
    intro n
    cases n with
    | succ n => exact ⟨fun _ => Nat.le_add_left 1 n, fun _ => hnests 1 n⟩
    | zero => exact ⟨fun h => absurd rfl (h.ne_binary rfl _ _ _), fun h => nomatch h⟩
  have hread : (ReadingRules.mk true 64 none).ofTokens ts = .ok e :=
    ReadingRules.ofTokens_eq_ok_iff_nestsWithin.mpr ⟨rfl, hnests 1 63⟩
  have hscan := lexes_iff_scan_eq.mp hlexes
  refine ⟨hlexes, fun n => ⟨fun _ => Nat.zero_le n, fun _ => hnests 0 n⟩, ?_, ?_⟩
  · rw [Expr.ofText_eq (by decide), hscan]
    exact hread
  · rw [Expr.ofText_eq (by decide), hscan]
    exact (ReadingRules.ofTokens_limited hread hspent 0).2 Nat.one_pos

/-- A text that is read at all falls into tokens whose nesting decides under which limits it is read,
where right operands count as nested; under the others it is too complex. The nesting of its
parentheses, signs and calls alone is no greater. -/
theorem Expr.ofText_nesting (h : Expr.ofText policy text = .ok e) :
    ∃ ts enclosed spent, Lexes text.toList ts ∧ Nesting 0 policy.ignoreCase enclosed ts e ∧
      Nesting 1 policy.ignoreCase spent ts e ∧ enclosed ≤ spent ∧
      ∀ limit : UInt64,
        (Expr.ofText { policy with maxNesting := limit } text = .ok e ↔ spent ≤ limit.toNat) ∧
        (limit.toNat < spent → Expr.ofText { policy with maxNesting := limit } text =
          .error (.tooComplex (.nesting limit.toNat))) := by
  have hlength := length_le_of_ofText h
  rw [Expr.ofText_eq hlength] at h
  obtain ⟨hending, hnests⟩ := ReadingRules.nestsWithin_of_ofTokens h
  obtain ⟨spent, hspent⟩ := hnests.exists_nesting
  obtain ⟨enclosed, henclosed⟩ :=
    (hnests.mono (Nat.zero_le 1) (fun _ _ => id) (Nat.le_refl _)).exists_nesting
  refine ⟨_, enclosed, spent, lexes_scan _ hending, henclosed, hspent,
    hspent.le henclosed (Nat.zero_le 1), fun limit => ?_⟩
  rw [Expr.ofText_limited hlength]
  exact ReadingRules.ofTokens_limited h hspent limit.toNat

/-- The difference in the parentheses lies under a sign, and its right operand one level deeper. -/
theorem Expr.ofText_nesting_signed :
    let e : Expr := .signed .minus (.binary .sub (.text "a") (.text "b"))
    Expr.ofText {} "-('a' - 'b')" = .ok e ∧
      ∃ ts enclosed spent, Lexes "-('a' - 'b')".toList ts ∧ Nesting 0 true enclosed ts e ∧
        Nesting 1 true spent ts e ∧ enclosed ≤ spent ∧
        ∀ limit : UInt64,
          (Expr.ofText { maxNesting := limit } "-('a' - 'b')" = .ok e ↔ spent ≤ limit.toNat) ∧
          (limit.toNat < spent → Expr.ofText { maxNesting := limit } "-('a' - 'b')" =
            .error (.tooComplex (.nesting limit.toNat))) := by
  intro e
  have hlexes : Lexes "-('a' - 'b')".toList
      [.minus, .leftParen, .text "a", .minus, .text "b", .rightParen] :=
    lexes_iff_scan_eq.mpr (by decide +kernel)
  have hdifference : Derives true .expr [.text "a", .minus, .text "b"]
      (.binary .sub (.text "a") (.text "b")) :=
    .sum (.expr_of_factor (.ofPower (.ofPrimary .text))) .sub
      (.ofFactor (.ofPower (.ofPrimary .text)))
  have hread : Expr.ofText {} "-('a' - 'b')" = .ok e :=
    Expr.ofText_of_derives (by decide) (by decide) hlexes
      (.expr_of_factor (.signed .minus (.ofPower (.ofPrimary (.parens hdifference)))))
  exact ⟨hread, Expr.ofText_nesting hread⟩

end MetricFormula
