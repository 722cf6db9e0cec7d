import MetricFormula.Proofs.Reading.Greedy

/-! # Climbing tracks reading

Reading by precedence climbing has the outcome of reading by levels, from whatever depth it starts with
as much left to spend as the counter leaves. It gets back to that depth unless there is a fault, and
opens no more activations on the way than there are levels left. All of this is one relation, `Tracks`,
between a computation that counts and a plain outcome, and it is kept by putting computations together.
What is nested is read by the plain reader for one level less, so the induction is on the levels. -/

namespace MetricFormula

namespace Counted

variable {α β : Type} {x : Counted α} {f : α → Counted β} {g g' : Gauge}

theorem runFrom_bind (x : Counted α) (f : α → Counted β) (g : Gauge) :
    (x >>= f).runFrom g = (ExceptT.bindCont f (x.runFrom g).1).run (x.runFrom g).2 := rfl

theorem runFrom_bind_ok {a : α} (h : x.runFrom g = (.ok a, g')) :
    (x >>= f).runFrom g = (f a).runFrom g' := by
  rw [runFrom_bind, h]
  rfl

theorem runFrom_bind_error {e : Fault} (h : x.runFrom g = (.error e, g')) :
    (x >>= f).runFrom g = (.error e, g') := by
  rw [runFrom_bind, h]
  rfl

theorem runFrom_activation (x : Counted α) (g : Gauge) :
    let opened := g.opened + 1
    let ended := x.runFrom ⟨g.depth, opened, max g.most opened⟩
    (activation x).runFrom g = (ended.1, { ended.2 with opened := ended.2.opened - 1 }) := rfl

/-- Whatever has been the most so far, `x` has the outcome `y` from the depth `start` with so many
activations open. It leaves these open, never has more than `bound`, and gets to the depth `stop` unless
there is a fault. -/
def Tracks (start stop opened bound : Nat) (x : Counted α) (y : Except Fault α) : Prop :=
  ∀ most, ∃ depth most', x.runFrom ⟨start, opened, most⟩ = (y, ⟨depth, opened, most'⟩) ∧
    most' ≤ max most bound ∧ ∀ a, y = .ok a → depth = stop

namespace Tracks

variable {start mid stop opened bound limit : Nat} {y : Except Fault α} {f' : α → Except Fault β}
  {k : Counted α}

theorem pure (a : α) : Tracks start start opened bound (Pure.pure a) (Pure.pure a) :=
  fun most => ⟨start, most, rfl, Nat.le_max_left _ _, fun _ _ => rfl⟩

theorem throw (fault : Fault) :
    Tracks start stop opened bound (MonadExcept.throw fault : Counted α) (.error fault) :=
  fun most => ⟨start, most, rfl, Nat.le_max_left _ _, nofun⟩

/-- What does not count leaves the gauge as it is. -/
theorem lift (y : Except Fault α) : Tracks start start opened bound (liftM y) y :=
  fun most => ⟨start, most, rfl, Nat.le_max_left _ _, fun _ _ => rfl⟩

theorem bind (hx : Tracks start mid opened bound x y)
    (hf : ∀ a, y = .ok a → Tracks mid stop opened bound (f a) (f' a)) :
    Tracks start stop opened bound (x >>= f) (y >>= f') := by
  intro most
  obtain ⟨depth, most', hrun, hmost, hdepth⟩ := hx most
  cases y with
  | error fault => exact ⟨depth, most', runFrom_bind_error hrun, hmost, nofun⟩
  | ok a =>
    obtain rfl := hdepth a rfl
    obtain ⟨depth', most'', hrun', hmost', hdepth'⟩ := hf a rfl most'
    refine ⟨depth', most'', (runFrom_bind_ok hrun).trans hrun', ?_, hdepth'⟩
    exact Nat.le_trans hmost' (Nat.max_le.mpr ⟨hmost, Nat.le_max_right _ _⟩)

theorem map (hx : Tracks start stop opened bound x y) (f : α → β) :
    Tracks start stop opened bound (do return f (← x)) (y.map f) := by
  have hmap : y.map f = do return f (← y) := by cases y <;> rfl
  rw [hmap]
  exact hx.bind fun _ _ => .pure _

theorem ascend (hk : Tracks start stop opened bound k y) :
    Tracks (start + 1) stop opened bound (do Counted.ascend; k) y :=
  fun most => hk most

theorem descend (hlt : start < limit) (hk : Tracks (start + 1) stop opened bound k y) :
    Tracks start stop opened bound (do Counted.descend limit; k) y := by
  intro most
  have hrun : (Counted.descend limit).runFrom ⟨start, opened, most⟩ =
      (.ok (), ⟨start + 1, opened, most⟩) := by
    show ((if limit < start + 1 then _ else _ : Counted Unit).runFrom _) = _
    rw [if_neg (Nat.not_lt_of_le hlt)]
    rfl
  rw [runFrom_bind_ok hrun]
  exact hk most

theorem spent (hle : limit ≤ start) :
    Tracks start stop opened bound (do Counted.descend limit; k)
      (.error (.tooComplex (.nesting limit))) := by
  intro most
  have hrun : (Counted.descend limit).runFrom ⟨start, opened, most⟩ =
      (.error (.tooComplex (.nesting limit)), ⟨start + 1, opened, most⟩) := by
    show ((if limit < start + 1 then _ else _ : Counted Unit).runFrom _) = _
    rw [if_pos (Nat.lt_succ_of_le hle)]
    rfl
  exact ⟨start + 1, most, runFrom_bind_error hrun, Nat.le_max_left _ _, nofun⟩

theorem activation (h : Tracks start stop (opened + 1) bound x y) (hle : opened + 1 ≤ bound) :
    Tracks start stop opened bound (Counted.activation x) y := by
  intro most
  obtain ⟨depth, most', hrun, hmost, hdepth⟩ := h (max most (opened + 1))
  refine ⟨depth, most', ?_, by omega, hdepth⟩
  rw [runFrom_activation, hrun]
  rfl

end Tracks
end Counted

open Counted (Tracks)

namespace ReadingRules

/-- Climbing from one level deeper tracks the reader of what is nested, if there is one, and the limit
is reached if there is none. -/
inductive Serves (rules : ReadingRules) (depth opened bound : Nat) : Except Fault ExprReader → Prop
  | spent : rules.maxNesting ≤ depth →
      Serves rules depth opened bound (.error (.tooComplex (.nesting rules.maxNesting)))
  | read {read : ExprReader} : depth < rules.maxNesting → read.Greedy →
      (∀ least ≤ 4, ∀ ts, Tracks (depth + 1) (depth + 1) opened bound (rules.climb least ts)
        (read (.ofTightness least) ts)) → Serves rules depth opened bound (.ok read)

variable {rules : ReadingRules} {depth stop opened bound least : Nat}
  {deeper : Except Fault ExprReader} {ts : List Token}

/-! ## Arguments -/

section
variable {read : ExprReader} (hread : ∀ least ≤ 4, ∀ ts, Tracks (depth + 1) (depth + 1) opened bound
  (rules.climb least ts) (read (.ofTightness least) ts))
include hread

theorem tracks_climbList (ts : List Token) :
    Tracks (depth + 1) depth opened bound (rules.climbList ts) (rules.moreArguments read ts) := by
  fun_induction moreArguments rules read ts with
  | case1 ts ih =>
    rw [climbList]
    refine .bind (hread 0 (Nat.zero_le 4) ts) fun arg _ => ?_
    obtain ⟨value, rest, hshort⟩ := arg
    cases rest with
    | nil => exact .ascend (.bind (.lift _) fun _ _ => .pure _)
    | cons t rest =>
      cases t with
      | comma =>
        exact .bind (.lift _) fun _ _ => .bind (ih ⟨value, _, hshort⟩ rest rfl) fun _ _ => .pure _
      | _ => exact .ascend (.bind (.lift _) fun _ _ => .pure _)

theorem tracks_climbArguments (ts : List Token) :
    Tracks (depth + 1) depth opened bound (rules.climbArguments ts) (rules.arguments read ts) := by
  rw [climbArguments.eq_def]
  split
  · exact .ascend (.bind (.lift _) fun _ _ => .pure _)
  · rename_i hne
    rw [arguments]
    · exact tracks_climbList hread ts
    · exact hne

end

section
variable (hserves : rules.Serves depth opened bound deeper)
include hserves

theorem Serves.greedy : ∀ read, deeper = .ok read → read.Greedy := by
  rintro read rfl
  cases hserves with
  | read _ hgreedy _ => exact hgreedy

theorem Serves.bind {α : Type} {k : Counted α} {k' : ExprReader → Except Fault α}
    (hk : ∀ read : ExprReader, (∀ least ≤ 4, ∀ ts, Tracks (depth + 1) (depth + 1) opened bound
      (rules.climb least ts) (read (.ofTightness least) ts)) →
      Tracks (depth + 1) stop opened bound k (k' read)) :
    Tracks depth stop opened bound (do Counted.descend rules.maxNesting; k) (deeper >>= k') := by
  cases hserves with
  | spent hle => exact .spent hle
  | read hlt _ hread => exact .descend hlt (hk _ hread)

/-- What is nested is climbed one level deeper, and tracked back. -/
theorem Serves.nested {α : Type} {f : Taken ts Expr → Counted α} {f' : Taken ts Expr → Except Fault α}
    (hle : least ≤ 4) (hf : ∀ e, Tracks depth stop opened bound (f e) (f' e)) :
    Tracks depth stop opened bound
      (do
        Counted.descend rules.maxNesting
        let e ← rules.climb least ts
        Counted.ascend
        f e)
      (do f' (← (← deeper) (.ofTightness least) ts)) :=
  hserves.bind fun _ hread => .bind (hread least hle ts) fun e _ => .ascend (hf e)

/-! ## Operators -/

theorem tracks_climbOn (least : Nat) (left : Taken ts Expr) :
    Tracks depth depth opened bound (rules.climbOn least left) (rules.finish deeper least left) := by
  -- by induction on the tokens behind `left`, of which a round of the loop takes some
  induction hlength : left.rest.length using Nat.strongRecOn generalizing left with
  | _ n ih =>
    subst hlength
    obtain ⟨l, rest, hshort⟩ := left
    rw [climbOn]
    cases rest with
    | nil =>
      rw [finish_of_stops (stopsBefore_nil least)]
      exact .pure _
    | cons t rest =>
      cases hop : t.binding? with
      | none =>
        simp only [hop]
        rw [finish_of_stops (stopsBefore_of_none hop)]
        exact .pure _
      | some binding =>
        obtain ⟨op, tightness⟩ := binding
        simp only [hop]
        split
        · rename_i hlt
          rw [finish_of_stops (stopsBefore_cons hop hlt)]
          exact .pure _
        · rename_i hle
          rw [finish_step hserves.greedy hop (Nat.le_of_not_lt hle)]
          refine .bind (.lift _) fun _ _ => ?_
          refine hserves.nested (Token.tightnessBehind_le hop) fun right => ?_
          exact ih _ (Nat.lt_trans right.shorter (Nat.lt_succ_self _)) _ rfl

/-! ## Operands -/

theorem tracks_climbSigned (sign : Sign) (ts : List Token) :
    Tracks depth depth opened bound (rules.climbSigned sign ts) (do
      rules.look ts
      let e ← (← deeper) .factor ts
      return e.map (.signed sign)) := by
  rw [climbSigned]
  exact .bind (.lift _) fun _ _ => hserves.nested (by decide) fun e => .pure _

theorem tracks_climbName (s : String) (rest : List Token) :
    Tracks depth depth opened bound (rules.climbName s rest)
      (rules.operand deeper (.name s :: rest)) := by
  rw [climbName.eq_def]
  split
  · rename_i ts
    rw [operand, call]
    cases Function.lookup? rules.ignoreCase s with
    | none => exact .throw _
    | some f =>
      simp only [bind_assoc]
      refine .bind (.lift _) fun _ _ => hserves.bind fun read hread => ?_
      refine .bind (tracks_climbArguments hread ts) fun args _ => ?_
      split
      · exact .pure _
      · exact .throw _
  · rename_i hne
    rw [operand]
    · exact .bind (.lift _) fun _ _ => .pure _
    · exact hne

theorem tracks_climbStart (ts : List Token) :
    Tracks depth depth opened bound (rules.climbStart ts) (rules.opening deeper ts) := by
  rw [climbStart.eq_def]
  split
  · exact (tracks_climbSigned hserves .plus _).map _
  · exact (tracks_climbSigned hserves .minus _).map _
  · exact .bind (.lift _) fun _ _ => .pure _
  · exact .bind (.lift _) fun _ _ => .pure _
  · exact tracks_climbName hserves _ _
  · show Tracks _ _ _ _ _ (rules.operand deeper _)
    rw [operand]
    refine .bind (.lift _) fun _ _ => hserves.nested (by decide) fun e => ?_
    exact .bind (.lift _) fun _ _ => .pure _
  · rename_i hplus hminus hnumber htext hname hparen
    have hopening : rules.opening deeper ts = rules.operand deeper ts := by
      rw [opening] <;> assumption
    rw [hopening, operand]
    · exact .throw _
    · exact hnumber
    · exact htext
    · exact fun s rest => hname s (.leftParen :: rest)
    · exact hname
    · exact hparen

end

/-! ## Expressions -/

/-- An activation of the loop begins with a sign or an operand and finishes what it has begun. -/
theorem tracks_climb (hserves : rules.Serves depth (opened + 1) bound deeper)
    (hle : opened + 1 ≤ bound) (least : Nat) (ts : List Token) :
    Tracks depth depth opened bound (rules.climb least ts)
      (rules.opening deeper ts >>= rules.finish deeper least) := by
  rw [climb]
  exact .activation ((tracks_climbStart hserves ts).bind fun left _ =>
    tracks_climbOn hserves least left) hle

/-- The reader of what is nested, where so many levels are left to spend. -/
def readDeeper (rules : ReadingRules) : (nesting : Nat) → Except Fault ExprReader
  | 0 => .error (.tooComplex (.nesting rules.maxNesting))
  | nesting + 1 => .ok (rules.readExpr nesting)

theorem readExpr_eq (nesting : Nat) :
    rules.readExpr nesting = rules.expression (rules.readDeeper nesting) := by
  cases nesting <;> rfl

/-- At any depth, what the counter leaves is what there is left to spend, and one more activation may
be opened for each level of it. -/
theorem serves_readDeeper (rules : ReadingRules) (depth opened : Nat) :
    rules.Serves depth opened (opened + (rules.maxNesting - depth))
      (rules.readDeeper (rules.maxNesting - depth)) := by
  induction hleft : rules.maxNesting - depth generalizing depth opened with
  | zero => exact .spent (Nat.le_of_sub_eq_zero hleft)
  | succ n ih =>
    refine .read (Nat.lt_of_sub_eq_succ hleft) (greedy_readExpr n) fun least hle ts => ?_
    have hserves := ih (depth + 1) (opened + 1) (by omega)
    have h := tracks_climb hserves (by omega) least ts
    rw [← expression_eq hserves.greedy hle, ← readExpr_eq] at h
    rwa [show opened + (n + 1) = opened + 1 + n by omega]

/-- Climbing over all of the tokens tracks reading them. -/
theorem tracks_climbTokens (rules : ReadingRules) (ts : List Token) :
    Tracks 0 0 0 (rules.maxNesting + 1) (rules.climbTokens ts) (rules.ofTokens ts) := by
  have hserves := serves_readDeeper rules 0 1
  have hclimb := tracks_climb hserves (Nat.le_add_right 1 _) 0 ts
  rw [← expression_eq hserves.greedy (by decide), ← readExpr_eq, Nat.sub_zero, Nat.add_comm 1] at hclimb
  refine .bind (.lift _) fun _ _ => hclimb.bind fun e _ => ?_
  obtain ⟨value, rest, hshort⟩ := e
  cases rest with
  | nil => exact .pure _
  | cons t rest => exact .throw _

end ReadingRules

theorem Expr.tracks_climbText (policy : Policy) (text : String) :
    Tracks 0 0 0 (policy.maxNesting.toNat + 1) (climbText policy text) (ofText policy text) := by
  unfold climbText ofText
  split
  · exact .throw _
  · exact ReadingRules.tracks_climbTokens _ _

end MetricFormula
