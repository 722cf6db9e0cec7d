import MetricFormula.Proofs.Reading.Limits
import MetricFormula.Proofs.Reading.Tracking

/-! # The depth of reading

The limit on nesting bounds both how deep the tree is that is read and how deep the reader that climbs
recurses on the way. Only steps to the right and down count: a chain that is grouped from the left is
as long as the text allows. -/

namespace MetricFormula

/-- A path leads down from the expression to another, with so many steps into what a sign stands before,
an argument of a call, or a right operand. -/
inductive Expr.Descends : Expr → Nat → Expr → Prop
  | refl : Descends e 0 e
  | argument : a ∈ args → Descends a n x → Descends (.call f args) (n + 1) x
  | operand : Descends e n x → Descends (.signed sign e) (n + 1) x
  | left : Descends l n x → Descends (.binary op l r) n x
  | right : Descends r n x → Descends (.binary op l r) (n + 1) x

/-! ## Paths and nesting -/

section
variable {ignoreCase : Bool}

mutual

/-- Paths go no deeper than the tokens nest. -/
theorem NestsWithin.steps_le {n : Nat} {nt : Nonterminal} {ts : List Token} {e : Expr}
    (h : NestsWithin 1 ignoreCase n nt ts e) {steps : Nat} {x : Expr} :
    e.Descends steps x → steps ≤ n := by
  match h with
  | .ofTerm h => exact h.steps_le
  | .ofFactor h => exact h.steps_le
  | .ofPower h => exact h.steps_le
  | .ofPrimary h => exact h.steps_le
  | .parens h => exact fun hpath => Nat.le_succ_of_le (h.steps_le hpath)
  | .sum hl _ hr | .product hl _ hr | .pow hl hr =>
    intro hpath
    cases hpath with
    | refl => exact Nat.zero_le _
    | left hpath => exact hl.steps_le hpath
    | right hpath => exact Nat.succ_le_succ (hr.steps_le hpath)
  | .signed _ h =>
    intro hpath
    cases hpath with
    | refl => exact Nat.zero_le _
    | operand hpath => exact Nat.succ_le_succ (h.steps_le hpath)
  | .number | .text | .name =>
    intro hpath
    cases hpath with
    | refl => exact Nat.zero_le _
  | .call _ hargs _ =>
    intro hpath
    cases hpath with
    | refl => exact Nat.zero_le _
    | argument ha hpath => exact Nat.succ_le_succ (hargs.steps_le _ ha hpath)

theorem ArgumentsNestWithin.steps_le {n : Nat} {ts : List Token} {args : List Expr}
    (h : ArgumentsNestWithin 1 ignoreCase n ts args) {steps : Nat} {x : Expr} :
    ∀ a ∈ args, a.Descends steps x → steps ≤ n := by
  match h with
  | .empty => exact nofun
  | .list h => exact h.steps_le

theorem ListNestsWithin.steps_le {n : Nat} {ts : List Token} {args : List Expr}
    (h : ListNestsWithin 1 ignoreCase n ts args) {steps : Nat} {x : Expr} :
    ∀ a ∈ args, a.Descends steps x → steps ≤ n := by
  match h with
  | .last h => exact List.forall_mem_singleton.mpr h.steps_le
  | .comma h hmore => exact List.forall_mem_cons.mpr ⟨h.steps_le, hmore.steps_le⟩

end

end

theorem Expr.steps_le_of_ofText {policy : Policy} {text : String} {e x : Expr} {steps : Nat}
    (h : Expr.ofText policy text = .ok e) (hpath : e.Descends steps x) :
    steps ≤ policy.maxNesting.toNat := by
  rw [Expr.ofText_eq (length_le_of_ofText h)] at h
  exact (ReadingRules.nestsWithin_of_ofTokens h).2.steps_le hpath

/-! ## The counter -/

open Counted (Tracks)

theorem Counted.Tracks.restored {α : Type} {depth opened bound most : Nat} {x : Counted α}
    {y : Except Fault α} {a : α} {g : Gauge} (h : Tracks depth depth opened bound x y)
    (hrun : x.runFrom ⟨depth, opened, most⟩ = (.ok a, g)) :
    g.depth = depth ∧ g.opened = opened := by
  obtain ⟨depth', most', hrun', _, hdepth⟩ := h most
  obtain ⟨hy, rfl⟩ := Prod.ext_iff.mp (hrun.symm.trans hrun')
  exact ⟨hdepth a hy.symm, rfl⟩

theorem Counted.Tracks.runFrom_start {α : Type} {bound : Nat} {x : Counted α} {y : Except Fault α}
    (h : Tracks 0 0 0 bound x y) :
    (x.runFrom ⟨0, 0, 0⟩).1 = y ∧ (x.runFrom ⟨0, 0, 0⟩).2.most ≤ bound := by
  obtain ⟨depth, most, hrun, hmost, _⟩ := h 0
  rw [hrun]
  exact ⟨rfl, by simpa using hmost⟩

/-- The limit bounds the paths in the tree that is read. Climbing reads the same, never with more than
one activation for each level of nesting and one for all of it, and each of its functions that succeeds
leaves the counter as it was. -/
theorem depth_bounded_and_restored (policy : Policy) (text : String) :
    (∀ e, Expr.ofText policy text = .ok e →
      ∀ steps x, e.Descends steps x → steps ≤ policy.maxNesting.toNat) ∧
    ((Expr.climbText policy text).runFrom ⟨0, 0, 0⟩).1 = Expr.ofText policy text ∧
    ((Expr.climbText policy text).runFrom ⟨0, 0, 0⟩).2.most ≤ policy.maxNesting.toNat + 1 ∧
    ∀ (rules : ReadingRules) (g g' : Gauge),
      (∀ least ts t, (rules.climb least ts).runFrom g = (.ok t, g') →
        g'.depth = g.depth ∧ g'.opened = g.opened) ∧
      (∀ ts t, (rules.climbStart ts).runFrom g = (.ok t, g') →
        g'.depth = g.depth ∧ g'.opened = g.opened) ∧
      ∀ s ts t, (rules.climbName s ts).runFrom g = (.ok t, g') →
        g'.depth = g.depth ∧ g'.opened = g.opened := by
  obtain ⟨hsame, hmost⟩ := (Expr.tracks_climbText policy text).runFrom_start
  refine ⟨fun e he steps x hpath => Expr.steps_le_of_ofText he hpath, hsame, hmost,
    fun rules g g' => ?_⟩
  have hserves (opened : Nat) := ReadingRules.serves_readDeeper rules g.depth opened
  refine ⟨fun least ts t hrun => ?_, fun ts t hrun => ?_, fun s ts t hrun => ?_⟩
  · have hle := Nat.le_add_right (g.opened + 1) (rules.maxNesting - g.depth)
    exact (ReadingRules.tracks_climb (hserves (g.opened + 1)) hle least ts).restored hrun
  · exact (ReadingRules.tracks_climbStart (hserves g.opened) ts).restored hrun
  · exact (ReadingRules.tracks_climbName (hserves g.opened) s ts).restored hrun

/-- The operand of the sign in the exponent lies two steps down; a name is read at any depth. -/
theorem depth_bounded_and_restored_exponent :
    let e : Expr := .binary .pow (.text "a") (.signed .minus (.text "b"))
    let rules : ReadingRules := ⟨true, 64, none⟩
    Expr.ofText {} "'a' ** -'b'" = .ok e ∧ e.Descends 2 (.text "b") ∧
      2 ≤ (64 : UInt64).toNat ∧
      ((Expr.climbText {} "'a' ** -'b'").runFrom ⟨0, 0, 0⟩).1 = .ok e ∧
      ((Expr.climbText {} "'a' ** -'b'").runFrom ⟨0, 0, 0⟩).2.most ≤ (64 : UInt64).toNat + 1 ∧
      ∃ t u v g g' g'', (rules.climb 0 [.name "a"]).runFrom ⟨7, 2, 5⟩ = (.ok t, g) ∧ g.depth = 7 ∧
        (rules.climbStart [.name "a"]).runFrom ⟨7, 2, 5⟩ = (.ok u, g') ∧ g'.depth = 7 ∧
        (rules.climbName "a" []).runFrom ⟨7, 2, 5⟩ = (.ok v, g'') ∧ g''.depth = 7 := by
  intro e rules
  have hlexes : Lexes "'a' ** -'b'".toList [.text "a", .starStar, .minus, .text "b"] :=
    lexes_iff_scan_eq.mpr (by decide +kernel)
  have hread : Expr.ofText {} "'a' ** -'b'" = .ok e :=
    Expr.ofText_of_derives (by decide) (by decide) hlexes
      (.expr_of_factor (.ofPower (.pow .text (.signed .minus (.ofPower (.ofPrimary .text))))))
  have hpath : e.Descends 2 (.text "b") := .right (.operand .refl)
  obtain ⟨hsteps, hsame, hmost, hrestored⟩ := depth_bounded_and_restored {} "'a' ** -'b'"
  have hname (g : Gauge) : (rules.climbName "a" []).runFrom g =
      (.ok ⟨.name "a", [], Nat.one_pos⟩, g) := by
    rw [ReadingRules.climbName.eq_def]
    rfl
  have hstart (g : Gauge) : (rules.climbStart [.name "a"]).runFrom g =
      (.ok ⟨.name "a", [], Nat.one_pos⟩, g) := by
    rw [ReadingRules.climbStart]
    exact hname g
  have hclimb : (rules.climb 0 [.name "a"]).runFrom ⟨7, 2, 5⟩ =
      (.ok ⟨.name "a", [], Nat.one_pos⟩, ⟨7, 2, 5⟩) := by
    rw [ReadingRules.climb, Counted.runFrom_activation, Counted.runFrom_bind_ok (hstart _),
      ReadingRules.climbOn]
    rfl
  obtain ⟨hclimbed, hstarted, hnamed⟩ := hrestored rules ⟨7, 2, 5⟩ ⟨7, 2, 5⟩
  exact ⟨hread, hpath, hsteps e hread 2 _ hpath, hsame.trans hread, hmost, _, _, _, _, _, _, hclimb,
    (hclimbed _ _ _ hclimb).1, hstart _, (hstarted _ _ (hstart _)).1, hname _,
    (hnamed _ _ _ (hname _)).1⟩

end MetricFormula
