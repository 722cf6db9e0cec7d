import MetricFormula.Proofs.Grammar.Derivation

/-! # Subexpressions

Induction over expressions, whose calls hold lists of them, and the expressions within an expression.
The grammar derives no call with a number of arguments that its function does not take. -/

namespace MetricFormula

namespace Expr

/-- Induction over an expression, with the hypothesis for each argument of a call. -/
@[elab_as_elim, induction_eliminator]
theorem induction {motive : Expr → Prop} (number : ∀ x, motive (.number x))
    (text : ∀ s, motive (.text s)) (name : ∀ s, motive (.name s))
    (call : ∀ f args, (∀ a ∈ args, motive a) → motive (.call f args))
    (signed : ∀ sign operand, motive operand → motive (.signed sign operand))
    (binary : ∀ op left right, motive left → motive right → motive (.binary op left right)) :
    ∀ e, motive e
  | .number x => number x
  | .text s => text s
  | .name s => name s
  | .call f args => call f args fun a _ => induction number text name call signed binary a
  | .signed sign e => signed sign e (induction number text name call signed binary e)
  | .binary op l r =>
    binary op l r (induction number text name call signed binary l)
      (induction number text name call signed binary r)

/-- The first expression occurs in the second, or is all of it. -/
inductive Within (e : Expr) : Expr → Prop
  | refl : Within e e
  | argument : a ∈ args → Within e a → Within e (.call f args)
  | operand : Within e x → Within e (.signed sign x)
  | left : Within e l → Within e (.binary op l r)
  | right : Within e r → Within e (.binary op l r)

/-- All calls in an expression have as many arguments as their functions take. -/
def CallsAdmitted (e : Expr) : Prop :=
  ∀ f args, Within (.call f args) e → f.arity.admits args.length

namespace CallsAdmitted

theorem signed {sign : Sign} {e : Expr} (h : e.CallsAdmitted) : (Expr.signed sign e).CallsAdmitted :=
  fun f args hwithin => by
    cases hwithin with
    | operand hwithin => exact h f args hwithin

theorem binary {op : BinaryOp} {l r : Expr} (hl : l.CallsAdmitted) (hr : r.CallsAdmitted) :
    (Expr.binary op l r).CallsAdmitted := fun f args hwithin => by
  cases hwithin with
  | left hwithin => exact hl f args hwithin
  | right hwithin => exact hr f args hwithin

theorem call {f : Function} {args : List Expr} (hf : f.arity.admits args.length)
    (hargs : ∀ a ∈ args, a.CallsAdmitted) : (Expr.call f args).CallsAdmitted :=
  fun g as hwithin => by
    cases hwithin with
    | refl => exact hf
    | argument ha hwithin => exact hargs _ ha g as hwithin

end CallsAdmitted
end Expr

variable {ignoreCase : Bool}

mutual

theorem Derives.callsAdmitted {nt : Nonterminal} {ts : List Token} {e : Expr}
    (h : Derives ignoreCase nt ts e) : e.CallsAdmitted := by
  match h with
  | .ofTerm h | .ofFactor h | .ofPower h | .ofPrimary h | .parens h => exact h.callsAdmitted
  | .sum hl _ hr | .product hl _ hr | .pow hl hr => exact .binary hl.callsAdmitted hr.callsAdmitted
  | .signed _ h => exact .signed h.callsAdmitted
  | .number | .text | .name => exact nofun
  | .call _ hargs hadmits => exact .call hadmits hargs.callsAdmitted

theorem DerivesArguments.callsAdmitted {ts : List Token} {args : List Expr}
    (h : DerivesArguments ignoreCase ts args) : ∀ a ∈ args, a.CallsAdmitted := by
  match h with
  | .empty => exact nofun
  | .list h => exact h.callsAdmitted

theorem DerivesList.callsAdmitted {ts : List Token} {args : List Expr}
    (h : DerivesList ignoreCase ts args) : ∀ a ∈ args, a.CallsAdmitted := by
  match h with
  | .last h => exact List.forall_mem_singleton.mpr h.callsAdmitted
  | .comma h hmore => exact List.forall_mem_cons.mpr ⟨h.callsAdmitted, hmore.callsAdmitted⟩

end

end MetricFormula
