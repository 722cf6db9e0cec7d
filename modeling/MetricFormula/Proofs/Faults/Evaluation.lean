import Mathlib.Data.List.Basic
import MetricFormula.Formula.Evaluation
import MetricFormula.Proofs.Expression.Subexpression
import MetricFormula.Proofs.Faults.Stage

/-! # Faults of evaluation

An expression of any shape evaluates to a number or fails with a fault of evaluation, but for calls
with a wrong number of arguments, which say so. Functions see only as many arguments as they take, so
none of them looks for an argument that is missing. -/

namespace MetricFormula

/-- The fault is one that a function finds with an argument: a name without a meaning, or a value of a
wrong kind. -/
def Fault.blamesArgument : Fault → Bool
  | unbound _ | mismatch _ => true
  | _ => false

theorem Fault.stage_of_blamesArgument {fault : Fault} (h : fault.blamesArgument) :
    fault.stage = .evaluation := by
  cases fault <;> first | rfl | nomatch h

section
variable {P : Fault → Prop} (hP : ∀ fault : Fault, fault.blamesArgument → P fault)
  {scope : Scope} {snapshot : Snapshot} {a : Argument}
include hP

/-! ## Arguments -/

theorem failsIn_mismatch {x : Except Mismatch α} : FailsIn P (x.mapError .mismatch) :=
  .mapError fun _ => hP _ rfl

namespace Argument

theorem failsIn_key (h : FailsIn P a.outcome) : FailsIn P (a.key scope) := by
  unfold key
  split
  · split
    · exact .pure
    · exact .throw (hP _ rfl)
  · refine .bind h fun v _ => ?_
    split
    · exact .pure
    · exact .pure
    · exact .pure
    · exact .throw (hP _ rfl)

theorem failsIn_columnOf (list : String) (h : FailsIn P a.outcome) :
    FailsIn P (a.columnOf scope list) := by
  unfold columnOf
  split
  · split
    · exact .pure
    · exact failsIn_key hP h
  · exact failsIn_key hP h

theorem failsIn_comparator (h : FailsIn P a.outcome) : FailsIn P a.comparator := by
  unfold comparator
  split
  · exact .pure
  · refine .bind h fun v _ => ?_
    split
    · split
      · exact .pure
      · exact .throw (hP _ rfl)
    · exact .throw (hP _ rfl)

theorem failsIn_comparand (h : FailsIn P a.outcome) : FailsIn P a.comparand := by
  refine .bind h fun v _ => ?_
  split
  · exact .pure
  · exact .throw (hP _ rfl)

end Argument

end

/-! ## Functions -/

theorem Arity.admits_exactly {n k : Nat} : (exactly n).admits k ↔ k = n := by
  rw [exactly]
  simp only [admits, Bool.and_eq_true, decide_eq_true_eq, Option.all_some]
  omega

theorem Arity.admits_one_two {k : Nat} : (⟨1, some 2⟩ : Arity).admits k ↔ k = 1 ∨ k = 2 := by
  simp only [admits, Bool.and_eq_true, decide_eq_true_eq, Option.all_some]
  omega

namespace Function

variable {scope : Scope} {snapshot : Snapshot} {f : Function} {args : List Argument}

theorem apply_of_not_admits (h : f.arity.admits args.length = false) :
    f.apply scope snapshot args = .error (.arity f args.length) := by
  unfold apply
  split
  case h_11 => rfl
  all_goals nomatch h

/-- With as many arguments as it takes, a function fails only as its arguments do, or with a fault that
it finds with one of them. -/
theorem failsIn_apply {P : Fault → Prop} (hP : ∀ fault : Fault, fault.blamesArgument → P fault)
    (hadmits : f.arity.admits args.length) (hargs : ∀ a ∈ args, FailsIn P a.outcome) :
    FailsIn P (f.apply scope snapshot args) := by
  unfold apply
  split
  · exact .bind (.mapM hargs) fun _ _ => .pure
  · exact .bind (.mapM hargs) fun _ _ => .pure
  · obtain ⟨hx, _⟩ := List.forall_mem_cons.mp hargs
    exact .bind hx fun _ _ => .bind (failsIn_mismatch hP) fun _ _ => .pure
  · simp only [List.forall_mem_cons] at hargs
    obtain ⟨hx, hdigits, _⟩ := hargs
    exact .bind hx fun _ _ => .bind hdigits fun _ _ =>
      .bind (failsIn_mismatch hP) fun _ _ => .bind (failsIn_mismatch hP) fun _ _ => .pure
  · simp only [List.forall_mem_cons] at hargs
    obtain ⟨hlist, hcolumn, _⟩ := hargs
    exact .bind (Argument.failsIn_key hP hlist) fun list _ =>
      .bind (Argument.failsIn_columnOf hP list hcolumn) fun _ _ => .pure
  · obtain ⟨hlist, _⟩ := List.forall_mem_cons.mp hargs
    exact .bind (Argument.failsIn_key hP hlist) fun _ _ => .pure
  · simp only [List.forall_mem_cons] at hargs
    obtain ⟨hlist, hcolumn, _⟩ := hargs
    exact .bind (Argument.failsIn_key hP hlist) fun list _ =>
      .bind (Argument.failsIn_columnOf hP list hcolumn) fun _ _ => .pure
  · simp only [List.forall_mem_cons] at hargs
    obtain ⟨hlist, hcolumn, hfilter, hop, hcomparand, _⟩ := hargs
    exact .bind (Argument.failsIn_key hP hlist) fun list _ =>
      .bind (Argument.failsIn_columnOf hP list hcolumn) fun _ _ =>
      .bind (Argument.failsIn_columnOf hP list hfilter) fun _ _ =>
      .bind (Argument.failsIn_comparator hP hop) fun _ _ =>
      .bind (Argument.failsIn_comparand hP hcomparand) fun _ _ => .pure
  · simp only [List.forall_mem_cons] at hargs
    obtain ⟨hlist, hfilter, hop, hcomparand, _⟩ := hargs
    exact .bind (Argument.failsIn_key hP hlist) fun list _ =>
      .bind (Argument.failsIn_columnOf hP list hfilter) fun _ _ =>
      .bind (Argument.failsIn_comparator hP hop) fun _ _ =>
      .bind (Argument.failsIn_comparand hP hcomparand) fun _ _ => .pure
  · simp only [List.forall_mem_cons] at hargs
    obtain ⟨hentity, hkey, _⟩ := hargs
    refine .bind hentity fun _ _ => .bind hkey fun key _ => ?_
    split
    · split
      · exact .pure
      · exact .pure
    · exact .throw (hP _ rfl)
  · rename_i hreduce hcount hround hroundAt hreduceItems hcountRows hcountItems hreduceWhere
      hcountWhere hentity
    -- every list of as many arguments as the function takes has a case of its own
    cases f with
    | reduce r => exact (hreduce r rfl).elim
    | count => exact (hcount rfl).elim
    | round =>
      rcases Arity.admits_one_two.mp hadmits with hlen | hlen
      · obtain ⟨_, rfl⟩ := List.length_eq_one_iff.mp hlen
        exact (hround _ rfl rfl).elim
      · obtain ⟨_, _, rfl⟩ := List.length_eq_two.mp hlen
        exact (hroundAt _ _ rfl rfl).elim
    | reduceItems r =>
      obtain ⟨_, _, rfl⟩ := List.length_eq_two.mp (Arity.admits_exactly.mp hadmits)
      exact (hreduceItems _ _ _ rfl rfl).elim
    | countItems =>
      rcases Arity.admits_one_two.mp hadmits with hlen | hlen
      · obtain ⟨_, rfl⟩ := List.length_eq_one_iff.mp hlen
        exact (hcountRows _ rfl rfl).elim
      · obtain ⟨_, _, rfl⟩ := List.length_eq_two.mp hlen
        exact (hcountItems _ _ rfl rfl).elim
    | reduceItemsWhere r =>
      have hlen := Arity.admits_exactly.mp hadmits
      obtain ⟨_, _, rfl⟩ := List.exists_of_length_succ _ hlen
      obtain ⟨_, _, _, _, rfl⟩ := List.length_eq_four.mp (Nat.succ.inj hlen)
      exact (hreduceWhere _ _ _ _ _ _ rfl rfl).elim
    | countItemsWhere =>
      obtain ⟨_, _, _, _, rfl⟩ := List.length_eq_four.mp (Arity.admits_exactly.mp hadmits)
      exact (hcountWhere _ _ _ _ rfl rfl).elim
    | entityField =>
      obtain ⟨_, _, rfl⟩ := List.length_eq_two.mp (Arity.admits_exactly.mp hadmits)
      exact (hentity _ _ rfl rfl).elim

end Function

/-! ## Expressions -/

namespace Expr

variable {scope : Scope} {snapshot : Snapshot}

theorem evalArguments_eq (es : List Expr) :
    evalArguments scope snapshot es = es.map fun e => ⟨e.bareName?, e.eval scope snapshot⟩ := by
  induction es with
  | nil => rw [evalArguments, List.map_nil]
  | cons e es ih => rw [evalArguments, ih, List.map_cons]

/-- A fault of evaluation, or a wrong number of arguments in a call within the expression. -/
def MayFailWith (e : Expr) (fault : Fault) : Prop :=
  fault.stage = .evaluation ∨
    ∃ f args, Within (.call f args) e ∧ f.arity.admits args.length = false ∧
      fault = .arity f args.length

namespace MayFailWith

variable {e e' : Expr} {fault : Fault}

theorem mono (hwithin : ∀ x, Within x e → Within x e') (h : e.MayFailWith fault) :
    e'.MayFailWith fault := by
  rcases h with h | ⟨f, args, hcall, hadmits, rfl⟩
  · exact .inl h
  · exact .inr ⟨f, args, hwithin _ hcall, hadmits, rfl⟩

theorem stage_eq (h : e.MayFailWith fault) (hcalls : e.CallsAdmitted) :
    fault.stage = .evaluation := by
  rcases h with h | ⟨f, args, hcall, hadmits, _⟩
  · exact h
  · rw [hcalls f args hcall] at hadmits
    nomatch hadmits

end MayFailWith

theorem eval_call_of_not_admits {f : Function} {args : List Expr}
    (h : f.arity.admits args.length = false) :
    (call f args).eval scope snapshot = .error (.arity f args.length) := by
  have hlen : (evalArguments scope snapshot args).length = args.length := by
    rw [evalArguments_eq, List.length_map]
  rw [eval, Function.apply_of_not_admits (by rwa [hlen]), hlen]
  rfl

theorem result_call_of_not_admits (ctx : Context) {f : Function} {args : List Expr}
    (h : f.arity.admits args.length = false) :
    (call f args).result ctx = .error (.arity f args.length) := by
  rw [result, eval_call_of_not_admits h]
  rfl

theorem failsIn_operandNumber {e : Expr} (role : OperandRole) (v : Value) :
    FailsIn e.MayFailWith (operandNumber role v) := by
  unfold operandNumber
  split
  · exact .pure
  · exact .throw (.inl rfl)

theorem failsIn_eval (e : Expr) : FailsIn e.MayFailWith (e.eval scope snapshot) := by
  induction e with
  | number x | text s => exact .pure
  | name s =>
    rw [eval, Scope.value]
    split
    · exact .pure
    · exact .pure
    · exact .pure
    · exact .throw (.inl rfl)
  | call f args ih =>
    cases hadmits : f.arity.admits args.length with
    | false =>
      rw [eval_call_of_not_admits hadmits]
      exact .throw (.inr ⟨f, args, .refl, hadmits, rfl⟩)
    | true =>
      rw [eval, evalArguments_eq]
      refine .bind (Function.failsIn_apply (fun _ h => .inl (Fault.stage_of_blamesArgument h))
        (by rwa [List.length_map]) ?_) fun _ _ => .pure
      intro a ha
      obtain ⟨e, he, rfl⟩ := List.mem_map.mp ha
      exact (ih e he).mono fun _ => .mono fun _ => .argument he
  | signed sign operand ih =>
    rw [eval]
    exact .bind (ih.mono fun _ => .mono fun _ => .operand) fun v _ =>
      .bind (failsIn_operandNumber _ v) fun _ _ => .pure
  | binary op left right ihl ihr =>
    rw [eval]
    exact .bind (ihl.mono fun _ => .mono fun _ => .left) fun v _ =>
      .bind (failsIn_operandNumber _ v) fun _ _ =>
      .bind (ihr.mono fun _ => .mono fun _ => .right) fun w _ =>
      .bind (failsIn_operandNumber _ w) fun _ _ =>
      .bind (.mapError fun _ => .inl rfl) fun _ _ => .pure

theorem failsIn_result (ctx : Context) (e : Expr) : FailsIn e.MayFailWith (e.result ctx) := by
  refine .bind (failsIn_eval e) fun v _ => ?_
  split
  · split
    · exact .throw (.inl rfl)
    · exact .pure
  · exact .throw (.inl rfl)

end Expr
end MetricFormula
