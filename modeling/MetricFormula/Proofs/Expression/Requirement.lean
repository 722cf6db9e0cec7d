import Mathlib.Data.List.Basic
import MetricFormula.Proofs.Faults.Evaluation

/-! # What an evaluation requires

A function over lists takes a bare name that stands for the key of a list, for a column or for a
comparator as it is written. All other parts of an expression are evaluated, whatever their
values turn out to be: an expression has a value only if each of them has one
(`Expr.Required.exists_eval`). -/

namespace MetricFormula

/-- Whether the function takes a bare name for what it says at that place among its arguments: the
key of a list, a column, or a comparator. -/
def Function.takesName : Function → Nat → Bool
  | reduceItems _, i | countItems, i => i < 2
  | countItemsWhere, i => i < 3
  | reduceItemsWhere _, i => i < 4
  | reduce _, _ | count, _ | round, _ | entityField, _ => false

/-! ## Arguments -/

namespace Argument

variable {scope : Scope} {a : Argument}

theorem exists_outcome_of_key {key : String} (h : a.key scope = .ok key)
    (hname : a.bareName = none) : ∃ v, a.outcome = .ok v := by
  simp only [Argument.key, hname, bind_eq_ok] at h
  obtain ⟨v, hv, _⟩ := h
  exact ⟨v, hv⟩

theorem exists_outcome_of_columnOf {list column : String} (h : a.columnOf scope list = .ok column)
    (hname : a.bareName = none) : ∃ v, a.outcome = .ok v := by
  simp only [columnOf, hname] at h
  exact exists_outcome_of_key h hname

theorem exists_outcome_of_comparator {op : Comparator} (h : a.comparator = .ok op)
    (hname : a.bareName = none) : ∃ v, a.outcome = .ok v := by
  simp only [comparator, hname, Option.bind_none, bind_eq_ok] at h
  obtain ⟨v, hv, _⟩ := h
  exact ⟨v, hv⟩

theorem exists_outcome_of_comparand {x : Binary64} (h : a.comparand = .ok x) :
    ∃ v, a.outcome = .ok v := by
  obtain ⟨v, hv, _⟩ := bind_eq_ok.mp h
  exact ⟨v, hv⟩

end Argument

/-! ## Functions -/

/-- A function has a result only if all its arguments have values, but for bare names at places
where it takes names. -/
theorem Function.exists_outcome_of_apply {scope : Scope} {snapshot : Snapshot} {f : Function}
    {args : List Argument} {x : Binary64} (h : f.apply scope snapshot args = .ok x) {i : Nat}
    {a : Argument} (ha : args[i]? = some a) (hname : f.takesName i → a.bareName = none) :
    ∃ v, a.outcome = .ok v := by
  unfold apply at h
  split at h
  · obtain ⟨_, hargs, _⟩ := bind_eq_ok.mp h
    exact mapM_ok hargs a (List.mem_of_getElem? ha)
  · obtain ⟨_, hargs, _⟩ := bind_eq_ok.mp h
    exact mapM_ok hargs a (List.mem_of_getElem? ha)
  · obtain ⟨x, hx, _⟩ := bind_eq_ok.mp h
    obtain rfl := List.mem_singleton.mp (List.mem_of_getElem? ha)
    exact ⟨x, hx⟩
  · simp only [bind_eq_ok] at h
    obtain ⟨x, hx, digits, hdigits, _⟩ := h
    match i, ha with
    | 0, rfl => exact ⟨x, hx⟩
    | 1, rfl => exact ⟨digits, hdigits⟩
  · simp only [bind_eq_ok] at h
    obtain ⟨_, hlist, _, hcolumn, _⟩ := h
    match i, ha with
    | 0, rfl => exact Argument.exists_outcome_of_key hlist (hname rfl)
    | 1, rfl => exact Argument.exists_outcome_of_columnOf hcolumn (hname rfl)
  · obtain ⟨_, hlist, _⟩ := bind_eq_ok.mp h
    match i, ha with
    | 0, rfl => exact Argument.exists_outcome_of_key hlist (hname rfl)
  · simp only [bind_eq_ok] at h
    obtain ⟨_, hlist, _, hcolumn, _⟩ := h
    match i, ha with
    | 0, rfl => exact Argument.exists_outcome_of_key hlist (hname rfl)
    | 1, rfl => exact Argument.exists_outcome_of_columnOf hcolumn (hname rfl)
  · simp only [bind_eq_ok] at h
    obtain ⟨_, hlist, _, hcolumn, _, hfilter, _, hop, _, hcomparand, _⟩ := h
    match i, ha with
    | 0, rfl => exact Argument.exists_outcome_of_key hlist (hname rfl)
    | 1, rfl => exact Argument.exists_outcome_of_columnOf hcolumn (hname rfl)
    | 2, rfl => exact Argument.exists_outcome_of_columnOf hfilter (hname rfl)
    | 3, rfl => exact Argument.exists_outcome_of_comparator hop (hname rfl)
    | 4, rfl => exact Argument.exists_outcome_of_comparand hcomparand
  · simp only [bind_eq_ok] at h
    obtain ⟨_, hlist, _, hfilter, _, hop, _, hcomparand, _⟩ := h
    match i, ha with
    | 0, rfl => exact Argument.exists_outcome_of_key hlist (hname rfl)
    | 1, rfl => exact Argument.exists_outcome_of_columnOf hfilter (hname rfl)
    | 2, rfl => exact Argument.exists_outcome_of_comparator hop (hname rfl)
    | 3, rfl => exact Argument.exists_outcome_of_comparand hcomparand
  · simp only [bind_eq_ok] at h
    obtain ⟨entity, hentity, key, hkey, _⟩ := h
    match i, ha with
    | 0, rfl => exact ⟨entity, hentity⟩
    | 1, rfl => exact ⟨key, hkey⟩
  · nomatch h

/-! ## Expressions -/

namespace Expr

/-- The first expression occurs in the second, and not as a bare name that a function takes for what
it says. -/
inductive Required (x : Expr) : Expr → Prop
  | refl : Required x x
  | argument : args[i]? = some a → (f.takesName i → a.bareName? = none) → Required x a →
      Required x (.call f args)
  | operand : Required x e → Required x (.signed sign e)
  | left : Required x l → Required x (.binary op l r)
  | right : Required x r → Required x (.binary op l r)

variable {scope : Scope} {snapshot : Snapshot} {x e : Expr}

/-- Only bare names can occur without being required. -/
theorem Required.of_within (h : Within x e) (hx : x.bareName? = none) : Required x e := by
  induction h with
  | refl => exact .refl
  | argument ha h ih =>
    obtain ⟨i, hi⟩ := List.getElem?_of_mem ha
    refine .argument hi (fun _ => ?_) ih
    cases h with
    | refl => exact hx
    | argument | operand | left | right => rfl
  | operand _ ih => exact .operand ih
  | left _ ih => exact .left ih
  | right _ ih => exact .right ih

/-- Whatever an expression requires has a value where the expression has one. -/
theorem Required.exists_eval (h : Required x e) {v : Value}
    (he : e.eval scope snapshot = .ok v) : ∃ w, x.eval scope snapshot = .ok w := by
  induction h generalizing v with
  | refl => exact ⟨v, he⟩
  | @argument args i a f hi hname _ ih =>
    rw [eval, evalArguments_eq] at he
    obtain ⟨_, happly, _⟩ := bind_eq_ok.mp he
    have harg : (args.map fun e => (⟨e.bareName?, e.eval scope snapshot⟩ : Argument))[i]? =
        some ⟨a.bareName?, a.eval scope snapshot⟩ := by rw [List.getElem?_map, hi, Option.map_some]
    obtain ⟨w, hw⟩ := Function.exists_outcome_of_apply happly harg hname
    exact ih hw
  | operand _ ih =>
    rw [eval] at he
    obtain ⟨w, hw, _⟩ := bind_eq_ok.mp he
    exact ih hw
  | left _ ih =>
    rw [eval] at he
    obtain ⟨w, hw, _⟩ := bind_eq_ok.mp he
    exact ih hw
  | right _ ih =>
    rw [eval] at he
    simp only [bind_eq_ok] at he
    obtain ⟨_, _, _, _, w, hw, _⟩ := he
    exact ih hw

end Expr
end MetricFormula
