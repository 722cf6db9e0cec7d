import Mathlib.Data.List.Basic
import MetricFormula.Proofs.Faults.Evaluation

/-! # What an evaluation depends on

Keys of lists, columns and entities are found by evaluating arguments, and yet no evaluation can
come by a name that is not written in the expression: a value that can serve as a key is that of a
name or of a text. So two contexts that agree on what is written in an expression give it the same
result, be it a number or a fault (`Expr.result_congr`). -/

namespace MetricFormula

/-! ## Arguments -/

/-- Two scopes and two snapshots agree on all that a function can look up by an argument. -/
structure Argument.Agreed (s s' : Scope) (m m' : Snapshot) (a : Argument) : Prop where
  lookup : ∀ name, a.bareName = some name → s.lookup? name = s'.lookup? name
  rows : ∀ name, a.bareName = some name ∨
    (∃ v ∈ [Value.text name, .list name, .column name], a.outcome = .ok v) →
    s.rows name = s'.rows name
  get : ∀ id name, a.outcome = .ok (.text name) → m.get ⟨id, name⟩ = m'.get ⟨id, name⟩

namespace Argument.Agreed

variable {s s' : Scope} {m m' : Snapshot} {a : Argument}

theorem isBound_eq (h : a.Agreed s s' m m') {name : String} (hname : a.bareName = some name) :
    s.isBound name = s'.isBound name := by
  rw [Scope.isBound, Scope.isBound, h.lookup name hname]

theorem key_eq (h : a.Agreed s s' m m') : a.key s = a.key s' := by
  unfold Argument.key
  cases hname : a.bareName with
  | some name =>
    simp only [h.isBound_eq hname]
  | none => rfl

/-- Lists are found under the keys that arguments give. -/
theorem rows_key_eq (h : a.Agreed s s' m m') {key : String} (hkey : a.key s = .ok key) :
    s.rows key = s'.rows key := by
  refine h.rows key ?_
  unfold Argument.key at hkey
  split at hkey
  · rename_i name hname
    split at hkey
    · exact .inl (hname.trans (congrArg some (Except.ok.inj hkey)))
    · nomatch hkey
  · obtain ⟨v, hv, hkey⟩ := bind_eq_ok.mp hkey
    refine .inr ⟨v, ?_, hv⟩
    cases v with
    | number x => nomatch hkey
    | text name | list name | column name =>
      obtain rfl := pure_eq_ok.mp hkey
      simp

theorem columnOf_eq (h : a.Agreed s s' m m') {list : String} (hrows : s.rows list = s'.rows list) :
    a.columnOf s list = a.columnOf s' list := by
  unfold columnOf
  cases hname : a.bareName with
  | some name => simp only [h.isBound_eq hname, hrows, h.key_eq]
  | none => exact h.key_eq

end Argument.Agreed

/-! ## Functions -/

theorem Function.apply_congr {s s' : Scope} {m m' : Snapshot} {f : Function} {args : List Argument}
    (h : ∀ a ∈ args, a.Agreed s s' m m') : f.apply s m args = f.apply s' m' args := by
  fun_cases Function.apply s m f args
  · rfl
  · rfl
  · rfl
  · rfl
  · rename_i r list column
    simp only [List.forall_mem_cons] at h
    obtain ⟨hlist, hcolumn, _⟩ := h
    rw [Function.apply, hlist.key_eq]
    refine bind_congr_ok fun key hkey => ?_
    have hrows := hlist.rows_key_eq (hlist.key_eq.trans hkey)
    rw [hcolumn.columnOf_eq hrows, hrows]
  · rename_i list
    obtain ⟨hlist, _⟩ := List.forall_mem_cons.mp h
    rw [Function.apply, hlist.key_eq]
    refine bind_congr_ok fun key hkey => ?_
    rw [hlist.rows_key_eq (hlist.key_eq.trans hkey)]
  · rename_i list column
    simp only [List.forall_mem_cons] at h
    obtain ⟨hlist, hcolumn, _⟩ := h
    rw [Function.apply, hlist.key_eq]
    refine bind_congr_ok fun key hkey => ?_
    have hrows := hlist.rows_key_eq (hlist.key_eq.trans hkey)
    rw [hcolumn.columnOf_eq hrows, hrows]
  · rename_i r list column filter op comparand
    simp only [List.forall_mem_cons] at h
    obtain ⟨hlist, hcolumn, hfilter, _⟩ := h
    rw [Function.apply, hlist.key_eq]
    refine bind_congr_ok fun key hkey => ?_
    have hrows := hlist.rows_key_eq (hlist.key_eq.trans hkey)
    rw [hcolumn.columnOf_eq hrows, hfilter.columnOf_eq hrows, hrows]
  · rename_i list filter op comparand
    simp only [List.forall_mem_cons] at h
    obtain ⟨hlist, hfilter, _⟩ := h
    rw [Function.apply, hlist.key_eq]
    refine bind_congr_ok fun key hkey => ?_
    have hrows := hlist.rows_key_eq (hlist.key_eq.trans hkey)
    rw [hfilter.columnOf_eq hrows, hrows]
  · rename_i entity key
    simp only [List.forall_mem_cons] at h
    obtain ⟨_, hkey, _⟩ := h
    rw [Function.apply]
    refine bind_congr_ok fun entity _ => bind_congr_ok fun v hv => ?_
    cases v with
    | text name => simp only [hkey.get _ name hv]
    | number | list | column => rfl
  · rw [Function.apply] <;> assumption

/-! ## Expressions -/

namespace Expr

/-- Two scopes and two snapshots agree on all that is written in an expression: on what its names
denote, on the rows under its names and texts, and on the numbers of other entities for fields
that its texts name. -/
structure Agreed (s s' : Scope) (m m' : Snapshot) (e : Expr) : Prop where
  lookup : ∀ name, Within (.name name) e → s.lookup? name = s'.lookup? name
  rows : ∀ name, Within (.name name) e ∨ Within (.text name) e → s.rows name = s'.rows name
  get : ∀ id text, Within (.text text) e → m.get ⟨id, text⟩ = m'.get ⟨id, text⟩

variable {s s' : Scope} {m m' : Snapshot} {e e' : Expr}

theorem Agreed.mono (h : e'.Agreed s s' m m') (hwithin : ∀ x, Within x e → Within x e') :
    e.Agreed s s' m m' where
  lookup name hname := h.lookup name (hwithin _ hname)
  rows name hname := h.rows name (hname.imp (hwithin _) (hwithin _))
  get id text htext := h.get id text (hwithin _ htext)

/-- Nothing but a text evaluates to a text. -/
theorem eval_eq_text {t : String} (h : e.eval s m = .ok (.text t)) : e = .text t := by
  cases e with
  | text u => cases h; rfl
  | number => cases h
  | name u =>
    rw [eval, Scope.value] at h
    split at h <;> cases h
  | call | signed | binary =>
    simp only [eval, bind_eq_ok, pure_eq_ok, reduceCtorEq, and_false, exists_false] at h

/-- What evaluates to a list or a column is its name. -/
theorem eval_eq_name {t : String} {v : Value} (h : e.eval s m = .ok v)
    (hv : v = .list t ∨ v = .column t) : e = .name t := by
  cases e with
  | name u =>
    rw [eval, Scope.value] at h
    split at h
    · cases h
      rcases hv with hv | hv <;> cases hv
    · cases h
      simpa using hv
    · cases h
      simpa using hv
    · cases h
  | number | text =>
    cases h
    rcases hv with hv | hv <;> cases hv
  | call | signed | binary =>
    simp only [eval, bind_eq_ok, pure_eq_ok] at h
    grind

/-- Arguments are looked up by what is written in them. -/
theorem Agreed.argument (h : e.Agreed s s' m m') :
    Argument.Agreed s s' m m' ⟨e.bareName?, e.eval s m⟩ where
  lookup name hname := by
    cases e <;> cases hname
    exact h.lookup name .refl
  rows name hname := by
    rcases hname with hname | ⟨v, hmem, hv⟩
    · cases e <;> cases hname
      exact h.rows name (.inl .refl)
    · simp only [List.mem_cons, List.not_mem_nil, or_false] at hmem
      rcases hmem with rfl | hmem
      · obtain rfl := eval_eq_text hv
        exact h.rows name (.inr .refl)
      · obtain rfl := eval_eq_name hv hmem
        exact h.rows name (.inl .refl)
  get id name hv := by
    obtain rfl := eval_eq_text hv
    exact h.get id name .refl

theorem eval_congr (h : e.Agreed s s' m m') : e.eval s m = e.eval s' m' := by
  induction e with
  | number x | text t => rfl
  | name t => rw [eval, eval, Scope.value, Scope.value, h.lookup t .refl]
  | call f args ih =>
    have hagreed : ∀ a ∈ args, a.Agreed s s' m m' := fun a ha => h.mono fun _ => .argument ha
    have hargs : evalArguments s m args = evalArguments s' m' args := by
      rw [evalArguments_eq, evalArguments_eq]
      exact List.map_congr_left fun a ha => by rw [ih a ha (hagreed a ha)]
    have hargsAgreed : ∀ a ∈ evalArguments s m args, a.Agreed s s' m m' := by
      rw [evalArguments_eq]
      exact List.forall_mem_map.mpr fun a ha => (hagreed a ha).argument
    rw [eval, eval, ← hargs, Function.apply_congr hargsAgreed]
  | signed sign operand ih =>
    rw [eval, eval, ih (h.mono fun _ => .operand)]
  | binary op l r ihl ihr =>
    rw [eval, eval, ihl (h.mono fun _ => .left), ihr (h.mono fun _ => .right)]

theorem result_congr {ctx ctx' : Context} (hpolicy : ctx.policy = ctx'.policy)
    (h : e.Agreed ctx.scope ctx'.scope ctx.snapshot ctx'.snapshot) :
    e.result ctx = e.result ctx' := by
  rw [result, result, eval_congr h, hpolicy]

end Expr
end MetricFormula
