import Mathlib.Data.List.Basic
import MetricFormula.Proofs.Expression.Requirement

/-! # Numbers in place of names

To read a name that denotes a number is to read that number: writing the number in place of the name
changes no evaluation (`Expr.eval_inline`). A bare name that a function takes for what it says stays
a name. Of what the name denotes, nothing is then left to matter but that such a name is bound. -/

namespace MetricFormula

variable {s s' : Scope} {snapshot : Snapshot} {k : String} {x : Binary64}

/-- The scopes differ, if at all, in what one name denotes. -/
structure Scope.SameBut (s s' : Scope) (k : String) : Prop where
  lookup : ∀ name, name ≠ k → s.lookup? name = s'.lookup? name
  rows : ∀ name, s.rows name = s'.rows name

namespace Scope.SameBut

theorem refl (s : Scope) (k : String) : s.SameBut s k := ⟨fun _ _ => rfl, fun _ => rfl⟩

theorem symm (h : s.SameBut s' k) : s'.SameBut s k :=
  ⟨fun name hname => (h.lookup name hname).symm, fun name => (h.rows name).symm⟩

end Scope.SameBut

/-! ## Arguments -/

/-- The arguments say the same to a function that takes a bare name there. -/
structure Argument.SameKey (s s' : Scope) (a b : Argument) : Prop where
  key : a.key s = b.key s'
  columnOf : ∀ list, a.columnOf s list = b.columnOf s' list
  comparator : a.comparator = b.comparator

namespace Argument.SameKey

variable {a b : Argument} {name : String}

/-- What is not a bare name is known by its outcome. -/
theorem of_outcome (ha : a.bareName = none) (hb : b.bareName = none)
    (houtcome : a.outcome = b.outcome) : a.SameKey s s' b := by
  obtain ⟨_, outcome⟩ := a
  obtain ⟨_, outcome'⟩ := b
  obtain rfl := ha
  obtain rfl := hb
  obtain rfl := houtcome
  exact ⟨rfl, fun _ => rfl, rfl⟩

/-- A bare name says the same where it is bound alike and denotes values of one kind. -/
theorem of_name (hbound : s.isBound name = s'.isBound name)
    (hrows : ∀ list, s.rows list = s'.rows list)
    (hvalue : s.value name = s'.value name ∨
      ∃ x y, s.value name = .ok (.number x) ∧ s'.value name = .ok (.number y)) :
    SameKey s s' ⟨some name, s.value name⟩ ⟨some name, s'.value name⟩ where
  key := by simp only [Argument.key, hbound]
  columnOf list := by simp only [Argument.columnOf, Argument.key, hbound, hrows]
  comparator := by
    rcases hvalue with hvalue | ⟨x, y, hx, hy⟩
    · rw [hvalue]
    · rw [hx, hy]
      simp only [Argument.comparator]
      cases Option.bind (some name) Comparator.ofName? <;> rfl

end Argument.SameKey

/-- A name that still denotes some number says the same as it does. -/
theorem Scope.SameBut.sameKey (h : s.SameBut s' k) (hx : s.lookup? k = some (.number x))
    {name : String} (hname : name = k → ∃ y, s'.lookup? k = some (.number y)) :
    Argument.SameKey s s' ⟨some name, s.value name⟩ ⟨some name, s'.value name⟩ := by
  by_cases hk : name = k
  · obtain ⟨y, hy⟩ := hname hk
    refine .of_name ?_ h.rows (.inr ⟨x, y, ?_, ?_⟩)
    · rw [hk, isBound, isBound, hx, hy]
      rfl
    · rw [hk, value, hx]
    · rw [hk, value, hy]
  · refine .of_name ?_ h.rows (.inl ?_)
    · rw [isBound, isBound, h.lookup name hk]
    · rw [value, value, h.lookup name hk]

/-! ## Functions -/

namespace Function

variable {f : Function} {as bs : List Argument}

/-- Arguments say the same to a function, each at its place: as a key where the function takes bare
names, by its outcome everywhere else. -/
structure SameArguments (s s' : Scope) (f : Function) (as bs : List Argument) : Prop where
  length : as.length = bs.length
  key : ∀ i a b, as[i]? = some a → bs[i]? = some b → f.takesName i → a.SameKey s s' b
  outcome : ∀ i a b, as[i]? = some a → bs[i]? = some b → f.takesName i = false →
    a.outcome = b.outcome

namespace SameArguments

theorem mapM_eq (h : SameArguments s s' f as bs) (hnames : ∀ i, f.takesName i = false) :
    as.mapM (·.outcome) = bs.mapM (·.outcome) := by
  have houtcomes : as.map (·.outcome) = bs.map (·.outcome) := by
    refine List.ext_getElem (by rw [List.length_map, List.length_map, h.length]) fun i _ _ => ?_
    rw [List.getElem_map, List.getElem_map]
    exact h.outcome i _ _ (List.getElem?_eq_getElem _) (List.getElem?_eq_getElem _) (hnames i)
  calc as.mapM (·.outcome)
    _ = (as.map (·.outcome)).mapM id := by rw [List.mapM_map]; rfl
    _ = bs.mapM (·.outcome) := by rw [houtcomes, List.mapM_map]; rfl

end SameArguments

theorem apply_congr_arguments (hrows : ∀ list, s.rows list = s'.rows list)
    (h : SameArguments s s' f as bs) : f.apply s snapshot as = f.apply s' snapshot bs := by
  by_cases hadmits : f.arity.admits as.length
  · cases f with
    | reduce r => simp only [apply, h.mapM_eq fun _ => rfl]
    | count => simp only [apply, h.mapM_eq fun _ => rfl]
    | round =>
      rcases Arity.admits_one_two.mp hadmits with has | has
      · obtain ⟨x, rfl⟩ := List.length_eq_one_iff.mp has
        obtain ⟨x', rfl⟩ := List.length_eq_one_iff.mp (h.length.symm.trans has)
        rw [apply, apply, h.outcome 0 x x' rfl rfl rfl]
      · obtain ⟨x, digits, rfl⟩ := List.length_eq_two.mp has
        obtain ⟨x', digits', rfl⟩ := List.length_eq_two.mp (h.length.symm.trans has)
        rw [apply, apply, h.outcome 0 x x' rfl rfl rfl, h.outcome 1 digits digits' rfl rfl rfl]
    | reduceItems r =>
      have has := Arity.admits_exactly.mp hadmits
      obtain ⟨list, column, rfl⟩ := List.length_eq_two.mp has
      obtain ⟨list', column', rfl⟩ := List.length_eq_two.mp (h.length.symm.trans has)
      have hlist := h.key 0 list list' rfl rfl rfl
      have hcolumn := h.key 1 column column' rfl rfl rfl
      simp only [apply, hlist.key, hcolumn.columnOf, hrows]
    | countItems =>
      rcases Arity.admits_one_two.mp hadmits with has | has
      · obtain ⟨list, rfl⟩ := List.length_eq_one_iff.mp has
        obtain ⟨list', rfl⟩ := List.length_eq_one_iff.mp (h.length.symm.trans has)
        simp only [apply, (h.key 0 list list' rfl rfl rfl).key, hrows]
      · obtain ⟨list, column, rfl⟩ := List.length_eq_two.mp has
        obtain ⟨list', column', rfl⟩ := List.length_eq_two.mp (h.length.symm.trans has)
        have hlist := h.key 0 list list' rfl rfl rfl
        have hcolumn := h.key 1 column column' rfl rfl rfl
        simp only [apply, hlist.key, hcolumn.columnOf, hrows]
    | reduceItemsWhere r =>
      have has := Arity.admits_exactly.mp hadmits
      have hbs := h.length.symm.trans has
      obtain ⟨list, _, rfl⟩ := List.exists_of_length_succ _ has
      obtain ⟨column, filter, op, comparand, rfl⟩ := List.length_eq_four.mp (Nat.succ.inj has)
      obtain ⟨list', _, rfl⟩ := List.exists_of_length_succ _ hbs
      obtain ⟨column', filter', op', comparand', rfl⟩ := List.length_eq_four.mp (Nat.succ.inj hbs)
      have hlist := h.key 0 list list' rfl rfl rfl
      have hcolumn := h.key 1 column column' rfl rfl rfl
      have hfilter := h.key 2 filter filter' rfl rfl rfl
      have hop := h.key 3 op op' rfl rfl rfl
      have hcomparand := h.outcome 4 comparand comparand' rfl rfl rfl
      simp only [apply, hlist.key, hcolumn.columnOf, hfilter.columnOf, hop.comparator,
        Argument.comparand, hcomparand, hrows]
    | countItemsWhere =>
      have has := Arity.admits_exactly.mp hadmits
      obtain ⟨list, filter, op, comparand, rfl⟩ := List.length_eq_four.mp has
      obtain ⟨list', filter', op', comparand', rfl⟩ :=
        List.length_eq_four.mp (h.length.symm.trans has)
      have hlist := h.key 0 list list' rfl rfl rfl
      have hfilter := h.key 1 filter filter' rfl rfl rfl
      have hop := h.key 2 op op' rfl rfl rfl
      have hcomparand := h.outcome 3 comparand comparand' rfl rfl rfl
      simp only [apply, hlist.key, hfilter.columnOf, hop.comparator, Argument.comparand,
        hcomparand, hrows]
    | entityField =>
      have has := Arity.admits_exactly.mp hadmits
      obtain ⟨entity, key, rfl⟩ := List.length_eq_two.mp has
      obtain ⟨entity', key', rfl⟩ := List.length_eq_two.mp (h.length.symm.trans has)
      have hentity := h.outcome 0 entity entity' rfl rfl rfl
      have hkey := h.outcome 1 key key' rfl rfl rfl
      rw [apply, apply, hentity, hkey]
  · have has := Bool.eq_false_iff.mpr hadmits
    rw [apply_of_not_admits has, apply_of_not_admits (h.length ▸ has), h.length]

end Function

/-! ## Expressions -/

namespace Expr

mutual

/-- The expression with a number written in place of a name, wherever the name is not taken for what
it says. -/
def inline (k : String) (x : Binary64) : Expr → Expr
  | .number y => .number y
  | .text t => .text t
  | .name t => if t = k then .number x else .name t
  | .call f args => .call f (inlineArguments k x f 0 args)
  | .signed sign e => .signed sign (inline k x e)
  | .binary op l r => .binary op (inline k x l) (inline k x r)

/-- The same for the arguments of a function from a place on. -/
def inlineArguments (k : String) (x : Binary64) (f : Function) (i : Nat) : List Expr → List Expr
  | [] => []
  | e :: es =>
    (if f.takesName i && e.bareName?.isSome then e else inline k x e) ::
      inlineArguments k x f (i + 1) es

end

variable {e : Expr}

theorem getElem?_inlineArguments (f : Function) (i j : Nat) (args : List Expr) :
    (inlineArguments k x f i args)[j]? = args[j]?.map fun a =>
      if f.takesName (i + j) && a.bareName?.isSome then a else a.inline k x := by
  induction args generalizing i j with
  | nil => rfl
  | cons a args ih =>
    rw [inlineArguments]
    cases j with
    | zero => rfl
    | succ j => rw [List.getElem?_cons_succ, List.getElem?_cons_succ, ih, Nat.add_right_comm,
        Nat.add_assoc]

theorem length_inlineArguments (f : Function) (i : Nat) (args : List Expr) :
    (inlineArguments k x f i args).length = args.length := by
  induction args generalizing i with
  | nil => rfl
  | cons a args ih => rw [inlineArguments, List.length_cons, ih, List.length_cons]

/-- Nothing but a name becomes or stays a bare name. -/
theorem bareName?_inline_of_eq_none (h : e.bareName? = none) : (e.inline k x).bareName? = none := by
  cases e with
  | name t => cases h
  | number | text | call | signed | binary => rfl

theorem eq_name_of_bareName? {t : String} (h : e.bareName? = some t) : e = .name t := by
  cases e <;> cases h
  rfl

/-- The arguments of a call and the same arguments with the number written into them, at one
place. -/
theorem exists_of_getElem?_evalArguments {f : Function} {args : List Expr} {i : Nat}
    {a b : Argument} (ha : (evalArguments s snapshot args)[i]? = some a)
    (hb : (evalArguments s' snapshot (inlineArguments k x f 0 args))[i]? = some b) :
    ∃ e e', e ∈ args ∧ e' ∈ inlineArguments k x f 0 args ∧
      e' = (if f.takesName i && e.bareName?.isSome then e else e.inline k x) ∧
      a = ⟨e.bareName?, e.eval s snapshot⟩ ∧ b = ⟨e'.bareName?, e'.eval s' snapshot⟩ := by
  rw [evalArguments_eq, List.getElem?_map, Option.map_eq_some_iff] at ha hb
  obtain ⟨e, he, rfl⟩ := ha
  obtain ⟨e', he', rfl⟩ := hb
  refine ⟨e, e', List.mem_of_getElem? he, List.mem_of_getElem? he', ?_, rfl, rfl⟩
  rw [getElem?_inlineArguments, he, Nat.zero_add, Option.map_some] at he'
  exact (Option.some.inj he').symm

/-- Evaluation in a scope that differs in the name alone, and still binds it to some number if it is
left anywhere. -/
theorem eval_inline (hx : s.lookup? k = some (.number x)) (hbut : s.SameBut s' k)
    (hleft : Within (.name k) (e.inline k x) → ∃ y, s'.lookup? k = some (.number y)) :
    (e.inline k x).eval s' snapshot = e.eval s snapshot := by
  induction e with
  | number y => rw [inline, eval, eval]
  | text t => rw [inline, eval, eval]
  | name t =>
    rw [inline]
    split
    · rename_i ht
      rw [ht, eval, eval, Scope.value, hx]
    · rename_i ht
      rw [eval, eval, Scope.value, Scope.value, hbut.lookup t ht]
  | call f args ih =>
    rw [inline] at hleft
    have hargs : Function.SameArguments s s' f (evalArguments s snapshot args)
        (evalArguments s' snapshot (inlineArguments k x f 0 args)) := by
      refine ⟨?_, fun i a b ha hb hnamed => ?_, fun i a b ha hb hnamed => ?_⟩
      · rw [evalArguments_eq, evalArguments_eq, List.length_map, List.length_map,
          length_inlineArguments]
      · obtain ⟨e, e', he, he', heq, rfl, rfl⟩ := exists_of_getElem?_evalArguments ha hb
        rw [hnamed, Bool.true_and] at heq
        cases hname : e.bareName? with
        | some t =>
          -- a bare name stays where it is taken for what it says
          rw [hname, Option.isSome_some, if_pos rfl] at heq
          obtain rfl := heq
          obtain rfl := eq_name_of_bareName? hname
          refine hbut.sameKey hx fun ht => hleft (.argument he' ?_)
          rw [ht]
          exact .refl
        | none =>
          rw [hname, Option.isSome_none, if_neg Bool.false_ne_true] at heq
          obtain rfl := heq
          refine .of_outcome rfl (bareName?_inline_of_eq_none hname) ?_
          exact (ih e he fun h => hleft (.argument he' h)).symm
      · obtain ⟨e, e', he, he', heq, rfl, rfl⟩ := exists_of_getElem?_evalArguments ha hb
        rw [hnamed, Bool.false_and, if_neg Bool.false_ne_true] at heq
        obtain rfl := heq
        exact (ih e he fun h => hleft (.argument he' h)).symm
    rw [inline, eval, eval, Function.apply_congr_arguments hbut.rows hargs]
  | signed sign operand ih =>
    rw [inline] at hleft
    rw [inline, eval, eval, ih fun h => hleft (.operand h)]
  | binary op l r ihl ihr =>
    rw [inline] at hleft
    rw [inline, eval, eval, ihl fun h => hleft (.left h), ihr fun h => hleft (.right h)]

theorem result_inline {ctx ctx' : Context} (hpolicy : ctx.policy = ctx'.policy)
    (hsnapshot : ctx.snapshot = ctx'.snapshot) (hx : ctx.scope.lookup? k = some (.number x))
    (hbut : ctx.scope.SameBut ctx'.scope k)
    (hleft : Within (.name k) (e.inline k x) → ∃ y, ctx'.scope.lookup? k = some (.number y)) :
    (e.inline k x).result ctx' = e.result ctx := by
  rw [result, result, ← hpolicy, ← hsnapshot, eval_inline hx hbut hleft]

end Expr
end MetricFormula
