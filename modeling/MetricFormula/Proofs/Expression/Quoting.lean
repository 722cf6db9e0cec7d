import MetricFormula.Proofs.Expression.Emptiness
import MetricFormula.Proofs.Expression.RowFunction

/-! # Keys in quotes

A bare name that a function over lists takes for a key says what it says in quotes, as long as it
denotes anything at all (`Expr.bare_keys_as_quoted`). What it denotes does not matter. -/

namespace MetricFormula.Expr

/-- A bare name that denotes nothing. -/
inductive Unbound (scope : Scope) : Expr → Prop
  | name : scope.isBound s = false → Unbound scope (.name s)

/-- A bare name as a text, and anything else as it is. -/
def quoted : Expr → Expr
  | name s => text s
  | e => e

variable {scope scope' : Scope} {snapshot : Snapshot} {e listArg : Expr} {args : List Expr}
  {list key : String} {f : Function} {n : Nat}

theorem unbound_name_iff : (name key).Unbound scope ↔ scope.isBound key = false :=
  ⟨fun ⟨h⟩ => h, .name⟩

theorem not_unbound_text : ¬ (text key).Unbound scope := nofun

theorem not_unbound_name_iff : ¬ (name key).Unbound scope ↔ scope.isBound key := by
  rw [unbound_name_iff, Bool.not_eq_false]

/-! ## Looking up keys -/

theorem key_text : ((text key).argument scope snapshot).key scope = .ok key :=
  key_eq_ok.mpr .quoted

theorem columnOf_text : ((text key).argument scope snapshot).columnOf scope list = .ok key :=
  columnOf_eq_ok.mpr .quoted

theorem key_name_of_bound (h : scope.isBound key) :
    ((name key).argument scope snapshot).key scope = .ok key :=
  key_eq_ok.mpr (.bare h)

theorem key_name_of_unbound (h : scope.isBound key = false) :
    ((name key).argument scope snapshot).key scope = .error (.unbound key) := by
  simp [Argument.key, argument, bareName?, h]

theorem columnOf_name_of_unbound (h : scope.isBound key = false) (hrows : scope.rows list ≠ []) :
    ((name key).argument scope snapshot).columnOf scope list = .error (.unbound key) := by
  have hkey : ((name key).argument scope snapshot).key scope = .error (.unbound key) :=
    key_name_of_unbound h
  rw [← hkey]
  simp [Argument.columnOf, argument, bareName?, hrows]

/-- A key that is not unbound is what it says. -/
theorem IsKey.exists_columnOf (h : e.IsKey) (hbound : ¬ e.Unbound scope) :
    ∃ key, (e.argument scope snapshot).columnOf scope list = .ok key := by
  obtain ⟨key, rfl | rfl⟩ := h
  · exact ⟨key, columnOf_eq_ok.mpr (.bare (.inl (not_unbound_name_iff.mp hbound)))⟩
  · exact ⟨key, columnOf_text⟩

/-- A column is looked up as it would be in quotes, if it is bound or there are no rows. -/
theorem IsKey.columnOf_quoted (h : e.IsKey) (hbound : scope.rows list = [] ∨ ¬ e.Unbound scope) :
    (e.argument scope snapshot).columnOf scope list =
      (e.quoted.argument scope snapshot).columnOf scope list := by
  obtain ⟨key, rfl | rfl⟩ := h
  · rw [quoted, columnOf_text]
    rw [not_unbound_name_iff] at hbound
    exact columnOf_eq_ok.mpr (.bare hbound.symm)
  · rfl

/-! ## Scopes that bind the same keys -/

theorem isBound_eq (h : (name key).Unbound scope ↔ (name key).Unbound scope') :
    scope.isBound key = scope'.isBound key := by
  rw [unbound_name_iff, unbound_name_iff, Bool.coe_false_iff_false] at h
  exact Bool.not_inj h

theorem IsKey.key_congr (h : e.IsKey) (hbound : e.Unbound scope ↔ e.Unbound scope') :
    (e.argument scope snapshot).key scope = (e.argument scope' snapshot).key scope' := by
  obtain ⟨key, rfl | rfl⟩ := h
  · simp only [Argument.key, argument, bareName?, isBound_eq hbound]
  · rw [key_text, key_text]

theorem IsKey.columnOf_congr (h : e.IsKey) (hbound : e.Unbound scope ↔ e.Unbound scope')
    (hrows : scope.rows list = scope'.rows list) :
    (e.argument scope snapshot).columnOf scope list =
      (e.argument scope' snapshot).columnOf scope' list := by
  have hkey : (e.argument scope snapshot).key scope = (e.argument scope' snapshot).key scope' :=
    h.key_congr hbound
  rw [Argument.columnOf, Argument.columnOf, hkey]
  obtain ⟨key, rfl | rfl⟩ := h
  · simp only [argument, bareName?, isBound_eq hbound, hrows]
  · rfl

/-! ## Calls -/

/-- A function over lists looks up its keys, and then makes something of the rows. -/
theorem eval_call_eq_ofRows (hf : f.columns? = some n)
    (hadmits : f.arity.admits (args.length + 1)) :
    (call f (listArg :: args)).eval scope snapshot = (do
      let list ← (listArg.argument scope snapshot).key scope
      let columns ← (args.take n).mapM fun e => (e.argument scope snapshot).columnOf scope list
      let x ← f.ofRows (scope.rows list) columns ((args.drop n).map (argument scope snapshot))
      return .number x) := by
  have hargs : evalArguments scope snapshot (listArg :: args) =
      listArg.argument scope snapshot :: args.map (argument scope snapshot) :=
    evalArguments_eq _
  rw [eval, hargs, Function.apply_eq_ofRows hf (by rwa [List.length_map]), ← List.map_take,
    ← List.map_drop]
  simp only [List.mapM_map, Function.comp_def, bind_assoc]

/-- The arguments behind a list, with the first of them, which name its columns, in quotes. -/
def quoteKeys (n : Nat) (args : List Expr) : List Expr := (args.take n).map quoted ++ args.drop n

theorem length_quoteKeys (n : Nat) (args : List Expr) : (quoteKeys n args).length = args.length := by
  rw [quoteKeys, List.length_append, List.length_map, ← List.length_append, List.take_append_drop]

theorem take_quoteKeys (n : Nat) (args : List Expr) :
    (quoteKeys n args).take n = (args.take n).map quoted := by
  rcases Nat.le_total n args.length with h | h
  · rw [quoteKeys, List.take_left' (by simp [h])]
  · rw [quoteKeys, List.drop_eq_nil_of_le h, List.append_nil, List.take_of_length_le (by simp [h])]

theorem drop_quoteKeys (n : Nat) (args : List Expr) : (quoteKeys n args).drop n = args.drop n := by
  rcases Nat.le_total n args.length with h | h
  · rw [quoteKeys, List.drop_left' (by simp [h])]
  · rw [quoteKeys, List.drop_eq_nil_of_le h, List.append_nil, List.drop_eq_nil_of_le (by simp [h])]

theorem key_of_unbound (hlist : listArg = .name list ∨ listArg = .text list)
    (h : listArg.Unbound scope) :
    (listArg.argument scope snapshot).key scope = .error (.unbound list) := by
  rcases hlist with rfl | rfl
  · exact key_name_of_unbound (unbound_name_iff.mp h)
  · exact absurd h not_unbound_text

theorem key_of_not_unbound (hlist : listArg = .name list ∨ listArg = .text list)
    (h : ¬ listArg.Unbound scope) : (listArg.argument scope snapshot).key scope = .ok list := by
  rcases hlist with rfl | rfl
  · exact key_name_of_bound (not_unbound_name_iff.mp h)
  · exact key_text

section
variable (hf : f.columns? = some n) (hadmits : f.arity.admits (args.length + 1))
  (hlist : listArg = .name list ∨ listArg = .text list)
include hf hadmits hlist

theorem eval_of_unbound_list (h : listArg.Unbound scope) :
    (call f (listArg :: args)).eval scope snapshot = .error (.unbound list) := by
  rw [eval_call_eq_ofRows hf hadmits, key_of_unbound hlist h]
  rfl

variable (hcolumns : ∀ e ∈ args.take n, e.IsKey)
include hcolumns

/-- The first column that denotes nothing gives the fault, if there are rows. -/
theorem eval_of_unbound_column (h : ¬ listArg.Unbound scope) (hrows : scope.rows list ≠ [])
    {before after : List Expr} (hargs : args.take n = before ++ .name key :: after)
    (hbefore : ∀ e ∈ before, ¬ e.Unbound scope) (hkey : (name key).Unbound scope) :
    (call f (listArg :: args)).eval scope snapshot = .error (.unbound key) := by
  have hfirst : (args.take n).mapM (fun e => (e.argument scope snapshot).columnOf scope list) =
      .error (.unbound key) := by
    rw [hargs] at hcolumns ⊢
    refine mapM_eq_error (fun e he => ?_) ?_
    · exact (hcolumns e (List.mem_append_left _ he)).exists_columnOf (hbefore e he)
    · exact columnOf_name_of_unbound (unbound_name_iff.mp hkey) hrows
  rw [eval_call_eq_ofRows hf hadmits, key_of_not_unbound hlist h]
  simp only [bind, Except.bind] at hfirst ⊢
  rw [hfirst]

theorem eval_quoteKeys (h : ¬ listArg.Unbound scope)
    (hbound : scope.rows list = [] ∨ ∀ e ∈ args.take n, ¬ e.Unbound scope) :
    (call f (listArg :: args)).eval scope snapshot =
      (call f (.text list :: quoteKeys n args)).eval scope snapshot := by
  have hquoted : (args.take n).mapM (fun e => (e.argument scope snapshot).columnOf scope list) =
      (args.take n).mapM fun e => (e.quoted.argument scope snapshot).columnOf scope list :=
    mapM_congr_left fun e he => (hcolumns e he).columnOf_quoted (hbound.imp_right (· e he))
  rw [eval_call_eq_ofRows hf hadmits, eval_call_eq_ofRows hf (by rwa [length_quoteKeys]),
    take_quoteKeys, drop_quoteKeys, key_of_not_unbound hlist h, key_text]
  simp only [List.mapM_map, Function.comp_def, bind, Except.bind, hquoted]

/-- Where the same keys are bound, it does not matter what they denote. -/
theorem eval_congr_keys (hrows : scope.rows list = scope'.rows list)
    (hsame : ∀ e ∈ listArg :: args.take n, (e.Unbound scope ↔ e.Unbound scope'))
    (hothers : ∀ e ∈ args.drop n, e.eval scope snapshot = e.eval scope' snapshot) :
    (call f (listArg :: args)).eval scope snapshot =
      (call f (listArg :: args)).eval scope' snapshot := by
  obtain ⟨hsameList, hsame⟩ := List.forall_mem_cons.mp hsame
  by_cases h : listArg.Unbound scope
  · rw [eval_of_unbound_list hf hadmits hlist h,
      eval_of_unbound_list hf hadmits hlist (hsameList.mp h)]
  · have hothers : (args.drop n).map (argument scope snapshot) =
        (args.drop n).map (argument scope' snapshot) :=
      List.map_congr_left fun e he => by rw [argument, argument, hothers e he]
    have hcolumns : (args.take n).mapM (fun e => (e.argument scope snapshot).columnOf scope list) =
        (args.take n).mapM fun e => (e.argument scope' snapshot).columnOf scope' list :=
      mapM_congr_left fun e he => (hcolumns e he).columnOf_congr (hsame e he) hrows
    rw [eval_call_eq_ofRows hf hadmits, eval_call_eq_ofRows hf hadmits,
      key_of_not_unbound hlist h, key_of_not_unbound hlist (hsameList.not.mp h)]
    simp only [bind, Except.bind, hcolumns, hothers, hrows]

end

/-- A key in quotes, and a bare name that denotes anything, mean the same to a function over lists. A
bare name that denotes nothing is a fault, the first one of them if it is not that of the list, unless
the list has no rows. What a bare name denotes is of no account. -/
theorem bare_keys_as_quoted (hf : f.columns? = some n) (hadmits : f.arity.admits (args.length + 1))
    (hlist : listArg = .name list ∨ listArg = .text list) (hcolumns : ∀ e ∈ args.take n, e.IsKey)
    (scope : Scope) (snapshot : Snapshot) :
    (listArg.Unbound scope →
      (call f (listArg :: args)).eval scope snapshot = .error (.unbound list)) ∧
    (¬ listArg.Unbound scope → scope.rows list ≠ [] → ∀ before key after,
      args.take n = before ++ .name key :: after → (∀ e ∈ before, ¬ e.Unbound scope) →
      (name key).Unbound scope →
      (call f (listArg :: args)).eval scope snapshot = .error (.unbound key)) ∧
    (¬ listArg.Unbound scope →
      (scope.rows list = [] ∨ ∀ e ∈ args.take n, ¬ e.Unbound scope) →
      (call f (listArg :: args)).eval scope snapshot =
        (call f (.text list :: quoteKeys n args)).eval scope snapshot) ∧
    ∀ scope' : Scope, scope.rows list = scope'.rows list →
      (∀ e ∈ listArg :: args.take n, (e.Unbound scope ↔ e.Unbound scope')) →
      (∀ e ∈ args.drop n, e.eval scope snapshot = e.eval scope' snapshot) →
      (call f (listArg :: args)).eval scope snapshot =
        (call f (listArg :: args)).eval scope' snapshot :=
  ⟨eval_of_unbound_list hf hadmits hlist,
    fun h hrows _ _ _ => eval_of_unbound_column hf hadmits hlist hcolumns h hrows,
    eval_quoteKeys hf hadmits hlist hcolumns,
    fun _ => eval_congr_keys hf hadmits hlist hcolumns⟩

/-- Keys that denote numbers, and a column and a list that denote nothing. -/
theorem bare_keys_as_quoted_shadowed :
    let listed := Scope.empty.bindList "items" [.ofList [("x", Cell.null)]] []
    let shadowed := (listed.bindNumber "items" none).bindNumber "x" none
    let op := name "op_lt"
    let bare := call (.reduceItemsWhere .least)
      [.name "items", .name "x", .name "x", op, .number .zero]
    bare.eval shadowed .empty =
        (call (.reduceItemsWhere .least) [.text "items", .text "x", .text "x", op,
          .number .zero]).eval shadowed .empty ∧
      bare.eval shadowed .empty = bare.eval listed .empty ∧
      (call .countItems [.text "items", .name "z"]).eval listed .empty = .error (.unbound "z") ∧
      (call .countItems [.name "z", .name "x"]).eval listed .empty = .error (.unbound "z") := by
  intro listed shadowed op bare
  have hlisted : ∀ key, listed.lookup? key =
      if "items" = key then some .list else if "x" = key then some .column else none := by
    intro key
    have hempty : Scope.empty.lookup? key = none := by simp [Scope.lookup?, Scope.empty]
    rw [Scope.lookup?_bindList, hempty]
    simp
  have hshadowed : ∀ key, shadowed.lookup? key =
      if "x" = key ∨ "items" = key then some (.number .zero) else none := by
    intro key
    simp only [shadowed, Scope.lookup?_bindNumber, hlisted]
    grind
  have hbound : ∀ e ∈ [name "items", name "x", name "x"],
      ¬ e.Unbound shadowed ∧ ¬ e.Unbound listed := by
    simp [not_unbound_name_iff, Scope.isBound, hlisted, hshadowed]
  have hunbound : (name "z").Unbound listed := .name (by simp [Scope.isBound, hlisted])
  have hwhere : (Function.reduceItemsWhere .least).columns? = some 2 := rfl
  have hcount : Function.countItems.columns? = some 1 := rfl
  have hkeys : ∀ e ∈ [name "x", name "x", op, .number .zero].take 2, e.IsKey := by simp [IsKey]
  have hkey (t : String) : ∀ e ∈ [name t].take 1, e.IsKey := by simp [IsKey]
  obtain ⟨_, _, hquoted, hcongr⟩ :=
    bare_keys_as_quoted hwhere (by rfl) (.inl rfl) hkeys shadowed .empty
  refine ⟨?_, hcongr listed rfl ?_ ?_, ?_, ?_⟩
  · exact hquoted (hbound _ (.head _)).1 (.inr fun e he => (hbound e (.tail _ he)).1)
  · exact fun e he => iff_of_false (hbound e he).1 (hbound e he).2
  · simp [op, eval, Scope.value, hlisted, hshadowed]
  · have hrows : listed.rows "items" ≠ [] := by
      rw [Scope.rows_bindList, if_pos rfl]
      exact List.cons_ne_nil _ _
    obtain ⟨_, hcolumn, _⟩ :=
      bare_keys_as_quoted hcount (by rfl) (.inr rfl) (hkey "z") listed .empty
    exact hcolumn not_unbound_text hrows [] "z" [] rfl (by simp) hunbound
  · exact (bare_keys_as_quoted hcount (by rfl) (.inl rfl) (hkey "x") listed .empty).1 hunbound

end MetricFormula.Expr
