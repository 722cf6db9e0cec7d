import MetricFormula.Proofs.Computation.Registration
import MetricFormula.Proofs.Expression.Inlining
import MetricFormula.Proofs.Faults.Calculation
import MetricFormula.Proofs.Reading.Language

/-! # Computed numbers in place of names

The number of a formula comes into scope behind it. For a later formula that reads it, this is as if
the number were written in the formula, and nothing else. -/

namespace MetricFormula

variable {policy : Policy} {snapshot : Snapshot} {values : StoredValues} {s s' : Scope}
  {k : String} {x : Binary64}

/-! ## Scopes with and without a number -/

/-- What denotes a number goes on to do so until another number is registered for it. -/
theorem Scope.lookup?_registerAll_of_number {history : History}
    (hx : s.lookup? k = some (.number x)) (h : ∀ r ∈ history, r.isNumber k = false) :
    (s.registerAll history).lookup? k = some (.number x) := by
  induction history generalizing s with
  | nil => exact hx
  | cons r history ih =>
    obtain ⟨hr, hhistory⟩ := List.forall_mem_cons.mp h
    refine ih ?_ hhistory
    cases r with
    | number key y =>
      have hkey : key ≠ k := of_decide_eq_false hr
      rw [register, lookup?_bindNumber, if_neg hkey, hx]
    | list key rows columns => rw [register, lookup?_bindList, hx]

theorem Scope.sameBut_bindNumber (s : Scope) (k : String) (x : Option Binary64) :
    (s.bindNumber k x).SameBut s k where
  lookup name hname := by rw [lookup?_bindNumber, if_neg (Ne.symm hname)]
  rows name := rows_bindNumber s k name x

theorem Scope.SameBut.registerAll (h : s.SameBut s' k) (history : History) :
    (s.registerAll history).SameBut (s'.registerAll history) k := by
  induction history generalizing s s' with
  | nil => exact h
  | cons r history ih =>
    refine ih ⟨fun name hname => ?_, fun name => ?_⟩
    · cases r with
      | number key y => simp only [register, lookup?_bindNumber, h.lookup name hname]
      | list key rows columns => simp only [register, lookup?_bindList, h.lookup name hname]
    · cases r with
      | number key y => exact h.rows name
      | list key rows columns => simp only [register, rows_bindList, h.rows name]

/-! ## Formulas of an entity -/

/-- A short text that is accepted, and whose tokens derive a tree, is the formula of that tree. -/
theorem Expr.ofFormula_of_derives {text : String} {ts : List Token} {e : Expr}
    (hscreen : screen text = .accepted) (htrim : trimmed text = text)
    (hlength : text.length ≤ policy.maxLength.toNat)
    (hnesting : text.length ≤ policy.maxNesting.toNat) (hlexes : Lexes text.toList ts)
    (h : Derives policy.ignoreCase .expr ts e) : ofFormula policy text = .ok e := by
  rw [ofFormula, hscreen, htrim]
  exact ofText_of_derives hlength hnesting hlexes h

/-- What fields register behind some first ones. -/
def registrationsBehind (policy : Policy) (snapshot : Snapshot) (values : StoredValues)
    (fs gs : List Field) : History :=
  registrations policy snapshot values (scopeAfter policy snapshot values .empty fs) gs

/-- The scope behind a formula with a number and further fields, of which none registers a number
for its key, differs from the scope without that number in its key alone. -/
theorem scopes_of_computed {fs gs : List Field} {text : String} {later : History}
    (hlater : later = registrationsBehind policy snapshot values (fs ++ [⟨k, .formula text⟩]) gs)
    (hx : (results policy snapshot values (fs ++ ⟨k, .formula text⟩ :: gs))[
      (formulaKeys fs).length]? = some ⟨k, some x⟩)
    (hnumber : ∀ r ∈ later, r.isNumber k = false) :
    let scope := scopeAfter policy snapshot values .empty (fs ++ ⟨k, .formula text⟩ :: gs)
    scope.lookup? k = some (.number x) ∧
      scope.SameBut ((scopeAfter policy snapshot values .empty fs).registerAll later) k := by
  intro scope
  have hcalculate :
      Context.calculate ⟨scopeAfter policy snapshot values .empty fs, snapshot, policy⟩ text =
        .ok x := by
    rw [getElem?_results, Option.some.injEq, ComputedField.mk.injEq] at hx
    exact toOption_eq_some.mp hx.2
  have hrecord : scopeAfter policy snapshot values .empty (fs ++ [⟨k, .formula text⟩]) =
      (scopeAfter policy snapshot values .empty fs).bindNumber k (some x) := by
    rw [scopeAfter_append]
    simp only [scopeAfter, Field.expression?, hcalculate, Scope.record]
  have hscope : scope =
      ((scopeAfter policy snapshot values .empty fs).bindNumber k (some x)).registerAll later := by
    rw [hlater, registrationsBehind, ← hrecord, ← scopeAfter_eq_registerAll, ← scopeAfter_append,
      List.append_assoc]
    rfl
  rw [hscope]
  constructor
  · refine Scope.lookup?_registerAll_of_number ?_ hnumber
    rw [Scope.lookup?_bindNumber, if_pos rfl, Option.getD_some]
  · exact (Scope.sameBut_bindNumber _ k (some x)).registerAll later

/-- To read a name that denotes a number is to read the number written in its place. So behind a
formula with a number, where no other number has been registered for its key, a formula has the
outcome that it has with the number written in it: in this scope, in the scope without the number if
the key is left nowhere in the formula, and in the scope with any other number for the key. -/
theorem computed_numbers_inline :
    (∀ (ctx : Context) (e : Expr) k x, ctx.scope.lookup? k = some (.number x) →
      (e.inline k x).eval ctx.scope ctx.snapshot = e.eval ctx.scope ctx.snapshot ∧
      (e.inline k x).result ctx = e.result ctx) ∧
    ∀ policy snapshot values fs k text gs x,
      let before := fs ++ ⟨k, .formula text⟩ :: gs
      let scope := scopeAfter policy snapshot values .empty before
      let later := registrationsBehind policy snapshot values (fs ++ [⟨k, .formula text⟩]) gs
      (results policy snapshot values before)[(formulaKeys fs).length]? = some ⟨k, some x⟩ →
      (∀ r ∈ later, r.isNumber k = false) →
      scope.lookup? k = some (.number x) ∧
      scope.SameBut ((scopeAfter policy snapshot values .empty fs).registerAll later) k ∧
      ∀ key formula hs (e : Expr) (other : Scope), Expr.ofFormula policy formula = .ok e →
        scope.SameBut other k →
        ((Expr.name k).Within (e.inline k x) → ∃ y, other.lookup? k = some (.number y)) →
        (outcomes policy snapshot values (before ++ ⟨key, .formula formula⟩ :: hs))[
            (formulaKeys before).length]? =
          some ⟨key, (e.inline k x).result ⟨other, snapshot, policy⟩⟩ := by
  constructor
  · intro ctx e k x hx
    exact ⟨Expr.eval_inline hx (.refl ctx.scope k) fun _ => ⟨x, hx⟩,
      Expr.result_inline rfl rfl hx (.refl ctx.scope k) fun _ => ⟨x, hx⟩⟩
  · intro policy snapshot values fs k text gs x before scope later hresult hlater
    obtain ⟨hx, hwithout⟩ := scopes_of_computed rfl hresult hlater
    refine ⟨hx, hwithout, fun key formula hs e other he hother hleft => ?_⟩
    have hinline : (e.inline k x).result ⟨other, snapshot, policy⟩ =
        e.result ⟨scope, snapshot, policy⟩ := Expr.result_inline rfl rfl hx hother hleft
    rw [getElem?_outcomes, Context.calculate_eq_bind, he, hinline]
    rfl

/-- The name of a computed field that is read as a number and stands as a column as well. Once the
number is written, it does not matter which number the column's name denotes. -/
theorem computed_numbers_inline_column :
    let fs : List Field := [⟨"a", .formula "2"⟩, ⟨"l", .items []⟩]
    let scope := scopeAfter {} .empty .empty .empty fs
    (outcomes {} .empty .empty (fs ++ [⟨"b", .formula "a - COUNT_ITEMS(l, a)"⟩]))[1]? =
      some ⟨"b", (Expr.binary .sub (.number (.ofInt 2))
        (.call .countItems [.name "l", .name "a"])).result
          ⟨scope.bindNumber "a" none, .empty, {}⟩⟩ := by
  intro fs scope
  have htwo : Expr.ofFormula {} "2" = .ok (.number (.ofInt 2)) := by
    have hlexes : Lexes "2".toList [.number (.ofInt 2)] :=
      lexes_iff_scan_eq.mpr (by decide +kernel)
    exact Expr.ofFormula_of_derives (by decide +kernel) (by decide +kernel) (by decide) (by decide)
      hlexes (.expr_of_factor (.ofPower (.ofPrimary .number)))
  have he : Expr.ofFormula {} "a - COUNT_ITEMS(l, a)" =
      .ok (.binary .sub (.name "a") (.call .countItems [.name "l", .name "a"])) := by
    have hlexes : Lexes "a - COUNT_ITEMS(l, a)".toList
        [.name "a", .minus, .name "COUNT_ITEMS", .leftParen, .name "l", .comma, .name "a",
          .rightParen] := lexes_iff_scan_eq.mpr (by decide +kernel)
    have hname (t : String) : Derives true .factor [.name t] (.name t) :=
      .ofPower (.ofPrimary .name)
    have harguments : DerivesArguments true [.name "l", .comma, .name "a"] [.name "l", .name "a"] :=
      .list (.comma (.expr_of_factor (hname "l")) (.last (.expr_of_factor (hname "a"))))
    have hlookup : Function.lookup? true "COUNT_ITEMS" = some .countItems := by decide +kernel
    have hcall := Derives.ofFactor (.ofPower (.ofPrimary (.call hlookup harguments rfl)))
    exact Expr.ofFormula_of_derives (by decide +kernel) (by decide +kernel) (by decide) (by decide)
      hlexes (.sum (.expr_of_factor (hname "a")) .sub hcall)
  have hresult : (results {} .empty .empty fs)[0]? = some ⟨"a", some (.ofInt 2)⟩ := by
    have hfinite : (Binary64.ofInt 2).isFinite := by decide +kernel
    have hcalculate : Context.calculate ⟨.empty, .empty, {}⟩ "2" = .ok (.ofInt 2) := by
      rw [Context.calculate_eq_bind, htwo]
      simp [bind, Except.bind, Expr.result, Expr.eval, hfinite, pure_eq_ok]
    have hcomputed : (results {} .empty .empty fs)[0]? =
        some ⟨"a", (Context.calculate ⟨.empty, .empty, {}⟩ "2").toOption⟩ :=
      getElem?_results [] [⟨"l", .items []⟩] "a" "2"
    rwa [hcalculate] at hcomputed
  have hrows : ∀ r ∈ registrationsBehind {} .empty .empty [⟨"a", .formula "2"⟩] [⟨"l", .items []⟩],
      r.isNumber "a" = false := by
    intro r hr
    obtain rfl := List.mem_singleton.mp hr
    rfl
  obtain ⟨_, _, houtcome⟩ :=
    computed_numbers_inline.2 {} .empty .empty [] "a" "2" [⟨"l", .items []⟩] (.ofInt 2) hresult hrows
  have hbut : scope.SameBut (scope.bindNumber "a" none) "a" :=
    (scope.sameBut_bindNumber "a" none).symm
  have hbound : (scope.bindNumber "a" none).lookup? "a" = some (.number .zero) := by
    rw [Scope.lookup?_bindNumber, if_pos rfl, Option.getD_none]
  have hinline : (Expr.binary .sub (.name "a") (.call .countItems [.name "l", .name "a"])).inline
      "a" (.ofInt 2) =
        .binary .sub (.number (.ofInt 2)) (.call .countItems [.name "l", .name "a"]) := by
    simp [Expr.inline, Expr.inlineArguments, Function.takesName, Expr.bareName?]
  have hb := houtcome "b" "a - COUNT_ITEMS(l, a)" [] _ _ he hbut fun _ => ⟨.zero, hbound⟩
  rwa [hinline] at hb

end MetricFormula
