import MetricFormula.Formula.Calculation
import MetricFormula.Proofs.Faults.Evaluation
import MetricFormula.Proofs.Faults.Reading
import MetricFormula.Proofs.Reading.Soundness

/-! # Faults of calculation

A calculation fails at the first stage at which its formula does. Screening and reading look at the
text and the policy alone, so whether and how they fail is the same over all data. -/

namespace MetricFormula

variable {text : String}

/-! ## Screening -/

theorem screen_eq_empty : screen text = .empty ↔ ∀ c ∈ text.toList, Text.isBlank c := by
  rw [screen, ← List.all_eq_true]
  cases text.toList.all Text.isBlank with
  | true => simp
  | false => cases text.toList.find? (!isAllowed ·) <;> simp

/-- The character is the first of the text that is not allowed. -/
def FirstRefused (text : String) (c : Char) : Prop :=
  ∃ before after, text.toList = before ++ c :: after ∧ (∀ b ∈ before, isAllowed b) ∧
    isAllowed c = false

theorem screen_eq_refused {c : Char} :
    screen text = .refused c ↔
      (¬∀ c ∈ text.toList, Text.isBlank c) ∧ FirstRefused text c := by
  have hfind : text.toList.find? (!isAllowed ·) = some c ↔ FirstRefused text c := by
    rw [List.find?_eq_some_iff_append]
    simp only [FirstRefused, Bool.not_eq_true', Bool.not_not]
    grind
  rw [screen, ← List.all_eq_true, ← hfind]
  cases text.toList.all Text.isBlank with
  | true => simp
  | false => cases text.toList.find? (!isAllowed ·) <;> simp

/-! ## Stages of a calculation -/

/-- What is read of a text: all but the white space at its ends. -/
def trimmed (text : String) : String := String.ofList (Text.trim text.toList)

/-- The expression of a formula whose text is accepted and can be read. -/
def Expr.ofFormula (policy : Policy) (text : String) : Except Fault Expr :=
  match screen text with
  | .empty => .error .empty
  | .refused c => .error (.refused c)
  | .accepted => ofText policy (trimmed text)

theorem Context.calculate_eq_bind (ctx : Context) (text : String) :
    ctx.calculate text = Expr.ofFormula ctx.policy text >>= (·.result ctx) := by
  unfold calculate Expr.ofFormula
  cases screen text <;> rfl

/-- Whatever is read evaluates without faults of other stages. -/
theorem Expr.failsAt_result_of_ofText {policy : Policy} {e : Expr} (ctx : Context)
    (h : Expr.ofText policy text = .ok e) : FailsAt .evaluation (e.result ctx) := by
  unfold Expr.ofText at h
  split at h
  · nomatch h
  · obtain ⟨_, h⟩ := ReadingRules.derives_of_ofTokens h
    exact (Expr.failsIn_result ctx e).mono fun _ hfault => hfault.stage_eq h.callsAdmitted

theorem Context.calculate_of_accepted (ctx : Context) (h : screen text = .accepted) :
    ctx.calculate text = Expr.ofText ctx.policy (trimmed text) >>= (·.result ctx) := by
  rw [calculate, h]
  rfl

/-- Nothing makes up for a tree that cannot be evaluated. -/
theorem Context.exists_calculate_eq_error (ctx : Context) {e : Expr} {fault : Fault}
    (he : Expr.ofText ctx.policy (trimmed text) = .ok e) (h : e.result ctx = .error fault) :
    ∃ fault, ctx.calculate text = .error fault := by
  cases hscreen : screen text with
  | empty => exact ⟨.empty, by rw [calculate, hscreen]⟩
  | refused c => exact ⟨.refused c, by rw [calculate, hscreen]⟩
  | accepted =>
    rw [calculate_of_accepted ctx hscreen, he]
    exact ⟨fault, h⟩

/-- The fault of a calculation is that of the stage at which it comes to light. -/
theorem Context.calculate_eq_error (ctx : Context) (fault : Fault) :
    ctx.calculate text = .error fault ↔
      match fault.stage with
      | .screening =>
        fault = .empty ∧ screen text = .empty ∨ ∃ c, fault = .refused c ∧ screen text = .refused c
      | .reading => screen text = .accepted ∧ Expr.ofText ctx.policy (trimmed text) = .error fault
      | .evaluation => screen text = .accepted ∧
        ∃ e, Expr.ofText ctx.policy (trimmed text) = .ok e ∧ e.result ctx = .error fault := by
  constructor
  · intro h
    cases hscreen : screen text with
    | empty =>
      rw [calculate, hscreen] at h
      obtain rfl := Except.error.inj h
      exact .inl ⟨rfl, rfl⟩
    | refused c =>
      rw [calculate, hscreen] at h
      obtain rfl := Except.error.inj h
      exact .inr ⟨c, rfl, rfl⟩
    | accepted =>
      rw [calculate_of_accepted ctx hscreen] at h
      rcases bind_eq_error.mp h with h | ⟨e, he, h⟩
      · rw [Expr.failsAt_ofText _ _ fault h]
        exact ⟨rfl, h⟩
      · rw [Expr.failsAt_result_of_ofText ctx he fault h]
        exact ⟨rfl, e, he, h⟩
  · intro h
    cases hstage : fault.stage with
    | screening =>
      rw [hstage] at h
      rcases h with ⟨rfl, hscreen⟩ | ⟨c, rfl, hscreen⟩
      · rw [calculate, hscreen]
      · rw [calculate, hscreen]
    | reading =>
      rw [hstage] at h
      obtain ⟨hscreen, h⟩ := h
      rw [calculate_of_accepted ctx hscreen]
      exact bind_eq_error.mpr (.inl h)
    | evaluation =>
      rw [hstage] at h
      obtain ⟨hscreen, e, he, h⟩ := h
      rw [calculate_of_accepted ctx hscreen]
      exact bind_eq_error.mpr (.inr ⟨e, he, h⟩)

theorem Context.calculate_eq_error_empty (ctx : Context) :
    ctx.calculate text = .error .empty ↔ ∀ c ∈ text.toList, Text.isBlank c := by
  rw [calculate_eq_error, ← screen_eq_empty]
  simp [Fault.stage]

theorem Context.calculate_eq_error_refused (ctx : Context) (c : Char) :
    ctx.calculate text = .error (.refused c) ↔
      (¬∀ c ∈ text.toList, Text.isBlank c) ∧ FirstRefused text c := by
  rw [calculate_eq_error, ← screen_eq_refused]
  simp [Fault.stage]

theorem Context.calculate_eq_error_of_reading (ctx : Context) {fault : Fault}
    (h : fault.stage = .reading) :
    ctx.calculate text = .error fault ↔
      screen text = .accepted ∧ Expr.ofText ctx.policy (trimmed text) = .error fault := by
  rw [calculate_eq_error, h]

/-- Faults that come before evaluation depend on the text and the policy only. -/
theorem Context.calculate_eq_error_congr {ctx ctx' : Context} (hpolicy : ctx'.policy = ctx.policy)
    {fault : Fault} (h : fault.stage ≠ .evaluation) :
    ctx'.calculate text = .error fault ↔ ctx.calculate text = .error fault := by
  rw [calculate_eq_error, calculate_eq_error, hpolicy]
  cases hstage : fault.stage with
  | screening | reading => exact .rfl
  | evaluation => exact absurd hstage h

/-- Faults come to light by stages, of which only the last looks at data, and of what is read nothing
else fails there. Of expressions that were not read, only those with a wrong number of arguments
somewhere fail in another way, and say so. -/
theorem Context.calculate_staged (ctx : Context) (text : String) :
    (ctx.calculate text = .error .empty ↔ ∀ c ∈ text.toList, Text.isBlank c) ∧
    (∀ c, ctx.calculate text = .error (.refused c) ↔
      (¬∀ c ∈ text.toList, Text.isBlank c) ∧ FirstRefused text c) ∧
    (∀ fault : Fault, fault.stage = .reading → (ctx.calculate text = .error fault ↔
      screen text = .accepted ∧ Expr.ofText ctx.policy (trimmed text) = .error fault)) ∧
    (∀ policy text e, Expr.ofText policy text = .ok e → FailsAt .evaluation (e.result ctx)) ∧
    (∀ ctx' : Context, ctx'.policy = ctx.policy → ∀ fault : Fault, fault.stage ≠ .evaluation →
      (ctx'.calculate text = .error fault ↔ ctx.calculate text = .error fault)) ∧
    (∀ e : Expr, FailsIn e.MayFailWith (e.result ctx)) ∧
    ∀ (f : Function) (args : List Expr), f.arity.admits args.length = false →
      (Expr.call f args).result ctx = .error (.arity f args.length) :=
  ⟨ctx.calculate_eq_error_empty, ctx.calculate_eq_error_refused,
    fun _ => ctx.calculate_eq_error_of_reading, fun _ _ _ => Expr.failsAt_result_of_ofText ctx,
    fun _ hpolicy _ => calculate_eq_error_congr hpolicy, Expr.failsIn_result ctx,
    fun _ _ => Expr.result_call_of_not_admits ctx⟩

theorem Context.calculate_staged_dollar :
    Context.calculate ⟨.empty, .empty, {}⟩ "$" = .error (.refused '$') ∧
      (Expr.call .round []).result ⟨.empty, .empty, {}⟩ = .error (.arity .round 0) := by
  obtain ⟨_, hrefused, _, _, _, _, hcall⟩ := Context.calculate_staged ⟨.empty, .empty, {}⟩ "$"
  constructor
  · refine (hrefused '$').mpr ⟨fun h => ?_, [], [], rfl, nofun, by decide +kernel⟩
    have hblank : Text.isBlank '$' := h '$' (.head _)
    exact absurd hblank (by decide)
  · exact hcall .round [] rfl

end MetricFormula
