import MetricFormula.Proofs.Faults.Calculation
import MetricFormula.Proofs.Reading.Limits

/-! # Policies

A policy only filters. Greater limits change no outcome but those that were due to a limit, letter case
of no account adds names of functions and takes none away, and asking for finite results keeps exactly
the finite ones. -/

namespace MetricFormula

variable {p q : Policy} {text : String} {e : Expr} {x : Binary64}

/-! ## Limits -/

/-- Both texts and nesting may be at least as long and deep. -/
structure Policy.LimitsLe (p q : Policy) : Prop where
  length : p.maxLength ≤ q.maxLength
  nesting : p.maxNesting ≤ q.maxNesting

/-- Under greater limits a text is read as before, unless it was too complex. -/
theorem Expr.ofText_of_limitsLe (hle : p.LimitsLe q) (hcase : q.ignoreCase = p.ignoreCase)
    (text : String) :
    (∃ excess, Expr.ofText p text = .error (.tooComplex excess)) ∨
      Expr.ofText p text = Expr.ofText q text := by
  by_cases hlength : p.maxLength.toNat < text.length
  · exact .inl ⟨_, if_pos hlength⟩
  · have hp : text.length ≤ p.maxLength.toNat := Nat.le_of_not_lt hlength
    have hq : text.length ≤ q.maxLength.toNat :=
      Nat.le_trans hp (UInt64.le_iff_toNat_le.mp hle.length)
    rw [Expr.ofText_eq hp, Expr.ofText_eq hq, hcase]
    let rules : ReadingRules := ⟨p.ignoreCase, p.maxNesting.toNat, (scan text.toList).fault⟩
    rcases rules.givesWay_ofTokens (UInt64.le_iff_toNat_le.mp hle.nesting) (scan text.toList).tokens
      with hspent | hsame
    · exact .inl ⟨_, hspent⟩
    · exact .inr hsame

/-- Of the policy an evaluation only sees whether results have to be finite. -/
theorem Expr.result_congr_policy (scope : Scope) (snapshot : Snapshot)
    (hfinite : q.finiteOnly = p.finiteOnly) (e : Expr) :
    e.result ⟨scope, snapshot, q⟩ = e.result ⟨scope, snapshot, p⟩ := by
  simp only [result, hfinite]

theorem Context.calculate_of_limitsLe (scope : Scope) (snapshot : Snapshot) (hle : p.LimitsLe q)
    (hcase : q.ignoreCase = p.ignoreCase) (hfinite : q.finiteOnly = p.finiteOnly)
    (h : ∀ excess, calculate ⟨scope, snapshot, p⟩ text ≠ .error (.tooComplex excess)) :
    calculate ⟨scope, snapshot, q⟩ text = calculate ⟨scope, snapshot, p⟩ text := by
  cases hscreen : screen text with
  | empty | refused c => simp only [calculate, hscreen]
  | accepted =>
    simp only [calculate_of_accepted _ hscreen] at h ⊢
    rcases Expr.ofText_of_limitsLe hle hcase (trimmed text) with ⟨excess, hexcess⟩ | hsame
    · exact absurd (bind_eq_error.mpr (.inl hexcess)) (h excess)
    · rw [hsame]
      exact bind_congr_ok fun e _ => e.result_congr_policy scope snapshot hfinite

/-! ## Letter case -/

theorem Function.lookup?_of_case {s : String} {f : Function} (h : lookup? false s = some f)
    (ignoreCase : Bool) : lookup? ignoreCase s = some f := by
  have hname : f.name = s := by simpa using List.find?_some h
  rw [← hname]
  exact lookup?_name ignoreCase f

/-- A text that is read where letter case counts is read in the same way where it does not. -/
theorem Expr.ofText_ignoreCase (h : Expr.ofText { p with ignoreCase := false } text = .ok e) :
    Expr.ofText { p with ignoreCase := true } text = .ok e := by
  have hlength := length_le_of_ofText h
  rw [Expr.ofText_eq hlength] at h
  obtain ⟨hending, hnests⟩ := ReadingRules.nestsWithin_of_ofTokens h
  rw [Expr.ofText_eq]
  · exact ReadingRules.ofTokens_eq_ok_iff_nestsWithin.mpr ⟨hending, hnests.mono (Nat.le_refl 1)
      (fun _ _ hf => Function.lookup?_of_case hf true) (Nat.le_refl _)⟩
  · exact hlength

/-! ## Finite results -/

theorem Expr.result_finiteOnly (scope : Scope) (snapshot : Snapshot) (e : Expr) :
    e.result ⟨scope, snapshot, { p with finiteOnly := true }⟩ = .ok x ↔
      e.result ⟨scope, snapshot, { p with finiteOnly := false }⟩ = .ok x ∧ x.isFinite := by
  simp only [result, bind_eq_ok, Bool.true_and, Bool.false_and]
  constructor
  · rintro ⟨v, hv, h⟩
    cases v with
    | number y =>
      dsimp only at h
      split at h
      · cases h
      · rename_i hy
        obtain rfl := Except.ok.inj h
        exact ⟨⟨.number y, hv, rfl⟩, by simpa using hy⟩
    | text | list | column => cases h
  · rintro ⟨⟨v, hv, h⟩, hx⟩
    refine ⟨v, hv, ?_⟩
    cases v with
    | number y =>
      obtain rfl := Except.ok.inj h
      simp only [hx]
      rfl
    | text | list | column => cases h

theorem Context.calculate_finiteOnly (scope : Scope) (snapshot : Snapshot) (p : Policy)
    (text : String) (x : Binary64) :
    calculate ⟨scope, snapshot, { p with finiteOnly := true }⟩ text = .ok x ↔
      calculate ⟨scope, snapshot, { p with finiteOnly := false }⟩ text = .ok x ∧ x.isFinite := by
  simp only [calculate_eq_bind, bind_eq_ok, Expr.result_finiteOnly scope snapshot]
  constructor
  · rintro ⟨e, he, hx, hfinite⟩
    exact ⟨⟨e, he, hx⟩, hfinite⟩
  · rintro ⟨⟨e, he, hx⟩, hfinite⟩
    exact ⟨e, he, hx, hfinite⟩

/-! ## All together -/

/-- Whatever is not due to a limit stays as it is under greater limits; what is read where letter case
counts is read where it does not; and the results of a policy that asks for finite ones are the
finite results of the one that does not. -/
theorem Context.calculate_filtered (scope : Scope) (snapshot : Snapshot) (text : String) :
    (∀ p q : Policy, p.maxLength ≤ q.maxLength → p.maxNesting ≤ q.maxNesting →
      q.ignoreCase = p.ignoreCase → q.finiteOnly = p.finiteOnly →
      (∀ excess, calculate ⟨scope, snapshot, p⟩ text ≠ .error (.tooComplex excess)) →
      calculate ⟨scope, snapshot, q⟩ text = calculate ⟨scope, snapshot, p⟩ text) ∧
    (∀ (p : Policy) (e : Expr), Expr.ofText { p with ignoreCase := false } text = .ok e →
      Expr.ofText { p with ignoreCase := true } text = .ok e) ∧
    (∀ (p : Policy) (x : Binary64),
      calculate ⟨scope, snapshot, { p with finiteOnly := true }⟩ text = .ok x ↔
        calculate ⟨scope, snapshot, { p with finiteOnly := false }⟩ text = .ok x ∧ x.isFinite) :=
  ⟨fun _ _ hlength hnesting => calculate_of_limitsLe scope snapshot ⟨hlength, hnesting⟩,
    fun _ _ => Expr.ofText_ignoreCase, fun p => calculate_finiteOnly scope snapshot p text⟩

/-- The limits are as narrow as they may be for a call over a text of ten characters. -/
theorem Context.calculate_filtered_count :
    let narrow : Policy := { maxLength := 10, maxNesting := 1 }
    let text := "COUNT('a')"
    calculate ⟨.empty, .empty, {}⟩ text = calculate ⟨.empty, .empty, narrow⟩ text ∧
      Expr.ofText {} text = .ok (.call .count [.text "a"]) ∧
      calculate ⟨.empty, .empty, { finiteOnly := false }⟩ text = .ok (.ofInt 1) := by
  intro narrow text
  have hlexes : Lexes text.toList [.name "COUNT", .leftParen, .text "a", .rightParen] :=
    lexes_iff_scan_eq.mpr (by decide +kernel)
  have hnests (ignoreCase : Bool) : NestsWithin 1 ignoreCase 1 .expr
      [.name "COUNT", .leftParen, .text "a", .rightParen] (.call .count [.text "a"]) :=
    .ofTerm (.ofFactor (.ofPower (.ofPrimary (.call (Function.lookup?_name ignoreCase .count)
      (.list (.last (.ofTerm (.ofFactor (.ofPower (.ofPrimary .text)))))) rfl))))
  have hread {p : Policy} (hlength : text.length ≤ p.maxLength.toNat)
      (hnesting : 1 ≤ p.maxNesting.toNat) :
      Expr.ofText p text = .ok (.call .count [.text "a"]) := by
    rw [Expr.ofText_eq hlength, lexes_iff_scan_eq.mp hlexes]
    exact ReadingRules.ofTokens_eq_ok_iff_nestsWithin.mpr
      ⟨rfl, (hnests p.ignoreCase).mono (Nat.le_refl 1) (fun _ _ => id) hnesting⟩
  have hcalculate {p : Policy} (hlength : text.length ≤ p.maxLength.toNat)
      (hnesting : 1 ≤ p.maxNesting.toNat) :
      calculate ⟨.empty, .empty, p⟩ text = .ok (.ofInt 1) := by
    have hone : (Binary64.ofInt 1).isFinite := by decide +kernel
    have htrim : trimmed text = text := by decide +kernel
    have heval : (Expr.call .count [.text "a"]).eval .empty .empty =
        .ok (.number (.ofInt 1)) := by
      rw [Expr.eval, Expr.evalArguments, Expr.evalArguments, Expr.eval]
      rfl
    rw [calculate_of_accepted _ (by decide +kernel), htrim, hread hlength hnesting]
    refine bind_eq_ok.mpr ⟨_, rfl, bind_eq_ok.mpr ⟨_, heval, ?_⟩⟩
    simp only [hone, Bool.not_true, Bool.and_false, Bool.false_eq_true, if_false]
    rfl
  obtain ⟨hlimits, hcase, hfinite⟩ := calculate_filtered .empty .empty text
  refine ⟨hlimits narrow {} (by decide) (by decide) rfl rfl ?_, ?_, ?_⟩
  · intro excess
    rw [hcalculate (by decide) (by decide)]
    rintro ⟨⟩
  · exact hcase {} _ (hread (by decide) (by decide))
  · exact ((hfinite {} _).mp (hcalculate (by decide) (by decide))).1

end MetricFormula
