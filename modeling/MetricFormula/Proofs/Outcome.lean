/-! # Outcomes

When a computation that may fail succeeds, when it fails, and with which errors it fails at all. -/

namespace MetricFormula

variable {ε α β : Type}

theorem pure_eq_ok {a b : α} : (pure a : Except ε α) = .ok b ↔ a = b :=
  ⟨Except.ok.inj, congrArg Except.ok⟩

theorem bind_eq_ok {x : Except ε α} {f : α → Except ε β} {b : β} :
    (x >>= f) = .ok b ↔ ∃ a, x = .ok a ∧ f a = .ok b := by
  rcases x with _ | a
  · exact ⟨nofun, fun ⟨_, h, _⟩ => nomatch h⟩
  · exact ⟨fun h => ⟨a, rfl, h⟩, fun ⟨_, h, hf⟩ => Except.ok.inj h ▸ hf⟩

theorem bind_eq_error {x : Except ε α} {f : α → Except ε β} {e : ε} :
    (x >>= f) = .error e ↔ x = .error e ∨ ∃ a, x = .ok a ∧ f a = .error e := by
  cases x <;> simp [bind, Except.bind]

theorem map_eq_ok {x : Except ε α} {f : α → β} {b : β} :
    x.map f = .ok b ↔ ∃ a, x = .ok a ∧ f a = b := by
  rcases x with _ | a
  · exact ⟨nofun, fun ⟨_, h, _⟩ => nomatch h⟩
  · exact ⟨fun h => ⟨a, rfl, Except.ok.inj h⟩, fun ⟨_, h, hf⟩ => by rw [h, ← hf]; rfl⟩

theorem toOption_eq_some {x : Except ε α} {a : α} : x.toOption = some a ↔ x = .ok a := by
  cases x <;> simp [Except.toOption]

theorem mapM_ok {f : α → Except ε β} {as : List α} {bs : List β} (h : as.mapM f = .ok bs) :
    ∀ a ∈ as, ∃ b, f a = .ok b := by
  induction as generalizing bs with
  | nil => exact nofun
  | cons a as ih =>
    simp only [List.mapM_cons, bind_eq_ok] at h
    obtain ⟨b, hb, bs, hbs, _⟩ := h
    exact List.forall_mem_cons.mpr ⟨⟨b, hb⟩, ih hbs⟩

theorem mapM_congr_left {f g : α → Except ε β} {as : List α} (h : ∀ a ∈ as, f a = g a) :
    as.mapM f = as.mapM g := by
  induction as with
  | nil => rfl
  | cons a as ih =>
    obtain ⟨ha, has⟩ := List.forall_mem_cons.mp h
    rw [List.mapM_cons, List.mapM_cons, ha, ih has]

theorem mapM_head? {f : α → Except ε β} {as : List α} {bs : List β} (h : as.mapM f = .ok bs)
    {b : β} (hb : b ∈ bs.head?) : ∃ a, as.head? = some a ∧ f a = .ok b := by
  cases as with
  | nil =>
    obtain rfl := pure_eq_ok.mp h
    cases hb
  | cons a as =>
    simp only [List.mapM_cons, bind_eq_ok, pure_eq_ok] at h
    obtain ⟨b', hb', bs', _, rfl⟩ := h
    cases hb
    exact ⟨a, rfl, hb'⟩

/-- The first computation that fails gives the error. -/
theorem mapM_eq_error {f : α → Except ε β} {before after : List α} {a : α} {e : ε}
    (hbefore : ∀ b ∈ before, ∃ x, f b = .ok x) (ha : f a = .error e) :
    (before ++ a :: after).mapM f = .error e := by
  induction before with
  | nil => rw [List.nil_append, List.mapM_cons, ha]; rfl
  | cons b before ih =>
    obtain ⟨⟨x, hx⟩, hrest⟩ := List.forall_mem_cons.mp hbefore
    rw [List.cons_append, List.mapM_cons, hx, ih hrest]
    rfl

/-- What follows a computation only matters for what it can give. -/
theorem bind_congr_ok {x : Except ε α} {f g : α → Except ε β} (h : ∀ a, x = .ok a → f a = g a) :
    (x >>= f) = (x >>= g) := by
  rcases x with _ | a
  · rfl
  · exact h a rfl

/-! ## Errors that are possible -/

/-- The computation fails, if at all, with errors that have the property. -/
def FailsIn (P : ε → Prop) (x : Except ε α) : Prop := ∀ e, x = .error e → P e

namespace FailsIn

variable {P Q : ε → Prop} {x : Except ε α} {a : α} {e : ε}

theorem pure : FailsIn P (Pure.pure a) := nofun

theorem throw (h : P e) : FailsIn P (MonadExcept.throw e : Except ε α)
  | _, rfl => h

theorem mono (hx : FailsIn P x) (h : ∀ e, P e → Q e) : FailsIn Q x := fun e he => h e (hx e he)

theorem bind {f : α → Except ε β} (hx : FailsIn P x) (hf : ∀ a, x = .ok a → FailsIn P (f a)) :
    FailsIn P (x >>= f) := by
  intro e he
  rcases bind_eq_error.mp he with he | ⟨a, ha, he⟩
  · exact hx e he
  · exact hf a ha e he

theorem map {f : α → β} (hx : FailsIn P x) : FailsIn P (x.map f) := by
  rcases x with e | a
  · rintro _ ⟨⟩
    exact hx e rfl
  · exact nofun

theorem mapError {ε' : Type} {P : ε' → Prop} {f : ε → ε'} (h : ∀ e, P (f e)) :
    FailsIn P (x.mapError f) := by
  rcases x with e | a
  · rintro _ ⟨⟩
    exact h e
  · exact nofun

theorem mapM {f : α → Except ε β} {as : List α} (h : ∀ a ∈ as, FailsIn P (f a)) :
    FailsIn P (as.mapM f) := by
  induction as with
  | nil => exact pure
  | cons a as ih =>
    obtain ⟨ha, has⟩ := List.forall_mem_cons.mp h
    rw [List.mapM_cons]
    exact bind ha fun _ _ => bind (ih has) fun _ _ => pure

end FailsIn

/-! ## Outcomes that give way -/

/-- The outcomes are the same, unless the first is the error. -/
def GivesWay (e : ε) (x y : Except ε α) : Prop := x = .error e ∨ x = y

namespace GivesWay

variable {x y : Except ε α} {e : ε}

theorem refl (x : Except ε α) : GivesWay e x x := .inr rfl

theorem bind {f g : α → Except ε β} (hx : GivesWay e x y) (hf : ∀ a, GivesWay e (f a) (g a)) :
    GivesWay e (x >>= f) (y >>= g) := by
  rcases hx with rfl | rfl
  · exact .inl rfl
  · rcases x with e' | a
    · exact .inr rfl
    · exact hf a

theorem map {f : α → β} (hx : GivesWay e x y) : GivesWay e (x.map f) (y.map f) := by
  rcases hx with rfl | rfl
  · exact .inl rfl
  · exact .inr rfl

end GivesWay
end MetricFormula
