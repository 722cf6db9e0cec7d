import MetricFormula.Proofs.Grammar.Derivation

/-! # Nesting

How deep a derivation nests. Parentheses, the operands of signs and the lists of arguments of calls
lie one level deeper than what they stand in. Whether the right operand of a binary operator lies
deeper too is left open: with the depth `0` the nesting is that of parentheses, signs and calls
alone, with the depth `1` it is what the reader spends. -/

namespace MetricFormula

mutual

/-- The tokens derive the tree with at most so many levels of nesting around any of them, where a right
operand lies `operand` levels deeper than its operator. -/
inductive NestsWithin (operand : Nat) (ignoreCase : Bool) :
    Nat → Nonterminal → List Token → Expr → Prop
  | ofTerm : NestsWithin operand ignoreCase n .term ts e → NestsWithin operand ignoreCase n .expr ts e
  | sum : NestsWithin operand ignoreCase (n + operand) .expr ts l → Additive t op →
      NestsWithin operand ignoreCase n .term us r →
      NestsWithin operand ignoreCase (n + operand) .expr (ts ++ t :: us) (.binary op l r)
  | ofFactor : NestsWithin operand ignoreCase n .factor ts e →
      NestsWithin operand ignoreCase n .term ts e
  | product : NestsWithin operand ignoreCase (n + operand) .term ts l → Multiplicative t op →
      NestsWithin operand ignoreCase n .factor us r →
      NestsWithin operand ignoreCase (n + operand) .term (ts ++ t :: us) (.binary op l r)
  | ofPower : NestsWithin operand ignoreCase n .power ts e →
      NestsWithin operand ignoreCase n .factor ts e
  | signed : Prefixed t sign → NestsWithin operand ignoreCase n .factor ts e →
      NestsWithin operand ignoreCase (n + 1) .factor (t :: ts) (.signed sign e)
  | ofPrimary : NestsWithin operand ignoreCase n .primary ts e →
      NestsWithin operand ignoreCase n .power ts e
  | pow : NestsWithin operand ignoreCase (n + operand) .primary ts b →
      NestsWithin operand ignoreCase n .factor us x →
      NestsWithin operand ignoreCase (n + operand) .power (ts ++ .starStar :: us) (.binary .pow b x)
  | number : NestsWithin operand ignoreCase n .primary [.number x] (.number x)
  | text : NestsWithin operand ignoreCase n .primary [.text s] (.text s)
  | name : NestsWithin operand ignoreCase n .primary [.name s] (.name s)
  | parens : NestsWithin operand ignoreCase n .expr ts e →
      NestsWithin operand ignoreCase (n + 1) .primary (.leftParen :: ts ++ [.rightParen]) e
  | call : Function.lookup? ignoreCase s = some f →
      ArgumentsNestWithin operand ignoreCase n ts args → f.arity.admits args.length →
      NestsWithin operand ignoreCase (n + 1) .primary (.name s :: .leftParen :: ts ++ [.rightParen])
        (.call f args)

/-- The same for the tokens between the parentheses of a call. -/
inductive ArgumentsNestWithin (operand : Nat) (ignoreCase : Bool) :
    Nat → List Token → List Expr → Prop
  | empty : ArgumentsNestWithin operand ignoreCase n [] []
  | list : ListNestsWithin operand ignoreCase n ts args →
      ArgumentsNestWithin operand ignoreCase n ts args

/-- The same for expressions separated by commas. -/
inductive ListNestsWithin (operand : Nat) (ignoreCase : Bool) :
    Nat → List Token → List Expr → Prop
  | last : NestsWithin operand ignoreCase n .expr ts e → ListNestsWithin operand ignoreCase n ts [e]
  | comma : NestsWithin operand ignoreCase n .expr ts e →
      ListNestsWithin operand ignoreCase n us es →
      ListNestsWithin operand ignoreCase n (ts ++ .comma :: us) (e :: es)

end

variable {operand : Nat} {ignoreCase : Bool}

/-! ## Derivations nest -/

mutual

theorem NestsWithin.derives {n : Nat} {nt : Nonterminal} {ts : List Token} {e : Expr}
    (h : NestsWithin operand ignoreCase n nt ts e) : Derives ignoreCase nt ts e := by
  match h with
  | .ofTerm h => exact .ofTerm h.derives
  | .sum hl hop hr => exact .sum hl.derives hop hr.derives
  | .ofFactor h => exact .ofFactor h.derives
  | .product hl hop hr => exact .product hl.derives hop hr.derives
  | .ofPower h => exact .ofPower h.derives
  | .signed hsign h => exact .signed hsign h.derives
  | .ofPrimary h => exact .ofPrimary h.derives
  | .pow hb hx => exact .pow hb.derives hx.derives
  | .number => exact .number
  | .text => exact .text
  | .name => exact .name
  | .parens h => exact .parens h.derives
  | .call hf hargs hadmits => exact .call hf hargs.derives hadmits

theorem ArgumentsNestWithin.derives {n : Nat} {ts : List Token} {args : List Expr}
    (h : ArgumentsNestWithin operand ignoreCase n ts args) :
    DerivesArguments ignoreCase ts args := by
  match h with
  | .empty => exact .empty
  | .list h => exact .list h.derives

theorem ListNestsWithin.derives {n : Nat} {ts : List Token} {args : List Expr}
    (h : ListNestsWithin operand ignoreCase n ts args) : DerivesList ignoreCase ts args := by
  match h with
  | .last h => exact .last h.derives
  | .comma h hmore => exact .comma h.derives hmore.derives

end

mutual

/-- No derivation nests deeper than it has tokens, as what lies deeper is shorter. -/
theorem Derives.nestsWithin {n : Nat} {nt : Nonterminal} {ts : List Token} {e : Expr}
    (h : Derives ignoreCase nt ts e) (hlen : ts.length ≤ n) :
    NestsWithin 1 ignoreCase n nt ts e := by
  match h with
  | .ofTerm h => exact .ofTerm (h.nestsWithin hlen)
  | .ofFactor h => exact .ofFactor (h.nestsWithin hlen)
  | .ofPower h => exact .ofPower (h.nestsWithin hlen)
  | .ofPrimary h => exact .ofPrimary (h.nestsWithin hlen)
  | .sum hl hop hr =>
    rw [List.length_append, List.length_cons] at hlen
    obtain ⟨n, rfl⟩ := Nat.exists_eq_add_one_of_ne_zero (n := n) (by omega)
    exact .sum (hl.nestsWithin (by omega)) hop (hr.nestsWithin (by omega))
  | .product hl hop hr =>
    rw [List.length_append, List.length_cons] at hlen
    obtain ⟨n, rfl⟩ := Nat.exists_eq_add_one_of_ne_zero (n := n) (by omega)
    exact .product (hl.nestsWithin (by omega)) hop (hr.nestsWithin (by omega))
  | .pow hb hx =>
    rw [List.length_append, List.length_cons] at hlen
    obtain ⟨n, rfl⟩ := Nat.exists_eq_add_one_of_ne_zero (n := n) (by omega)
    exact .pow (hb.nestsWithin (by omega)) (hx.nestsWithin (by omega))
  | .signed hsign h =>
    rw [List.length_cons] at hlen
    obtain ⟨n, rfl⟩ := Nat.exists_eq_add_one_of_ne_zero (n := n) (by omega)
    exact .signed hsign (h.nestsWithin (by omega))
  | .number => exact .number
  | .text => exact .text
  | .name => exact .name
  | .parens h =>
    simp only [List.length_append, List.length_cons, List.length_nil] at hlen
    obtain ⟨n, rfl⟩ := Nat.exists_eq_add_one_of_ne_zero (n := n) (by omega)
    exact .parens (h.nestsWithin (by omega))
  | .call hf hargs hadmits =>
    simp only [List.length_append, List.length_cons, List.length_nil] at hlen
    obtain ⟨n, rfl⟩ := Nat.exists_eq_add_one_of_ne_zero (n := n) (by omega)
    exact .call hf (hargs.nestsWithin (by omega)) hadmits

theorem DerivesArguments.nestsWithin {n : Nat} {ts : List Token} {args : List Expr}
    (h : DerivesArguments ignoreCase ts args) (hlen : ts.length ≤ n) :
    ArgumentsNestWithin 1 ignoreCase n ts args := by
  match h with
  | .empty => exact .empty
  | .list h => exact .list (h.nestsWithin hlen)

theorem DerivesList.nestsWithin {n : Nat} {ts : List Token} {args : List Expr}
    (h : DerivesList ignoreCase ts args) (hlen : ts.length ≤ n) :
    ListNestsWithin 1 ignoreCase n ts args := by
  match h with
  | .last h => exact .last (h.nestsWithin hlen)
  | .comma h hmore =>
    rw [List.length_append, List.length_cons] at hlen
    exact .comma (h.nestsWithin (by omega)) (hmore.nestsWithin (by omega))

end

/-! ## Bounds that are further out -/

section
variable {operand' : Nat} {ignoreCase' : Bool}

mutual

/-- A bound on the nesting remains one when it grows, when right operands lie less deep, and when more
names are those of functions. -/
theorem NestsWithin.mono {n n' : Nat} {nt : Nonterminal} {ts : List Token} {e : Expr}
    (h : NestsWithin operand ignoreCase n nt ts e) (hoperand : operand' ≤ operand)
    (hlookup : ∀ s f, Function.lookup? ignoreCase s = some f →
      Function.lookup? ignoreCase' s = some f) (hn : n ≤ n') :
    NestsWithin operand' ignoreCase' n' nt ts e := by
  match h with
  | .ofTerm h => exact .ofTerm (h.mono hoperand hlookup hn)
  | .ofFactor h => exact .ofFactor (h.mono hoperand hlookup hn)
  | .ofPower h => exact .ofPower (h.mono hoperand hlookup hn)
  | .ofPrimary h => exact .ofPrimary (h.mono hoperand hlookup hn)
  | .sum hl hop hr =>
    obtain ⟨m, rfl⟩ := Nat.exists_eq_add_of_le' (show operand' ≤ n' by omega)
    exact .sum (hl.mono hoperand hlookup hn) hop (hr.mono hoperand hlookup (by omega))
  | .product hl hop hr =>
    obtain ⟨m, rfl⟩ := Nat.exists_eq_add_of_le' (show operand' ≤ n' by omega)
    exact .product (hl.mono hoperand hlookup hn) hop (hr.mono hoperand hlookup (by omega))
  | .pow hb hx =>
    obtain ⟨m, rfl⟩ := Nat.exists_eq_add_of_le' (show operand' ≤ n' by omega)
    exact .pow (hb.mono hoperand hlookup hn) (hx.mono hoperand hlookup (by omega))
  | .signed hsign h =>
    obtain ⟨m, rfl⟩ := Nat.exists_eq_add_of_le' (show 1 ≤ n' by omega)
    exact .signed hsign (h.mono hoperand hlookup (by omega))
  | .number => exact .number
  | .text => exact .text
  | .name => exact .name
  | .parens h =>
    obtain ⟨m, rfl⟩ := Nat.exists_eq_add_of_le' (show 1 ≤ n' by omega)
    exact .parens (h.mono hoperand hlookup (by omega))
  | .call hf hargs hadmits =>
    obtain ⟨m, rfl⟩ := Nat.exists_eq_add_of_le' (show 1 ≤ n' by omega)
    exact .call (hlookup _ _ hf) (hargs.mono hoperand hlookup (by omega)) hadmits

theorem ArgumentsNestWithin.mono {n n' : Nat} {ts : List Token} {args : List Expr}
    (h : ArgumentsNestWithin operand ignoreCase n ts args) (hoperand : operand' ≤ operand)
    (hlookup : ∀ s f, Function.lookup? ignoreCase s = some f →
      Function.lookup? ignoreCase' s = some f) (hn : n ≤ n') :
    ArgumentsNestWithin operand' ignoreCase' n' ts args := by
  match h with
  | .empty => exact .empty
  | .list h => exact .list (h.mono hoperand hlookup hn)

theorem ListNestsWithin.mono {n n' : Nat} {ts : List Token} {args : List Expr}
    (h : ListNestsWithin operand ignoreCase n ts args) (hoperand : operand' ≤ operand)
    (hlookup : ∀ s f, Function.lookup? ignoreCase s = some f →
      Function.lookup? ignoreCase' s = some f) (hn : n ≤ n') :
    ListNestsWithin operand' ignoreCase' n' ts args := by
  match h with
  | .last h => exact .last (h.mono hoperand hlookup hn)
  | .comma h hmore => exact .comma (h.mono hoperand hlookup hn) (hmore.mono hoperand hlookup hn)

end

end

/-- Where right operands lie deeper, there is none without nesting. -/
theorem NestsWithin.ne_binary {n : Nat} {nt : Nonterminal} {ts : List Token} {e : Expr}
    (h : NestsWithin 1 ignoreCase n nt ts e) (hn : n = 0) (op : BinaryOp) (l r : Expr) :
    e ≠ .binary op l r := by
  match h with
  | .ofTerm h | .ofFactor h | .ofPower h | .ofPrimary h => exact h.ne_binary hn op l r
  | .sum .. | .product .. | .pow .. | .signed .. | .parens _ | .call .. => nomatch hn
  | .number | .text | .name => nofun

/-! ## The nesting of a tree -/

/-- The nesting of tokens as a tree: the greatest number of levels around any of them, which is the
least of the bounds. -/
def Nesting (operand : Nat) (ignoreCase : Bool) (depth : Nat) (ts : List Token) (e : Expr) : Prop :=
  ∀ n, NestsWithin operand ignoreCase n .expr ts e ↔ depth ≤ n

variable {operand' : Nat} {ts : List Token} {e : Expr}

theorem NestsWithin.exists_nesting {n : Nat} (h : NestsWithin operand ignoreCase n .expr ts e) :
    ∃ depth, Nesting operand ignoreCase depth ts e := by
  induction n with
  | zero =>
    exact ⟨0, fun m => ⟨fun _ => Nat.zero_le m, h.mono (Nat.le_refl _) fun _ _ => id⟩⟩
  | succ n ih =>
    by_cases hless : NestsWithin operand ignoreCase n .expr ts e
    · exact ih hless
    · refine ⟨n + 1, fun m => ⟨fun hm => Nat.lt_of_not_le fun hle => ?_,
        h.mono (Nat.le_refl _) fun _ _ => id⟩⟩
      exact hless (hm.mono (Nat.le_refl _) (fun _ _ => id) hle)

/-- The deeper right operands lie, the deeper the nesting is. -/
theorem Nesting.le {depth depth' : Nat} (h : Nesting operand ignoreCase depth ts e)
    (h' : Nesting operand' ignoreCase depth' ts e) (hoperand : operand' ≤ operand) :
    depth' ≤ depth :=
  (h' depth).mp (((h depth).mpr (Nat.le_refl _)).mono hoperand (fun _ _ => id) (Nat.le_refl _))

end MetricFormula
