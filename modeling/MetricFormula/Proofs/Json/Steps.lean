import MetricFormula.Proofs.Grammar.Spelling
import MetricFormula.Proofs.Json.Text

/-! # Steps of the reader

What the reader gives for a value, an item or a member, from what it gives for the parts. -/

namespace MetricFormula.Json

variable {c : Char} {blanks cs : List Char} {ss ds es fs rest : List Symbol} {room : Nat}
  {first : Bool} {j : Json} {js : List Json} {key : String} {ms : List (String × Json)}

theorem gives_next? (hblanks : ∀ c ∈ blanks, Symbol.isSpace (.char c))
    (hc : Symbol.isSpace (.char c) = false) (rest : List Symbol) :
    Gives (next? (symbols blanks ++ .char c :: rest)) c rest := by
  have hspace : ∀ s ∈ symbols blanks, s.isSpace := by simpa using hblanks
  have hdrop : (symbols blanks ++ .char c :: rest).dropWhile Symbol.isSpace = .char c :: rest := by
    rw [List.dropWhile_append_of_pos hspace, List.dropWhile_cons_of_neg (by simp [hc])]
  unfold next?
  split
  · rename_i c' rest' h
    obtain ⟨rfl, rfl⟩ : c = c' ∧ rest = rest' := by simpa using hdrop.symm.trans h
    exact ⟨_, rfl⟩
  · rename_i h
    exact absurd hdrop (h c rest)

section
variable (hnext : Gives (next? ss) c ds)
include hnext

/-! ## Items and members -/

theorem gives_readItems?_nil (hc : c = ']') : Gives (readItems? room true ss) [] ds := by
  obtain ⟨_, hnext⟩ := hnext
  rw [readItems?, hnext]
  simp [hc]

section
variable (hc : c ≠ ']') (hitem : Gives (readValue? room ss) j es)
include hc hitem

theorem gives_readItems?_last (hclose : Gives (next? es) ']' rest) :
    Gives (readItems? room first ss) [j] rest := by
  obtain ⟨_, hnext⟩ := hnext
  obtain ⟨_, hitem⟩ := hitem
  obtain ⟨_, hclose⟩ := hclose
  rw [readItems?, hnext]
  simp [hc, hitem, hclose]

theorem gives_readItems?_cons (hcomma : Gives (next? es) ',' fs)
    (htail : Gives (readItems? room false fs) js rest) :
    Gives (readItems? room first ss) (j :: js) rest := by
  obtain ⟨_, hnext⟩ := hnext
  obtain ⟨_, hitem⟩ := hitem
  obtain ⟨_, hcomma⟩ := hcomma
  obtain ⟨_, htail⟩ := htail
  rw [readItems?, hnext]
  simp [hc, hitem, hcomma, htail, Taken.map, Taken.widen]

end

theorem gives_readMembers?_nil (hc : c = '\x7d') :
    Gives (readMembers? room true ss) (some []) ds := by
  obtain ⟨_, hnext⟩ := hnext
  rw [readMembers?, hnext]
  simp [hc]

section
variable {gs : List Symbol} (hc : c = '"') (hkey : Gives (readText? ds) (some key) es)
  (hcolon : Gives (next? es) ':' fs) (hitem : Gives (readValue? room fs) j gs)
include hc hkey hcolon hitem

theorem gives_readMembers?_last (hclose : Gives (next? gs) '\x7d' rest) :
    Gives (readMembers? room first ss) (some [(key, j)]) rest := by
  obtain ⟨_, hnext⟩ := hnext
  obtain ⟨_, hkey⟩ := hkey
  obtain ⟨_, hcolon⟩ := hcolon
  obtain ⟨_, hitem⟩ := hitem
  obtain ⟨_, hclose⟩ := hclose
  rw [readMembers?, hnext]
  simp [hc, hkey, hcolon, hitem, hclose]

theorem gives_readMembers?_cons {hs : List Symbol} (hcomma : Gives (next? gs) ',' hs)
    (htail : Gives (readMembers? room false hs) (some ms) rest) :
    Gives (readMembers? room first ss) (some ((key, j) :: ms)) rest := by
  obtain ⟨_, hnext⟩ := hnext
  obtain ⟨_, hkey⟩ := hkey
  obtain ⟨_, hcolon⟩ := hcolon
  obtain ⟨_, hitem⟩ := hitem
  obtain ⟨_, hcomma⟩ := hcomma
  obtain ⟨_, htail⟩ := htail
  rw [readMembers?, hnext]
  simp [hc, hkey, hcolon, hitem, hcomma, htail, Taken.map, Taken.widen]

end

/-! ## Values -/

theorem gives_readValue?_text (hc : c = '"') (hs : Gives (readText? ds) (some key) rest) :
    Gives (readValue? room ss) (.string key) rest := by
  obtain ⟨_, hnext⟩ := hnext
  obtain ⟨_, hs⟩ := hs
  rw [readValue?, hnext]
  simp [hc, hs, Taken.map, Taken.widen]

theorem gives_readValue?_array (hc : c = '[')
    (hitems : Gives (readItems? room true ds) js rest) :
    Gives (readValue? (room + 1) ss) (.array js) rest := by
  obtain ⟨_, hnext⟩ := hnext
  obtain ⟨_, hitems⟩ := hitems
  rw [readValue?, hnext]
  simp [hc, hitems, Taken.map, Taken.widen]

theorem gives_readValue?_object (hc : c = '\x7b')
    (hmembers : Gives (readMembers? room true ds) (some ms) rest) :
    Gives (readValue? (room + 1) ss) (.object ms) rest := by
  obtain ⟨_, hnext⟩ := hnext
  obtain ⟨_, hmembers⟩ := hmembers
  rw [readValue?, hnext]
  simp [hc, hmembers, Taken.map, Taken.widen]

theorem gives_readValue?_scalar (hc : c ∉ ['"', '[', '\x7b'])
    (hds : ds = symbols cs ++ rest) (hcs : ∀ c ∈ cs, Symbol.isScalar (.char c))
    (hrest : ∀ s ∈ rest.head?, s.isScalar = false) (hj : scalarOfText? (c :: cs) = some j) :
    Gives (readValue? room ss) j rest := by
  obtain ⟨_, hnext⟩ := hnext
  have hsymbols : ∀ s ∈ symbols cs, s.isScalar := by simpa using hcs
  have htake : (ds.takeWhile Symbol.isScalar).filterMap Symbol.char? = cs := by
    rw [hds, takeWhile_append_eq hsymbols hrest, List.filterMap_map]
    exact List.filterMap_some
  have hdrop : ds.dropWhile Symbol.isScalar = rest := by
    rw [hds, dropWhile_append_eq hsymbols hrest]
  simp only [List.mem_cons, List.not_mem_nil, not_or, or_false] at hc
  rw [readValue?, hnext]
  simp [hc, htake, hdrop, hj]

end

end MetricFormula.Json
