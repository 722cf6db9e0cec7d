import MetricFormula.Decimal.Literal
import MetricFormula.Json.Basic
import MetricFormula.Json.Symbol
import MetricFormula.Taken

/-! # Reading JSON

The reader is strict: one value, nothing behind it but white space. Each step returns what it has
read together with a rest that is shorter than what it was given. A text with stray bytes and a
value inside more than a given number of arrays and objects are read but unusable. -/

namespace MetricFormula.Json

/-- The first character that is not white space, and what follows it. -/
def next? (ss : List Symbol) : Option (Taken ss Char) :=
  match h : ss.dropWhile Symbol.isSpace with
  | .char c :: rest =>
    some ⟨c, rest, by
      have hle : (ss.dropWhile Symbol.isSpace).length ≤ ss.length :=
        (List.dropWhile_sublist _).length_le
      rwa [h] at hle⟩
  | _ => none

/-! ## Texts -/

/-- One unit of a written text: a character, half a surrogate pair, or a stray byte. -/
inductive TextUnit where
  | char (c : Char)
  | half (code : Nat)
  | stray

namespace TextUnit

def ofCode (code : Nat) : TextUnit :=
  if 0xD800 ≤ code && code ≤ 0xDFFF then .half code else .char (Char.ofNat code)

/-- The characters that the units make up, if no half is alone and no byte stray. -/
def join? : List TextUnit → Option (List Char)
  | [] => some []
  | .char c :: us => (join? us).map (c :: ·)
  | .half high :: .half low :: us =>
    if high < 0xDC00 && 0xDC00 ≤ low then
      (join? us).map (Char.ofNat (0x10000 + 0x400 * (high - 0xD800) + (low - 0xDC00)) :: ·)
    else none
  | .half _ :: _ | .stray :: _ => none

end TextUnit

def hexDigit? (c : Char) : Option Nat :=
  if c.isDigit then some (c.toNat - '0'.toNat)
  else if 'a' ≤ c && c ≤ 'f' then some (c.toNat - 'a'.toNat + 10)
  else if 'A' ≤ c && c ≤ 'F' then some (c.toNat - 'A'.toNat + 10)
  else none

def hexCode? (digits : List Char) : Option Nat :=
  digits.foldlM (fun n c => (hexDigit? c).map (16 * n + ·)) 0

/-- What a letter behind a backslash stands for. -/
def unescape? : Char → Option Char
  | '"' => some '"'
  | '\\' => some '\\'
  | '/' => some '/'
  | 'b' => some '\x08'
  | 'f' => some '\x0c'
  | 'n' => some '\n'
  | 'r' => some '\r'
  | 't' => some '\t'
  | _ => none

/-- A text behind its opening quote. -/
def readUnits? : (ss : List Symbol) → Option (Taken ss (List TextUnit))
  | [] => none
  | .char '"' :: ss => some ⟨[], ss, by simp⟩
  | .char '\\' :: .char 'u' :: .char a :: .char b :: .char c :: .char d :: ss => do
    let code ← hexCode? [a, b, c, d]
    let t ← readUnits? ss
    return (t.map (TextUnit.ofCode code :: ·)).widen (by simp +arith)
  | .char '\\' :: .char c :: ss => do
    let c ← unescape? c
    let t ← readUnits? ss
    return (t.map (.char c :: ·)).widen (by simp +arith)
  | .char '\\' :: _ => none
  | .char c :: ss =>
    if c.toNat < 0x20 then none
    else do
      let t ← readUnits? ss
      return (t.map (.char c :: ·)).widen (by simp)
  | .stray _ :: ss => do
    let t ← readUnits? ss
    return (t.map (.stray :: ·)).widen (by simp)

/-- A text behind its opening quote, with no result if it has none. -/
def readText? (ss : List Symbol) : Option (Taken ss (Option String)) :=
  (readUnits? ss).map (·.map fun us => (TextUnit.join? us).map String.ofList)

/-! ## Numbers and words -/

/-- Whether an unsigned number text has digits in front without a needless zero, and digits behind
a point. -/
def isStrict (cs : List Char) : Bool :=
  let whole := cs.takeWhile Char.isDigit
  let fractionDigits := match cs.dropWhile Char.isDigit with
    | '.' :: rest => rest.head?.any Char.isDigit
    | _ => true
  !whole.isEmpty && (whole.head? ≠ some '0' || whole.length = 1) && fractionDigits

/-- The number with the given sign. An integer of 64 bits stays an integer, but `-0` is a double;
a number beyond the doubles is unusable. -/
def numberOfParts? (negative : Bool) (unsigned : List Char) : Option Json :=
  let n : Int := if negative then -digitsValue unsigned else digitsValue unsigned
  if unsigned.all Char.isDigit && FitsWord n && !(negative && n = 0) then some (.int n)
  else
    (Decimal.ofText? unsigned).map fun d =>
      let x := d.toBinary64 negative
      if x.isFinite then .float x else .unusable

def numberOfText? (cs : List Char) : Option Json :=
  let (negative, unsigned) := match cs with
    | '-' :: cs => (true, cs)
    | cs => (false, cs)
  if isStrict unsigned then numberOfParts? negative unsigned else none

/-- What a number or a word stands for. -/
def scalarOfText? (cs : List Char) : Option Json :=
  if cs = "null".toList then some .null
  else if cs = "true".toList then some (.bool true)
  else if cs = "false".toList then some (.bool false)
  else numberOfText? cs

/-! ## Values -/

mutual

/-- A value with white space before it; `room` more arrays and objects may be nested here. -/
def readValue? (room : Nat) (ss : List Symbol) : Option (Taken ss Json) := do
  let ⟨c, ds, hds⟩ ← next? ss
  match c with
  | '"' =>
    let t ← readText? ds
    return (t.map fun s => (s.map Json.string).getD .unusable).widen (Nat.le_of_lt hds)
  | '[' =>
    let t ← readItems? (room - 1) true ds
    return (t.map fun items => if room = 0 then .unusable else .array items).widen
      (Nat.le_of_lt hds)
  | '\x7b' =>
    let t ← readMembers? (room - 1) true ds
    let object (members : Option (List (String × Json))) : Json :=
      if room = 0 then .unusable else (members.map Json.object).getD .unusable
    return (t.map object).widen (Nat.le_of_lt hds)
  | c =>
    let j ← scalarOfText? (c :: (ds.takeWhile Symbol.isScalar).filterMap Symbol.char?)
    return ⟨j, ds.dropWhile Symbol.isScalar,
      Nat.lt_of_le_of_lt (List.dropWhile_sublist _).length_le hds⟩
termination_by (ss.length, 0)
decreasing_by all_goals exact Prod.Lex.left _ _ hds

/-- The items of an array up to its closing bracket, which may come at once if `first`. -/
def readItems? (room : Nat) (first : Bool) (ss : List Symbol) : Option (Taken ss (List Json)) := do
  let ⟨c, ds, hds⟩ ← next? ss
  if c = ']' && first then return ⟨[], ds, hds⟩
  let item ← readValue? room ss
  let ⟨c, es, hes⟩ ← next? item.rest
  have hlt := Nat.lt_trans hes item.shorter
  match c with
  | ']' => return ⟨[item.value], es, hlt⟩
  | ',' =>
    let items ← readItems? room false es
    return (items.map (item.value :: ·)).widen (Nat.le_of_lt hlt)
  | _ => none
termination_by (ss.length, 1)
decreasing_by
  · exact Prod.Lex.right _ Nat.zero_lt_one
  · exact Prod.Lex.left _ _ hlt

/-- The members of an object up to its closing brace, which may come at once if `first`; without
result if a key has none. -/
def readMembers? (room : Nat) (first : Bool) (ss : List Symbol) :
    Option (Taken ss (Option (List (String × Json)))) := do
  let ⟨c, ds, hds⟩ ← next? ss
  match c with
  | '\x7d' => if first then return ⟨some [], ds, hds⟩ else none
  | '"' =>
    let key ← readText? ds
    let ⟨':', es, hes⟩ ← next? key.rest | none
    have hes := Nat.lt_trans hes (Nat.lt_trans key.shorter hds)
    let item ← readValue? room es
    let ⟨c, fs, hfs⟩ ← next? item.rest
    have hfs := Nat.lt_trans hfs (Nat.lt_trans item.shorter hes)
    let member := key.value.map (·, item.value)
    match c with
    | '\x7d' => return ⟨member.map ([·]), fs, hfs⟩
    | ',' =>
      let members ← readMembers? room false fs
      return (members.map fun ms => do return (← member) :: (← ms)).widen (Nat.le_of_lt hfs)
    | _ => none
  | _ => none
termination_by (ss.length, 1)
decreasing_by
  · exact Prod.Lex.left _ _ hes
  · exact Prod.Lex.left _ _ hfs

end

/-- How many arrays and objects may be nested in one another. -/
def nestingLimit : Nat := 127

/-- The document that symbols make up, with at most `room` arrays and objects nested. -/
def readWithin? (room : Nat) (ss : List Symbol) : Option Json := do
  let t ← readValue? room ss
  if t.rest.all Symbol.isSpace then some t.value else none

/-- The document that a text consists of. -/
def read? (text : String) : Option Json := readWithin? nestingLimit (Symbol.ofText text)

/-- The document that some bytes consist of. -/
def readBytes? (bytes : ByteArray) : Option Json := readWithin? nestingLimit (Symbol.ofBytes bytes)

theorem readBytes?_toUTF8 (text : String) : readBytes? text.toUTF8 = read? text := by
  rw [readBytes?, read?, Symbol.ofBytes_toUTF8]

end MetricFormula.Json
