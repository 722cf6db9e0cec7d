/-! # Symbols of a document

A document is kept as bytes. They fall into characters and stray bytes, which belong to no
character. The bytes of a text are its characters and nothing else. -/

namespace MetricFormula.Json

inductive Symbol where
  | char (c : Char)
  | stray (byte : UInt8)
  deriving DecidableEq

namespace Symbol

def char? : Symbol → Option Char
  | char c => some c
  | stray _ => none

def isSpace : Symbol → Bool
  | char c => c = ' ' || c = '\n' || c = '\t' || c = '\r'
  | stray _ => false

/-- Whether a symbol belongs to a number or a word. -/
def isScalar : Symbol → Bool
  | char c => c.isAlphanum || c = '-' || c = '+' || c = '.'
  | stray _ => false

/-- The symbols of the bytes from a position on. -/
def ofBytesFrom (bytes : ByteArray) (start : Nat) : List Symbol :=
  if h : start < bytes.size then
    match bytes.utf8DecodeChar? start with
    | some c => char c :: ofBytesFrom bytes (start + c.utf8Size)
    | none => stray bytes[start] :: ofBytesFrom bytes (start + 1)
  else []
termination_by bytes.size - start
decreasing_by
  · have := c.utf8Size_pos
    omega
  · omega

def ofBytes (bytes : ByteArray) : List Symbol := ofBytesFrom bytes 0

def ofText (text : String) : List Symbol := text.toList.map char

/-! ## Bytes of texts -/

private theorem ofBytesFrom_utf8Encode (before : ByteArray) (cs : List Char) :
    ofBytesFrom (before ++ cs.utf8Encode) before.size = cs.map char := by
  induction cs generalizing before with
  | nil => simp [ofBytesFrom]
  | cons c cs ih =>
    have hdecode : (before ++ (c :: cs).utf8Encode).utf8DecodeChar? before.size = some c := by
      rw [ByteArray.utf8DecodeChar?_eq_utf8DecodeChar?_extract,
        ByteArray.extract_append_eq_right rfl, List.utf8DecodeChar?_utf8Encode_cons]
      simp
    have hsize : before.size < (before ++ (c :: cs).utf8Encode).size :=
      ByteArray.lt_size_of_isSome_utf8DecodeChar? (Option.isSome_of_eq_some hdecode)
    have htail := ih (before ++ [c].utf8Encode)
    rw [ByteArray.append_assoc, ← List.utf8Encode_cons] at htail
    have hstart : (before ++ [c].utf8Encode).size = before.size + c.utf8Size := by
      simp [List.utf8Encode_singleton]
    rw [ofBytesFrom, dif_pos hsize, hdecode, List.map_cons, ← htail, hstart]

theorem ofBytes_toUTF8 (text : String) : ofBytes text.toUTF8 = ofText text := by
  have := ofBytesFrom_utf8Encode .empty text.toList
  simpa [ofBytes, ofText] using this

end Symbol
end MetricFormula.Json
