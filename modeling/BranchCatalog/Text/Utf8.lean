import BranchCatalog.Text.Basic

namespace BranchCatalog.Text

def encodeUtf8 (text : Text) : List UInt8 :=
  text.flatMap String.utf8EncodeChar

/-- Different texts have different bytes. -/
theorem encodeUtf8_injective {text other : Text} (same : encodeUtf8 text = encodeUtf8 other) :
    text = other := by
  have decoded := congrArg (fun bytes : List UInt8 => bytes.toByteArray.utf8Decode?) same
  have whole (text : Text) : (encodeUtf8 text).toByteArray.utf8Decode? = some text.toArray :=
    List.utf8Decode?_utf8Encode
  simpa [whole] using decoded

/-- What a first byte announces: how many bytes follow, the bounds of the next one and the bits
that the first byte itself carries. -/
structure LeadByte where
  owed : Nat
  lowest : UInt8
  highest : UInt8
  bits : Nat

/-- The first bytes of well-formed sequences; the bounds of the second byte shut out overlong forms,
surrogates and numbers past the last code point. -/
def leadByte? (byte : UInt8) : Option LeadByte :=
  if byte < 0x80 then some ⟨0, 0x80, 0xbf, byte.toNat⟩
  else if byte < 0xc2 then none
  else if byte < 0xe0 then some ⟨1, 0x80, 0xbf, byte.toNat - 0xc0⟩
  else if byte < 0xf0 then
    some ⟨2, if byte = 0xe0 then 0xa0 else 0x80, if byte = 0xed then 0x9f else 0xbf,
      byte.toNat - 0xe0⟩
  else if byte < 0xf5 then
    some ⟨3, if byte = 0xf0 then 0x90 else 0x80, if byte = 0xf4 then 0x8f else 0xbf,
      byte.toNat - 0xf0⟩
  else none

/-- Reads the owed bytes while they lie within their bounds, and leaves the first that does not. -/
def readOwed : Nat → UInt8 → UInt8 → Nat → List UInt8 → Option Nat × List UInt8
  | 0, _, _, bits, bytes => (some bits, bytes)
  | _ + 1, _, _, _, [] => (none, [])
  | owed + 1, lowest, highest, bits, byte :: bytes =>
    if lowest ≤ byte ∧ byte ≤ highest then
      readOwed owed 0x80 0xbf (bits * 64 + (byte.toNat - 0x80)) bytes
    else (none, byte :: bytes)

theorem suffix_of_readOwed (owed : Nat) (lowest highest : UInt8) (bits : Nat) (bytes : List UInt8) :
    (readOwed owed lowest highest bits bytes).2 <:+ bytes := by
  induction bytes generalizing owed lowest highest bits with
  | nil => cases owed <;> simp [readOwed]
  | cons byte bytes inductionHypothesis =>
      cases owed with
      | zero => simp [readOwed]
      | succ owed =>
          rw [readOwed]
          split
          · exact (inductionHypothesis _ _ _ _).trans (List.suffix_cons byte bytes)
          · exact List.suffix_rfl

/-- Reads one character or one longest part of a broken sequence, which gives no character. -/
def readChar (byte : UInt8) (bytes : List UInt8) : Option Char × List UInt8 :=
  match leadByte? byte with
  | none => (none, bytes)
  | some lead =>
    let result := readOwed lead.owed lead.lowest lead.highest lead.bits bytes
    (result.1.map Char.ofNat, result.2)

theorem suffix_of_readChar (byte : UInt8) (bytes : List UInt8) : (readChar byte bytes).2 <:+ bytes := by
  unfold readChar
  split
  · exact List.suffix_rfl
  · exact suffix_of_readOwed _ _ _ _ bytes

/-- Reading a character leaves no more bytes than there were. -/
theorem readChar_length_le (byte : UInt8) (bytes : List UInt8) :
    (readChar byte bytes).2.length ≤ bytes.length :=
  (suffix_of_readChar byte bytes).length_le

/-- The characters of a byte sequence in order, with nothing in the place of each broken part. -/
def decodeChars : List UInt8 → List (Option Char)
  | [] => []
  | byte :: bytes => (readChar byte bytes).1 :: decodeChars (readChar byte bytes).2
termination_by bytes => bytes.length
decreasing_by exact Nat.lt_succ_of_le (readChar_length_le byte bytes)

/-- Decodes with one replacement character for each broken part. -/
def decodeLossy (bytes : List UInt8) : Text :=
  (decodeChars bytes).map fun char => char.getD '\uFFFD'

/-- Decodes bytes that are UTF-8 throughout. -/
def decodeUtf8? (bytes : List UInt8) : Option Text :=
  (decodeChars bytes).mapM id

end BranchCatalog.Text
