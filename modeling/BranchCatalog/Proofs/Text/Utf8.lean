import BranchCatalog.Text.Utf8
import Mathlib.Tactic.IntervalCases

namespace BranchCatalog.Text

theorem toNat_ofNat_of_lt {number : Nat} (small : number < 256) : (UInt8.ofNat number).toNat = number := by
  rw [UInt8.toNat_ofNat', Nat.mod_eq_of_lt small]

/-- An owed byte gives its six bits when it lies within its bounds. -/
theorem readOwed_cons {lowest highest : UInt8} {number : Nat} (small : number < 64)
    (atLeast : lowest.toNat ≤ number + 0x80) (atMost : number + 0x80 ≤ highest.toNat) (owed bits : Nat)
    (bytes : List UInt8) :
    readOwed (owed + 1) lowest highest bits (UInt8.ofNat (number + 0x80) :: bytes) =
      readOwed owed 0x80 0xbf (bits * 64 + number) bytes := by
  have value := toNat_ofNat_of_lt (show number + 0x80 < 256 by omega)
  have within : lowest ≤ UInt8.ofNat (number + 0x80) ∧ UInt8.ofNat (number + 0x80) ≤ highest := by
    rw [UInt8.le_iff_toNat_le, UInt8.le_iff_toNat_le, value]
    exact ⟨atLeast, atMost⟩
  rw [readOwed, if_pos within, value, Nat.add_sub_cancel]

/-- Any six bits may stand in a byte after the second one. -/
theorem readOwed_cons_later {number : Nat} (small : number < 64) (owed bits : Nat) (bytes : List UInt8) :
    readOwed (owed + 1) 0x80 0xbf bits (UInt8.ofNat (number + 0x80) :: bytes) =
      readOwed owed 0x80 0xbf (bits * 64 + number) bytes :=
  readOwed_cons small (by simp) (by simp; omega) owed bits bytes

/-- A small byte stands for a character alone. -/
theorem leadByte?_of_one {number : Nat} (small : number < 0x80) :
    leadByte? (UInt8.ofNat number) = some ⟨0, 0x80, 0xbf, number⟩ := by
  interval_cases number <;> rfl

theorem leadByte?_of_two {number : Nat} (large : 2 ≤ number) (small : number < 32) :
    leadByte? (UInt8.ofNat (number + 0xc0)) = some ⟨1, 0x80, 0xbf, number⟩ := by
  interval_cases number <;> rfl

theorem leadByte?_of_three {number : Nat} (small : number < 16) :
    leadByte? (UInt8.ofNat (number + 0xe0)) =
      some ⟨2, if number = 0 then 0xa0 else 0x80, if number = 13 then 0x9f else 0xbf, number⟩ := by
  interval_cases number <;> rfl

/-- A byte from 0xf0 on announces three more. -/
theorem leadByte?_of_four {number : Nat} (small : number < 5) :
    leadByte? (UInt8.ofNat (number + 0xf0)) =
      some ⟨3, if number = 0 then 0x90 else 0x80, if number = 4 then 0x8f else 0xbf, number⟩ := by
  interval_cases number <;> rfl

/-- A first byte and the bytes that it announces are one character. -/
theorem readChar_eq {byte lowest highest : UInt8} {owed first bits : Nat} {bytes rest : List UInt8}
    (announced : leadByte? byte = some ⟨owed, lowest, highest, first⟩)
    (followed : readOwed owed lowest highest first bytes = (some bits, rest)) :
    readChar byte bytes = (some (Char.ofNat bits), rest) := by
  simp only [readChar, announced, followed, Option.map_some]

/-- A character is read back from its bytes, whatever follows them. -/
theorem readChar_utf8EncodeChar_append (char : Char) :
    ∃ byte bytes, String.utf8EncodeChar char = byte :: bytes ∧
      ∀ rest, readChar byte (bytes ++ rest) = (some char, rest) := by
  have whole : Char.ofNat char.val.toNat = char := Char.ofNat_toNat char
  have valid : char.val.toNat < 0xd800 ∨ 0xdfff < char.val.toNat ∧ char.val.toNat < 0x110000 := char.valid
  unfold String.utf8EncodeChar
  generalize char.val.toNat = number at *
  subst whole
  simp only
  split
  · next small => exact ⟨_, _, rfl, fun rest => readChar_eq (leadByte?_of_one (by omega)) rfl⟩
  split
  · next large small =>
      have bits : number / 64 % 32 * 64 + number % 64 = number := by omega
      refine ⟨_, _, rfl, fun rest => readChar_eq (leadByte?_of_two (by omega) (by omega)) ?_⟩
      refine (readOwed_cons_later (by omega) 0 _ rest).trans ?_
      rw [bits, readOwed]
  split
  · next large small =>
      have bits : (number / 4096 % 16 * 64 + number / 64 % 64) * 64 + number % 64 = number := by omega
      refine ⟨_, _, rfl, fun rest => readChar_eq (leadByte?_of_three (by omega)) ?_⟩
      refine (readOwed_cons (by omega) (by split <;> simp; omega) (by split <;> (simp; omega)) 1 _
        _).trans ?_
      refine (readOwed_cons_later (by omega) 0 _ rest).trans ?_
      rw [bits, readOwed]
  · next large =>
      have bits : ((number / 262144 % 8 * 64 + number / 4096 % 64) * 64 + number / 64 % 64) * 64 +
          number % 64 = number := by omega
      refine ⟨_, _, rfl, fun rest => readChar_eq (leadByte?_of_four (by omega)) ?_⟩
      refine (readOwed_cons (by omega) (by split <;> simp; omega) (by split <;> (simp; omega)) 2 _
        _).trans ?_
      refine (readOwed_cons_later (by omega) 1 _ _).trans ?_
      refine (readOwed_cons_later (by omega) 0 _ rest).trans ?_
      rw [bits, readOwed]

/-- A character is read back from its bytes. -/
theorem decodeChars_utf8EncodeChar_append (char : Char) (rest : List UInt8) :
    decodeChars (String.utf8EncodeChar char ++ rest) = some char :: decodeChars rest := by
  obtain ⟨byte, bytes, written, read⟩ := readChar_utf8EncodeChar_append char
  rw [written, List.cons_append, decodeChars, read]

theorem decodeChars_encodeUtf8 (text : Text) : decodeChars (encodeUtf8 text) = text.map some := by
  induction text with
  | nil => rw [encodeUtf8, List.flatMap_nil, decodeChars, List.map_nil]
  | cons char text inductionHypothesis =>
      rw [encodeUtf8, List.flatMap_cons, decodeChars_utf8EncodeChar_append, ← encodeUtf8,
        inductionHypothesis, List.map_cons]

/-- A text is decoded from its bytes. -/
theorem decodeUtf8?_encodeUtf8 (text : Text) : decodeUtf8? (encodeUtf8 text) = some text := by
  rw [decodeUtf8?, decodeChars_encodeUtf8, List.mapM_map]
  show text.mapM pure = some text
  rw [List.mapM_pure, List.map_id']
  rfl

/-- Nothing is replaced in the bytes of a text. -/
theorem decodeLossy_encodeUtf8 (text : Text) : decodeLossy (encodeUtf8 text) = text := by
  rw [decodeLossy, decodeChars_encodeUtf8, List.map_map]
  exact List.map_id text

section Small

variable {byte : UInt8} {bytes : List UInt8} {char : Char}

/-- The bytes that are owed only add to the bits that are known, and the first of them adds its own lowest
bits. -/
theorem le_of_readOwed {owed bits result : Nat} {lowest highest : UInt8} {rest : List UInt8}
    (read : readOwed (owed + 1) lowest highest bits bytes = (some result, rest)) :
    (bits * 64 + (lowest.toNat - 0x80)) * 64 ^ owed ≤ result := by
  induction owed generalizing lowest highest bits bytes with
  | zero =>
      cases bytes with
      | nil => cases read
      | cons byte bytes =>
          rw [readOwed] at read
          split at read
          · next within =>
              simp only [readOwed, Prod.mk.injEq, Option.some.injEq] at read
              have atLeast := UInt8.le_iff_toNat_le.mp within.1
              omega
          · cases read
  | succ owed inductionHypothesis =>
      cases bytes with
      | nil => cases read
      | cons byte bytes =>
          rw [readOwed] at read
          split at read
          · next within =>
              have further := inductionHypothesis read
              have atLeast := UInt8.le_iff_toNat_le.mp within.1
              have more : (bits * 64 + (lowest.toNat - 0x80)) * 64 ≤
                  (bits * 64 + (byte.toNat - 0x80)) * 64 + (0x80 - 0x80) := by omega
              rw [Nat.pow_succ', ← Nat.mul_assoc]
              exact Nat.le_trans (Nat.mul_le_mul_right _ more) further
          · cases read

theorem toNat_ofNat_of_isValidChar {bits : Nat} (valid : bits.isValidChar) : (Char.ofNat bits).toNat = bits := by
  rw [Char.ofNat, dif_pos valid]
  rfl

theorem toNat_ofNat_toNat (byte : UInt8) : (Char.ofNat byte.toNat).toNat = byte.toNat := by
  have bound := byte.toNat_lt
  exact toNat_ofNat_of_isValidChar (Or.inl (by omega))

/-- Of bits that are too many for a single byte no character of a single byte is made. -/
theorem ofNat_ne_of_le {bits : Nat} (large : 0x80 ≤ bits) (small : char.toNat < 0x80)
    (nonzero : char ≠ '\x00') : Char.ofNat bits ≠ char := by
  rintro rfl
  by_cases valid : bits.isValidChar
  · rw [toNat_ofNat_of_isValidChar valid] at small
    omega
  · rw [Char.ofNat, dif_neg valid] at nonzero
    exact nonzero rfl

/-- A sequence of several bytes has more bits than a single byte. -/
theorem exists_of_leadByte? {lead : LeadByte} (announced : leadByte? byte = some lead) :
    (lead.owed = 0 ∧ lead.bits = byte.toNat) ∨ ∃ owed, lead.owed = owed + 1 ∧
      0x80 ≤ (lead.bits * 64 + (lead.lowest.toNat - 0x80)) * 64 ^ owed := by
  unfold leadByte? at announced
  simp only [UInt8.lt_iff_toNat_lt, ← UInt8.toNat_inj] at announced
  split at announced
  · cases announced
    exact Or.inl ⟨rfl, rfl⟩
  split at announced
  · cases announced
  split at announced
  · next large _ =>
      cases announced
      refine Or.inr ⟨0, rfl, ?_⟩
      simp at large ⊢
      omega
  split at announced
  · next large _ =>
      cases announced
      refine Or.inr ⟨1, rfl, ?_⟩
      simp at large ⊢
      split <;> simp <;> omega
  split at announced
  · next large _ =>
      cases announced
      refine Or.inr ⟨2, rfl, ?_⟩
      simp at large ⊢
      split <;> simp <;> omega
  · cases announced

/-- A character of a single byte is read from this byte alone. -/
theorem eq_of_readChar (read : (readChar byte bytes).1 = some char) (small : char.toNat < 0x80)
    (nonzero : char ≠ '\x00') : Char.ofNat byte.toNat = char ∧ (readChar byte bytes).2 = bytes := by
  unfold readChar at read ⊢
  split at read
  · cases read
  · next lead announced =>
      obtain ⟨bits, found, made⟩ := Option.map_eq_some_iff.mp read
      rcases exists_of_leadByte? announced with ⟨alone, known⟩ | ⟨owed, more, large⟩
      · rw [alone, readOwed] at found ⊢
        obtain rfl := Option.some.inj found
        exact ⟨known ▸ made, rfl⟩
      · rw [more] at found
        have bound := le_of_readOwed (Prod.ext found rfl)
        exact absurd made (ofNat_ne_of_le (Nat.le_trans large bound) small nonzero)

/-- A character of a single byte in a decoded text comes from this byte. -/
theorem exists_of_mem_decodeChars (member : some char ∈ decodeChars bytes) (small : char.toNat < 0x80)
    (nonzero : char ≠ '\x00') : ∃ byte ∈ bytes, Char.ofNat byte.toNat = char := by
  induction bytes using decodeChars.induct with
  | case1 => simp [decodeChars] at member
  | case2 byte bytes inductionHypothesis =>
      rw [decodeChars, List.mem_cons] at member
      rcases member with here | behind
      · exact ⟨byte, List.mem_cons_self, (eq_of_readChar here.symm small nonzero).1⟩
      · obtain ⟨other, inside, same⟩ := inductionHypothesis behind
        exact ⟨other, List.mem_cons_of_mem byte ((suffix_of_readChar byte bytes).subset inside), same⟩

theorem utf8EncodeChar_ofNat (small : byte.toNat < 0x80) :
    String.utf8EncodeChar (Char.ofNat byte.toNat) = [byte] := by
  have value : (Char.ofNat byte.toNat).val.toNat = byte.toNat := toNat_ofNat_toNat byte
  rw [String.utf8EncodeChar, value, if_pos (by omega), UInt8.ofNat_toNat]

/-- A decoded text of characters of single bytes has the bytes that it has been decoded from. -/
theorem encodeUtf8_decodeLossy (small : ∀ char ∈ decodeLossy bytes, char.toNat < 0x80 ∧ char ≠ '\x00') :
    encodeUtf8 (decodeLossy bytes) = bytes := by
  induction bytes using decodeChars.induct with
  | case1 => rw [decodeLossy, decodeChars, List.map_nil, encodeUtf8, List.flatMap_nil]
  | case2 byte bytes inductionHypothesis =>
      rw [decodeLossy, decodeChars, List.map_cons, ← decodeLossy] at small ⊢
      obtain ⟨⟨first, nonzero⟩, others⟩ := List.forall_mem_cons.mp small
      cases read : (readChar byte bytes).1 with
      | none =>
          rw [read] at first
          contradiction
      | some char =>
          rw [read, Option.getD_some] at first nonzero
          obtain ⟨rfl, rest⟩ := eq_of_readChar read first nonzero
          rw [rest] at inductionHypothesis others ⊢
          rw [encodeUtf8, List.flatMap_cons, ← encodeUtf8, inductionHypothesis others, Option.getD_some,
            utf8EncodeChar_ofNat (toNat_ofNat_toNat byte ▸ first)]
          rfl

theorem decodeLossy_ne_nil (some : bytes ≠ []) : decodeLossy bytes ≠ [] := by
  obtain ⟨byte, bytes, rfl⟩ := List.exists_cons_of_ne_nil some
  simp [decodeLossy, decodeChars]

end Small

end BranchCatalog.Text
