import Mathlib.Tactic.SplitIfs
import StepStream.Text.Utf8

/-!
Decoding undoes encoding, and a byte string that is no text is refused at the end of its
longest beginning that is one. What is well formed is said by the encoder alone.
-/

namespace StepStream.Text

set_option autoImplicit false

def BeginsWithCharacter (bytes : Bytes) : Prop :=
  ∃ character rest, bytes = String.utf8EncodeChar character ++ rest

/-- Whether the longest beginning that encodes a text has `count` bytes. -/
def ValidUpTo (bytes : Bytes) (count : Nat) : Prop :=
  (∃ text rest, bytes = utf8 text ++ rest ∧ (utf8 text).length = count) ∧
    ∀ text rest, bytes = utf8 text ++ rest → (utf8 text).length ≤ count

theorem size_of_lead_nat (lead : UInt8) :
    sizeOfLead lead =
      if lead.toNat ≤ 0x7F then 1
      else if lead.toNat ≤ 0xC1 then 0
      else if lead.toNat ≤ 0xDF then 2
      else if lead.toNat ≤ 0xEF then 3
      else if lead.toNat ≤ 0xF4 then 4
      else 0 := by
  simp only [sizeOfLead, UInt8.le_iff_toNat_le, UInt8.reduceToNat]

theorem is_continuation_iff (byte : UInt8) :
    isContinuation byte = true ↔ 0x80 ≤ byte.toNat ∧ byte.toNat ≤ 0xBF := by
  simp only [isContinuation, UInt8.le_iff_toNat_le, UInt8.reduceToNat, Bool.and_eq_true,
    decide_eq_true_eq]

theorem follows_lead_iff (lead second : UInt8) :
    followsLead lead second = true ↔
      (0x80 ≤ second.toNat ∧ second.toNat ≤ 0xBF) ∧
        (lead.toNat = 0xE0 → 0xA0 ≤ second.toNat) ∧
        (lead.toNat = 0xED → second.toNat ≤ 0x9F) ∧
        (lead.toNat = 0xF0 → 0x90 ≤ second.toNat) ∧
        (lead.toNat = 0xF4 → second.toNat ≤ 0x8F) := by
  simp only [followsLead, ← UInt8.toNat_inj, UInt8.reduceToNat]
  split_ifs <;>
    simp only [is_continuation_iff, UInt8.le_iff_toNat_le, UInt8.reduceToNat, Bool.and_eq_true,
      decide_eq_true_eq] <;>
    omega

theorem decode_from_one {lead : UInt8} (size : sizeOfLead lead = 1) (offset : Nat)
    (before : Text) (rest : Bytes) :
    decodeFrom offset before (lead :: rest) =
      decodeFrom (offset + 1) (assemble lead.toNat [] :: before) rest := by
  rw [decodeFrom.eq_def]
  simp only [size]

theorem decode_from_two {lead second : UInt8} (size : sizeOfLead lead = 2)
    (follows : followsLead lead second = true) (offset : Nat) (before : Text) (rest : Bytes) :
    decodeFrom offset before (lead :: second :: rest) =
      decodeFrom (offset + 2) (assemble (lead.toNat % 32) [second] :: before) rest := by
  rw [decodeFrom.eq_def]
  simp only [size, follows, if_true]

theorem decode_from_three {lead second third : UInt8} (size : sizeOfLead lead = 3)
    (follows : followsLead lead second = true) (continues : isContinuation third = true)
    (offset : Nat) (before : Text) (rest : Bytes) :
    decodeFrom offset before (lead :: second :: third :: rest) =
      decodeFrom (offset + 3) (assemble (lead.toNat % 16) [second, third] :: before) rest := by
  rw [decodeFrom.eq_def]
  simp only [size, follows, continues, if_true]

theorem decode_from_four {lead second third fourth : UInt8} (size : sizeOfLead lead = 4)
    (follows : followsLead lead second = true) (continues : isContinuation third = true)
    (ends : isContinuation fourth = true) (offset : Nat) (before : Text) (rest : Bytes) :
    decodeFrom offset before (lead :: second :: third :: fourth :: rest) =
      decodeFrom (offset + 4)
        (assemble (lead.toNat % 8) [second, third, fourth] :: before) rest := by
  rw [decodeFrom.eq_def]
  simp only [size, follows, continues, ends, if_true]

theorem to_nat_of_small (value : Nat) (small : value < 256) :
    (UInt8.ofNat value).toNat = value := by
  rw [UInt8.toNat_ofNat']
  omega

theorem code_of_char {code : Nat} (valid : code.isValidChar) :
    (Char.ofNat code).val.toNat = code := by
  rw [Char.ofNat, dif_pos valid]
  rfl

theorem decode_from_character (offset : Nat) (before : Text) (character : Char) (rest : Bytes) :
    decodeFrom offset before (String.utf8EncodeChar character ++ rest) =
      decodeFrom (offset + (String.utf8EncodeChar character).length)
        (character :: before) rest := by
  have valid : character.toNat.isValidChar := character.valid
  have same : Char.ofNat character.toNat = character := Char.ofNat_toNat character
  generalize character.toNat = code at valid same
  subst same
  simp only [String.utf8EncodeChar, code_of_char valid]
  unfold Nat.isValidChar at valid
  split_ifs with one two three
  · have lead := to_nat_of_small code (by omega)
    rw [List.singleton_append, decode_from_one]
    · simp only [assemble, List.foldl_nil, lead, List.length_singleton]
    · rw [size_of_lead_nat, lead, if_pos one]
  · have lead := to_nat_of_small (code / 64 % 32 + 0xC0) (by omega)
    have second := to_nat_of_small (code % 64 + 0x80) (by omega)
    have value : (code / 64 % 32 + 0xC0) % 32 * 64 + (code % 64 + 0x80) % 64 = code := by
      omega
    rw [List.cons_append, List.singleton_append, decode_from_two]
    · simp only [assemble, List.foldl_cons, List.foldl_nil, lead, second, value,
        List.length_cons, List.length_nil, Nat.zero_add, Nat.reduceAdd]
    · rw [size_of_lead_nat, lead]
      split_ifs <;> omega
    · rw [follows_lead_iff, lead, second]
      omega
  · have lead := to_nat_of_small (code / 4096 % 16 + 0xE0) (by omega)
    have second := to_nat_of_small (code / 64 % 64 + 0x80) (by omega)
    have third := to_nat_of_small (code % 64 + 0x80) (by omega)
    have value : ((code / 4096 % 16 + 0xE0) % 16 * 64 + (code / 64 % 64 + 0x80) % 64) * 64 +
        (code % 64 + 0x80) % 64 = code := by
      omega
    rw [List.cons_append, List.cons_append, List.singleton_append, decode_from_three]
    · simp only [assemble, List.foldl_cons, List.foldl_nil, lead, second, third, value,
        List.length_cons, List.length_nil, Nat.zero_add, Nat.reduceAdd]
    · rw [size_of_lead_nat, lead]
      split_ifs <;> omega
    · rw [follows_lead_iff, lead, second]
      omega
    · rw [is_continuation_iff, third]
      omega
  · have lead := to_nat_of_small (code / 262144 % 8 + 0xF0) (by omega)
    have second := to_nat_of_small (code / 4096 % 64 + 0x80) (by omega)
    have third := to_nat_of_small (code / 64 % 64 + 0x80) (by omega)
    have fourth := to_nat_of_small (code % 64 + 0x80) (by omega)
    have value : (((code / 262144 % 8 + 0xF0) % 8 * 64 + (code / 4096 % 64 + 0x80) % 64) * 64 +
        (code / 64 % 64 + 0x80) % 64) * 64 + (code % 64 + 0x80) % 64 = code := by
      omega
    rw [List.cons_append, List.cons_append, List.cons_append, List.singleton_append,
      decode_from_four]
    · simp only [assemble, List.foldl_cons, List.foldl_nil, lead, second, third, fourth, value,
        List.length_cons, List.length_nil, Nat.zero_add, Nat.reduceAdd]
    · rw [size_of_lead_nat, lead]
      split_ifs <;> omega
    · rw [follows_lead_iff, lead, second]
      omega
    · rw [is_continuation_iff, third]
      omega
    · rw [is_continuation_iff, fourth]
      omega

theorem encode_one {lead : UInt8} (size : sizeOfLead lead = 1) :
    String.utf8EncodeChar (assemble lead.toNat []) = [lead] := by
  have small : lead.toNat ≤ 0x7F := by
    rw [size_of_lead_nat] at size
    split_ifs at size <;> omega
  have valid : lead.toNat.isValidChar := by
    unfold Nat.isValidChar
    omega
  simp only [String.utf8EncodeChar, assemble, List.foldl_nil, code_of_char valid, if_pos small,
    UInt8.ofNat_toNat]

theorem encode_two {lead second : UInt8} (size : sizeOfLead lead = 2)
    (follows : followsLead lead second = true) :
    String.utf8EncodeChar (assemble (lead.toNat % 32) [second]) = [lead, second] := by
  have bounds : 0xC2 ≤ lead.toNat ∧ lead.toNat ≤ 0xDF := by
    rw [size_of_lead_nat] at size
    split_ifs at size <;> omega
  rw [follows_lead_iff] at follows
  have valid : (lead.toNat % 32 * 64 + second.toNat % 64).isValidChar := by
    unfold Nat.isValidChar
    omega
  simp only [String.utf8EncodeChar, assemble, List.foldl_cons, List.foldl_nil, code_of_char valid]
  rw [if_neg (by omega), if_pos (by omega)]
  simp only [List.cons.injEq, and_true, ← UInt8.toNat_inj, UInt8.toNat_ofNat']
  omega

theorem encode_three {lead second third : UInt8} (size : sizeOfLead lead = 3)
    (follows : followsLead lead second = true) (continues : isContinuation third = true) :
    String.utf8EncodeChar (assemble (lead.toNat % 16) [second, third]) =
      [lead, second, third] := by
  have bounds : 0xE0 ≤ lead.toNat ∧ lead.toNat ≤ 0xEF := by
    rw [size_of_lead_nat] at size
    split_ifs at size <;> omega
  rw [follows_lead_iff] at follows
  rw [is_continuation_iff] at continues
  have valid : ((lead.toNat % 16 * 64 + second.toNat % 64) * 64 +
      third.toNat % 64).isValidChar := by
    unfold Nat.isValidChar
    omega
  simp only [String.utf8EncodeChar, assemble, List.foldl_cons, List.foldl_nil, code_of_char valid]
  rw [if_neg (by omega), if_neg (by omega), if_pos (by omega)]
  simp only [List.cons.injEq, and_true, ← UInt8.toNat_inj, UInt8.toNat_ofNat']
  omega

theorem encode_four {lead second third fourth : UInt8} (size : sizeOfLead lead = 4)
    (follows : followsLead lead second = true) (continues : isContinuation third = true)
    (ends : isContinuation fourth = true) :
    String.utf8EncodeChar (assemble (lead.toNat % 8) [second, third, fourth]) =
      [lead, second, third, fourth] := by
  have bounds : 0xF0 ≤ lead.toNat ∧ lead.toNat ≤ 0xF4 := by
    rw [size_of_lead_nat] at size
    split_ifs at size <;> omega
  rw [follows_lead_iff] at follows
  rw [is_continuation_iff] at continues ends
  have valid : (((lead.toNat % 8 * 64 + second.toNat % 64) * 64 + third.toNat % 64) * 64 +
      fourth.toNat % 64).isValidChar := by
    unfold Nat.isValidChar
    omega
  simp only [String.utf8EncodeChar, assemble, List.foldl_cons, List.foldl_nil, code_of_char valid]
  rw [if_neg (by omega), if_neg (by omega), if_neg (by omega)]
  simp only [List.cons.injEq, and_true, ← UInt8.toNat_inj, UInt8.toNat_ofNat']
  omega

/-- Bytes either begin with a character or are refused at once. -/
theorem character_or_refused (offset : Nat) (before : Text) (bytes : Bytes)
    (nonempty : bytes ≠ []) :
    BeginsWithCharacter bytes ∨
      ∃ size, decodeFrom offset before bytes = .error ⟨offset, size⟩ := by
  fun_cases decodeFrom offset before bytes with
  | case1 => exact absurd rfl nonempty
  | case2 lead rest size => exact .inl ⟨_, rest, by rw [encode_one size]; rfl⟩
  | case4 lead size second rest follows =>
      exact .inl ⟨_, rest, by rw [encode_two size follows]; rfl⟩
  | case8 lead size second follows third rest continues =>
      exact .inl ⟨_, rest, by rw [encode_three size follows continues]; rfl⟩
  | case14 lead size second follows third continues fourth rest ends =>
      exact .inl ⟨_, rest, by rw [encode_four size follows continues ends]; rfl⟩
  | _ => exact .inr ⟨_, rfl⟩

theorem utf8_cons (character : Char) (text : Text) :
    utf8 (character :: text) = String.utf8EncodeChar character ++ utf8 text := rfl

theorem byte_mem_character {byte : UInt8} (small : byte.toNat < 128) (character : Char) :
    byte ∈ String.utf8EncodeChar character ↔ character.toNat = byte.toNat := by
  rw [← Char.toNat_val, String.utf8EncodeChar]
  split_ifs <;>
    simp only [List.mem_cons, List.not_mem_nil, or_false, ← UInt8.toNat_inj,
      UInt8.toNat_ofNat'] <;>
    omega

theorem byte_mem_utf8 {byte : UInt8} {character : Char} (small : byte.toNat < 128)
    (same : character.toNat = byte.toNat) (text : Text) :
    byte ∈ utf8 text ↔ character ∈ text := by
  simp only [utf8, List.mem_flatMap, byte_mem_character small, ← same, Char.toNat_inj,
    exists_eq_right]

theorem length_le_utf8 (text : Text) : text.length ≤ (utf8 text).length := by
  induction text with
  | nil => exact Nat.le_refl _
  | cons character text induction =>
      have positive := character.utf8Size_pos
      rw [utf8_cons, List.length_append, String.length_utf8EncodeChar, List.length_cons]
      omega

theorem decode_from_text (offset : Nat) (before text : Text) (rest : Bytes) :
    decodeFrom offset before (utf8 text ++ rest) =
      decodeFrom (offset + (utf8 text).length) (text.reverse ++ before) rest := by
  induction text generalizing offset before with
  | nil => rfl
  | cons character text induction =>
      rw [utf8_cons, List.append_assoc, decode_from_character, induction, List.length_append,
        List.reverse_cons, List.append_assoc, Nat.add_assoc]
      rfl

theorem decode_from_outcome (offset : Nat) (before : Text) (bytes : Bytes) :
    ∃ text rest, bytes = utf8 text ++ rest ∧
      (rest = [] ∧ decodeFrom offset before bytes = .ok (before.reverse ++ text) ∨
        ∃ size, decodeFrom offset before bytes =
          .error ⟨offset + (utf8 text).length, size⟩) := by
  generalize size : bytes.length = length
  induction length using Nat.strongRecOn generalizing offset before bytes with
  | ind length induction =>
      by_cases front : BeginsWithCharacter bytes
      · obtain ⟨character, tail, rfl⟩ := front
        have positive := character.utf8Size_pos
        rw [List.length_append, String.length_utf8EncodeChar] at size
        obtain ⟨text, rest, rfl, outcome⟩ :=
          induction tail.length (by omega)
            (offset + (String.utf8EncodeChar character).length) (character :: before) tail rfl
        refine ⟨character :: text, rest, by rw [utf8_cons, List.append_assoc], ?_⟩
        rw [decode_from_character, utf8_cons, List.length_append, ← Nat.add_assoc]
        simpa only [List.reverse_cons, List.append_assoc, List.singleton_append] using outcome
      · refine ⟨[], bytes, rfl, ?_⟩
        by_cases nonempty : bytes = []
        · exact .inl ⟨nonempty, by rw [nonempty, decodeFrom.eq_def, List.append_nil]⟩
        · exact .inr ((character_or_refused offset before bytes nonempty).resolve_left front)

/-- Decoding yields exactly the text that the bytes encode. -/
theorem decode_eq_ok_iff (bytes : Bytes) (text : Text) :
    decode bytes = .ok text ↔ utf8 text = bytes := by
  constructor
  · intro decoded
    obtain ⟨found, rest, rfl, ⟨rfl, outcome⟩ | ⟨size, outcome⟩⟩ := decode_from_outcome 0 [] bytes
    · rw [decode, outcome] at decoded
      cases decoded
      rw [List.append_nil]
      rfl
    · rw [decode, outcome] at decoded
      cases decoded
  · intro same
    subst same
    have whole := decode_from_text 0 [] text []
    rw [List.append_nil] at whole
    rw [decode, whole, decodeFrom.eq_def, List.append_nil, List.reverse_reverse]

theorem decode_utf8 (text : Text) : decode (utf8 text) = .ok text :=
  (decode_eq_ok_iff _ _).2 rfl

/-- What is refused is refused at the end of its longest beginning that is a text. -/
theorem valid_up_to_of_refused {bytes : Bytes} {malformed : Malformed}
    (refused : decode bytes = .error malformed) : ValidUpTo bytes malformed.validUpTo := by
  constructor
  · obtain ⟨text, rest, rfl, ⟨rfl, outcome⟩ | ⟨size, outcome⟩⟩ := decode_from_outcome 0 [] bytes
    · rw [decode, outcome] at refused
      cases refused
    · rw [decode, outcome] at refused
      cases refused
      exact ⟨text, rest, rfl, (Nat.zero_add _).symm⟩
  · intro text rest same
    subst same
    rw [decode, decode_from_text, Nat.zero_add] at refused
    obtain ⟨found, _, _, ⟨_, outcome⟩ | ⟨size, outcome⟩⟩ :=
      decode_from_outcome (utf8 text).length (text.reverse ++ []) rest
    · rw [outcome] at refused
      cases refused
    · rw [outcome] at refused
      cases refused
      exact Nat.le_add_right _ _

end StepStream.Text
