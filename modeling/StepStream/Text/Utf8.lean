import StepStream.Text.Basic

/-!
UTF-8. Decoding reads one character after the other and either yields the text or
says how many bytes at the front are well formed and what is wrong behind them.
-/

namespace StepStream.Text

set_option autoImplicit false

abbrev Bytes := List UInt8

def utf8 (text : Text) : Bytes := text.flatMap String.utf8EncodeChar

/-- Why a byte string is no text: its longest well-formed beginning has `validUpTo` bytes,
and behind it stand `size` bytes that no character begins with, or, if there is no size,
a character that breaks off at the end of the input. -/
structure Malformed where
  validUpTo : Nat
  size : Option Nat
  deriving DecidableEq, Repr

def isContinuation (byte : UInt8) : Bool := 0x80 ≤ byte && byte ≤ 0xBF

/-- How many bytes a character with this first byte has, or zero if no character begins so. -/
def sizeOfLead (lead : UInt8) : Nat :=
  if lead ≤ 0x7F then 1
  else if lead ≤ 0xC1 then 0
  else if lead ≤ 0xDF then 2
  else if lead ≤ 0xEF then 3
  else if lead ≤ 0xF4 then 4
  else 0

/-- Whether `second` may follow `lead`. The narrower ranges exclude long forms, surrogates
and numbers above the last code point. -/
def followsLead (lead second : UInt8) : Bool :=
  if lead = 0xE0 then 0xA0 ≤ second && second ≤ 0xBF
  else if lead = 0xED then 0x80 ≤ second && second ≤ 0x9F
  else if lead = 0xF0 then 0x90 ≤ second && second ≤ 0xBF
  else if lead = 0xF4 then 0x80 ≤ second && second ≤ 0x8F
  else isContinuation second

def assemble (high : Nat) (later : List UInt8) : Char :=
  Char.ofNat (later.foldl (fun code byte => code * 64 + byte.toNat % 64) high)

/-- Decodes the bytes at `offset`, with the characters before them in reverse order. -/
def decodeFrom (offset : Nat) (before : Text) : Bytes → Except Malformed Text
  | [] => .ok before.reverse
  | lead :: rest =>
      match sizeOfLead lead with
      | 1 => decodeFrom (offset + 1) (assemble lead.toNat [] :: before) rest
      | 2 =>
          match rest with
          | [] => .error ⟨offset, none⟩
          | second :: rest =>
              if followsLead lead second then
                decodeFrom (offset + 2) (assemble (lead.toNat % 32) [second] :: before) rest
              else .error ⟨offset, some 1⟩
      | 3 =>
          match rest with
          | [] => .error ⟨offset, none⟩
          | second :: rest =>
              if followsLead lead second then
                match rest with
                | [] => .error ⟨offset, none⟩
                | third :: rest =>
                    if isContinuation third then
                      decodeFrom (offset + 3)
                        (assemble (lead.toNat % 16) [second, third] :: before) rest
                    else .error ⟨offset, some 2⟩
              else .error ⟨offset, some 1⟩
      | 4 =>
          match rest with
          | [] => .error ⟨offset, none⟩
          | second :: rest =>
              if followsLead lead second then
                match rest with
                | [] => .error ⟨offset, none⟩
                | third :: rest =>
                    if isContinuation third then
                      match rest with
                      | [] => .error ⟨offset, none⟩
                      | fourth :: rest =>
                          if isContinuation fourth then
                            decodeFrom (offset + 4)
                              (assemble (lead.toNat % 8) [second, third, fourth] :: before) rest
                          else .error ⟨offset, some 3⟩
                    else .error ⟨offset, some 2⟩
              else .error ⟨offset, some 1⟩
      | _ => .error ⟨offset, some 1⟩

def decode (bytes : Bytes) : Except Malformed Text := decodeFrom 0 [] bytes

def Malformed.message (malformed : Malformed) : Text :=
  match malformed.size with
  | some size =>
      "invalid utf-8 sequence of ".toList ++ Nat.toDigits 10 size ++
        " bytes from index ".toList ++ Nat.toDigits 10 malformed.validUpTo
  | none =>
      "incomplete utf-8 byte sequence from index ".toList ++
        Nat.toDigits 10 malformed.validUpTo

end StepStream.Text
