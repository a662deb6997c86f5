import StepStream.Error
import StepStream.Text.Utf8

/-!
Messages on the wire. A message is a text in UTF-8 and ends in a NUL byte. A decoder holds
the bytes that have arrived and not yet been delivered; bytes may arrive in any portions.
-/

namespace StepStream.Message

set_option autoImplicit false

open Text (Bytes)

def delimiter : UInt8 := 0

def encode (text : Text) : Bytes := Text.utf8 text ++ [delimiter]

def decode (bytes : Bytes) : Except Error Text :=
  match Text.decode bytes with
  | .ok text => .ok text
  | .error malformed => .error (.protocol (.invalidUtf8 malformed.validUpTo))

def cut (bytes : Bytes) : Option (Bytes × Bytes) :=
  match bytes.span (· != delimiter) with
  | (_, []) => none
  | (message, _ :: rest) => some (message, rest)

/-- What has arrived and not been delivered. -/
structure Decoder where
  pending : Bytes
  deriving DecidableEq, Repr

namespace Decoder

def empty : Decoder := ⟨[]⟩

def push (decoder : Decoder) (bytes : Bytes) : Decoder := ⟨decoder.pending ++ bytes⟩

/-- The next complete message, which leaves the decoder even if it is no text. -/
def next (decoder : Decoder) : Option (Except Error Text) × Decoder :=
  match cut decoder.pending with
  | none => (none, decoder)
  | some (message, rest) => (some (decode message), ⟨rest⟩)

def hasResidue (decoder : Decoder) : Bool := !decoder.pending.isEmpty

/-- Everything that is left, as one text, if anything is left. -/
def takeResidue (decoder : Decoder) : Option (Except Error Text) × Decoder :=
  if decoder.hasResidue then (some (decode decoder.pending), empty) else (none, decoder)

end Decoder

end StepStream.Message
