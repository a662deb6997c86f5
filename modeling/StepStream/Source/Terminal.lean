import StepStream.Error
import StepStream.Source.Fragment
import StepStream.Text.Lines
import StepStream.Text.Utf8

/-!
Input that is typed in. It is taken line by line, and a line that is no text is an error
of the call that meets it, after which the next line can still be read.
-/

namespace StepStream

set_option autoImplicit false

open Text (Bytes)

structure Terminal where
  lines : List Bytes
  deriving DecidableEq, Repr

namespace Terminal

def ofBytes (bytes : Bytes) : Terminal := ⟨Text.splitAfter 10 bytes⟩

def decodeLine (bytes : Bytes) : Except Error Text :=
  match Text.decode bytes with
  | .ok line => .ok line
  | .error _ => .error (.file (.other "stream did not contain valid UTF-8".toList))

end Terminal

/-- The answer of a source to a request for input: the input, the step counter afterwards,
and what has been written to prompt the user. -/
structure Supplied where
  input : Except Error StepInput
  step : Nat
  prompt : Text

end StepStream
