import StepStream.Error
import StepStream.Line.Shape
import StepStream.Text.Numeral

/-!
The lines that a server sends: the step it has reached, answer sets, its request for
input, the end of a step, and reports.
-/

namespace StepStream.Response

set_option autoImplicit false

open Text

inductive Line where
  | step (number : Nat)
  /-- Atoms with spaces between them. -/
  | answer (atoms : List Text)
  | input
  | endOfStep
  | warning (text : Text)
  | error (text : Text)
  /-- `UNSAT at step N` -/
  | unsat (step : Nat)
  deriving DecidableEq, Repr

/-- Atoms, each with any number of spaces behind it. The first atom that could end does not
have to: an argument list reaches to any later parenthesis. -/
def answerShape : Pattern :=
  .plus (.seq StepStream.Line.atom (.star (StepStream.Line.char ' ')))

def numberAfter (lead line : Text) : Option Nat := do readNumeral (← afterLead lead line)

/-- The text behind `lead` without blanks around it, if there is any and it is one line. -/
def reportAfter (lead line : Text) : Option Text := do
  let text ← afterLead lead line
  if text ≠ [] ∧ text.all isInline then some (trim text) else none

def read? (line : Text) : Option Line :=
  ((numberAfter "Step: ".toList line).map .step)
    <|> (if answerShape.accepts line then some (.answer (words line)) else none)
    <|> (if line = "Input:".toList then some .input else none)
    <|> (if line = "End of Step.".toList then some .endOfStep else none)
    <|> ((reportAfter "Warning: ".toList line).map .warning)
    <|> ((reportAfter "Error: ".toList line).map .error)
    <|> ((numberAfter "UNSAT at step ".toList line).map .unsat)

def read (line : Text) : Except Error Line :=
  match read? line with
  | some kind => .ok kind
  | none => .error (.protocol (.unknownOutput line))

end StepStream.Response
