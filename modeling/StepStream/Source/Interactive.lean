import StepStream.Line.Classify
import StepStream.Source.Terminal

/-!
Stream input from a terminal. Program lines are gathered until `#endstep.`; other lines
are refused and asked for again. `#stop.` and the end of the input first send what has been
gathered.
-/

namespace StepStream

set_option autoImplicit false

/-- A reader of stream input. Once the lines before a stop have been handed out, the stop
is pending. -/
structure Interactive where
  terminal : Terminal
  pendingStop : Bool
  deriving DecidableEq, Repr

namespace Interactive

def prompt : Text :=
  "Please enter new information, '#endstep.' on its own line to end:\n".toList

inductive Effect where
  | gather (lines : List Text)
  | askAgain
  | finish (input : StepInput) (pendingStop : Bool)

/-- The input when a stop is reached: the lines so far, with the stop pending, or the stop
itself if there are none. -/
def atStop (lines : List Text) : StepInput × Bool :=
  if lines.isEmpty then (.stop, false) else (.fragment (Fragment.ofLines lines), true)

def absorb (lines : List Text) (line : Text) : Effect :=
  let kind := Line.classify line
  if kind.isProgramLine then .gather (lines ++ [line])
  else match kind with
    | .commentOrBlank => .gather lines
    | .endStep => .finish (.fragment (Fragment.ofLines lines)) false
    | .stop => .finish (atStop lines).1 (atStop lines).2
    | _ => .askAgain

def gatherFrom (lines : List Text) (prompts : Text) :
    List Text.Bytes → (Except Error StepInput × Text) × Interactive
  | [] =>
      ((.ok (atStop lines).1, prompts), ⟨⟨[]⟩, (atStop lines).2⟩)
  | bytes :: rest =>
      match Terminal.decodeLine bytes with
      | .error error => ((.error error, prompts), ⟨⟨rest⟩, false⟩)
      | .ok line =>
          match absorb lines line with
          | .gather lines => gatherFrom lines prompts rest
          | .askAgain => gatherFrom lines (prompts ++ prompt) rest
          | .finish input pendingStop => ((.ok input, prompts), ⟨⟨rest⟩, pendingStop⟩)

/-- Reads the next input. A pending stop is handed out without reading. -/
def next (reader : Interactive) (step : Nat) : Supplied × Interactive :=
  if reader.pendingStop then (⟨.ok .stop, step, []⟩, reader)
  else
    let ((input, prompts), reader) := gatherFrom [] prompt reader.terminal.lines
    (⟨input, step, prompts⟩, reader)

end Interactive

end StepStream
