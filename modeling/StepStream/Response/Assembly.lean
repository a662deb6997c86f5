import StepStream.Answer.Grouping
import StepStream.Response.Line
import StepStream.Text.Lines

/-!
Assembly of step results. The lines of the messages are queued and read one after the
other. Answer sets are gathered until a line ends the step; how lines are distributed over
messages does not matter.
-/

namespace StepStream.Response

set_option autoImplicit false

inductive Outcome where
  | satisfiable
  | unsatisfiable (step : Nat)
  deriving DecidableEq, Repr

structure StepResult where
  step : Option Nat
  answerSets : List AnswerSet
  outcome : Outcome
  deriving DecidableEq, Repr

def StepResult.isUnsatisfiable (result : StepResult) : Bool :=
  match result.outcome with
  | .satisfiable => false
  | .unsatisfiable _ => true

/-- Lines that wait to be read, the step announced last, and the answer sets since the last
result. -/
structure Assembly where
  queue : List Text
  step : Option Nat
  gathered : List AnswerSet
  deriving DecidableEq, Repr

namespace Assembly

def empty : Assembly := ⟨[], none, []⟩

def push (assembly : Assembly) (message : Text) : Assembly :=
  { assembly with queue := assembly.queue ++ Text.lines message }

def hasPending (assembly : Assembly) : Bool := !assembly.queue.isEmpty

def finish (assembly : Assembly) (outcome : Outcome) : StepResult × Assembly :=
  (⟨assembly.step, assembly.gathered, outcome⟩, { assembly with gathered := [] })

/-- What one line does: it yields a result, is a fault, or is only taken note of. -/
def absorb (assembly : Assembly) (line : Text) : Option (Except Error StepResult) × Assembly :=
  match read line with
  | .error fault => (some (.error fault), assembly)
  | .ok (.step number) => (none, { assembly with step := some number })
  | .ok (.answer atoms) =>
      (none, { assembly with gathered := assembly.gathered ++ [⟨assembly.step, atoms⟩] })
  | .ok .input => (none, assembly)
  | .ok .endOfStep =>
      let (result, assembly) := assembly.finish .satisfiable
      (some (.ok result), assembly)
  | .ok (.warning text) => (some (.error (.server (.warning text))), assembly)
  | .ok (.error text) => (some (.error (.server (.error text))), assembly)
  | .ok (.unsat step) =>
      let (result, assembly) := assembly.finish (.unsatisfiable step)
      (some (.ok result), assembly)

/-- Reads queued lines up to the first that yields a result or a fault, other than the
faults that are skipped. -/
def nextFrom (skips : Error → Bool) (assembly : Assembly) :
    List Text → Option (Except Error StepResult) × Assembly
  | [] => (none, { assembly with queue := [] })
  | line :: rest =>
      match assembly.absorb line with
      | (none, assembly) => assembly.nextFrom skips rest
      | (some (.ok result), assembly) => (some (.ok result), { assembly with queue := rest })
      | (some (.error fault), assembly) =>
          if skips fault then assembly.nextFrom skips rest
          else (some (.error fault), { assembly with queue := rest })

def next (assembly : Assembly) : Option (Except Error StepResult) × Assembly :=
  assembly.nextFrom (fun _ => false) assembly.queue

def nextUnwarned (assembly : Assembly) : Option (Except Error StepResult) × Assembly :=
  assembly.nextFrom Error.isRecoverable assembly.queue

end Assembly

end StepStream.Response
