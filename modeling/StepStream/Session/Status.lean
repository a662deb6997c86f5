/-!
What the two sides of a session tell each other: whether an answer has arrived, whether
waiting for one has taken too long, whether the session is over, and the step counter.
-/

namespace StepStream

set_option autoImplicit false

structure Status where
  haveAnswerSet : Bool
  answerTimedOut : Bool
  exit : Bool
  step : Nat
  deriving DecidableEq, Repr

namespace Status

def initial : Status := ⟨false, false, false, 0⟩

def requestExit (status : Status) : Status := { status with exit := true }

/-- Forgets the last answer, because the next fragment is on its way. -/
def fragmentTaken (status : Status) : Status :=
  { status with haveAnswerSet := false, answerTimedOut := false }

end Status

end StepStream
