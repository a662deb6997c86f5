/-!
The kinds of lines that a step stream consists of: directives, which begin with `#`,
clauses, comments, and lines that are none of these.
-/

namespace StepStream

set_option autoImplicit false

/-- The kind of an input line, with the numbers that the line carries. -/
inductive LineKind where
  /-- `#step N.` or `#step N : W.`, the beginning of a step. -/
  | step (number : Nat) (window : Option Nat)
  | endStep
  | cumulative
  /-- `#volatile.` or `#volatile : W.`, for clauses that lapse after some steps. -/
  | volatile (window : Option Nat)
  /-- `#forget N.` or `#forget N..M.` -/
  | forget (first : Nat) (last : Option Nat)
  | assert
  | retract
  | stop
  /-- `#istep.` or `#istep N.`, for the next step of a query session. -/
  | incrementStep (target : Option Nat)
  | fact
  | integrity
  | rule
  | commentOrBlank
  | unrecognized
  deriving DecidableEq, Repr

namespace LineKind

def isClause : LineKind → Bool
  | fact | integrity | rule => true
  | _ => false

/-- The lines that are sent to the server as part of a fragment. -/
def isProgramLine : LineKind → Bool
  | step _ _ | cumulative | volatile _ | forget _ _ | assert | retract => true
  | fact | integrity | rule => true
  | _ => false

end LineKind

end StepStream
