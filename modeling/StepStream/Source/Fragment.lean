import StepStream.Text.Lines

/-!
Fragments: the program text of one step. On the wire a fragment is its lines, any further
lines that the session adds, and the directive that ends the step.
-/

namespace StepStream

set_option autoImplicit false

/-- The lines of one step, each with its newline. -/
structure Fragment where
  lines : List Text
  deriving DecidableEq, Repr

namespace Fragment

def ofLines (lines : List Text) : Fragment := ⟨lines.map Text.completeLine⟩

def isEmpty (fragment : Fragment) : Bool := fragment.lines.isEmpty

def length (fragment : Fragment) : Nat := fragment.lines.length

def endStep : Text := "#endstep.\n".toList

def stop : Text := "#stop.\n".toList

/-- The text of a fragment on the wire, with further lines behind its own. -/
def render (extra : List Text) (fragment : Fragment) : Text :=
  fragment.lines.flatten ++ extra.flatMap Text.completeLine ++ endStep

end Fragment

inductive StepInput where
  | fragment (fragment : Fragment)
  | stop
  deriving DecidableEq, Repr

def StepInput.isStop : StepInput → Bool
  | .fragment _ => false
  | .stop => true

end StepStream
