import StepStream.Line.Shape
import StepStream.Text.Numeral

/-!
The time argument of an atom: the number that stands last among its arguments, if a
number stands there.
-/

namespace StepStream.Atom

set_option autoImplicit false

open Text

def afterName (atom : Text) : Option Text :=
  let unsigned := (afterLead ['-'] atom).getD atom
  match unsigned with
  | first :: rest =>
      if CharClass.isNameStart first then some (rest.dropWhile CharClass.isNamePart) else none
  | [] => none

def argumentText (atom : Text) : Option Text := do
  let opened ← afterLead ['('] (← afterName atom)
  if opened.getLast? = some ')' then some opened.dropLast else none

/-- The last of the arguments, which the last comma separates from the others. The others
may not contain a newline. -/
def lastArgument (arguments : Text) : Option Text :=
  match splitLast ',' arguments with
  | none => some arguments
  | some (others, last) => if others.all isInline then some last else none

/-- The time argument of an atom. Blanks may stand before it, but not behind it. -/
def trailingStep (atom : Text) : Option Nat := do
  readNumeral (trimStart (← lastArgument (← argumentText atom)))

end StepStream.Atom
