import StepStream.Answer.Grouping
import StepStream.Error
import StepStream.Pattern.Basic

/-!
Carry-over. The instances of one predicate in the last answer set become constraints of
the next fragment, without their time argument.
-/

namespace StepStream

set_option autoImplicit false

/-- A predicate, and the constraints from the answer set that was seen last. -/
structure CarryOver where
  predicate : Text
  constraints : List Text
  deriving DecidableEq, Repr

namespace CarryOver

open Text

def isPredicate : Text → Bool
  | [] => false
  | first :: rest => CharClass.isNameStart first && rest.all CharClass.isNamePart

def ofPredicate (predicate : Text) : Except Error CarryOver :=
  if isPredicate predicate then .ok ⟨predicate, []⟩
  else .error (.configuration (.invalidPredicate predicate))

/-- An argument list without its last argument, if that is a numeral or nothing but
blanks. -/
def withoutTime (arguments : Text) : Text :=
  let (others, last) := (splitLast ',' arguments).getD ([], arguments)
  if last ≠ [] ∧ (trim last).all isDigit then others else arguments

/-- The arguments of an atom of the predicate, or nothing for other atoms. A bare name has
the empty argument list. -/
def argumentsOf (predicate atom : Text) : Option Text := do
  let rest ← afterLead predicate atom
  if rest = [] then some []
  else
    let opened ← afterLead ['('] rest
    if opened.getLast? = some ')' ∧ opened.dropLast.all isInline then some opened.dropLast
    else none

def constraint (predicate atom : Text) : Option Text :=
  (argumentsOf predicate atom).map fun arguments =>
    let kept := withoutTime arguments
    let carried := if kept = [] then predicate else predicate ++ ['('] ++ kept ++ [')']
    ":- not ".toList ++ carried ++ ['.']

def observe (carry : CarryOver) (answerSet : AnswerSet) : CarryOver :=
  { carry with constraints := answerSet.atoms.filterMap (constraint carry.predicate) }

end CarryOver

end StepStream
