import StepStream.Pattern.Basic
import StepStream.Text.DecimalDigit
import StepStream.Text.Numeral

/-!
The step argument of a query: adding it to the final atom of a clause, and finding it
there. Both look at the text only.
-/

namespace StepStream.QueryClause

set_option autoImplicit false

open Text

/-- The statement of a line without its comment, its final period, and the blanks around
that period. -/
def statement (line : Text) : Text :=
  let uncommented := trimEnd (line.takeWhile (· ≠ '%'))
  trimEnd (if uncommented.getLast? = some '.' then uncommented.dropLast else uncommented)

/-- The clause with `step` as a further argument of its final atom. The comment is
dropped. -/
def appendStep (line : Text) (step : Nat) : Text :=
  let clause := statement line
  if clause.getLast? = some ')' then
    clause.dropLast ++ [','] ++ showNumeral step ++ ").\n".toList
  else clause ++ ['('] ++ showNumeral step ++ ").\n".toList

def endsClause (text : Text) : Bool :=
  match trimStart text with
  | [] => true
  | '%' :: comment => comment.all isInline
  | _ => false

/-- The digits of a last argument that begins here, if the atom and the clause end behind
it. Digits of every script count. -/
def finalDigits (text : Text) : Option Text :=
  let (digits, rest) := (trimStart text).span isDecimalDigit
  if digits.isEmpty then none
  else do
    let closed ← afterLead [')'] (trimStart rest)
    let ended ← afterLead ['.'] (trimStart closed)
    if endsClause ended then some digits else none

def argumentStarts : Text → List Text
  | [] => []
  | character :: rest =>
      if character = '(' || character = ',' then rest :: argumentStarts rest
      else argumentStarts rest

/-- The text behind the first parenthesis that stands directly behind a name. `named` says
whether the characters read so far end with a name. -/
def behindFirstName (named : Bool) : Text → Option Text
  | [] => none
  | character :: rest =>
      if character = '(' && named then some rest
      else if CharClass.isNameStart character then behindFirstName true rest
      else if CharClass.isNamePart character then behindFirstName named rest
      else behindFirstName false rest

/-- The number that ends the final atom. Of the places where an argument begins, those
behind a further parenthesis or comma come first, from left to right, and the place behind
the first parenthesis last. The first one that ends the clause decides. -/
def lastStep (line : Text) : Option Nat := do
  let arguments ← behindFirstName false (trimEnd line)
  let digits ← (argumentStarts arguments ++ [arguments]).findSome? finalDigits
  readNumeral digits

end StepStream.QueryClause
