import StepStream.Pattern.Basic

/-!
The shapes of clauses and of line ends as patterns. An argument list is not looked into:
it is any text between the parenthesis behind a name and a later closing one, so the
shapes admit more than well-formed clauses.
-/

namespace StepStream.Line

set_option autoImplicit false

open Pattern

def blanks : Pattern := .star (.one .blank)

def char (character : Char) : Pattern := .one (.exactly character)

/-- What may stand behind the final period: blanks and one comment. -/
def tail : Pattern := .seq blanks (opt (.seq (char '%') (.star (.one .inline))))

def name : Pattern := .seq (.one .nameStart) (.star (.one .namePart))

def arguments : Pattern := sequence [char '(', plus (.one .inline), char ')']

/-- A name with an optional sign for classical negation and optional arguments. -/
def atom : Pattern := sequence [opt (char '-'), name, opt arguments]

def bodyLiteral : Pattern :=
  .seq (opt (.seq (literal "not".toList) (plus (.one .blank)))) atom

/-- Literals with blanks around them, each followed by a comma or not. -/
def body : Pattern := plus (sequence [blanks, bodyLiteral, blanks, opt (char ','), blanks])

def neck : Pattern := literal ":-".toList

def period : Pattern := char '.'

def integrityShape : Pattern := sequence [blanks, neck, body, period, tail]

def ruleShape : Pattern := sequence [blanks, atom, blanks, neck, body, period, tail]

def factShape : Pattern := sequence [atom, period, tail]

/-- The rest of an `#assert` or `#retract` line behind its keyword. -/
def termShape : Pattern :=
  sequence [.star (char ' '), char ':', plus (.one .inline), period, tail]

end StepStream.Line
