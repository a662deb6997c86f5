import StepStream.Line.Directive
import StepStream.Text.Lines

/-!
The kind of an input line. A line that begins with `#` is a directive or nothing. Of the
clause shapes a line can have several, and the first of integrity constraint, rule and
fact decides.
-/

namespace StepStream.Line

set_option autoImplicit false

def readClause (text : Text) : LineKind :=
  if integrityShape.accepts text then .integrity
  else if ruleShape.accepts text then .rule
  else if factShape.accepts text then .fact
  else if tail.accepts text then .commentOrBlank
  else .unrecognized

/-- The kind of a line, whose end does not matter. -/
def classify (line : Text) : LineKind :=
  let text := Text.stripLineEnd line
  if text.head? = some '#' then (readDirective text).getD .unrecognized else readClause text

end StepStream.Line
