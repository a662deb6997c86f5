import StepStream.Answer.Table
import StepStream.Error
import StepStream.Json
import StepStream.Response.Assembly

/-!
What a session shows its user: the answer sets of every step and the final error, as text
or as JSON documents.
-/

namespace StepStream

set_option autoImplicit false

inductive OutputFormat where
  | text
  | json
  deriving DecidableEq, Repr

namespace OutputFormat

/-- The format with this name. Case does not matter, and every other name means text. -/
def ofName (name : Text) : OutputFormat :=
  if name.map Char.toLower = "json".toList then .json else .text

end OutputFormat

namespace Transcript

open Response

def groupName : TimeKey → Text
  | .base => "base".toList
  | .step number => Text.showNumeral number

def groupsDocument (groups : Grouping) : Json :=
  .object (groups.map fun (key, atoms) => (groupName key, .array (atoms.map .string)))

def answerDocument (number : Nat) (answerSet : AnswerSet) : Json :=
  let step := match answerSet.step with
    | some step => [("step".toList, Json.number step)]
    | none => []
  .object ([("answer".toList, .number number)] ++ step ++
    [("groups".toList, groupsDocument answerSet.groupByStep)])

def answerDocuments (first : Nat) : List AnswerSet → List Json
  | [] => []
  | answerSet :: rest => answerDocument first answerSet :: answerDocuments (first + 1) rest

def ofAnswerSets (format : OutputFormat) (answerSets : List AnswerSet) : Text :=
  match format with
  | .text => Table.numbered 1 answerSets
  | .json => (Json.array (answerDocuments 1 answerSets)).render ++ ['\n']

/-- A step. Only the text says that the program has become unsatisfiable. -/
def ofStepResult (format : OutputFormat) (result : StepResult) : Text :=
  ofAnswerSets format result.answerSets ++
    match format, result.outcome with
    | .text, .unsatisfiable step =>
        "Program was unsatisfiable and stopped at step ".toList ++ Text.showNumeral step ++
          "!\n".toList
    | _, _ => []

def ofError (format : OutputFormat) (error : Error) : Text :=
  match format with
  | .text => "ERROR: ".toList ++ error.message
  | .json => (Json.object [("error".toList, .string error.message)]).render

end Transcript

end StepStream
