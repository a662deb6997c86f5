import StepStream.Answer.Grouping
import StepStream.Text.Cluster

/-!
Answer sets as tables. A row shows one time, its key right-aligned, and behind it the atoms
in columns that are as wide as their widest atom and one space more.
-/

namespace StepStream.Table

set_option autoImplicit false

open Text

def widen : List Nat → List Nat → List Nat
  | [], widths => widths
  | widths, [] => widths
  | left :: lefts, right :: rights => max left right :: widen lefts rights

def columnWidths (groups : Grouping) : List Nat :=
  groups.foldl (fun widths group => widen widths (group.2.map clusterCount)) []

/-- The room for a key, which depends on the number of rows. -/
def keyWidth (groups : Grouping) : Nat := (showNumeral groups.length).length

def row (width : Nat) (columns : List Nat) (group : TimeKey × List Text) : Text :=
  "  ".toList ++ padLeft width group.1.label ++ ". ".toList ++
    (group.2.zip columns).flatMap (fun (atom, column) => padRight (column + 1) atom) ++ ['\n']

def ofGrouping (groups : Grouping) : Text :=
  groups.flatMap (row (keyWidth groups) (columnWidths groups))

def ofAnswerSet (answerSet : AnswerSet) : Text := ofGrouping answerSet.groupByStep

def numbered (first : Nat) : List AnswerSet → Text
  | [] => []
  | answerSet :: rest =>
      "Answer: ".toList ++ showNumeral first ++ ['\n'] ++ ofAnswerSet answerSet ++
        numbered (first + 1) rest

end StepStream.Table
