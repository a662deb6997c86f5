import StepStream.Answer.Atom

/-!
Answer sets, and their atoms grouped by time. Atoms without a time argument come first,
then the steps in ascending order, and within a group the atoms are sorted.
-/

namespace StepStream

set_option autoImplicit false

/-- One answer set: its atoms as the server printed them, and the step that the server had
announced before. -/
structure AnswerSet where
  step : Option Nat
  atoms : List Text
  deriving DecidableEq, Repr

inductive TimeKey where
  /-- For atoms without a time argument. -/
  | base
  | step (number : Nat)
  deriving DecidableEq, Repr

namespace TimeKey

def precedes : TimeKey → TimeKey → Bool
  | base, _ => true
  | step _, base => false
  | step left, step right => left ≤ right

def ofAtom (atom : Text) : TimeKey :=
  match Atom.trailingStep atom with
  | some number => .step number
  | none => .base

def label : TimeKey → Text
  | base => ['B']
  | step number => Text.showNumeral number

end TimeKey

abbrev Grouping := List (TimeKey × List Text)

def atomPrecedes : Text → Text → Bool
  | [], _ => true
  | _ :: _, [] => false
  | first :: rest, other :: others =>
      first.toNat < other.toNat || first.toNat == other.toNat && atomPrecedes rest others

def AnswerSet.groupByStep (answerSet : AnswerSet) : Grouping :=
  let tagged := answerSet.atoms.map fun atom => (TimeKey.ofAtom atom, atom)
  let keys := ((tagged.map Prod.fst).eraseDups).mergeSort TimeKey.precedes
  keys.map fun key =>
    (key, ((tagged.filter fun entry => entry.1 = key).map Prod.snd).mergeSort atomPrecedes)

end StepStream
