import StepStream.CommandLine.Item

/-!
From arguments to the items that occur in them. An argument behind a parameter can be a
value of it; which arguments are values depends on their form alone and not on whether the
parameter accepts them.
-/

namespace StepStream.CommandLine

set_option autoImplicit false

open Text

inductive Form where
  | separator
  /-- `--name` or `--name=value` -/
  | long (name : Text) (value : Option Text)
  /-- `-abc` -/
  | cluster (characters : Text)
  | plain
  deriving DecidableEq, Repr

/-- A single hyphen is a plain argument. -/
def Form.ofArgument : Text → Form
  | ['-', '-'] => .separator
  | '-' :: '-' :: text =>
      match splitFirst '=' text with
      | some (name, value) => .long name (some value)
      | none => .long text none
  | ['-'] => .plain
  | '-' :: characters => .cluster characters
  | _ => .plain

/-- An item of a command line, in the order in which the items take effect. -/
inductive Occurrence where
  | switch (switch : Switch)
  | values (parameter : Parameter) (values : List Text)
  | unknown
  | needless
  deriving DecidableEq, Repr

/-- A parameter whose values are being gathered. It is open if the next plain argument is
one of them. -/
structure Gathering where
  parameter : Parameter
  values : List Text
  isOpen : Bool
  deriving DecidableEq, Repr

namespace Gathering

def start (parameter : Parameter) : Gathering := ⟨parameter, [], true⟩

def add (value : Text) (gathering : Gathering) : Gathering :=
  { gathering with
    values := gathering.values ++ [value]
    isOpen := gathering.parameter.takesSeveral }

def close : Option Gathering → List Occurrence
  | some gathering => [.values gathering.parameter gathering.values]
  | none => []

end Gathering

/-- The items of a cluster of characters, with a parameter at its end that still lacks a
value. The characters behind a parameter are its value. -/
def readCluster : Text → List Occurrence × Option Gathering
  | [] => ([], none)
  | name :: rest =>
      match Item.ofShortName name with
      | none => ([.unknown], none)
      | some (.switch switch) =>
          let (occurrences, gathering) := readCluster rest
          (.switch switch :: occurrences, gathering)
      | some (.parameter parameter) =>
          match rest with
          | [] => ([], some (.start parameter))
          | '=' :: value => ([.values parameter [value]], none)
          | value => ([.values parameter [value]], none)

def placeFile (file : Text) : Option Gathering → List Occurrence × Gathering
  | some ⟨.files, values, _⟩ => ([], ⟨.files, values ++ [file], false⟩)
  | gathering => (Gathering.close gathering, ⟨.files, [file], false⟩)

/-- A plain argument is a value of the open parameter, or else a stream file. -/
def placeValue (value : Text) : Option Gathering → List Occurrence × Gathering
  | some gathering =>
      if gathering.isOpen then ([], gathering.add value) else placeFile value (some gathering)
  | none => placeFile value none

def scanFiles (gathering : Option Gathering) : List Text → List Occurrence
  | [] => Gathering.close gathering
  | argument :: rest =>
      let (occurrences, gathering) := placeFile argument gathering
      occurrences ++ scanFiles (some gathering) rest

def takesEverything : Option Gathering → Bool
  | some gathering => gathering.isOpen && gathering.parameter.takesEverything
  | none => false

/-- The items of the arguments. Nothing is scanned behind an item that does not exist, and
a parameter just before it does not take effect. -/
def scan (gathering : Option Gathering) : List Text → List Occurrence
  | [] => Gathering.close gathering
  | argument :: rest =>
      if takesEverything gathering then scan (gathering.map (·.add argument)) rest
      else match Form.ofArgument argument with
        | .separator => scanFiles gathering rest
        | .plain =>
            let (occurrences, gathering) := placeValue argument gathering
            occurrences ++ scan (some gathering) rest
        | .long name value =>
            match Item.ofLongName name, value with
            | none, _ => [.unknown]
            | some (.switch _), some _ => [.needless]
            | some (.switch switch), none =>
                Gathering.close gathering ++ .switch switch :: scan none rest
            | some (.parameter parameter), some value =>
                Gathering.close gathering ++ .values parameter [value] :: scan none rest
            | some (.parameter parameter), none =>
                Gathering.close gathering ++ scan (some (.start parameter)) rest
        | .cluster characters =>
            match readCluster characters with
            | (.unknown :: _, _) => [.unknown]
            | (occurrences, waiting) =>
                Gathering.close gathering ++ occurrences ++ scan waiting rest

def occurrences (arguments : List Text) : List Occurrence := scan none arguments

end StepStream.CommandLine
