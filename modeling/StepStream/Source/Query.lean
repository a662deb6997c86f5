import StepStream.Line.Classify
import StepStream.Source.QueryClause
import StepStream.Source.Terminal

/-!
Queries from a terminal. Every clause is a step of its own, at a step counter that the
clause and the options move on. An assertion is held back and goes out with the next clause
in place of the directive that makes the clause lapse.
-/

namespace StepStream

set_option autoImplicit false

inductive Volatility where
  /-- Until it has been answered. -/
  | input
  /-- For some steps. -/
  | window (size : Nat)
  /-- For good. -/
  | none
  deriving DecidableEq, Repr

structure QueryOptions where
  volatility : Volatility
  /-- Every fact and constraint moves the counter on by one and gets it as an argument. -/
  implicitIncrement : Bool
  /-- A number at the end of the final atom moves the counter on to that number. -/
  autoIncrement : Bool
  deriving DecidableEq, Repr

structure Query where
  terminal : Terminal
  options : QueryOptions
  deriving DecidableEq, Repr

namespace Query

def prompt : Text := "Please enter your query (format: single ground clause)\n".toList

def volatileLine : Volatility → Option Text
  | .input => some "#volatile.\n".toList
  | .window size => some ("#volatile : ".toList ++ Text.showNumeral size ++ ".\n".toList)
  | .none => none

def stepLine (step : Nat) : Text := "#step ".toList ++ Text.showNumeral step ++ ".\n".toList

/-- The clause as it is sent, and the counter that it is sent with. -/
def advance (options : QueryOptions) (kind : LineKind) (line : Text) (step : Nat) : Text × Nat :=
  let raised :=
    if options.implicitIncrement && (kind = .fact || kind = .integrity) then
      (QueryClause.appendStep line (Text.nextStep step), Text.nextStep step)
    else (line, step)
  if options.autoIncrement then
    match QueryClause.lastStep raised.1 with
    | some named => (raised.1, max raised.2 named)
    | none => raised
  else raised

inductive Effect where
  | hold (assertion : Option Text)
  | finish (input : StepInput) (step : Nat)

def clauseLines (options : QueryOptions) (held : Option Text) (clause : Text) (step : Nat) :
    List Text :=
  [stepLine step] ++ (held.or (volatileLine options.volatility)).toList ++ [clause]

def absorb (options : QueryOptions) (step : Nat) (held : Option Text) (line : Text) : Effect :=
  let send (lines : List Text) (step : Nat) : Effect :=
    .finish (.fragment (Fragment.ofLines lines)) step
  let kind := Line.classify line
  if kind.isClause then
    let (clause, step) := advance options kind line step
    send (clauseLines options held clause step) step
  else match kind with
    | .incrementStep target => send [stepLine (target.getD (Text.nextStep step))] step
    | .retract => send [stepLine step, line] step
    | .endStep => send [] step
    | .stop => .finish .stop step
    | .assert => .hold (some line)
    | _ => .hold held

/-- Reads on, with the assertion that is held back. At the end of the input it is lost. -/
def readFrom (options : QueryOptions) (step : Nat) (held : Option Text) :
    List Text.Bytes → (Except Error StepInput × Nat) × List Text.Bytes
  | [] => ((.ok .stop, step), [])
  | bytes :: rest =>
      match Terminal.decodeLine bytes with
      | .error error => ((.error error, step), rest)
      | .ok line =>
          match absorb options step held line with
          | .hold held => readFrom options step held rest
          | .finish input step => ((.ok input, step), rest)

def next (reader : Query) (step : Nat) : Supplied × Query :=
  let ((input, step), rest) := readFrom reader.options step none reader.terminal.lines
  (⟨input, step, prompt⟩, { reader with terminal := ⟨rest⟩ })

end Query

end StepStream
