import StepStream.CommandLine.Options
import StepStream.Launch

/-!
Programs that a server can be replaced by: a few commands whose behaviour is known without
running them. All of them either end after some time or last.
-/

namespace StepStream.Rehearsal

set_option autoImplicit false

/-- How long a program runs, in nanoseconds, and how it ends. -/
structure Lifetime where
  span : Nat
  status : ExitStatus
  deriving DecidableEq, Repr

namespace Program

def instant (code : Nat) : Lifetime := ⟨0, .code code⟩

def splitUnit (argument : Text) : Text × Nat :=
  match argument.getLast? with
  | some 's' => (argument.dropLast, 1)
  | some 'm' => (argument.dropLast, 60)
  | some 'h' => (argument.dropLast, 3600)
  | some 'd' => (argument.dropLast, 86400)
  | _ => (argument, 1)

def endless : Nat := Options.delayBound

def readSpan (argument : Text) : Option Nat :=
  let (number, seconds) := splitUnit argument
  match Binary64.ofText number with
  | some (.finite false units) =>
      some (roundHalfEven (units * seconds * 1000000000) Binary64.unitsInOne)
  | some (.infinite false) => some endless
  | _ => none

/-- The command `sleep`, which needs at least one span and adds them up. -/
def sleep (arguments : List Text) : Lifetime :=
  match arguments.mapM readSpan with
  | some (span :: spans) => ⟨spans.foldl (· + ·) span, .code 0⟩
  | _ => instant 1

def testFile (files : Files) (option : Char) (path : Text) : Option Bool :=
  let found := files.find path
  match option with
  | 'e' | 'r' => some found.isSome
  | 'd' => some (found = some .directory)
  | 'f' => some (found.isSome && found ≠ some .directory)
  | 's' => some (found.isSome && found ≠ some (.content []))
  | _ => none

def testNumbers (left comparison right : Text) : Option Bool := do
  let left ← Text.readNumeral left
  let right ← Text.readNumeral right
  if comparison = "-eq".toList then some (left = right)
  else if comparison = "-ne".toList then some (left ≠ right)
  else if comparison = "-lt".toList then some (left < right)
  else if comparison = "-le".toList then some (left ≤ right)
  else if comparison = "-gt".toList then some (left > right)
  else if comparison = "-ge".toList then some (left ≥ right)
  else none

def test (files : Files) (arguments : List Text) : Lifetime :=
  let verdict (holds : Bool) : Lifetime := instant (if holds then 0 else 1)
  match arguments with
  | [] => instant 1
  | [text] => verdict (!text.isEmpty)
  | [['!'], text] => verdict text.isEmpty
  | [['-', 'n'], text] => verdict (!text.isEmpty)
  | [['-', 'z'], text] => verdict text.isEmpty
  | [['-', option], path] => ((testFile files option path).map verdict).getD (instant 2)
  | [left, ['='], right] => verdict (left = right)
  | [left, ['!', '='], right] => verdict (left ≠ right)
  | [left, comparison, right] =>
      ((testNumbers left comparison right).map verdict).getD (instant 2)
  | _ => instant 2

def readSignal (text : Text) : Option Nat :=
  match Text.readNumeral text with
  | some number => some number
  | none => (ExitStatus.signalNames.idxOf? ("SIG".toList ++ text)).map (· + 1)

def isFatal (signal : Nat) : Bool :=
  1 ≤ signal && signal ≤ 31 && !(17 ≤ signal && signal ≤ 23) && signal ≠ 28

/-- The signal that the command `kill` sends to its own shell. -/
def signalToSelf : List Text → Option Nat
  | [['$', '$']] => some 15
  | ['-' :: signal, ['$', '$']] => readSignal signal
  | [['-', 's'], signal, ['$', '$']] => readSignal signal
  | _ => none

/-- A command of a script, and whether the script ends with it. The status is that of the
commands before. -/
def command (files : Files) (status : ExitStatus) (words : List Text) : Lifetime × Bool :=
  let ordinary (name : Text) (arguments : List Text) : Lifetime × Bool :=
    if name = "sleep".toList then (sleep arguments, false)
    else if name = "true".toList ∨ name = [':'] then (instant 0, false)
    else if name = "false".toList then (instant 1, false)
    else if name = "test".toList then (test files arguments, false)
    else if name = "kill".toList then
      match signalToSelf arguments with
      | some signal => if isFatal signal then (⟨0, .signal signal⟩, true) else (instant 0, false)
      | none => (instant 1, false)
    else (instant 127, false)
  match words with
  | [] => (⟨0, status⟩, false)
  | name :: arguments =>
      if name = "exit".toList then
        match arguments with
        | [] => (⟨0, status⟩, true)
        | code :: _ =>
            match (Text.readNumeral code).filter (· < Nat.pow 2 31) with
            | some code => (instant (code % 256), true)
            | none => (instant 2, true)
      else if name = "exec".toList then
        match arguments with
        | [] => (instant 0, false)
        | name :: arguments => ((ordinary name arguments).1, true)
      else ordinary name arguments

/-- The commands of a script one after the other. The last one decides how it ends. -/
def sequence (files : Files) (status : ExitStatus) : List (List Text) → Lifetime
  | [] => ⟨0, status⟩
  | words :: rest =>
      match command files status words with
      | (lifetime, true) => lifetime
      | (lifetime, false) =>
          let later := sequence files lifetime.status rest
          ⟨lifetime.span + later.span, later.status⟩

def commandWords (text : Text) : List Text :=
  (Text.words text).takeWhile fun word => word.head? ≠ some '#'

/-- A script, whose commands end with a line or a semicolon. -/
def script (files : Files) (text : Text) : Lifetime :=
  sequence files (.code 0)
    ((text.splitOnP fun character => character == '\n' || character == ';').map commandWords)

def shell (files : Files) : List Text → Lifetime
  | [] => instant 0
  | argument :: rest =>
      if argument = "-c".toList then
        match rest with
        | text :: _ => script files text
        | [] => instant 2
      else match files.find argument with
        | some (.content bytes) => script files ((Text.decode bytes).toOption.getD [])
        | some .directory => instant 0
        | _ => instant 2

/-- Starts a program, which is known or is a file. Files cannot be executed. -/
def start (files : Files) (program : Text) (arguments : List Text) : Except Text Lifetime :=
  if (program :: arguments).any (·.contains '\x00') then
    .error "nul byte found in provided data".toList
  else if program = "sleep".toList then .ok (sleep arguments)
  else if program = "true".toList then .ok (instant 0)
  else if program = "false".toList then .ok (instant 1)
  else if program = "test".toList then .ok (test files arguments)
  else if program = "sh".toList then .ok (shell files arguments)
  else if '/' ∈ program && files.has program then .error "Permission denied (os error 13)".toList
  else .error "No such file or directory (os error 2)".toList

end Program

end StepStream.Rehearsal
