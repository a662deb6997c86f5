import StepStream.Error
import StepStream.Source.Files

/-!
Starting a server before a session. The server gets the encodings and further arguments,
and some time to come up. A server that ends within this time is an error.
-/

namespace StepStream

set_option autoImplicit false

inductive SpawnOutcome where
  | started
  | failed (reason : Text)
  deriving DecidableEq, Repr

inductive ExitStatus where
  | code (code : Nat)
  | signal (number : Nat)
  deriving DecidableEq, Repr

namespace ExitStatus

def signalNames : List Text :=
  ["SIGHUP".toList, "SIGINT".toList, "SIGQUIT".toList, "SIGILL".toList, "SIGTRAP".toList,
    "SIGABRT".toList, "SIGBUS".toList, "SIGFPE".toList, "SIGKILL".toList, "SIGUSR1".toList,
    "SIGSEGV".toList, "SIGUSR2".toList, "SIGPIPE".toList, "SIGALRM".toList, "SIGTERM".toList,
    "SIGSTKFLT".toList, "SIGCHLD".toList, "SIGCONT".toList, "SIGSTOP".toList, "SIGTSTP".toList,
    "SIGTTIN".toList, "SIGTTOU".toList, "SIGURG".toList, "SIGXCPU".toList, "SIGXFSZ".toList,
    "SIGVTALRM".toList, "SIGPROF".toList, "SIGWINCH".toList, "SIGIO".toList, "SIGPWR".toList,
    "SIGSYS".toList]

def signalName (number : Nat) : Text :=
  match number with
  | 0 => []
  | index + 1 =>
      match signalNames[index]? with
      | some name => " (".toList ++ name ++ [')']
      | none => []

def message : ExitStatus → Text
  | .code number => "exit status: ".toList ++ Text.showNumeral number
  | .signal number => "signal: ".toList ++ Text.showNumeral number ++ signalName number

end ExitStatus

structure Server where
  program : Text
  /-- Whether its process has not been seen to end. -/
  isHeld : Bool
  deriving DecidableEq, Repr

namespace Server

def spawn (files : Files) (program : Text) (encodings : List Text) (outcome : SpawnOutcome) :
    Except Error Server :=
  match encodings.find? fun path => !files.has path with
  | some missing => .error (.configuration (.missingFile missing))
  | none =>
      match outcome with
      | .started => .ok ⟨program, true⟩
      | .failed reason => .error (.command (.launchFailed (program ++ ": ".toList ++ reason)))

/-- The readings of the clock are below this, in nanoseconds. -/
def clockBound : Nat := Nat.pow 2 63 * 1000000000

/-- Waits, where the wait begins at a reading of the clock, and the process may be seen to
end. -/
def waitReady (clock delay : Duration) (exit : Option ExitStatus) (server : Server) :
    Except Error Unit × Server :=
  if clockBound ≤ clock.nanoseconds + delay.nanoseconds then
    (.error (.configuration (.delayTooLong delay)), server)
  else match exit with
    | none => (.ok (), server)
    | some status =>
        (.error (.command (.launchFailed
          (server.program ++ " exited during startup (".toList ++ status.message ++ [')']))),
          { server with isHeld := false })

def stop (server : Server) : Server := { server with isHeld := false }

end Server

end StepStream
