import StepStream.Execution
import StepStream.Rehearsal.Program
import StepStream.Rehearsal.Stage

/-!
Executions of the whole program without a system around it. A scene gives the files, what
is typed in, and the server that listens at a port.
-/

namespace StepStream.Rehearsal

set_option autoImplicit false

open Text (Bytes)

structure Scene where
  files : Files
  input : Bytes
  server : Option (Nat × List Cue)

structure Record where
  transcript : Text
  received : List Text
  deriving DecidableEq, Repr

namespace Scene

def clock : Duration := .ofSeconds 1

/-- What the system answers when a program is started: a program that ends within the delay
is seen to end. -/
def launchAnswers (files : Files) (program : Text) (arguments : List Text) (delay : Duration) :
    LaunchAnswers :=
  match Program.start files program arguments with
  | .error reason => ⟨.failed reason, clock, none⟩
  | .ok lifetime =>
      ⟨.started, clock,
        if lifetime.span < delay.nanoseconds then some lifetime.status else none⟩

def answersFor (scene : Scene) (options : Options) : LaunchAnswers :=
  launchAnswers scene.files options.server (options.encodings ++ options.serverArguments)
    (options.delay.toOption.getD ⟨0⟩)

def cuesAt (scene : Scene) (port : Nat) : Option (List Cue) :=
  (scene.server.filter fun server => server.1 = port).map Prod.snd

def play (scene : Scene) (prepared : Prepared) : Except Error Summary × Record :=
  let stage := Stage.set prepared.session (scene.cuesAt prepared.session.config.port) true
  let (outcome, stage) := stage.play prepared.source
  (outcome.getD (.error (.file (.other "the session does not end".toList))),
    ⟨stage.session.transcript, stage.received⟩)

def execute (scene : Scene) (options : Options) : Except Error Summary × Record :=
  (Execution.run options scene.files scene.input (scene.answersFor options) scene.play
    ⟨[], []⟩).2

def run (scene : Scene) (environment : CommandLine.Environment) (arguments : List Text) :
    Report × List Text :=
  match CommandLine.parse environment arguments with
  | .error error => (.ofUsage error, [])
  | .ok options =>
      let (outcome, record) := scene.execute options
      (.ofOutcome options.outputFormat record.transcript outcome, record.received)

end Scene

end StepStream.Rehearsal
