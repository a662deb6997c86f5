import StepStream.CommandLine.Parse
import StepStream.Launch
import StepStream.Session.Basic
import StepStream.Source.Supply

/-!
An execution of the program. Before the session, its settings and its source are made, and
a server is started if there are encodings. What is done to the world outside on the way is
recorded in order. After the session the outcome is reported.
-/

namespace StepStream

set_option autoImplicit false

open Text (Bytes)

/-- What an execution does to the world outside. -/
inductive Effect where
  | launched (program : Text) (arguments : List Text)
  | connecting (host : Text) (port : Nat)
  | stopped
  deriving DecidableEq, Repr

/-- What the system answers when a server is started: whether the process starts, the clock
at the beginning of the wait, and how the process ends if it ends during the wait. -/
structure LaunchAnswers where
  spawn : SpawnOutcome
  clock : Duration
  exit : Option ExitStatus
  deriving DecidableEq, Repr

namespace Options

def source (options : Options) (files : Files) (input : Bytes) : Except Error Source :=
  match StepBuffer.ofPaths files options.files with
  | .error error => .error error
  | .ok (some buffer) => .ok (.buffer buffer)
  | .ok none =>
      if options.query then .ok (.query ⟨.ofBytes input, options.queryOptions⟩)
      else .ok (.interactive ⟨.ofBytes input, false⟩)

/-- Starts a server and waits for it, if there are encodings. A server that is not needed
after all is stopped. -/
def launch (options : Options) (files : Files) (answers : LaunchAnswers) :
    List Effect × Except Error Unit :=
  if options.encodings.isEmpty then ([], .ok ())
  else match Server.spawn files options.server options.encodings answers.spawn with
    | .error error => ([], .error error)
    | .ok server =>
        let launched :=
          Effect.launched options.server (options.encodings ++ options.serverArguments)
        match options.delay with
        | .error error => ([launched, .stopped], .error error)
        | .ok delay =>
            match server.waitReady answers.clock delay answers.exit with
            | (.ok (), _) => ([launched], .ok ())
            | (.error error, server) =>
                ([launched] ++ (if server.isHeld then [.stopped] else []), .error error)

end Options

structure Prepared where
  session : Session
  source : Source

namespace Execution

def prepare (options : Options) (files : Files) (input : Bytes) (answers : LaunchAnswers) :
    List Effect × Except Error Prepared :=
  match options.config with
  | .error error => ([], .error error)
  | .ok config =>
      match options.source files input with
      | .error error => ([], .error error)
      | .ok source =>
          match options.launch files answers with
          | (effects, .error error) => (effects, .error error)
          | (effects, .ok ()) =>
              match Session.create config options.outputFormat with
              | .ok session => (effects, .ok ⟨session, source⟩)
              | .error error =>
                  (effects ++ (if effects.isEmpty then [] else [.stopped]), .error error)

/-- The whole execution, where `play` runs the session and keeps a record of it. Without a
session the record is `idle`. -/
def run {Record : Type} (options : Options) (files : Files) (input : Bytes)
    (answers : LaunchAnswers) (play : Prepared → Except Error Summary × Record) (idle : Record) :
    List Effect × Except Error Summary × Record :=
  match prepare options files input answers with
  | (effects, .error error) => (effects, .error error, idle)
  | (effects, .ok prepared) =>
      (effects ++ [.connecting options.host options.port] ++
        (if effects.isEmpty then [] else [.stopped]), play prepared)

end Execution

structure Report where
  exit : Nat
  output : Text
  errors : Text
  deriving DecidableEq, Repr

namespace Report

def version : Text := "oclingo-controller 0.3.0\n".toList

def usage : Text := "Usage: oclingo-controller [online.lp] [OPTIONS]\n".toList

def ofUsage : CommandLine.UsageError → Report
  | .versionRequested => ⟨0, version, []⟩
  | .helpRequested => ⟨0, usage, []⟩
  | _ => ⟨2, [], usage⟩

/-- The report of an execution that has shown a transcript. Errors in the form of documents
belong to the output. -/
def ofOutcome (format : OutputFormat) (transcript : Text) : Except Error Summary → Report
  | .ok _ => ⟨0, transcript, []⟩
  | .error error =>
      let described := Transcript.ofError format error ++ ['\n']
      match format with
      | .json => ⟨1, transcript ++ described, []⟩
      | .text => ⟨1, transcript, described⟩

end Report

end StepStream
