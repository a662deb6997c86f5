import StepStream.Rehearsal.AsyncPlay
import StepStream.Rehearsal.SyncPlay

/-!
Runs of one session against one scripted server, one after the other.
-/

namespace StepStream.Rehearsal

set_option autoImplicit false

structure Stage where
  session : Session
  server : ScriptedServer
  reachable : ConnectOutcome
  showsPrompts : Bool
  clock : Nat

namespace Stage

def set (session : Session) (cues : Option (List Cue)) (showsPrompts : Bool) : Stage where
  session := session
  server := .ofCues (cues.getD [])
  reachable :=
    if cues.isSome then .accepted else .refused "Connection refused (os error 111)".toList
  showsPrompts := showsPrompts
  clock := 0

/-- Plays a run. There is no outcome if the run waits in vain. -/
def play (source : Source) (stage : Stage) : Option (Except Error Summary) × Stage :=
  match stage.session.connect stage.reachable with
  | (.error error, session) => (some (.error error), { stage with session := session })
  | (.ok (), session) =>
      match session.config.mode with
      | .sync =>
          let play := (SyncPlay.start session source stage.server stage.clock).whole
          let session := play.run.session
          let stage := { stage with session, server := play.server, clock := play.clock }
          match play.run.phase with
          | .ended outcome => (some (session.report outcome), stage)
          | _ => (none, stage)
      | .async =>
          let play :=
            (AsyncPlay.start session source stage.server stage.clock stage.showsPrompts).whole
          let session := play.run.session
          let stage := { stage with session, server := play.server, clock := play.clock }
          match play.run.main with
          | .ended outcome => (some (session.report outcome), stage)
          | _ => (none, stage)

/-- Plays runs with these sources. A source that could not be made is the outcome of its
run. -/
def playAll (stage : Stage) :
    List (Except Error Source) → List (Option (Except Error Summary)) × Stage
  | [] => ([], stage)
  | .error error :: rest =>
      let (outcomes, stage) := playAll stage rest
      (some (.error error) :: outcomes, stage)
  | .ok source :: rest =>
      let (outcome, stage) := stage.play source
      let (outcomes, stage) := playAll stage rest
      (outcome :: outcomes, stage)

def received (stage : Stage) : List Text := stage.server.allReceived stage.clock

end Stage

end StepStream.Rehearsal
