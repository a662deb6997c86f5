import StepStream.Session.Async
import StepStream.Session.Sync

/-!
The life of a session. Its runs come one after the other. A run that cannot connect returns at
once; any other goes on in the mode of the session until it has ended, and returns its report.
The producer of an asynchronous run may be left behind, and shares the status with whatever the
session does later.
-/

namespace StepStream

set_option autoImplicit false

inductive Activity where
  | idle (session : Session)
  | sync (run : SyncRun)
  | async (run : AsyncRun)

namespace Activity

def session : Activity → Session
  | idle session => session
  | sync run => run.session
  | async run => run.session

def withStatus (status : Status) : Activity → Activity
  | idle session => .idle { session with status := status }
  | sync run => .sync { run with session := { run.session with status := status } }
  | async run => .async { run with session := { run.session with status := status } }

def outcome? : Activity → Option (Except Error End)
  | idle _ => none
  | sync run =>
      match run.phase with
      | .ended outcome => some outcome
      | _ => none
  | async run =>
      match run.main with
      | .ended outcome => some outcome
      | _ => none

def leavesBehind : Activity → List AsyncRun
  | async run => [run]
  | _ => []

end Activity

structure Life where
  activity : Activity
  /-- The asynchronous runs that have returned. Only their producers can still move. -/
  returned : List AsyncRun

namespace Life

inductive Move where
  /-- A run begins, if it can connect, and in asynchronous mode if the system lets its producer
  start. `isPaced` tells whether the pace of the session applies to its source. -/
  | begin (outcome : ConnectOutcome) (isPaced : Bool) (spawned : Except Text Unit)
  | sync (move : SyncRun.Move)
  | async (move : AsyncRun.Move)
  | report
  | leftBehind (index : Nat) (move : AsyncRun.Move)

def start (session : Session) : Life := ⟨.idle session, []⟩

def beginRun (life : Life) (session : Session) (outcome : ConnectOutcome) (isPaced : Bool)
    (spawned : Except Text Unit) : Life × Option (Except Error Summary) :=
  match session.connect outcome with
  | (.error error, session) => ({ life with activity := .idle session }, some (.error error))
  | (.ok (), session) =>
      match session.config.mode, spawned with
      | .sync, _ => ({ life with activity := .sync (.start session) }, none)
      | .async, .ok () => ({ life with activity := .async (.start session isPaced) }, none)
      | .async, .error reason =>
          ({ life with activity := .idle session.requestExit },
            some (.error (.file (.other reason))))

/-- A producer sees the status as it is now, and what it changes there is seen by all. -/
def moveLeftBehind (life : Life) (index : Nat) (move : AsyncRun.Move) : Option Life := do
  let run ← life.returned[index]?
  let session := { run.session with status := life.activity.session.status }
  let run ← { run with session := session }.stepProducer move
  return ⟨life.activity.withStatus run.session.status, life.returned.set index run⟩

def step (life : Life) (move : Move) : Option (Life × Option (Except Error Summary)) :=
  match move, life.activity with
  | .begin outcome isPaced spawned, .idle session =>
      some (life.beginRun session outcome isPaced spawned)
  | .sync move, .sync run =>
      (run.step move).map fun run => ({ life with activity := .sync run }, none)
  | .async move, .async run =>
      (run.step move).map fun run => ({ life with activity := .async run }, none)
  | .report, activity =>
      activity.outcome?.map fun outcome =>
        (⟨.idle activity.session, life.returned ++ activity.leavesBehind⟩,
          some (activity.session.report outcome))
  | .leftBehind index move, _ => (life.moveLeftBehind index move).map fun life => (life, none)
  | _, _ => none

def runMoves (life : Life) : List Move → Option Life
  | [] => some life
  | move :: moves => (life.step move).bind fun (life, _) => life.runMoves moves

end Life

end StepStream
