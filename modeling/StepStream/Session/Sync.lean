import StepStream.Session.Basic

/-!
Synchronous runs. Receiving and sending alternate: a result is awaited and shown, then the
source is asked for an input, and the input is sent. A run is a sequence of moves. Moves
other than `work` carry what the world answers.
-/

namespace StepStream

set_option autoImplicit false

inductive SyncPhase where
  | receiving
  | asking
  /-- A text is being sent; it is the last one if the session is to stop. -/
  | sending (text : Text) (isStop : Bool)
  | ended (outcome : Except Error End)

structure SyncRun where
  session : Session
  phase : SyncPhase

namespace SyncRun

inductive Move where
  | work
  | read (outcome : ReadOutcome)
  /-- The source answers, once the pace of the session allows to ask it. -/
  | supplied (answer : Supplied)
  | sent (outcome : SendOutcome)

def start (session : Session) : SyncRun := ⟨session, .receiving⟩

def finish (session : Session) (outcome : Except Error End) : SyncRun :=
  ⟨session.requestExit, .ended outcome⟩

def beginSending (session : Session) (text : Text) (isStop : Bool) : SyncRun :=
  let session := session.echo text
  match session.connection.usable with
  | .ok () => ⟨session, .sending text isStop⟩
  | .error error => finish session (.error error)

def afterReceiving (session : Session) : Option (Except Error Received) → SyncRun
  | none => ⟨session, .receiving⟩
  | some (.ok (.message text)) => ⟨session.pushMessage text, .receiving⟩
  | some (.ok .timeout) => ⟨session, .receiving⟩
  | some (.ok .closed) => finish session (.ok session.closedEnd)
  | some (.error error) => finish session (.error error)

def work (session : Session) : Option SyncRun :=
  match session.nextResult with
  | (some (.ok result), session) => some ⟨session.display result, .asking⟩
  | (some (.error error), session) => some (finish session (.error error))
  | (none, session) =>
      match session.connection.answerBuffered with
      | (none, _) => none
      | (answer, connection) =>
          some (afterReceiving { session with connection := connection } answer)

def take (session : Session) (answer : Supplied) : SyncRun :=
  let session :=
    { session with status := { session.status with step := answer.step } }.print answer.prompt
  match answer.input with
  | .error error => finish session (.error error)
  | .ok (.fragment fragment) =>
      let session := { session with status := session.status.fragmentTaken }
      beginSending session (session.wireText (.fragment fragment)) false
  | .ok .stop => beginSending session (session.wireText .stop) true

/-- One move, or nothing if the move is not possible. A read is only possible when there is
nothing left to work on. -/
def step (run : SyncRun) (move : Move) : Option SyncRun :=
  match run.phase, move with
  | .receiving, .work => work run.session
  | .receiving, .read outcome =>
      match work run.session with
      | some _ => none
      | none =>
          let session := run.session.nextResult.2
          let (answer, connection) := session.connection.absorb outcome
          some (afterReceiving { session with connection := connection } answer)
  | .asking, .supplied answer => some (take run.session answer)
  | .sending _ isStop, .sent outcome =>
      match Connection.sendResult outcome with
      | .error error => some (finish run.session (.error error))
      | .ok () =>
          if isStop then
            let session := { run.session with connection := run.session.connection.close }
            some (finish session (.ok .stopped))
          else some ⟨run.session, .receiving⟩
  | _, _ => none

def runMoves (run : SyncRun) : List Move → Option SyncRun
  | [] => some run
  | move :: moves => (run.step move).bind fun run => run.runMoves moves

end SyncRun

end StepStream
