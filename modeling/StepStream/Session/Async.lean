import StepStream.Session.Basic

/-!
Asynchronous runs. A producer asks the source and puts each input into a slot that holds
one; the main line forwards what is in the slot and shows what arrives. The two sides share
the slot and the status, and their moves interleave in any order.
-/

namespace StepStream

set_option autoImplicit false

inductive Producer where
  | starting
  /-- Waiting until the pace of the session allows to ask. -/
  | pacing
  | asking
  /-- With a fragment that the flags of the last answer have not been cleared for. -/
  | taking (fragment : Fragment)
  | handing (input : Except Error StepInput)
  /-- With a stop that is held back until the last fragment has been answered. -/
  | holding
  | gone

inductive MainLine where
  | forwarding
  /-- Sending a text, after which the run is over if there is an ending. -/
  | sending (text : Text) (ending : Option End)
  | polling
  | showing
  | ended (outcome : Except Error End)

structure AsyncRun where
  session : Session
  /-- Whether the pace of the session applies to the source. -/
  isPaced : Bool
  producer : Producer
  slot : Option (Except Error StepInput)
  main : MainLine

namespace AsyncRun

inductive Move where
  /-- The producer begins with the next input, or leaves. -/
  | begin
  | paced
  | supplied (answer : Supplied)
  /-- The producer clears the flags of the last answer. -/
  | cleared
  /-- The producer puts its input into the slot, or finds the other side gone. -/
  | handed
  | released
  | forward
  | sent (outcome : SendOutcome)
  | work
  /-- A read has this outcome. `late` says whether the last fragment was sent longer ago
  than an answer may take. -/
  | read (outcome : ReadOutcome) (late : Bool)

/-- A look for messages takes no longer than the poll interval. -/
def start (session : Session) (isPaced : Bool) : AsyncRun where
  session :=
    { session with
      connection := session.connection.setReadTimeout (some session.config.pollInterval) }
  isPaced := isPaced
  producer := .starting
  slot := none
  main := .forwarding

def finish (run : AsyncRun) (outcome : Except Error End) : AsyncRun :=
  { run with session := run.session.requestExit, main := .ended outcome }

def isEnded (run : AsyncRun) : Bool :=
  match run.main with
  | .ended _ => true
  | _ => false

/-- Whether the pace of the session lets the producer ask now. A fixed pause may take any
time. -/
def paceAllows (run : AsyncRun) : Bool :=
  match run.session.config.pacing with
  | .immediate | .delay _ => true
  | .awaitAnswer _ =>
      run.session.status.haveAnswerSet || run.session.status.answerTimedOut ||
        run.session.status.exit

def stepProducer (run : AsyncRun) (move : Move) : Option AsyncRun :=
  match run.producer, move with
  | .starting, .begin =>
      if run.session.status.exit then some { run with producer := .gone }
      else some { run with producer := if run.isPaced then .pacing else .asking }
  | .pacing, .paced =>
      if run.paceAllows then
        some { run with producer := if run.session.status.exit then .gone else .asking }
      else none
  | .asking, .supplied answer =>
      let status := { run.session.status with step := answer.step }
      let run := { run with session := { run.session with status := status } }
      match answer.input with
      | .ok (.fragment fragment) => some { run with producer := .taking fragment }
      | .ok .stop => some { run with producer := .holding }
      | .error error => some { run with producer := .handing (.error error) }
  | .taking fragment, .cleared =>
      let session := { run.session with status := run.session.status.fragmentTaken }
      some { run with session := session, producer := .handing (.ok (.fragment fragment)) }
  | .holding, .released =>
      if run.session.status.haveAnswerSet || run.session.status.exit then
        some { run with producer := .handing (.ok .stop) }
      else none
  | .handing input, .handed =>
      if run.isEnded then some { run with producer := .gone }
      else if run.slot.isSome then none
      else
        let producer : Producer :=
          match input with
          | .ok (.fragment _) => .starting
          | _ => .gone
        some { run with slot := some input, producer := producer }
  | _, _ => none

def beginSending (run : AsyncRun) (text : Text) (ending : Option End) : AsyncRun :=
  let run := { run with session := run.session.echo text }
  match run.session.connection.usable with
  | .ok () => { run with main := .sending text ending }
  | .error error => run.finish (.error error)

/-- The main line looks into the slot. It looks for messages if the slot is empty, and
stops if nobody will fill the slot again. -/
def forward (run : AsyncRun) : AsyncRun :=
  match run.slot, run.producer with
  | some (.ok (.fragment fragment)), _ =>
      { run with slot := none }.beginSending (run.session.wireText (.fragment fragment)) none
  | some (.ok .stop), _ =>
      { run with slot := none }.beginSending (run.session.wireText .stop) (some .stopped)
  | some (.error error), _ => { run with slot := none }.finish (.error error)
  | none, .gone => run.beginSending (run.session.wireText .stop) (some .inputExhausted)
  | none, _ => { run with main := .polling }

def afterReceiving (run : AsyncRun) (late : Bool) : Option (Except Error Received) → AsyncRun
  | none => run
  | some (.ok (.message text)) =>
      { run with session := run.session.pushMessage text, main := .showing }
  | some (.ok .timeout) =>
      let status := run.session.status
      let declared :=
        match run.session.config.pacing with
        | .awaitAnswer _ => late && !status.haveAnswerSet && !status.answerTimedOut
        | _ => false
      let status := { status with answerTimedOut := status.answerTimedOut || declared }
      { run with session := { run.session with status := status }, main := .forwarding }
  | some (.ok .closed) => run.finish (.ok run.session.closedEnd)
  | some (.error error) => run.finish (.error error)

def work (run : AsyncRun) : Option AsyncRun :=
  match run.main with
  | .polling =>
      match run.session.connection.answerBuffered with
      | (none, _) => none
      | (answer, connection) =>
          some ({ run with session := { run.session with connection := connection } }
            |>.afterReceiving false answer)
  | .showing =>
      match run.session.nextResult with
      | (some (.ok result), session) => some { run with session := session.display result }
      | (some (.error error), session) =>
          some ({ run with session := session }.finish (.error error))
      | (none, session) => some { run with session := session, main := .forwarding }
  | _ => none

def stepMain (run : AsyncRun) (move : Move) : Option AsyncRun :=
  match run.main, move with
  | .forwarding, .forward => some run.forward
  | .sending _ ending, .sent outcome =>
      match Connection.sendResult outcome with
      | .error error => some (run.finish (.error error))
      | .ok () =>
          match ending with
          | none => some { run with main := .forwarding }
          | some ending =>
              let session :=
                { run.session with connection := run.session.connection.close }
              some ({ run with session := session }.finish (.ok ending))
  | .polling, .work => run.work
  | .showing, .work => run.work
  | .polling, .read outcome late =>
      match run.work with
      | some _ => none
      | none =>
          let (answer, connection) := run.session.connection.absorb outcome
          some ({ run with session := { run.session with connection := connection } }
            |>.afterReceiving late answer)
  | _, _ => none

def step (run : AsyncRun) (move : Move) : Option AsyncRun :=
  match move with
  | .begin | .paced | .supplied _ | .cleared | .handed | .released => run.stepProducer move
  | .forward | .sent _ | .work | .read _ _ => run.stepMain move

def runMoves (run : AsyncRun) : List Move → Option AsyncRun
  | [] => some run
  | move :: moves => (run.step move).bind fun run => run.runMoves moves

end AsyncRun

end StepStream
