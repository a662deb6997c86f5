import StepStream.Connection
import StepStream.Response.Assembly
import StepStream.Session.CarryOver
import StepStream.Session.Config
import StepStream.Session.Status
import StepStream.Source.Terminal
import StepStream.Transcript

/-!
Sessions: what lasts from one run to the next, and what both modes do alike. A result is
counted, remembered for carry-over and shown; a fragment gets the constraints of the last
answer set before it is sent.
-/

namespace StepStream

set_option autoImplicit false

open Response

inductive End where
  /-- `#stop.` was sent because the source had asked for it. -/
  | stopped
  | peerClosed
  | connectionLost
  /-- `#stop.` was sent because the source had gone away. -/
  | inputExhausted
  deriving DecidableEq, Repr

structure Session where
  config : Config
  format : OutputFormat
  connection : Connection
  assembly : Assembly
  status : Status
  carry : Option CarryOver
  /-- The steps and the answer sets that have been received. -/
  steps : Nat
  answerSets : Nat
  transcript : Text

namespace Session

def create (config : Config) (format : OutputFormat) : Except Error Session :=
  let session (carry : Option CarryOver) : Session :=
    { config, format, carry
      connection := .toAddress config.host config.port
      assembly := .empty
      status := .initial
      steps := 0
      answerSets := 0
      transcript := [] }
  match config.carryOver with
  | none => .ok (session none)
  | some predicate =>
      match CarryOver.ofPredicate predicate with
      | .ok carry => .ok (session (some carry))
      | .error error => .error error

def print (text : Text) (session : Session) : Session :=
  { session with transcript := session.transcript ++ text }

def constraints (session : Session) : List Text :=
  match session.carry with
  | some carry => carry.constraints
  | none => []

/-- Counts a result, remembers its last answer set, and shows it. -/
def display (result : StepResult) (session : Session) : Session :=
  let session :=
    { session with
      steps := session.steps + 1
      answerSets := session.answerSets + result.answerSets.length
      status := { session.status with step := result.step.getD session.status.step }
      carry := session.carry.map fun carry => result.answerSets.foldl CarryOver.observe carry }
  let session := session.print (Transcript.ofStepResult session.format result)
  { session with status := { session.status with haveAnswerSet := true } }

def wireText (session : Session) : StepInput → Text
  | .fragment fragment => fragment.render session.constraints
  | .stop => Fragment.stop

def echo (text : Text) (session : Session) : Session :=
  if session.config.echoInput then
    session.print ("Sending following input to controller:\n".toList ++ text)
  else session

def closedEnd (session : Session) : End :=
  if session.connection.lost then .connectionLost else .peerClosed

/-- The next result among the lines that have arrived. Warnings are passed over. -/
def nextResult (session : Session) : Option (Except Error StepResult) × Session :=
  let (found, assembly) := session.assembly.nextUnwarned
  (found, { session with assembly := assembly })

def pushMessage (message : Text) (session : Session) : Session :=
  { session with assembly := session.assembly.push message }

def connect (outcome : ConnectOutcome) (session : Session) : Except Error Unit × Session :=
  let (result, connection) := session.connection.connect outcome
  (result, { session with connection := connection })

def requestExit (session : Session) : Session :=
  { session with status := session.status.requestExit }

end Session

/-- What a finished run reports. The counts are those of the session. -/
structure Summary where
  ending : End
  steps : Nat
  answerSets : Nat
  deriving DecidableEq, Repr

def Session.report (session : Session) (outcome : Except Error End) : Except Error Summary :=
  match outcome with
  | .ok ending => .ok ⟨ending, session.steps, session.answerSets⟩
  | .error error => .error error

end StepStream
