import StepStream.Message.Frame

/-!
The connection to the server. It is opened once and never again. What the operating system
answers to a call is given to it as an outcome, and the functions here say what follows:
which message is delivered, which error is raised, and when the connection is over.
-/

namespace StepStream

set_option autoImplicit false

open Text (Bytes)

/-- How far a connection has got. It only moves forward. -/
inductive ConnectionState where
  | disconnected
  | connected
  | closed
  deriving DecidableEq, Repr

inductive ConnectOutcome where
  | accepted
  | refused (reason : Text)
  deriving DecidableEq, Repr

inductive SendOutcome where
  | delivered
  | broken
  | failed (reason : Text)
  deriving DecidableEq, Repr

inductive ReadOutcome where
  /-- Bytes of the stream, none of them at its end. -/
  | received (bytes : Bytes)
  | timedOut
  | interrupted
  | failed
  /-- The time limit of the read could not be set. -/
  | unlimited (reason : Text)
  deriving DecidableEq, Repr

inductive Received where
  | message (text : Text)
  | timeout
  | closed
  deriving DecidableEq, Repr

structure Connection where
  host : Text
  port : Nat
  state : ConnectionState
  socket : Bool
  /-- Whether the connection ended with a failure of the socket. -/
  lost : Bool
  decoder : Message.Decoder
  readTimeout : Option Duration
  deriving DecidableEq, Repr

namespace Connection

def toAddress (host : Text) (port : Nat) : Connection :=
  ⟨host, port, .disconnected, false, false, .empty, none⟩

def peer (connection : Connection) : Text :=
  connection.host ++ [':'] ++ Text.showNumeral connection.port

def isConnected (connection : Connection) : Bool := connection.state = .connected

/-- Limits the time of a read. No time at all is no limit. -/
def setReadTimeout (limit : Option Duration) (connection : Connection) : Connection :=
  { connection with readTimeout := limit.filter fun span => span.nanoseconds ≠ 0 }

def markClosed (connection : Connection) : Connection :=
  { connection with state := .closed, socket := false }

/-- Connects, unless that has been done before. -/
def connect (outcome : ConnectOutcome) (connection : Connection) :
    Except Error Unit × Connection :=
  match connection.state with
  | .connected => (.ok (), connection)
  | .closed => (.error (.connection .sessionClosed), connection)
  | .disconnected =>
      match outcome with
      | .accepted => (.ok (), { connection with state := .connected, socket := true })
      | .refused reason =>
          (.error (.connection (.connectFailed connection.host connection.port reason)),
            connection)

def usable (connection : Connection) : Except Error Unit :=
  match connection.state with
  | .disconnected => .error (.connection .notConnected)
  | .closed => .error (.connection .sessionClosed)
  | .connected => if connection.socket then .ok () else .error (.connection .notConnected)

def sendResult : SendOutcome → Except Error Unit
  | .delivered => .ok ()
  | .broken => .error (.connection .brokenPipe)
  | .failed reason => .error (.connection (.transport reason))

def send (outcome : SendOutcome) (connection : Connection) : Except Error Unit :=
  match connection.usable with
  | .error error => .error error
  | .ok () => sendResult outcome

/-- Ends the connection from this side. What has been received stays. -/
def close (connection : Connection) : Connection :=
  if connection.state = .closed then connection else connection.markClosed

/-- What can be answered without a read: a message that has arrived completely, or, once
the connection is closed, what is left of it. -/
def answerBuffered (connection : Connection) :
    Option (Except Error Received) × Connection :=
  if connection.state = .disconnected then
    (some (.error (.connection .notConnected)), connection)
  else
    match connection.decoder.next with
    | (some (.ok text), decoder) =>
        (some (.ok (.message text)), { connection with decoder := decoder })
    | (some (.error error), decoder) =>
        (some (.error error), { connection with decoder := decoder })
    | (none, _) =>
        if connection.state = .closed then
          match connection.decoder.takeResidue with
          | (some (.ok text), decoder) =>
              (some (.ok (.message text)), { connection with decoder := decoder })
          | (some (.error error), decoder) =>
              (some (.error error), { connection with decoder := decoder })
          | (none, decoder) => (some (.ok .closed), { connection with decoder := decoder })
        else (none, connection)

/-- What a read does. At the end of the stream an unfinished message is discarded; after a
failure it is kept. -/
def absorb (outcome : ReadOutcome) (connection : Connection) :
    Option (Except Error Received) × Connection :=
  match outcome with
  | .received [] => (some (.ok .closed), { connection with decoder := .empty }.markClosed)
  | .received bytes => (none, { connection with decoder := connection.decoder.push bytes })
  | .timedOut => (some (.ok .timeout), connection)
  | .interrupted => (none, connection)
  | .failed => (none, { connection with lost := true }.markClosed)
  | .unlimited reason => (some (.error (.file (.other reason))), connection)

/-- Looks for a message, where the reads have these outcomes, and reads again after a
time-out if `persistent`. There is no answer as long as the next read has no outcome. The
outcomes that have not been used are returned too. -/
def await (persistent : Bool) (connection : Connection) :
    List ReadOutcome → Option (Except Error Received) × Connection × List ReadOutcome
  | [] =>
      let (answer, connection) := connection.answerBuffered
      (answer, connection, [])
  | outcome :: rest =>
      match connection.answerBuffered with
      | (some answer, connection) => (some answer, connection, outcome :: rest)
      | (none, connection) =>
          match connection.absorb outcome with
          | (none, connection) => connection.await persistent rest
          | (some (.ok .timeout), connection) =>
              if persistent then connection.await persistent rest
              else (some (.ok .timeout), connection, rest)
          | (some answer, connection) => (some answer, connection, rest)

def poll (connection : Connection) (outcomes : List ReadOutcome) :
    Option (Except Error Received) × Connection × List ReadOutcome :=
  connection.await false outcomes

/-- The next message, however long it takes. A closed stream is an error here. -/
def receive (connection : Connection) (outcomes : List ReadOutcome) :
    Option (Except Error Text) × Connection × List ReadOutcome :=
  match connection.await true outcomes with
  | (some (.ok (.message text)), connection, rest) => (some (.ok text), connection, rest)
  | (some (.ok .closed), connection, rest) =>
      (some (.error (.connection .peerClosed)), connection, rest)
  | (some (.ok .timeout), connection, rest) => (none, connection, rest)
  | (some (.error error), connection, rest) => (some (.error error), connection, rest)
  | (none, connection, rest) => (none, connection, rest)

end Connection

end StepStream
