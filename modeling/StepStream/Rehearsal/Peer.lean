import StepStream.Connection

/-!
The far end of a connection, for sessions that are played without a network. Time is a
number of nanoseconds that only waiting moves on. What the peer sends can be read from some
time on, and a read takes a limited number of bytes.
-/

namespace StepStream.Rehearsal

set_option autoImplicit false

open Text (Bytes)

inductive Ending where
  | unfinished
  | finished
  /-- The peer has gone without reading everything. -/
  | vanished
  deriving DecidableEq, Repr

structure Peer where
  /-- What the client has not read, with the times from which on it can be read, which
  ascend. -/
  outgoing : List (Nat × Bytes)
  ending : Ending
  incoming : Bytes
  deriving DecidableEq, Repr

namespace Peer

def fresh : Peer := ⟨[], .unfinished, []⟩

def readLimit : Nat := 2048

def send (time : Nat) (bytes : Bytes) (peer : Peer) : Peer :=
  if bytes.isEmpty then peer
  else
    let (before, after) := peer.outgoing.span fun entry => entry.1 ≤ time
    { peer with outgoing := before ++ (time, bytes) :: after }

/-- Ends the stream. A peer that has vanished stays so. -/
def finish (peer : Peer) : Peer :=
  if peer.ending = .vanished then peer else { peer with ending := .finished }

def vanish (peer : Peer) : Peer := { peer with ending := .vanished }

def accept (text : Text) (peer : Peer) : SendOutcome × Peer :=
  if peer.ending = .vanished then (.broken, peer)
  else (.delivered, { peer with incoming := peer.incoming ++ Message.encode text })

def receive (peer : Peer) : Option Text × Peer :=
  match Message.cut peer.incoming with
  | some (message, rest) =>
      ((Message.decode message).toOption, { peer with incoming := rest })
  | none => (none, peer)

def takeBytes (clock : Nat) : Nat → List (Nat × Bytes) → Bytes × List (Nat × Bytes)
  | _, [] => ([], [])
  | limit, (time, bytes) :: rest =>
      if time ≤ clock then
        if bytes.length ≤ limit then
          let (more, rest) := takeBytes clock (limit - bytes.length) rest
          (bytes ++ more, rest)
        else (bytes.take limit, (time, bytes.drop limit) :: rest)
      else ([], (time, bytes) :: rest)

def readNow (clock : Nat) (peer : Peer) : Option (ReadOutcome × Peer) :=
  match takeBytes clock readLimit peer.outgoing with
  | ([], []) =>
      match peer.ending with
      | .unfinished => none
      | .finished => some (.received [], peer)
      | .vanished => some (.failed, peer)
  | ([], _ :: _) => none
  | (bytes, rest) => some (.received bytes, { peer with outgoing := rest })

def nextArrival (peer : Peer) : Option Nat := peer.outgoing.head?.map Prod.fst

def unread (peer : Peer) : Nat := (peer.outgoing.flatMap Prod.snd).length

end Peer

structure Bench where
  connection : Connection
  peer : Peer
  clock : Nat
  deriving DecidableEq, Repr

namespace Bench

/-- Waits for the outcome of a read. Nothing is returned if the read would never end. -/
def read (bench : Bench) : Option (ReadOutcome × Bench) :=
  match bench.peer.readNow bench.clock with
  | some (outcome, peer) => some (outcome, { bench with peer := peer })
  | none =>
      let expiry := bench.connection.readTimeout.map fun limit => bench.clock + limit.nanoseconds
      match bench.peer.nextArrival, expiry with
      | none, none => none
      | none, some expiry => some (.timedOut, { bench with clock := expiry })
      | some arrival, expiry =>
          if expiry.any (· ≤ arrival) then
            some (.timedOut, { bench with clock := expiry.getD arrival })
          else
            (bench.peer.readNow arrival).map fun (outcome, peer) =>
              (outcome, { bench with peer := peer, clock := arrival })

/-- How often a look for a message can read, where every read takes a byte, reaches the end
of the stream, or moves the clock towards the last arrival. -/
def patience (bench : Bench) : Nat :=
  let horizon := (bench.peer.outgoing.getLast?.map Prod.fst).getD 0 - bench.clock
  let limit := (bench.connection.readTimeout.map Duration.nanoseconds).getD 1
  bench.peer.unread + horizon / limit + 3

/-- Reads until an operation of the connection has an answer. After a read that has taken
too long there is a pause. -/
def perform {Answer : Type} (pause : Duration)
    (operation : Connection → List ReadOutcome → Option Answer × Connection × List ReadOutcome) :
    Nat → Bench → Option Answer × Bench
  | 0, bench => (none, bench)
  | fuel + 1, bench =>
      match operation bench.connection [] with
      | (some answer, connection, _) => (some answer, { bench with connection := connection })
      | (none, connection, _) =>
          match read { bench with connection := connection } with
          | none => (none, bench)
          | some (outcome, bench) =>
              let (answer, connection, _) := operation connection [outcome]
              let bench := { bench with connection := connection }
              match answer with
              | some answer => (some answer, bench)
              | none =>
                  let paused := if outcome = .timedOut then pause.nanoseconds else 0
                  perform pause operation fuel { bench with clock := bench.clock + paused }

def poll (bench : Bench) : Option (Except Error Received) × Bench :=
  bench.perform ⟨0⟩ Connection.poll bench.patience

def receive (pause : Duration) (bench : Bench) : Option (Except Error Text) × Bench :=
  bench.perform pause Connection.receive bench.patience

def connect (outcome : ConnectOutcome) (bench : Bench) : Except Error Unit × Bench :=
  let (result, connection) := bench.connection.connect outcome
  (result, { bench with connection := connection })

def send (text : Text) (bench : Bench) : Except Error Unit × Bench :=
  match bench.connection.usable with
  | .error error => (.error error, bench)
  | .ok () =>
      let (outcome, peer) := bench.peer.accept text
      (bench.connection.send outcome, { bench with peer := peer })

def close (bench : Bench) : Bench := { bench with connection := bench.connection.close }

end Bench

end StepStream.Rehearsal
