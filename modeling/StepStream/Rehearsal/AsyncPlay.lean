import StepStream.Rehearsal.Script
import StepStream.Session.Async
import StepStream.Source.Supply

/-!
Asynchronous runs against a scripted server, in one of the possible orders of moves: the
producer goes before the main line, and time passes only when neither side can move.
-/

namespace StepStream.Rehearsal

set_option autoImplicit false

structure AsyncPlay where
  run : AsyncRun
  source : Source
  server : ScriptedServer
  clock : Nat
  showsPrompts : Bool
  sentAt : Nat
  readSince : Nat
  resumes : Nat

namespace AsyncPlay

/-- Lets the server take note of what the client has done. -/
def settle (play : AsyncPlay) : AsyncPlay :=
  let server :=
    if play.run.session.connection.state = .closed then play.server.leave else play.server
  { play with server := server.advance play.clock }

def start (session : Session) (source : Source) (server : ScriptedServer) (clock : Nat)
    (showsPrompts : Bool) : AsyncPlay :=
  settle
    { run := .start session source.isPaced
      source, server, clock, showsPrompts
      sentAt := clock
      readSince := clock
      resumes := clock }

def step (move : AsyncRun.Move) (play : AsyncPlay) : Option AsyncPlay :=
  (play.run.step move).map fun run => { play with run }

def pauseEnd (play : AsyncPlay) : Nat :=
  match play.run.session.config.pacing with
  | .delay span => play.clock + span.nanoseconds
  | .immediate | .awaitAnswer _ => play.clock

def showPrompt (prompt : Text) (play : AsyncPlay) : AsyncPlay :=
  if play.showsPrompts then
    { play with run := { play.run with session := play.run.session.print prompt } }
  else play

def moveProducer (play : AsyncPlay) : Option AsyncPlay :=
  match play.run.producer with
  | .starting => { play with resumes := play.pauseEnd }.step .begin
  | .pacing => if play.clock < play.resumes then none else play.step .paced
  | .asking =>
      let (answer, source) := play.source.next play.run.session.status.step
      ({ play with source }.showPrompt answer.prompt).step (.supplied answer)
  | .taking _ => play.step .cleared
  | .handing _ => play.step .handed
  | .holding => play.step .released
  | .gone => none

/-- The time at which the read that has begun is given up. -/
def expiry (play : AsyncPlay) : Option Nat :=
  play.run.session.connection.readTimeout.map fun limit => play.readSince + limit.nanoseconds

def isLate (play : AsyncPlay) : Bool :=
  match play.run.session.config.pacing with
  | .awaitAnswer span => span.nanoseconds ≤ play.clock - play.sentAt
  | .immediate | .delay _ => false

def listen (play : AsyncPlay) : Option AsyncPlay :=
  match play.server.peer.readNow play.clock with
  | some (outcome, peer) =>
      { play with server := { play.server with peer }, readSince := play.clock }.step
        (.read outcome false)
  | none =>
      if play.expiry.any (· ≤ play.clock) then play.step (.read .timedOut play.isLate) else none

def moveMain (play : AsyncPlay) : Option AsyncPlay :=
  match play.run.main with
  | .forwarding => { play with readSince := play.clock }.step .forward
  | .sending text _ =>
      let (outcome, server) := play.server.accept text
      { play with server, sentAt := play.clock }.step (.sent outcome)
  | .polling => play.step .work <|> play.listen
  | .showing => play.step .work
  | .ended _ => none

/-- Waiting for the first of the times at which something can go on. -/
def wait (play : AsyncPlay) : Option AsyncPlay :=
  let resumption := if play.clock < play.resumes then some play.resumes else none
  let times := [play.server.nextWake play.clock, resumption, play.expiry].filterMap id
  times.min?.map fun clock => { play with clock := max clock play.clock }

def move (play : AsyncPlay) : Option AsyncPlay :=
  if play.run.isEnded then none else play.moveProducer <|> play.moveMain <|> play.wait

def finish : Nat → AsyncPlay → AsyncPlay
  | 0, play => play
  | fuel + 1, play =>
      match play.move with
      | none => play
      | some play => finish fuel play.settle

def inputs : Source → Nat
  | .buffer buffer => buffer.length + 1
  | .interactive reader => reader.terminal.lines.length + 2
  | .query reader => reader.terminal.lines.length + 1

def horizon (play : AsyncPlay) : Nat :=
  let pause :=
    match play.run.session.config.pacing with
    | .delay span | .awaitAnswer span => span.nanoseconds
    | .immediate => 0
  play.server.horizon play.clock + (inputs play.source + 1) * pause

/-- Enough moves. An input takes few moves, and so does a byte of the server or a read that
is given up. -/
def patience (play : AsyncPlay) : Nat :=
  let limit := (play.run.session.connection.readTimeout.map Duration.nanoseconds).getD 1
  10 * (play.server.outstanding + play.server.cues.length + inputs play.source +
    play.run.session.assembly.queue.length + play.run.session.connection.decoder.pending.length +
    play.horizon / limit + 8)

def whole (play : AsyncPlay) : AsyncPlay := finish play.patience play

end AsyncPlay

end StepStream.Rehearsal
