import StepStream.Rehearsal.Script
import StepStream.Session.Sync
import StepStream.Source.Supply

/-!
Synchronous runs against a scripted server. Reads wait as long as it takes, so the answers
of the server decide alone what happens.
-/

namespace StepStream.Rehearsal

set_option autoImplicit false

structure SyncPlay where
  run : SyncRun
  source : Source
  server : ScriptedServer
  clock : Nat

namespace SyncPlay

def settle (play : SyncPlay) : SyncPlay :=
  let server :=
    if play.run.session.connection.state = .closed then play.server.leave else play.server
  { play with server := server.advance play.clock }

def start (session : Session) (source : Source) (server : ScriptedServer) (clock : Nat) :
    SyncPlay :=
  settle { run := .start session, source, server, clock }

/-- The pause before the source is asked. A result has just been shown, so there is no
answer to wait for. -/
def pause (play : SyncPlay) : Nat :=
  match play.run.session.config.pacing with
  | .delay span => if play.source.isPaced then span.nanoseconds else 0
  | .immediate | .awaitAnswer _ => 0

def listen (play : SyncPlay) : Option SyncPlay :=
  match play.server.peer.readNow play.clock with
  | some (outcome, peer) =>
      (play.run.step (.read outcome)).map fun run =>
        { play with run, server := { play.server with peer } }
  | none => (play.server.nextWake play.clock).map fun clock => { play with clock }

def move (play : SyncPlay) : Option SyncPlay :=
  match play.run.phase with
  | .ended _ => none
  | .receiving =>
      match play.run.step .work with
      | some run => some { play with run }
      | none => play.listen
  | .asking =>
      let (answer, source) := play.source.next play.run.session.status.step
      (play.run.step (.supplied answer)).map fun run =>
        { play with run, source, clock := play.clock + play.pause }
  | .sending text _ =>
      let (outcome, server) := play.server.accept text
      (play.run.step (.sent outcome)).map fun run => { play with run, server }

def finish : Nat → SyncPlay → SyncPlay
  | 0, play => play
  | fuel + 1, play =>
      match play.move with
      | none => play
      | some play => finish fuel play.settle

/-- Enough moves. Every result comes from bytes of the server and lets the source be asked
once, and all other moves take bytes or cues away. -/
def patience (play : SyncPlay) : Nat :=
  8 * (play.server.outstanding + play.server.cues.length + play.run.session.assembly.queue.length +
    play.run.session.connection.decoder.pending.length + 4)

def whole (play : SyncPlay) : SyncPlay := finish play.patience play

end SyncPlay

end StepStream.Rehearsal
