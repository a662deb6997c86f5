import StepStream.Rehearsal.Peer
import StepStream.Text.Lines

/-!
Scripted servers. A server follows its cues as far as it can, and waits where a cue needs a
message of the client or some time. Behind its last cue it ends its stream and reads what
the client still sends.
-/

namespace StepStream.Rehearsal

set_option autoImplicit false

open Text (Bytes)

inductive Cue where
  | send (bytes : Bytes)
  | pause (span : Duration)
  | expect
  /-- Waits until the client has sent something, leaves it unread and vanishes. -/
  | reset
  deriving DecidableEq, Repr

structure ScriptedServer where
  cues : List Cue
  peer : Peer
  received : List Text
  wakes : Nat
  isAlone : Bool
  deriving DecidableEq, Repr

namespace ScriptedServer

def ofCues (cues : List Cue) : ScriptedServer := ⟨cues, .fresh, [], 0, false⟩

def messages (bytes : Bytes) : List Text :=
  (Text.splitAfter Message.delimiter bytes).filterMap fun piece =>
    if piece.getLast? = some Message.delimiter then (Message.decode piece.dropLast).toOption
    else none

def readAll (server : ScriptedServer) : ScriptedServer :=
  { server with
    peer := { server.peer with incoming := [] }
    received := server.received ++ messages server.peer.incoming }

/-- What a server does that has no cues left, unless it has vanished. -/
def conclude (server : ScriptedServer) : ScriptedServer :=
  if server.peer.ending = .vanished then server
  else readAll { server with peer := server.peer.finish }

/-- Follows cues until one of them has to wait. -/
def follow (clock : Nat) (server : ScriptedServer) (cues : List Cue) : ScriptedServer :=
  if clock < server.wakes then { server with cues := cues }
  else match cues with
    | [] => conclude { server with cues := [] }
    | .send bytes :: rest =>
        follow clock { server with peer := server.peer.send clock bytes } rest
    | .pause span :: rest => follow clock { server with wakes := clock + span.nanoseconds } rest
    | .expect :: rest =>
        match server.peer.receive with
        | (some message, peer) =>
            follow clock { server with peer, received := server.received ++ [message] } rest
        | (none, _) => { server with cues := if server.isAlone then [] else .expect :: rest }
    | .reset :: rest =>
        if server.peer.incoming.isEmpty then { server with cues := .reset :: rest }
        else { server with cues := [], peer := server.peer.vanish }

def advance (clock : Nat) (server : ScriptedServer) : ScriptedServer :=
  server.follow clock server.cues

def accept (text : Text) (server : ScriptedServer) : SendOutcome × ScriptedServer :=
  let (outcome, peer) := server.peer.accept text
  (outcome, { server with peer := peer })

def leave (server : ScriptedServer) : ScriptedServer := { server with isAlone := true }

def nextWake (clock : Nat) (server : ScriptedServer) : Option Nat :=
  if clock < server.wakes then some server.wakes else none

def isPause : Cue → Bool
  | .pause _ => true
  | _ => false

/-- The messages that the server has read when the client has left and all cues are done. -/
def allReceived (clock : Nat) (server : ScriptedServer) : List Text :=
  (follow clock { server with isAlone := true, wakes := 0 }
    (server.cues.filter fun cue => !isPause cue)).received

def outstanding (server : ScriptedServer) : Nat :=
  (server.cues.flatMap fun cue =>
    match cue with
    | .send bytes => bytes
    | _ => []).length + server.peer.unread

/-- The time until which the server pauses at most, if it never has to wait. -/
def horizon (clock : Nat) (server : ScriptedServer) : Nat :=
  server.cues.foldl
    (fun total cue =>
      match cue with
      | .pause span => total + span.nanoseconds
      | _ => total)
    (server.wakes - clock)

end ScriptedServer

end StepStream.Rehearsal
