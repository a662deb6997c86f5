import StepStream.Proofs.SyncLoop
import StepStream.Proofs.SyncWork

/-!
The moves of synchronous runs. What the reference loop still does is read off a run at any
moment. Every move that the world admits takes something of this away from the front, and
takes the run closer to its end.
-/

namespace StepStream.SyncRun

set_option autoImplicit false

open Text (Bytes)
open Response (StepResult)

variable {predicate : Option Text} {format : OutputFormat} {world later : World}
  {shown : List StepResult} {session : Session} {run next : SyncRun} {move : Move}
  {moves : List Move}

/-- What the reference loop still does, seen from where a run stands. -/
def expected (predicate : Option Text) (world : World) (shown : List StepResult)
    (run : SyncRun) : List Event × Except Error End :=
  match run.phase with
  | .receiving => loop predicate world.inputs shown (run.session.ahead world.stream)
  | .asking =>
      reply (carriedConstraints predicate shown) (world.inputs 0)
        (loop predicate world.asked.inputs shown (run.session.ahead world.stream))
  | .sending text true => ([.wrote text], .ok .stopped)
  | .sending text false =>
      let rest := loop predicate world.inputs shown (run.session.ahead world.stream)
      (.wrote text :: rest.1, rest.2)
  | .ended outcome => ([], outcome)

structure Ready (predicate : Option Text) (format : OutputFormat) (shown : List StepResult)
    (session : Session) : Prop where
  shows : session.format = format
  silent : session.config.echoInput = false
  connected : session.connection.state = .connected
  held : session.connection.socket = true
  found : session.connection.lost = false
  remembers : session.Remembers predicate shown

def isEnded (run : SyncRun) : Prop := ∃ outcome, run.phase = .ended outcome

def remaining : SyncPhase → Nat
  | .receiving => 1
  | .asking => 3
  | .sending _ _ => 2
  | .ended _ => 0

def backlog (session : Session) : Nat :=
  4 * session.assembly.queue.length + 5 * session.connection.decoder.pending.length

/-- How far a run is from its end. Every move takes something away: a line, a byte that has
arrived or one that is to arrive, or a part of the round. -/
def weight (world : World) (run : SyncRun) : Nat :=
  remaining run.phase + backlog run.session + world.unread

/-- What is true of a move that the reference loop makes too. -/
structure Advance (predicate : Option Text) (format : OutputFormat) (world later : World)
    (shown : List StepResult) (run next : SyncRun) (events : List Event) : Prop where
  printed : next.session.transcript =
    run.session.transcript ++ events.flatMap (Event.printed format)
  lighter : next.weight later < run.weight world
  goes_on : ∃ shownAfter, (next.isEnded ∨ Ready predicate format shownAfter next.session) ∧
    run.expected predicate world shown =
      (events ++ (next.expected predicate later shownAfter).1,
        (next.expected predicate later shownAfter).2)

theorem finish_advance {outcome : Except Error End} {events : List Event}
    (printed : session.transcript =
      run.session.transcript ++ events.flatMap (Event.printed format))
    (lighter : (finish session outcome).weight later < run.weight world)
    (ends : run.expected predicate world shown = (events, outcome)) :
    Advance predicate format world later shown run (finish session outcome) events where
  printed := printed
  lighter := lighter
  goes_on := by
    refine ⟨shown, .inl ⟨outcome, rfl⟩, ?_⟩
    rw [ends, finish, expected, List.append_nil]

theorem display_advance (ready : Ready predicate format shown session) {result : StepResult}
    {assembly : Response.Assembly}
    (shorter : assembly.queue.length < session.assembly.queue.length)
    (ahead : ∀ rest, session.assembly.ahead rest = .ok result :: assembly.ahead rest) :
    Advance predicate format world world shown ⟨session, .receiving⟩
      ⟨{ session with assembly := assembly }.display result, .asking⟩ [.shown result] where
  printed := by
    rw [List.flatMap_singleton, Event.printed, ← ready.shows]
    rfl
  lighter := by
    change 3 + (4 * assembly.queue.length + 5 * session.connection.decoder.pending.length) +
      world.unread < 1 + backlog session + world.unread
    rw [backlog]
    omega
  goes_on := by
    have before : { session with assembly := assembly }.Remembers predicate shown :=
      ready.remembers
    refine ⟨shown ++ [result], .inr ⟨ready.shows, ready.silent, ready.connected, ready.held,
      ready.found, Session.remembers_display before result⟩, ?_⟩
    rw [expected, Session.ahead, ahead]
    rfl

theorem message_advance (ready : Ready predicate format shown session)
    {assembly : Response.Assembly} (drained : assembly.queue = [])
    (ahead : ∀ rest, session.assembly.ahead rest = assembly.ahead rest)
    {segment rest : Bytes} (absent : Message.delimiter ∉ segment)
    (pending : session.connection.decoder.pending = segment ++ Message.delimiter :: rest) :
    Advance predicate format world world shown ⟨session, .receiving⟩
      (afterReceiving
        { session with
          assembly := assembly
          connection := { session.connection with decoder := ⟨rest⟩ } }
        (some (Connection.answerOf segment))) [] := by
  have found : session.ahead world.stream =
      assembly.ahead (messageLines segment ++ streamLines (rest ++ world.stream)) := by
    rw [Session.ahead_segment absent pending, ahead]
  have left : session.connection.decoder.pending.length = segment.length + (rest.length + 1) := by
    rw [pending, List.length_append, List.length_cons]
  unfold Connection.answerOf
  cases decoded : Message.decode segment with
  | ok text =>
      have lines := decoded_lines_length_le decoded
      rw [messageLines, decoded, ← Response.Assembly.ahead_push] at found
      refine ⟨?_, ?_, shown, .inr ⟨ready.shows, ready.silent, ready.connected, ready.held,
        ready.found, ready.remembers⟩, ?_⟩
      · exact (List.append_nil _).symm
      · change 1 + (4 * (assembly.queue ++ Text.lines text).length + 5 * rest.length) +
          world.unread < 1 + backlog session + world.unread
        rw [drained, backlog, left, List.nil_append]
        omega
      · exact congrArg (loop predicate world.inputs shown) found
  | error fault =>
      rw [messageLines, decoded] at found
      apply finish_advance (List.append_nil _).symm
      · change 0 + (4 * assembly.queue.length + 5 * rest.length) + world.unread <
          1 + backlog session + world.unread
        rw [drained, backlog, left, List.length_nil]
        omega
      · rw [expected, found, Response.Assembly.ahead, drained]
        rfl

theorem work_advance (ready : Ready predicate format shown session)
    (worked : work session = some next) :
    Advance predicate format world world shown ⟨session, .receiving⟩ next
      (emits ⟨session, .receiving⟩ .work) := by
  unfold emits
  dsimp only
  cases worked_of_work worked with
  | shown asked =>
      rw [asked]
      obtain ⟨assembly, rfl, shorter, ahead⟩ := Session.next_result_some asked
      exact display_advance ready shorter ahead
  | refused asked =>
      rw [asked]
      obtain ⟨assembly, rfl, shorter, ahead⟩ := Session.next_result_some asked
      apply finish_advance (List.append_nil _).symm
      · change 0 + (4 * assembly.queue.length +
            5 * session.connection.decoder.pending.length) + world.unread <
          1 + backlog session + world.unread
        rw [backlog]
        omega
      · rw [expected, Session.ahead, ahead]
        rfl
  | answered asked answers =>
      rw [asked]
      obtain ⟨assembly, rfl, drained, ahead⟩ := Session.next_result_none asked
      rcases Message.unfinished_or_segment session.connection.decoder.pending with
        absent | ⟨segment, rest, pending, absent⟩
      · cases (Connection.answer_of_unfinished ready.connected absent).symm.trans answers
      · cases (Connection.answer_segment ready.connected pending absent).symm.trans answers
        exact message_advance ready drained ahead absent pending

theorem portion_advance (ready : Ready predicate format shown session)
    {assembly : Response.Assembly} (drained : assembly.queue = [])
    (ahead : ∀ rest, session.assembly.ahead rest = assembly.ahead rest)
    {outcome : ReadOutcome} {connection : Connection}
    (connected : connection.state = .connected) (held : connection.socket = true)
    (found : connection.lost = false)
    (pending : connection.decoder.pending =
      session.connection.decoder.pending ++ outcome.bytes)
    (reads : world.reads = outcome :: later.reads) (inputs : later.inputs = world.inputs) :
    Advance predicate format world later shown ⟨session, .receiving⟩
      ⟨{ session with assembly := assembly, connection := connection }, .receiving⟩ [] where
  printed := (List.append_nil _).symm
  lighter := by
    change 1 + (4 * assembly.queue.length + 5 * connection.decoder.pending.length) +
      later.unread < 1 + backlog session + world.unread
    rw [drained, pending, World.unread_cons reads, backlog, List.length_append, List.length_nil]
    omega
  goes_on := by
    refine ⟨shown, .inr ⟨ready.shows, ready.silent, connected, held, found,
      ready.remembers⟩, ?_⟩
    have same : session.ahead world.stream =
        { session with assembly := assembly, connection := connection }.ahead later.stream := by
      rw [World.stream_cons reads, Session.ahead, ahead, Session.ahead, pending,
        List.append_assoc]
    rw [expected, expected, same, inputs]
    rfl

/-- A read finds the end of the stream, where an unfinished message is discarded. -/
theorem close_advance {assembly : Response.Assembly} (drained : assembly.queue = [])
    (ahead : ∀ rest, session.assembly.ahead rest = assembly.ahead rest)
    (absent : Message.delimiter ∉ session.connection.decoder.pending)
    (reads : world.reads = []) :
    Advance predicate format world world shown ⟨session, .receiving⟩
      (finish
        { session with
          assembly := assembly
          connection := { session.connection with decoder := .empty }.markClosed }
        (.ok .peerClosed)) [] := by
  have stream : world.stream = [] := by
    rw [World.stream, reads]
    rfl
  apply finish_advance (List.append_nil _).symm
  · change 0 + (4 * assembly.queue.length + 5 * 0) + world.unread <
      1 + backlog session + world.unread
    rw [drained, List.length_nil]
    omega
  · rw [expected, stream, Session.ahead_drained drained ahead absent]
    rfl

theorem read_advance {outcome : ReadOutcome} (ready : Ready predicate format shown session)
    (admitted : world.Admits (.read outcome) later)
    (stepped : step ⟨session, .receiving⟩ (.read outcome) = some next) :
    Advance predicate format world later shown ⟨session, .receiving⟩ next [] := by
  obtain ⟨assembly, idle, rfl⟩ := idle_of_read stepped
  cases admitted with
  | read _ reads inputs goes_on =>
      have goes := goes_on outcome List.mem_cons_self
      cases outcome with
      | received bytes =>
          cases bytes with
          | nil => cases goes
          | cons byte bytes =>
              exact portion_advance ready idle.drained idle.ahead ready.connected ready.held
                ready.found rfl rfl rfl
      | timedOut | interrupted =>
          exact portion_advance ready idle.drained idle.ahead ready.connected ready.held
            ready.found (List.append_nil _).symm rfl rfl
      | failed | unlimited => cases goes
  | close inputs goes_on =>
      have closed : Session.closedEnd
          { session with
            assembly := assembly
            connection := { session.connection with decoder := .empty }.markClosed } =
          .peerClosed := Session.closed_end_of_found ready.found
      dsimp only [Connection.absorb, afterReceiving]
      rw [closed]
      exact close_advance idle.drained idle.ahead idle.absent rfl

theorem begin_sending_ready (ready : Ready predicate format shown session) (text : Text)
    (isStop : Bool) : beginSending session text isStop = ⟨session, .sending text isStop⟩ := by
  have echo : session.echo text = session := by
    rw [Session.echo, ready.silent]
    rfl
  rw [begin_sending_of_connected ready.connected ready.held, echo]

theorem begin_advance {after : Session} {prompt text : Text} {isStop : Bool}
    (ready : Ready predicate format shown after) (same : backlog after = backlog session)
    (printed : after.transcript = session.transcript ++ prompt)
    (replied : expected predicate world shown ⟨session, .asking⟩ =
      (.prompted prompt :: (expected predicate world.asked shown ⟨after, .sending text isStop⟩).1,
        (expected predicate world.asked shown ⟨after, .sending text isStop⟩).2)) :
    Advance predicate format world world.asked shown ⟨session, .asking⟩
      (beginSending after text isStop) [.prompted prompt] := by
  rw [begin_sending_ready ready]
  refine ⟨?_, ?_, shown, .inr ready, replied⟩
  · rw [List.flatMap_singleton, Event.printed, printed]
  · change 2 + backlog after + world.unread < 3 + backlog session + world.unread
    omega

theorem take_advance (ready : Ready predicate format shown session) :
    Advance predicate format world world.asked shown ⟨session, .asking⟩
      (take session (world.inputs 0)) [.prompted (world.inputs 0).prompt] := by
  have answered (status : Status) : Ready predicate format shown
      ({ session with status := status }.print (world.inputs 0).prompt) :=
    ⟨ready.shows, ready.silent, ready.connected, ready.held, ready.found, ready.remembers⟩
  have constraints := Session.constraints_of_remembers ready.remembers
  unfold take
  dsimp only
  cases input : (world.inputs 0).input with
  | error fault =>
      apply finish_advance
      · rw [List.flatMap_singleton, Event.printed]
        rfl
      · change 0 + backlog session + world.unread < 3 + backlog session + world.unread
        omega
      · rw [expected, reply, input]
  | ok asked =>
      cases asked with
      | stop =>
          refine begin_advance (answered _) rfl rfl ?_
          rw [expected, reply, input]
          rfl
      | fragment fragment =>
          refine begin_advance (answered _) rfl rfl ?_
          rw [expected, reply, input, ← constraints]
          rfl

theorem sent_advance {text : Text} {isStop : Bool}
    (ready : Ready predicate format shown session)
    (stepped : step ⟨session, .sending text isStop⟩ (.sent .delivered) = some next) :
    Advance predicate format world world shown ⟨session, .sending text isStop⟩ next
      [.wrote text] := by
  have printed : session.transcript = session.transcript ++
      ([.wrote text] : List Event).flatMap (Event.printed format) :=
    (List.append_nil _).symm
  cases isStop with
  | true =>
      cases stepped
      have closes : session.connection.close = session.connection.markClosed := by
        rw [Connection.close, ready.connected, if_neg (by decide)]
      dsimp only
      rw [closes]
      refine finish_advance printed ?_ rfl
      change 0 + backlog session + world.unread < 2 + backlog session + world.unread
      omega
  | false =>
      cases stepped
      refine ⟨printed, ?_, shown, .inr ready, rfl⟩
      change 1 + backlog session + world.unread < 2 + backlog session + world.unread
      omega

end StepStream.SyncRun
