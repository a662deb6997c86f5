import StepStream.Proofs.SyncMoves

/-!
Whole synchronous runs. What stands around a run answers whatever the run asks, so from any
point there is only one way on. The record that is left at the end depends on the results that
the stream yields, not on the portions in which its bytes arrive or on the lines between the
results.
-/

namespace StepStream

set_option autoImplicit false

open Text (Bytes)
open Response (StepResult)

namespace Session

/-- A session without what depends on the bytes that have arrived. -/
def visible (session : Session) : Session :=
  { session with connection := .toAddress [] 0, assembly := .empty }

theorem visible_echo (session : Session) (text : Text) :
    (session.echo text).visible = session.visible.echo text := by
  unfold echo visible
  dsimp only
  split <;> rfl

theorem visible_wire_text (session : Session) (input : StepInput) :
    session.visible.wireText input = session.wireText input := by
  cases input <;> rfl

theorem ahead_echo (session : Session) (text : Text) (later : Bytes) :
    (session.echo text).ahead later = session.ahead later := by
  obtain ⟨transcript, echoed⟩ := echo_changes_transcript session text
  rw [echoed]
  rfl

end Session

namespace SyncRun

/-- The statuses at which the source has been asked, and the texts that have been sent, each
with what came of it. -/
structure Log where
  asked : List Status
  sent : List (Text × SendOutcome)

namespace Log

def empty : Log := ⟨[], []⟩

def ask (log : Log) (status : Status) : Log := { log with asked := log.asked ++ [status] }

def send (log : Log) (text : Text) (outcome : SendOutcome) : Log :=
  { log with sent := log.sent ++ [(text, outcome)] }

end Log

inductive Ending where
  | closed
  | broken
  | unlimited (reason : Text)

namespace Ending

def outcome : Ending → ReadOutcome
  | closed => .received []
  | broken => .failed
  | unlimited reason => .unlimited reason

def conclusion : Ending → Except Error End
  | closed => .ok .peerClosed
  | broken => .ok .connectionLost
  | unlimited reason => .error (.file (.other reason))

end Ending

/-- What answers a run, besides the stream. The source may go by every status at which it has
been asked, a send by everything that has been sent. -/
structure Surroundings where
  source : List Status → Supplied
  sends : List (Text × SendOutcome) → Text → SendOutcome
  /-- What comes behind the stream. Without anything, the last read waits forever. -/
  ending : Option Ending

/-- A run, the reads that are to come, and what has been asked and sent. -/
structure Performance where
  run : SyncRun
  reads : List ReadOutcome
  log : Log

structure Record where
  transcript : Text
  log : Log
  report : Option (Except Error Summary)
  status : Status

namespace Performance

def begin (session : Session) (reads : List ReadOutcome) : Performance :=
  ⟨start session, reads, .empty⟩

def stream (performance : Performance) : Bytes := performance.reads.flatMap ReadOutcome.bytes

def record (performance : Performance) : Record where
  transcript := performance.run.session.transcript
  log := performance.log
  report :=
    match performance.run.phase with
    | .ended outcome => some (performance.run.session.report outcome)
    | _ => none
  status := performance.run.session.status

end Performance

namespace Surroundings

/-- The one next move, or nothing if the run is over or waits forever. -/
def advance (around : Surroundings) (performance : Performance) : Option Performance :=
  match performance.run.phase with
  | .receiving =>
      match performance.run.step .work with
      | some run => some { performance with run := run }
      | none =>
          match performance.reads with
          | outcome :: reads =>
              (performance.run.step (.read outcome)).map fun run =>
                { performance with run := run, reads := reads }
          | [] =>
              match around.ending with
              | some ending =>
                  (performance.run.step (.read ending.outcome)).map fun run =>
                    { performance with run := run }
              | none => none
  | .asking =>
      let log := performance.log.ask performance.run.session.status
      (performance.run.step (.supplied (around.source log.asked))).map fun run =>
        { performance with run := run, log := log }
  | .sending text _ =>
      let outcome := around.sends performance.log.sent text
      (performance.run.step (.sent outcome)).map fun run =>
        { performance with run := run, log := performance.log.send text outcome }
  | .ended _ => none

/-- Whether the moves lead from the first to the last, where there is no next one. -/
inductive Completes (around : Surroundings) : Performance → Performance → Prop
  | rest {performance : Performance} (stuck : around.advance performance = none) :
      Completes around performance performance
  | move {performance next final : Performance} (moves : around.advance performance = some next)
      (others : Completes around next final) : Completes around performance final

end Surroundings

/-! The record, read off the results. -/

def concluded (log : Log) (session : Session) (outcome : Except Error End) : Record :=
  ⟨session.transcript, log, some (session.report outcome), session.status.requestExit⟩

namespace Surroundings

def behind (around : Surroundings) (log : Log) (session : Session) : Record :=
  match around.ending with
  | none => ⟨session.transcript, log, none, session.status⟩
  | some ending => concluded log session ending.conclusion

def afterSending (around : Surroundings) (later : Log → Session → Record) (log : Log)
    (session : Session) (text : Text) (isStop : Bool) : Record :=
  let outcome := around.sends log.sent text
  let log := log.send text outcome
  match Connection.sendResult outcome with
  | .error fault => concluded log session (.error fault)
  | .ok () => if isStop then concluded log session (.ok .stopped) else later log session

def afterAsking (around : Surroundings) (later : Log → Session → Record) (log : Log)
    (session : Session) : Record :=
  let log := log.ask session.status
  let answer := around.source log.asked
  let session :=
    { session with status := { session.status with step := answer.step } }.print answer.prompt
  match answer.input with
  | .error fault => concluded log session (.error fault)
  | .ok (.fragment fragment) =>
      let session := { session with status := session.status.fragmentTaken }
      let text := session.wireText (.fragment fragment)
      around.afterSending later log (session.echo text) text false
  | .ok .stop =>
      let text := session.wireText .stop
      around.afterSending later log (session.echo text) text true

/-- The course of a run over the results and faults that the stream yields. -/
def course (around : Surroundings) :
    List (Except Error StepResult) → Log → Session → Record
  | [], log, session => around.behind log session
  | .error fault :: _, log, session => concluded log session (.error fault)
  | .ok result :: rest, log, session =>
      around.afterAsking (around.course rest) log (session.display result)

/-- The record that a run will have left, seen from where it stands. -/
def expected (around : Surroundings) (performance : Performance) : Record :=
  let session := performance.run.session.visible
  let rest := around.course (performance.run.session.ahead performance.stream)
  match performance.run.phase with
  | .receiving => rest performance.log session
  | .asking => around.afterAsking rest performance.log session
  | .sending text isStop => around.afterSending rest performance.log session text isStop
  | .ended outcome =>
      ⟨session.transcript, performance.log, some (session.report outcome), session.status⟩

variable {around : Surroundings} {session : Session} {performance next : Performance}
  {run : SyncRun} {reads : List ReadOutcome} {log : Log}

def unread (reads : List ReadOutcome) : Nat :=
  reads.length + 6 * (reads.flatMap ReadOutcome.bytes).length

/-- How far a run is from its end. That a connection is lost is noticed later. -/
def weight (performance : Performance) : Nat :=
  2 * (remaining performance.run.phase + backlog performance.run.session +
    unread performance.reads) + performance.run.session.connection.isConnected.toNat

/-- A session whose connection holds, with reads that bring whole messages. -/
structure Holds (session : Session) (reads : List ReadOutcome) : Prop where
  connected : session.connection.state = .connected
  held : session.connection.socket = true
  found : session.connection.lost = false
  goes_on : ∀ outcome ∈ reads, outcome.goesOn = true
  whole : Message.unfinished
    (session.connection.decoder.pending ++ reads.flatMap ReadOutcome.bytes) = []

/-- Where a run stands: in the middle of the stream, behind it with the connection lost, or at
its end. -/
inductive Standing (around : Surroundings) : Performance → Prop
  | holding {run : SyncRun} {reads : List ReadOutcome} {log : Log}
      (holds : Holds run.session reads) : Standing around ⟨run, reads, log⟩
  | broken {session : Session} {log : Log} (breaks : around.ending = some .broken)
      (closed : session.connection.state = .closed) (lost : session.connection.lost = true)
      (drained : session.connection.decoder.pending = [])
      (queue : session.assembly.queue = []) : Standing around ⟨⟨session, .receiving⟩, [], log⟩
  | finished {session : Session} {outcome : Except Error End} {reads : List ReadOutcome} {log : Log} :
      Standing around ⟨⟨session, .ended outcome⟩, reads, log⟩

structure Carries (around : Surroundings) (performance next : Performance) : Prop where
  standing : Standing around next
  same : around.expected next = around.expected performance
  lighter : weight next < weight performance

theorem carries_finish {outcome : Except Error End} {later : Log}
    (concludes : around.expected performance = concluded later session.visible outcome)
    (goes : 0 < remaining performance.run.phase)
    (left : backlog session + unread reads ≤
      backlog performance.run.session + unread performance.reads) :
    Carries around performance ⟨finish session outcome, reads, later⟩ where
  standing := .finished
  same := concludes.symm
  lighter := by
    have connected := session.connection.isConnected.toNat_le
    change 2 * (0 + backlog session + unread reads) + session.connection.isConnected.toNat < _
    rw [weight]
    omega

theorem carries_shown (holds : Holds session reads) {result : StepResult} {later : Session}
    (asked : session.nextResult = (some (.ok result), later)) :
    Carries around ⟨⟨session, .receiving⟩, reads, log⟩
      ⟨⟨later.display result, .asking⟩, reads, log⟩ := by
  obtain ⟨assembly, rfl, shorter, ahead⟩ := Session.next_result_some asked
  refine ⟨.holding ⟨holds.connected, holds.held, holds.found, holds.goes_on, holds.whole⟩, ?_, ?_⟩
  · rw [expected, expected]
    dsimp only
    rw [Session.ahead, Session.ahead, ahead]
    rfl
  · change weight ⟨⟨{ session with assembly := assembly }, .asking⟩, reads, log⟩ < _
    simp only [weight, remaining, backlog]
    omega

theorem carries_refused {fault : Error} {later : Session}
    (asked : session.nextResult = (some (.error fault), later)) :
    Carries around ⟨⟨session, .receiving⟩, reads, log⟩
      ⟨finish later (.error fault), reads, log⟩ := by
  obtain ⟨assembly, rfl, shorter, ahead⟩ := Session.next_result_some asked
  refine carries_finish ?_ Nat.zero_lt_one ?_
  · rw [expected]
    dsimp only
    rw [Session.ahead, ahead]
    rfl
  · simp only [backlog]
    omega

theorem carries_message (holds : Holds session reads) {assembly : Response.Assembly}
    (queue : assembly.queue = [])
    (ahead : ∀ rest, session.assembly.ahead rest = assembly.ahead rest)
    {segment rest : Bytes} (absent : Message.delimiter ∉ segment)
    (pending : session.connection.decoder.pending = segment ++ Message.delimiter :: rest) :
    Carries around ⟨⟨session, .receiving⟩, reads, log⟩
      ⟨afterReceiving
        { session with
          assembly := assembly
          connection := { session.connection with decoder := ⟨rest⟩ } }
        (some (Connection.answerOf segment)), reads, log⟩ := by
  let stream := reads.flatMap ReadOutcome.bytes
  have found : session.ahead stream =
      assembly.ahead (messageLines segment ++ streamLines (rest ++ stream)) := by
    rw [Session.ahead_segment absent pending, ahead]
  have whole : Message.unfinished (rest ++ stream) = [] := by
    have all := holds.whole
    rwa [pending, List.append_assoc, List.cons_append, (Message.segments_cons absent _).2] at all
  have size : session.connection.decoder.pending.length =
      segment.length + (rest.length + 1) := by
    rw [pending, List.length_append, List.length_cons]
  unfold Connection.answerOf
  cases decoded : Message.decode segment with
  | ok text =>
      have fewer := decoded_lines_length_le decoded
      rw [messageLines, decoded, ← Response.Assembly.ahead_push] at found
      refine ⟨.holding ⟨holds.connected, holds.held, holds.found, holds.goes_on, whole⟩, ?_, ?_⟩
      · exact congrArg (fun results => around.course results log session.visible) found.symm
      · change weight ⟨⟨{ session with
          assembly := assembly.push text
          connection := { session.connection with decoder := ⟨rest⟩ } }, .receiving⟩,
            reads, log⟩ < _
        simp only [weight, remaining, backlog, Response.Assembly.push, queue, List.nil_append,
          Connection.isConnected, size]
        omega
  | error fault =>
      rw [messageLines, decoded] at found
      refine carries_finish ?_ Nat.zero_lt_one ?_
      · rw [expected]
        dsimp only
        rw [Performance.stream, found, Response.Assembly.ahead, queue]
        rfl
      · simp only [backlog, queue, size, List.length_nil]
        omega

theorem carries_work (standing : Standing around ⟨⟨session, .receiving⟩, reads, log⟩)
    (worked : work session = some run) :
    Carries around ⟨⟨session, .receiving⟩, reads, log⟩ ⟨run, reads, log⟩ := by
  cases standing with
  | holding holds =>
      cases worked_of_work worked with
      | shown asked => exact carries_shown holds asked
      | refused asked => exact carries_refused asked
      | answered asked answers =>
          obtain ⟨assembly, rfl, queue, ahead⟩ := Session.next_result_none asked
          rcases Message.unfinished_or_segment session.connection.decoder.pending with
            absent | ⟨segment, rest, pending, absent⟩
          · cases (Connection.answer_of_unfinished holds.connected absent).symm.trans answers
          · cases (Connection.answer_segment holds.connected pending absent).symm.trans answers
            exact carries_message holds queue ahead absent pending
  | broken breaks closed lost drained queue =>
      cases worked_of_work worked with
      | shown asked =>
          obtain ⟨assembly, -, shorter, -⟩ := Session.next_result_some asked
          rw [queue] at shorter
          exact absurd shorter (Nat.not_lt_zero _)
      | refused asked =>
          obtain ⟨assembly, -, shorter, -⟩ := Session.next_result_some asked
          rw [queue] at shorter
          exact absurd shorter (Nat.not_lt_zero _)
      | answered asked answers =>
          obtain ⟨assembly, rfl, later, ahead⟩ := Session.next_result_none asked
          have absent : Message.delimiter ∉ session.connection.decoder.pending := by
            rw [drained]
            exact List.not_mem_nil
          have answer := Connection.answer_of_closed closed absent
          rw [if_pos drained] at answer
          cases answer.symm.trans answers
          have nothing := Session.ahead_drained queue (fun _ => rfl) absent
          have ending : { session with assembly := assembly }.closedEnd = .connectionLost :=
            if_pos lost
          dsimp only [afterReceiving]
          rw [ending]
          refine carries_finish ?_ Nat.zero_lt_one ?_
          · rw [expected]
            dsimp only
            rw [Performance.stream, List.flatMap_nil, nothing, course, behind, breaks]
            rfl
          · simp only [backlog, queue, later]
            omega

theorem carries_portion {outcome : ReadOutcome} (holds : Holds session (outcome :: reads))
    {assembly : Response.Assembly} (queue : assembly.queue = [])
    (ahead : ∀ rest, session.assembly.ahead rest = assembly.ahead rest) {connection : Connection}
    (connected : connection.state = .connected) (held : connection.socket = true)
    (found : connection.lost = false)
    (pending : connection.decoder.pending =
      session.connection.decoder.pending ++ outcome.bytes) :
    Carries around ⟨⟨session, .receiving⟩, outcome :: reads, log⟩
      ⟨⟨{ session with assembly := assembly, connection := connection }, .receiving⟩, reads,
        log⟩ := by
  have stream : connection.decoder.pending ++ reads.flatMap ReadOutcome.bytes =
      session.connection.decoder.pending ++
        (outcome :: reads).flatMap ReadOutcome.bytes := by
    rw [pending, List.flatMap_cons, List.append_assoc]
  refine ⟨.holding ⟨connected, held, found, ?_, ?_⟩, ?_, ?_⟩
  · exact fun other member => holds.goes_on other (List.mem_cons_of_mem outcome member)
  · rw [stream]
    exact holds.whole
  · rw [expected, expected]
    dsimp only
    rw [Performance.stream, Performance.stream, Session.ahead, Session.ahead, stream, ahead]
    rfl
  · simp only [weight, remaining, backlog, unread, queue, pending, List.flatMap_cons,
      List.length_append, List.length_cons, List.length_nil, Connection.isConnected, connected,
      holds.connected]
    omega

theorem carries_read {outcome : ReadOutcome} (holds : Holds session (outcome :: reads))
    (stepped : step ⟨session, .receiving⟩ (.read outcome) = some run) :
    Carries around ⟨⟨session, .receiving⟩, outcome :: reads, log⟩ ⟨run, reads, log⟩ := by
  obtain ⟨assembly, idle, rfl⟩ := idle_of_read stepped
  have goes := holds.goes_on outcome List.mem_cons_self
  cases outcome with
  | received bytes =>
      cases bytes with
      | nil => cases goes
      | cons byte bytes =>
          exact carries_portion holds idle.drained idle.ahead holds.connected holds.held
            holds.found rfl
  | timedOut | interrupted =>
      exact carries_portion holds idle.drained idle.ahead holds.connected holds.held holds.found
        (List.append_nil _).symm
  | failed | unlimited => cases goes

/-- The connection breaks behind the stream, and the run has not noticed yet. -/
theorem carries_broken (holds : Holds session []) (breaks : around.ending = some .broken)
    (drained : session.connection.decoder.pending = []) {assembly : Response.Assembly}
    (queue : assembly.queue = [])
    (ahead : ∀ rest, session.assembly.ahead rest = assembly.ahead rest) :
    Carries around ⟨⟨session, .receiving⟩, [], log⟩
      ⟨⟨{ session with
        assembly := assembly
        connection := { session.connection with lost := true }.markClosed }, .receiving⟩, [],
        log⟩ where
  standing := .broken breaks rfl rfl drained queue
  same := congrArg (fun results => around.course results log session.visible) (ahead _).symm
  lighter := by
    have held : session.connection.isConnected = true := decide_eq_true holds.connected
    change 2 * (1 + (4 * assembly.queue.length +
        5 * session.connection.decoder.pending.length) + unread []) + 0 <
      2 * (1 + backlog session + unread []) + session.connection.isConnected.toNat
    rw [held, queue, backlog, List.length_nil, Bool.toNat_true]
    omega

theorem carries_ending {ending : Ending} (holds : Holds session [])
    (ends : around.ending = some ending)
    (stepped : step ⟨session, .receiving⟩ (.read ending.outcome) = some run) :
    Carries around ⟨⟨session, .receiving⟩, [], log⟩ ⟨run, [], log⟩ := by
  obtain ⟨assembly, idle, rfl⟩ := idle_of_read stepped
  have drained : session.connection.decoder.pending = [] := by
    have whole := holds.whole
    rwa [List.flatMap_nil, List.append_nil, (Message.segments_of_unfinished idle.absent).2]
      at whole
  have nothing := Session.ahead_drained idle.drained idle.ahead idle.absent
  have expects : around.expected ⟨⟨session, .receiving⟩, [], log⟩ =
      concluded log session.visible ending.conclusion := by
    rw [expected]
    dsimp only
    rw [Performance.stream, List.flatMap_nil, nothing, course, behind, ends]
  cases ending with
  | closed =>
      have found : Session.closedEnd
          { session with
            assembly := assembly
            connection := { session.connection with decoder := .empty }.markClosed } =
          .peerClosed := Session.closed_end_of_found holds.found
      dsimp only [Ending.outcome, Connection.absorb, afterReceiving]
      rw [found]
      refine carries_finish expects Nat.zero_lt_one ?_
      simp [backlog, idle.drained, Connection.markClosed, Message.Decoder.empty]
  | broken => exact carries_broken holds ends drained idle.drained idle.ahead
  | unlimited reason =>
      refine carries_finish expects Nat.zero_lt_one ?_
      simp only [backlog, idle.drained, List.length_nil, Ending.outcome, Connection.absorb]
      omega

theorem carries_begin (holds : Holds session reads) {status : Status} {transcript : Text}
    {input : StepInput} {isStop : Bool} {later : Log} {after : Session}
    (answered : after = { session with status := status, transcript := transcript })
    (replied : around.expected ⟨⟨session, .asking⟩, reads, log⟩ =
      around.afterSending (around.course (session.ahead (reads.flatMap ReadOutcome.bytes))) later
        (after.visible.echo (after.visible.wireText input)) (after.visible.wireText input)
        isStop) :
    Carries around ⟨⟨session, .asking⟩, reads, log⟩
      ⟨beginSending after (after.wireText input) isStop, reads, later⟩ := by
  have connected : after.connection.state = .connected := by rw [answered, holds.connected]
  have held : after.connection.socket = true := by rw [answered, holds.held]
  rw [begin_sending_of_connected connected held]
  obtain ⟨shown, echoed⟩ := Session.echo_changes_transcript after (after.wireText input)
  refine ⟨.holding ?_, ?_, ?_⟩
  · rw [echoed, answered]
    exact ⟨holds.connected, holds.held, holds.found, holds.goes_on, holds.whole⟩
  · rw [replied, expected]
    dsimp only
    rw [Session.visible_echo, Session.ahead_echo, Session.visible_wire_text, answered]
    rfl
  · rw [weight]
    dsimp only
    rw [echoed, answered]
    simp only [weight, remaining, backlog]
    omega

theorem carries_take (holds : Holds session reads) :
    Carries around ⟨⟨session, .asking⟩, reads, log⟩
      ⟨take session (around.source (log.ask session.status).asked), reads,
        log.ask session.status⟩ := by
  generalize asks : around.source (log.ask session.status).asked = answer
  have asked : around.source (log.ask session.visible.status).asked = answer := asks
  unfold take
  dsimp only
  split
  · next fault failed =>
      refine carries_finish ?_ (Nat.zero_lt_succ 2) (Nat.le_refl _)
      rw [expected]
      unfold afterAsking
      dsimp only
      rw [asked, failed]
      rfl
  · next fragment given =>
      apply carries_begin holds rfl
      rw [expected]
      unfold afterAsking
      dsimp only
      rw [asked, given]
      rfl
  · next given =>
      apply carries_begin holds rfl
      rw [expected]
      unfold afterAsking
      dsimp only
      rw [asked, given]
      rfl

theorem carries_sent {text : Text} {isStop : Bool} (holds : Holds session reads)
    (stepped : step ⟨session, .sending text isStop⟩ (.sent (around.sends log.sent text)) =
      some run) :
    Carries around ⟨⟨session, .sending text isStop⟩, reads, log⟩
      ⟨run, reads, log.send text (around.sends log.sent text)⟩ := by
  unfold step at stepped
  dsimp only at stepped
  split at stepped
  · next fault failed =>
      cases stepped
      refine carries_finish ?_ (Nat.zero_lt_succ 1) (Nat.le_refl _)
      rw [expected]
      unfold afterSending
      dsimp only
      rw [failed]
  · next delivered =>
      cases isStop with
      | true =>
          cases stepped
          refine carries_finish ?_ (Nat.zero_lt_succ 1) ?_
          · rw [expected]
            unfold afterSending
            dsimp only
            rw [delivered]
            rfl
          · unfold backlog Connection.close
            split <;> exact Nat.le_refl _
      | false =>
          cases stepped
          refine ⟨.holding holds, ?_, ?_⟩
          · rw [expected, expected]
            unfold afterSending
            dsimp only
            rw [delivered]
            rfl
          · simp only [weight, remaining]
            omega

theorem carries_advance (standing : Standing around performance)
    (advances : around.advance performance = some next) : Carries around performance next := by
  obtain ⟨⟨session, phase⟩, reads, log⟩ := performance
  unfold advance at advances
  cases phase with
  | receiving =>
      dsimp only at advances
      split at advances
      · next run worked =>
          cases advances
          exact carries_work standing worked
      · next idle =>
          cases standing with
          | holding holds =>
              split at advances
              · next outcome reads =>
                  obtain ⟨run, stepped, rfl⟩ := Option.map_eq_some_iff.1 advances
                  exact carries_read holds stepped
              · split at advances
                · next ending ends =>
                    obtain ⟨run, stepped, rfl⟩ := Option.map_eq_some_iff.1 advances
                    exact carries_ending holds ends stepped
                · cases advances
          | broken breaks closed =>
              obtain ⟨assembly, idle⟩ := idle_of_work_none idle
              cases closed.symm.trans idle.connected
  | asking =>
      cases standing with
      | holding holds =>
          cases advances
          exact carries_take holds
  | sending text isStop =>
      cases standing with
      | holding holds =>
          obtain ⟨run, stepped, rfl⟩ := Option.map_eq_some_iff.1 advances
          exact carries_sent holds stepped
  | ended outcome => cases advances

theorem record_of_rest (standing : Standing around performance)
    (stuck : around.advance performance = none) :
    performance.record = around.expected performance := by
  obtain ⟨⟨session, phase⟩, reads, log⟩ := performance
  unfold advance at stuck
  cases phase with
  | receiving =>
      dsimp only at stuck
      split at stuck
      · cases stuck
      · next idle =>
          have unworked : work session = none := idle
          have reads_on (outcome : ReadOutcome) :
              (step ⟨session, .receiving⟩ (.read outcome)).isSome = true := by
            unfold step
            dsimp only
            rw [unworked]
            rfl
          obtain ⟨assembly, idle⟩ := idle_of_work_none idle
          split at stuck
          · next outcome reads =>
              have goes := reads_on outcome
              rw [Option.map_eq_none_iff.1 stuck] at goes
              cases goes
          · split at stuck
            · next ending ends =>
                have goes := reads_on ending.outcome
                rw [Option.map_eq_none_iff.1 stuck] at goes
                cases goes
            · next ends =>
                have nothing := Session.ahead_drained idle.drained idle.ahead idle.absent
                rw [expected]
                dsimp only
                rw [Performance.stream, List.flatMap_nil, nothing, course, behind, ends]
                rfl
  | asking => cases stuck
  | sending text isStop =>
      rw [Option.map_eq_none_iff] at stuck
      unfold step at stuck
      dsimp only at stuck
      split at stuck
      · cases stuck
      · split at stuck <;> cases stuck
  | ended outcome => rfl

/-- Every run comes to its end or to the point where it waits forever, and leaves the record
that the results foretell. -/
theorem completes_with_expected (standing : Standing around performance) :
    ∃ final, around.Completes performance final ∧
      final.record = around.expected performance := by
  -- Every move takes weight away.
  generalize size : weight performance = left
  induction left using Nat.strongRecOn generalizing performance with
  | ind left induction =>
      cases advances : around.advance performance with
      | none => exact ⟨performance, .rest advances, record_of_rest standing advances⟩
      | some next =>
          have carries := carries_advance standing advances
          obtain ⟨final, others, left⟩ :=
            induction (weight next) (size ▸ carries.lighter) carries.standing rfl
          exact ⟨final, .move advances others, left.trans carries.same⟩

end Surroundings

end SyncRun

end StepStream
