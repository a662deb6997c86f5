import StepStream.Proofs.Session
import StepStream.Session.Sync

/-!
What synchronous runs take up without a read: a result or a fault among the queued lines, or
else what the connection has an answer for. A run without any of these has drained its queue,
and its connection holds and has no complete message left.
-/

namespace StepStream.SyncRun

set_option autoImplicit false

open Response (StepResult)

variable {session : Session} {next : SyncRun}

inductive Worked (session : Session) : SyncRun → Prop
  | shown {result : StepResult} {later : Session}
      (asked : session.nextResult = (some (.ok result), later)) :
      Worked session ⟨later.display result, .asking⟩
  | refused {fault : Error} {later : Session}
      (asked : session.nextResult = (some (.error fault), later)) :
      Worked session (finish later (.error fault))
  | answered {later : Session} {answer : Except Error Received} {connection : Connection}
      (asked : session.nextResult = (none, later))
      (answers : later.connection.answerBuffered = (some answer, connection)) :
      Worked session (afterReceiving { later with connection := connection } (some answer))

theorem worked_of_work (worked : work session = some next) : Worked session next := by
  unfold work at worked
  cases asked : session.nextResult with
  | mk found later =>
      rw [asked] at worked
      cases found with
      | some outcome =>
          cases outcome with
          | ok result =>
              cases worked
              exact .shown asked
          | error fault =>
              cases worked
              exact .refused asked
      | none =>
          dsimp only at worked
          cases answers : later.connection.answerBuffered with
          | mk answer connection =>
              rw [answers] at worked
              cases answer with
              | none => cases worked
              | some answer =>
                  cases worked
                  exact .answered asked answers

/-- A run that cannot go on without a read has used up what has arrived. -/
structure Idle (session : Session) (assembly : Response.Assembly) : Prop where
  asked : session.nextResult = (none, { session with assembly := assembly })
  drained : assembly.queue = []
  ahead : ∀ rest, session.assembly.ahead rest = assembly.ahead rest
  connected : session.connection.state = .connected
  absent : Message.delimiter ∉ session.connection.decoder.pending

theorem idle_of_work_none (idle : work session = none) : ∃ assembly, Idle session assembly := by
  unfold work at idle
  cases asked : session.nextResult with
  | mk found later =>
      rw [asked] at idle
      cases found with
      | some outcome => cases outcome <;> cases idle
      | none =>
          obtain ⟨assembly, rfl, drained, ahead⟩ := Session.next_result_none asked
          dsimp only at idle
          split at idle
          · next silent =>
              obtain ⟨connected, absent⟩ := Connection.connected_of_silent silent
              exact ⟨assembly, asked, drained, ahead, connected, absent⟩
          · cases idle

theorem idle_of_read {outcome : ReadOutcome}
    (stepped : step ⟨session, .receiving⟩ (.read outcome) = some next) :
    ∃ assembly, Idle session assembly ∧
      next = afterReceiving
        { session with
          assembly := assembly
          connection := (session.connection.absorb outcome).2 }
        (session.connection.absorb outcome).1 := by
  unfold step at stepped
  dsimp only at stepped
  split at stepped
  · cases stepped
  · next nothing =>
      obtain ⟨assembly, idle⟩ := idle_of_work_none nothing
      rw [idle.asked] at stepped
      cases stepped
      exact ⟨assembly, idle, rfl⟩

theorem begin_sending_of_connected (connected : session.connection.state = .connected)
    (held : session.connection.socket = true) (text : Text) (isStop : Bool) :
    beginSending session text isStop = ⟨session.echo text, .sending text isStop⟩ := by
  obtain ⟨transcript, echoed⟩ := Session.echo_changes_transcript session text
  have usable : (session.echo text).connection.usable = .ok () := by
    rw [echoed]
    exact Connection.usable_of_connected connected held
  rw [beginSending, usable]

end StepStream.SyncRun
