import StepStream.Connection
import StepStream.Proofs.Framing

/-!
What a connection finds without a read and what a read adds, said by the stream alone: the
bytes that have not been delivered are cut at the delimiters.
-/

namespace StepStream

set_option autoImplicit false

open Text (Bytes)

def ReadOutcome.goesOn : ReadOutcome → Bool
  | .received bytes => !bytes.isEmpty
  | .timedOut | .interrupted => true
  | .failed | .unlimited _ => false

def ReadOutcome.bytes : ReadOutcome → Bytes
  | .received bytes => bytes
  | _ => []

namespace Connection

open Message (delimiter)

def answerOf (segment : Bytes) : Except Error Received :=
  match Message.decode segment with
  | .ok text => .ok (.message text)
  | .error fault => .error fault

theorem answer_changes_decoder (connection : Connection) :
    ∃ decoder, connection.answerBuffered.2 = { connection with decoder := decoder } := by
  unfold answerBuffered
  split
  · exact ⟨connection.decoder, rfl⟩
  · split
    · exact ⟨_, rfl⟩
    · exact ⟨_, rfl⟩
    · split
      · split <;> exact ⟨_, rfl⟩
      · exact ⟨connection.decoder, rfl⟩

theorem answer_of_unfinished {connection : Connection} (connected : connection.state = .connected)
    (absent : delimiter ∉ connection.decoder.pending) :
    connection.answerBuffered = (none, connection) := by
  have next := Message.Decoder.next_of_unfinished absent
  rw [answerBuffered, connected, if_neg (by decide), next]
  exact if_neg (by decide)

/-- A piece with a delimiter is answered while the connection holds and after it has ended. -/
theorem answer_segment_of_begun {connection : Connection}
    (begun : connection.state ≠ .disconnected) {segment rest : Bytes}
    (pending : connection.decoder.pending = segment ++ delimiter :: rest)
    (absent : delimiter ∉ segment) :
    connection.answerBuffered =
      (some (answerOf segment), { connection with decoder := ⟨rest⟩ }) := by
  have next : connection.decoder.next = (some (Message.decode segment), ⟨rest⟩) := by
    rw [← Message.Decoder.next_segment absent rest, ← pending]
  rw [answerBuffered, if_neg begun, next, answerOf]
  cases Message.decode segment <;> rfl

theorem answer_segment {connection : Connection} (connected : connection.state = .connected)
    {segment rest : Bytes} (pending : connection.decoder.pending = segment ++ delimiter :: rest)
    (absent : delimiter ∉ segment) :
    connection.answerBuffered =
      (some (answerOf segment), { connection with decoder := ⟨rest⟩ }) := by
  apply answer_segment_of_begun _ pending absent
  rw [connected]
  decide

/-- Once the connection is closed, an unfinished message is answered by itself, and then
nothing is left. -/
theorem answer_of_closed {connection : Connection} (closed : connection.state = .closed)
    (absent : delimiter ∉ connection.decoder.pending) :
    connection.answerBuffered =
      if connection.decoder.pending = [] then (some (.ok .closed), connection)
      else
        (some (answerOf connection.decoder.pending), { connection with decoder := .empty }) := by
  have next := Message.Decoder.next_of_unfinished absent
  rw [answerBuffered, if_neg (by rw [closed]; decide), next]
  dsimp only
  rw [if_pos closed, Message.Decoder.takeResidue, Message.Decoder.hasResidue]
  by_cases nothing : connection.decoder.pending = []
  · rw [nothing]
    rfl
  · rw [if_neg nothing, if_pos (by simpa using nothing), answerOf]
    cases Message.decode connection.decoder.pending <;> rfl

theorem answer_keeps_state {connection later : Connection}
    {answer : Option (Except Error Received)}
    (answered : connection.answerBuffered = (answer, later)) :
    later.state = connection.state ∧ answer ≠ some (.ok .timeout) := by
  unfold answerBuffered at answered
  split at answered
  · cases answered
    exact ⟨rfl, nofun⟩
  · split at answered
    · cases answered
      exact ⟨rfl, nofun⟩
    · cases answered
      exact ⟨rfl, nofun⟩
    · split at answered
      · split at answered <;> cases answered <;> exact ⟨rfl, nofun⟩
      · cases answered
        exact ⟨rfl, nofun⟩

theorem closed_of_answer {connection later : Connection}
    (answered : connection.answerBuffered = (some (.ok .closed), later)) :
    later.state = .closed := by
  rw [(answer_keeps_state answered).1]
  unfold answerBuffered at answered
  split at answered
  · cases answered
  · split at answered
    · cases answered
    · cases answered
    · split at answered
      · assumption
      · cases answered

theorem closed_of_absorb {connection later : Connection} {outcome : ReadOutcome}
    (absorbed : connection.absorb outcome = (some (.ok .closed), later)) :
    later.state = .closed := by
  cases outcome with
  | received bytes =>
      cases bytes with
      | nil =>
          cases absorbed
          rfl
      | cons byte bytes => cases absorbed
  | _ => cases absorbed

theorem close_closes (connection : Connection) : connection.close.state = .closed := by
  unfold close
  split
  · assumption
  · rfl

theorem connected_of_silent {connection later : Connection}
    (silent : connection.answerBuffered = (none, later)) :
    connection.state = .connected ∧ delimiter ∉ connection.decoder.pending := by
  unfold answerBuffered at silent
  split at silent
  · cases silent
  · next begun =>
      split at silent
      · cases silent
      · cases silent
      · next nothing =>
          split at silent
          · split at silent <;> cases silent
          · next holds =>
              constructor
              · cases state : connection.state with
                | disconnected => exact absurd state begun
                | connected => rfl
                | closed => exact absurd state holds
              · rcases Message.unfinished_or_segment connection.decoder.pending with
                  absent | ⟨segment, rest, pending, absent⟩
                · exact absent
                · have found := Message.Decoder.next_segment absent rest
                  rw [← pending, nothing] at found
                  cases found

theorem usable_of_disconnected {connection : Connection}
    (disconnected : connection.state = .disconnected) :
    connection.usable = .error (.connection .notConnected) := by
  rw [usable, disconnected]

theorem usable_of_closed {connection : Connection} (closed : connection.state = .closed) :
    connection.usable = .error (.connection .sessionClosed) := by
  rw [usable, closed]

theorem usable_of_connected {connection : Connection} (connected : connection.state = .connected)
    (held : connection.socket = true) : connection.usable = .ok () := by
  rw [usable, connected]
  dsimp only
  rw [if_pos held]

end Connection

end StepStream
