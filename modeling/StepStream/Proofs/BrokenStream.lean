import StepStream.Proofs.Listening
import StepStream.Proofs.StepResults

/-!
A stream of lines, each a message of its own, that breaks off at some byte. The lines in front
of that byte have arrived with their delimiters, and of the line at that byte there is a tail.
The session takes the tail for one more message.
-/

namespace StepStream

set_option autoImplicit false

open Message (delimiter segments unfinished)
open Response (Account Assembly StepResult)
open Text (Bytes)

structure BrokenStream where
  lines : List Text
  before : Bytes
  single : ∀ line ∈ lines, '\n' ∉ line ∧ '\x00' ∉ line
  readable : ∀ line ∈ lines, (Response.read? line).isSome = true
  begins : before <+: lines.flatMap Message.encode

/-- Whether a line only tells of what is going on in a step. -/
def Response.Line.isPassing : Response.Line → Bool
  | .step _ | .answer _ | .input | .warning _ => true
  | .endOfStep | .unsat _ | .error _ => false

/-- Whether a tail is nothing, or happens to be a line that only tells of what is going on. -/
def TailPasses (tail : Bytes) : Prop :=
  tail = [] ∨
    ∃ text kind, Text.utf8 text = tail ∧ Response.read? text = some kind ∧ kind.isPassing = true

theorem tail_passes_iff {tail : Bytes} {text : Text} (encoded : Text.utf8 text = tail)
    (nonempty : tail ≠ []) :
    TailPasses tail ↔ ∃ kind, Response.read? text = some kind ∧ kind.isPassing = true := by
  constructor
  · rintro (nothing | ⟨other, kind, same, read, passing⟩)
    · exact absurd nothing nonempty
    · have decoded := (Text.decode_eq_ok_iff tail other).2 same
      rw [(Text.decode_eq_ok_iff tail text).2 encoded] at decoded
      cases decoded
      exact ⟨kind, read, passing⟩
  · rintro ⟨kind, read, passing⟩
    exact .inr ⟨text, kind, encoded, read, passing⟩

structure IsSingle (tail : Bytes) : Prop where
  message : delimiter ∉ tail
  line : ∀ text, Text.utf8 text = tail → '\n' ∉ text

namespace BrokenStream

def received (stream : BrokenStream) : List Text :=
  stream.lines.take (stream.before.count delimiter)

/-- The steps whose last line has arrived with its delimiter. -/
def steps (stream : BrokenStream) : List StepResult := (Account.ofLines stream.received).results

def tail (stream : BrokenStream) : Bytes := unfinished stream.before

theorem single_tail (stream : BrokenStream) : IsSingle stream.tail := by
  refine ⟨(Message.unfinished_suffix stream.before).2, ?_⟩
  intro text encoded member
  -- UTF-8 has the byte of a newline for nothing else, so the newline would be in a line.
  have newline (line : Text) : 10 ∈ Text.utf8 line ↔ '\n' ∈ line :=
    Text.byte_mem_utf8 (by decide) rfl line
  rw [← newline, encoded] at member
  have inside := stream.begins.subset ((Message.unfinished_suffix _).1.subset member)
  obtain ⟨line, here, byte⟩ := List.mem_flatMap.1 inside
  rw [Message.encode, List.mem_append, newline] at byte
  rcases byte with byte | ends
  · exact (stream.single line here).1 byte
  · exact absurd ends (by decide)

theorem message_lines_single {line : Text} (newline : '\n' ∉ line)
    (readable : (Response.read? line).isSome = true) :
    messageLines (Text.utf8 line) = [.ok line] := by
  have nonempty : line ≠ [] := by
    rintro rfl
    revert readable
    decide
  have decoded : Message.decode (Text.utf8 line) = .ok line := (Message.decode_eq_ok_iff _ _).2 rfl
  rw [messageLines, decoded]
  dsimp only
  rw [Text.lines_of_absent newline nonempty]
  rfl

theorem stream_lines_before (stream : BrokenStream) :
    streamLines stream.before = stream.received.map .ok := by
  have plain : ∀ line ∈ stream.lines, '\x00' ∉ line := by
    intro line member
    exact (stream.single line member).2
  rw [streamLines, Message.segments_of_front stream.lines plain stream.begins, List.flatMap_map,
    List.map_eq_flatMap]
  apply List.flatMap_congr
  intro line member
  have here := List.mem_of_mem_take member
  exact message_lines_single (stream.single line here).1 (stream.readable line here)

theorem steps_of_shown (stream : BrokenStream) {shown : List StepResult}
    (whole : Assembly.empty.ahead (streamLines stream.before) = shown.map .ok) :
    stream.steps = shown := by
  have results := Assembly.results_of_outcomes Error.isRecoverable stream.received .empty []
  have outcomes : Assembly.outcomes Error.isRecoverable .empty (stream.received.map .ok) =
      shown.map .ok := by
    rw [← whole, stream_lines_before]
    rfl
  have kept : Except.toOption ∘ (Except.ok : StepResult → Except Error StepResult) = some := by
    funext result
    rfl
  rw [outcomes, List.filterMap_map, kept, List.filterMap_some] at results
  exact results

end BrokenStream

namespace Session

variable {tail pending : Bytes} {queue : List Text} {session : Session} {text : Text}

/-- When all bytes of a broken stream have been used up, the steps that are complete have been
shown, and the tail is left. -/
theorem Listens.whole {stream : BrokenStream} {shown : List StepResult}
    (listens : session.Listens stream.before shown)
    (connected : session.connection.state = .connected)
    (absent : delimiter ∉ session.connection.decoder.pending)
    (drained : session.assembly.ahead [] = []) :
    shown = stream.steps ∧ session.connection.decoder.pending = stream.tail := by
  have hears := listens.hears connected []
  have leaves := listens.leaves connected []
  rw [List.append_nil, ahead, List.append_nil, stream_lines_of_unfinished absent, drained,
    List.append_nil] at hears
  rw [List.append_nil, List.append_nil, (Message.segments_of_unfinished absent).2] at leaves
  exact ⟨(stream.steps_of_shown hears).symm, leaves.symm⟩

/-- A session whose connection is lost, with what it still has to read. -/
structure Broken (queue : List Text) (pending : Bytes) (session : Session) : Prop where
  closed : session.connection.state = .closed
  lost : session.connection.lost = true
  queued : session.assembly.queue = queue
  left : session.connection.decoder.pending = pending

theorem Broken.aside (broken : session.Broken queue pending) (status : Status) :
    { session with status := status }.Broken queue pending :=
  ⟨broken.closed, broken.lost, broken.queued, broken.left⟩

theorem Broken.closed_end (broken : session.Broken queue pending) :
    session.closedEnd = .connectionLost := by
  rw [closedEnd, if_pos broken.lost]

theorem Broken.next_of_nothing (broken : session.Broken [] pending) :
    session.nextResult = (none, session) := by
  have queued := broken.queued
  obtain ⟨config, format, connection, ⟨queue, step, gathered⟩, status, carry, steps, answerSets,
    transcript⟩ := session
  cases queued
  rfl

theorem Broken.answer_of_nothing (broken : session.Broken queue []) :
    session.connection.answerBuffered = (some (.ok .closed), session.connection) := by
  have absent : delimiter ∉ session.connection.decoder.pending := by
    rw [broken.left]
    exact List.not_mem_nil
  rw [Connection.answer_of_closed broken.closed absent, if_pos broken.left]

theorem Broken.answer_tail (broken : session.Broken [] tail) (single : IsSingle tail)
    (nonempty : tail ≠ []) :
    (∃ text connection, Text.utf8 text = tail ∧
        session.connection.answerBuffered = (some (.ok (.message text)), connection) ∧
        ({ session with connection := connection }.pushMessage text).Broken [text] []) ∨
      ¬ TailPasses tail ∧ ∃ fault connection,
        session.connection.answerBuffered = (some (.error fault), connection) := by
  have answered := Connection.answer_of_closed broken.closed (broken.left ▸ single.message)
  rw [broken.left, if_neg nonempty, Connection.answerOf] at answered
  cases decoded : Message.decode tail with
  | ok text =>
      have encoded := (Message.decode_eq_ok_iff tail text).1 decoded
      have filled : text ≠ [] := by
        rintro rfl
        exact nonempty encoded.symm
      rw [decoded] at answered
      refine .inl ⟨text, _, encoded, answered, broken.closed, broken.lost, ?_, rfl⟩
      change session.assembly.queue ++ Text.lines text = [text]
      rw [broken.queued, Text.lines_of_absent (single.line text encoded) filled, List.nil_append]
  | error fault =>
      rw [decoded] at answered
      refine .inr ⟨?_, fault, _, answered⟩
      rintro (nothing | ⟨text, kind, encoded, -, -⟩)
      · exact nonempty nothing
      · rw [(Message.decode_eq_ok_iff tail text).2 encoded] at decoded
        cases decoded

theorem Broken.read_tail (broken : session.Broken [text] pending)
    (encoded : Text.utf8 text = tail) (nonempty : tail ≠ []) :
    (TailPasses tail ∧ ∃ assembly,
        session.nextResult = (none, { session with assembly := assembly }) ∧
          { session with assembly := assembly }.Broken [] pending) ∨
      ¬ TailPasses tail ∧
        ((∃ result assembly,
            session.nextResult = (some (.ok result), { session with assembly := assembly }) ∧
            { session with assembly := assembly }.Broken [] pending) ∨
          ∃ fault after, session.nextResult = (some (.error fault), after)) := by
  rw [tail_passes_iff encoded nonempty]
  have next : session.nextResult =
      ((session.assembly.nextFrom Error.isRecoverable [text]).1,
        { session with assembly := (session.assembly.nextFrom Error.isRecoverable [text]).2 }) := by
    rw [nextResult, Response.Assembly.nextUnwarned, broken.queued]
  rw [next, Response.Assembly.nextFrom, Response.Assembly.absorb, Response.read]
  cases found : Response.read? text with
  | none => exact .inr ⟨by simp, .inr ⟨_, _, rfl⟩⟩
  | some kind =>
      cases kind with
      | step | answer | input | warning =>
          exact .inl ⟨⟨_, rfl, rfl⟩, _, rfl, broken.closed, broken.lost, rfl, broken.left⟩
      | endOfStep | unsat =>
          refine .inr ⟨?_, .inl ⟨_, _, rfl, broken.closed, broken.lost, rfl, broken.left⟩⟩
          rintro ⟨kind, same, passing⟩
          cases same
          cases passing
      | error fault =>
          refine .inr ⟨?_, .inr ⟨_, _, rfl⟩⟩
          rintro ⟨kind, same, passing⟩
          cases same
          cases passing

end Session

end StepStream
