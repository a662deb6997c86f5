import StepStream.Proofs.SyncCourse
import StepStream.Proofs.Warnings

/-!
Sessions and the warnings of a server. Whatever warnings a server inserts into its stream, a
session yields the same results and the same fault, and a synchronous run shows, asks, sends
and reports the same.
-/

namespace StepStream.SyncRun

set_option autoImplicit false

namespace Surroundings

variable {around : Surroundings} {config : Config} {format : OutputFormat} {session : Session}
  {messages : List (List Text)} {reads : List ReadOutcome}

theorem standing_begin (fresh : session.Fresh config format)
    (wire : ∀ lines ∈ messages, ∀ line ∈ lines, IsWireLine line)
    (goes_on : ∀ outcome ∈ reads, outcome.goesOn = true)
    (arrives : reads.flatMap ReadOutcome.bytes = wireOf messages) :
    Standing around (.begin session reads) := by
  have plain : ∀ text ∈ messages.map messageOf, '\x00' ∉ text := by
    rw [List.forall_mem_map]
    exact fun lines member => nul_of_message (wire lines member)
  refine .holding ⟨fresh.connected, fresh.held, fresh.found, goes_on, ?_⟩
  have pending : (start session).session.connection.decoder.pending = [] := fresh.nothing_pending
  rw [pending, List.nil_append, arrives, wireOf, (Message.segments_encode _ plain).2]

theorem expected_begin (fresh : session.Fresh config format)
    (wire : ∀ lines ∈ messages, ∀ line ∈ lines, IsWireLine line)
    (arrives : reads.flatMap ReadOutcome.bytes = wireOf messages) :
    around.expected (.begin session reads) =
      around.course (session.assembly.ahead (messages.flatten.map .ok)) .empty
        session.visible := by
  have found : session.ahead (reads.flatMap ReadOutcome.bytes) =
      session.assembly.ahead (messages.flatten.map .ok) := by
    rw [Session.ahead, fresh.nothing_pending, List.nil_append, arrives, lines_of_wire wire]
  rw [← found]
  rfl

end Surroundings

/-- Warnings that are inserted anywhere into the messages of a server, or sent as messages of
their own, change neither the results and the first fault that a session yields when it takes
up the messages, nor anything that can be seen of a synchronous run: in the same surroundings
it leaves the same transcript, asks and sends the same, reports the same and ends with the same
status, in whatever portions the two streams arrive. -/
theorem warnings_change_nothing {config : Config} {format : OutputFormat}
    {created session : Session} (creates : Session.create config format = .ok created)
    (connects : created.connect .accepted = (.ok (), session)) (around : Surroundings)
    {messages warned : List (List Text)}
    (wire : ∀ lines ∈ messages, ∀ line ∈ lines, IsWireLine line)
    (inserted : WarnedMessages messages warned) {reads warnedReads : List ReadOutcome}
    (goes_on : ∀ outcome ∈ reads ++ warnedReads, outcome.goesOn = true)
    (arrives : reads.flatMap ReadOutcome.bytes = wireOf messages)
    (warnedArrives : warnedReads.flatMap ReadOutcome.bytes = wireOf warned) :
    (∀ hearing : Session, hearing.assembly.queue = [] →
      hearing.hear (warned.map messageOf) = hearing.hear (messages.map messageOf)) ∧
    ∃ quiet noisy, around.Completes (.begin session reads) quiet ∧
      around.Completes (.begin session warnedReads) noisy ∧ noisy.record = quiet.record := by
  have fresh := Session.fresh_of_create creates connects
  have warnedWire := inserted.wire wire
  rw [List.forall_mem_append] at goes_on
  refine ⟨Session.hear_warned inserted wire, ?_⟩
  have stands : around.Standing (.begin session reads) :=
    Surroundings.standing_begin fresh wire goes_on.1 arrives
  have warnedStands : around.Standing (.begin session warnedReads) :=
    Surroundings.standing_begin fresh warnedWire goes_on.2 warnedArrives
  obtain ⟨quiet, quietly, expected⟩ := Surroundings.completes_with_expected stands
  obtain ⟨noisy, noisily, expectedToo⟩ := Surroundings.completes_with_expected warnedStands
  refine ⟨quiet, noisy, quietly, noisily, ?_⟩
  rw [expected, expectedToo, Surroundings.expected_begin fresh wire arrives,
    Surroundings.expected_begin fresh warnedWire warnedArrives,
    Response.Assembly.ahead_warned inserted.flatten]

/-- A source that stops at once, and a server that says nothing after its answer. -/
def stopsAtOnce : Surroundings where
  source _ := ⟨.ok .stop, 0, []⟩
  sends _ _ := .delivered
  ending := none

def plainAnswer : List (List Text) :=
  [["Step: 1".toList, "a(1)".toList, "End of Step.".toList]]

/-- A warning comes by itself, and another one between the answer set and the end of its step. -/
def warnedAnswer : List (List Text) :=
  [["Warning: c".toList],
    ["Step: 1".toList, "a(1)".toList, "Warning: d".toList, "End of Step.".toList]]

theorem warned_answer_unchanged :
    ∃ created session, Session.create { Config.standard with echoInput := true } .text =
        .ok created ∧
      created.connect .accepted = (.ok (), session) ∧
      (∀ lines ∈ plainAnswer, ∀ line ∈ lines, IsWireLine line) ∧
      WarnedMessages plainAnswer warnedAnswer ∧
      session.hear (warnedAnswer.map messageOf) =
        ([⟨some 1, [⟨some 1, ["a(1)".toList]⟩], .satisfiable⟩], none) ∧
      ∃ quiet noisy,
        stopsAtOnce.Completes (.begin session [.received (wireOf plainAnswer)]) quiet ∧
        stopsAtOnce.Completes (.begin session [.timedOut, .received (wireOf warnedAnswer)])
          noisy ∧
        noisy.record = quiet.record := by
  have creates : Session.create { Config.standard with echoInput := true } .text = .ok _ := rfl
  have wire : ∀ lines ∈ plainAnswer, ∀ line ∈ lines, IsWireLine line := by decide
  have inserted : WarnedMessages plainAnswer warnedAnswer :=
    .report (.warning ⟨"c".toList, by decide, rfl⟩ .nil)
      (.message (.line _ (.line _ (.warning ⟨"d".toList, by decide, rfl⟩ (.line _ .nil)))) .nil)
  have arrives : [ReadOutcome.received (wireOf plainAnswer)].flatMap ReadOutcome.bytes =
      wireOf plainAnswer := List.append_nil _
  have warnedArrives : [ReadOutcome.timedOut, .received (wireOf warnedAnswer)].flatMap
      ReadOutcome.bytes = wireOf warnedAnswer := List.append_nil _
  obtain ⟨hears, complete⟩ := warnings_change_nothing creates rfl stopsAtOnce wire inserted
    (by decide) arrives warnedArrives
  refine ⟨_, _, creates, rfl, wire, inserted, ?_, complete⟩
  rw [hears _ rfl, Session.hear_eq _ rfl]
  rfl

end StepStream.SyncRun
