import StepStream.Proofs.Listening
import StepStream.Proofs.SentTexts

/-!
What the server decodes of a session. In either mode the texts on the wire are the first
fragments of the source, each with constraints that were carried over, and the stop behind
them. Each of them is one message unless a line of its fragment holds the character NUL, which
only an input that holds it leads to.
-/

namespace StepStream

set_option autoImplicit false

open Response (heardFrom)

namespace SyncRun

def Move.input? : Move → Option (Except Error StepInput)
  | .supplied answer => some answer.input
  | _ => none

def Event.text? : Event → Option Text
  | .wrote text => some text
  | _ => none

def written (events : List Event) : List Text := events.filterMap Event.text?

inductive Pending : SyncPhase → List (Except Error StepInput) → Prop
  | receiving : Pending .receiving []
  | asking : Pending .asking []
  | fragment {fragment : Fragment} {text : Text} (sent : SentAs fragment text) :
      Pending (.sending text false) [.ok (.fragment fragment)]
  | stop : Pending (.sending Fragment.stop true) [.ok .stop]

/-- Where a run stands that has taken these answers and written these texts. -/
inductive Position (predicate : Option Text) (answers : List (Except Error StepInput))
    (texts : List Text) (run : SyncRun) : Prop
  | running (recalling : run.session.IsRecalling predicate) (fragments : List Fragment)
      (pending : List (Except Error StepInput)) (sent : List.Forall₂ SentAs fragments texts)
      (phase : Pending run.phase pending) (taken : answers = handedOut fragments ++ pending)
  | finished (outcome : Except Error End) (ended : run.phase = .ended outcome)
      (fragments : List Fragment) (writes : Writes answers fragments texts (outcome = .ok .stopped))

variable {predicate : Option Text} {answers : List (Except Error StepInput)} {texts : List Text}
  {fragments : List Fragment} {session : Session} {run next : SyncRun} {move : Move}

theorem position_of_finish {outcome : Except Error End} (abrupt : outcome ≠ .ok .stopped)
    (sent : List.Forall₂ SentAs fragments texts) (begins : handedOut fragments <+: answers) :
    Position predicate answers texts (finish session outcome) :=
  .finished outcome rfl fragments ⟨texts, sent, .inr ⟨abrupt, begins_of_handed_out begins, rfl⟩⟩

theorem position_of_received (recalling : session.IsRecalling predicate)
    (sent : List.Forall₂ SentAs fragments texts) {answer : Option (Except Error Received)}
    (delivers : ∀ text, answer = some (.ok (.message text)) → Connection.CanDeliver text) :
    Position predicate (handedOut fragments) texts (afterReceiving session answer) := by
  have waits : handedOut fragments = handedOut fragments ++ [] := (List.append_nil _).symm
  have begins : handedOut fragments <+: handedOut fragments := List.prefix_rfl
  cases answer with
  | none => exact .running recalling fragments [] sent .receiving waits
  | some received =>
      cases received with
      | error fault => exact position_of_finish nofun sent begins
      | ok received =>
          cases received with
          | message text =>
              exact .running (recalling.message (delivers text rfl)) fragments [] sent .receiving
                waits
          | timeout => exact .running recalling fragments [] sent .receiving waits
          | closed =>
              apply position_of_finish _ sent begins
              unfold Session.closedEnd
              split <;> nofun

theorem position_of_work (recalling : session.IsRecalling predicate)
    (sent : List.Forall₂ SentAs fragments texts) (worked : work session = some next) :
    Position predicate (handedOut fragments) texts next := by
  cases worked_of_work worked with
  | shown asked =>
      exact .running (recalling.display asked) fragments [] sent .asking (List.append_nil _).symm
  | refused asked => exact position_of_finish nofun sent List.prefix_rfl
  | @answered after answer connection asked answers =>
      have later : { after with connection := connection }.IsRecalling predicate :=
        (recalling.drain asked).aside rfl rfl
      apply position_of_received later sent
      rintro text ⟨⟩
      exact ⟨after.connection, connection, answers⟩

theorem position_of_read (recalling : session.IsRecalling predicate)
    (sent : List.Forall₂ SentAs fragments texts) {outcome : ReadOutcome}
    (stepped : step ⟨session, .receiving⟩ (.read outcome) = some next) :
    Position predicate (handedOut fragments) texts next := by
  obtain ⟨assembly, idle, rfl⟩ := idle_of_read stepped
  have later (connection : Connection) :
      { session with assembly := assembly, connection := connection }.IsRecalling predicate :=
    (recalling.drain idle.asked).aside rfl rfl
  apply position_of_received (later _) sent
  intro text told
  exact absurd told (Connection.absorb_tells_nothing session.connection outcome text)

theorem position_of_begin (recalling : session.IsRecalling predicate)
    (sent : List.Forall₂ SentAs fragments texts) {input : StepInput} {text : Text} {isStop : Bool}
    (pending : Pending (.sending text isStop) [.ok input]) :
    Position predicate (handedOut fragments ++ [.ok input]) texts
      (beginSending session text isStop) := by
  obtain ⟨transcript, echoed⟩ := Session.echo_changes_transcript session text
  have shown : { session with transcript := transcript }.IsRecalling predicate :=
    recalling.aside rfl rfl
  unfold beginSending
  rw [echoed]
  dsimp only
  split
  · exact .running shown fragments [.ok input] sent pending rfl
  · exact position_of_finish nofun sent (List.prefix_append _ _)

theorem position_of_take (recalling : session.IsRecalling predicate)
    (valid : ∀ name ∈ predicate, CarryOver.isPredicate name = true)
    (sent : List.Forall₂ SentAs fragments texts) (answer : Supplied) :
    Position predicate (handedOut fragments ++ [answer.input]) texts (take session answer) := by
  have asked (status : Status) :
      ({ session with status := status }.print answer.prompt).IsRecalling predicate :=
    recalling.aside rfl rfl
  unfold take
  dsimp only
  cases answer.input with
  | error fault => exact position_of_finish nofun sent (List.prefix_append _ _)
  | ok input =>
      cases input with
      | fragment fragment =>
          apply position_of_begin _ sent
          · exact .fragment ((asked _).sends valid fragment)
          · exact asked _
      | stop => exact position_of_begin (asked _) sent .stop

theorem position_of_sent {text : Text} {isStop : Bool} {pending : List (Except Error StepInput)}
    (recalling : session.IsRecalling predicate) (sent : List.Forall₂ SentAs fragments texts)
    (phase : Pending (.sending text isStop) pending) {outcome : SendOutcome}
    (stepped : step ⟨session, .sending text isStop⟩ (.sent outcome) = some next) :
    Position predicate (handedOut fragments ++ pending)
      (texts ++ written (emits ⟨session, .sending text isStop⟩ (.sent outcome))) next := by
  have unsent : texts ++ written [] = texts := List.append_nil texts
  cases outcome with
  | delivered =>
      change Position predicate _ (texts ++ [text]) next
      cases phase with
      | @fragment fragment _ renders =>
          cases stepped
          have more : handedOut fragments ++ [.ok (.fragment fragment)] =
              handedOut (fragments ++ [fragment]) ++ [] := by simp [handedOut]
          exact .running recalling (fragments ++ [fragment]) []
            (List.rel_append sent (.cons renders .nil)) .receiving more
      | stop =>
          cases stepped
          exact .finished _ rfl fragments ⟨texts, sent, .inl ⟨rfl, rfl, rfl⟩⟩
  | broken | failed =>
      cases stepped
      change Position predicate _ (texts ++ written []) _
      rw [unsent]
      exact position_of_finish (by simp) sent (List.prefix_append _ _)

theorem position_step (valid : ∀ name ∈ predicate, CarryOver.isPredicate name = true)
    (position : Position predicate answers texts run) (stepped : run.step move = some next) :
    Position predicate (answers ++ move.input?.toList) (texts ++ written (run.emits move))
      next := by
  obtain ⟨session, phase⟩ := run
  have unasked : answers ++ [] = answers := List.append_nil answers
  have unsent : texts ++ written [] = texts := List.append_nil texts
  cases position with
  | finished outcome ended =>
      rw [step_of_ended ⟨outcome, ended⟩] at stepped
      cases stepped
  | running recalling fragments pending sent stands taken =>
      cases phase with
      | receiving =>
          cases stands
          rw [List.append_nil] at taken
          cases move with
          | work =>
              have nothing : written (emits ⟨session, .receiving⟩ .work) = [] := by
                unfold emits
                dsimp only
                split <;> rfl
              rw [nothing, List.append_nil, taken]
              change Position predicate (_ ++ []) texts next
              rw [List.append_nil]
              exact position_of_work recalling sent stepped
          | read outcome =>
              change Position predicate (answers ++ []) (texts ++ written []) next
              rw [unasked, unsent, taken]
              exact position_of_read recalling sent stepped
          | supplied answer => cases stepped
          | sent outcome => cases stepped
      | asking =>
          cases stands
          rw [List.append_nil] at taken
          cases move with
          | supplied answer =>
              cases stepped
              change Position predicate (answers ++ [answer.input]) (texts ++ written []) _
              rw [unsent, taken]
              exact position_of_take recalling valid sent answer
          | work => cases stepped
          | read outcome => cases stepped
          | sent outcome => cases stepped
      | sending text isStop =>
          cases move with
          | sent outcome =>
              change Position predicate (answers ++ []) _ next
              rw [unasked, taken]
              exact position_of_sent recalling sent stands stepped
          | work => cases stepped
          | read outcome => cases stepped
          | supplied answer => cases stepped
      | ended outcome => cases stands

theorem position_of_run (valid : ∀ name ∈ predicate, CarryOver.isPredicate name = true)
    (position : Position predicate answers texts run) {moves : List Move} {final : SyncRun}
    (runs : run.runMoves moves = some final) :
    Position predicate (answers ++ moves.filterMap Move.input?)
      (texts ++ written (run.trace moves)) final := by
  induction moves generalizing run answers texts with
  | nil =>
      cases runs
      simpa [written, trace] using position
  | cons move moves induction =>
      cases stepped : run.step move with
      | none =>
          rw [runMoves, stepped] at runs
          cases runs
      | some next =>
          rw [runMoves, stepped, Option.bind_some] at runs
          have later := induction (position_step valid position stepped) runs
          have answered : (move :: moves).filterMap Move.input? =
              move.input?.toList ++ moves.filterMap Move.input? := by
            cases move <;> rfl
          have events : run.trace (move :: moves) = run.emits move ++ next.trace moves := by
            rw [trace, stepped]
          rw [answered, events, written, List.filterMap_append, ← List.append_assoc,
            ← List.append_assoc]
          exact later

theorem writes_of_run {config : Config} {format : OutputFormat} {created session : Session}
    (creates : Session.create config format = .ok created)
    (connects : created.connect .accepted = (.ok (), session)) {moves : List Move}
    {final : SyncRun} (runs : (start session).runMoves moves = some final) :
    ∃ fragments, Writes (moves.filterMap Move.input?) fragments
      (written ((start session).trace moves)) (final.phase = .ended (.ok .stopped)) := by
  have recalling := Session.recalling_of_fresh (Session.fresh_of_create creates connects)
  have begins : Position config.carryOver [] [] (start session) :=
    .running recalling [] [] .nil .receiving rfl
  have position := position_of_run (Session.valid_of_create creates) begins runs
  rw [List.nil_append, List.nil_append] at position
  cases position with
  | running recalling fragments pending sent stands taken =>
      refine ⟨fragments, _, sent, .inr ⟨?_, ?_, rfl⟩⟩
      · intro ended
        rw [ended] at stands
        cases stands
      · apply begins_of_handed_out
        rw [taken]
        exact List.prefix_append _ _
  | finished outcome ended fragments writes =>
      refine ⟨fragments, ?_⟩
      simpa [ended] using writes

end SyncRun

namespace AsyncRun

variable {run : AsyncRun}

theorem polled_of_received {answer : Option (Except Error Received)} {text : Text}
    (polled : .polled text ∈ Event.ofReceived answer) : answer = some (.ok (.message text)) := by
  unfold Event.ofReceived at polled
  split at polled
  · rw [List.mem_singleton] at polled
    cases polled
    rfl
  · cases polled

theorem delivered_of_emits {move : Move} {text : Text} (polled : .polled text ∈ run.emits move) :
    Connection.CanDeliver text := by
  obtain ⟨session, isPaced, producer, slot, main⟩ := run
  cases move with
  | begin | paced | handed | released | forward => cases polled
  | supplied answer => cases producer <;> simp [emits] at polled
  | cleared => cases producer <;> simp [emits] at polled
  | sent outcome => cases outcome <;> cases main <;> simp [emits] at polled
  | work =>
      cases main with
      | polling =>
          have told := polled_of_received polled
          exact ⟨session.connection, session.connection.answerBuffered.2, Prod.ext told rfl⟩
      | showing =>
          simp only [emits, Event.ofResult] at polled
          split at polled <;> simp at polled
      | forwarding | sending | ended => cases polled
  | read outcome late =>
      cases main with
      | polling =>
          have told := polled_of_received polled
          exact absurd told (Connection.absorb_tells_nothing session.connection outcome text)
      | forwarding | sending | showing | ended => cases polled

theorem delivered_of_trace {moves : List Move} {text : Text}
    (polled : .polled text ∈ run.trace moves) : Connection.CanDeliver text := by
  induction moves generalizing run with
  | nil => cases polled
  | cons move moves induction =>
      rw [trace, List.mem_append] at polled
      rcases polled with here | later
      · exact delivered_of_emits here
      · split at later
        · exact induction later
        · cases later

theorem polled_of_record {log : Log} {events : List Event} {text : Text}
    (member : text ∈ (log.recordAll events).polled) :
    text ∈ log.polled ∨ .polled text ∈ events := by
  induction events generalizing log with
  | nil => exact .inl member
  | cons event events induction =>
      rcases induction member with before | later
      · cases event with
        | polled message =>
            change text ∈ log.polled ++ [message] at before
            rw [List.mem_append, List.mem_singleton] at before
            rcases before with earlier | rfl
            · exact .inl earlier
            · exact .inr List.mem_cons_self
        | returned | taken | wrote | shown => exact .inl before
      · exact .inr (List.mem_cons_of_mem event later)

theorem sent_of_renders {predicate : Option Text} {log : Log} {fragment : Fragment} {text : Text}
    (valid : ∀ name ∈ predicate, CarryOver.isPredicate name = true)
    (delivered : ∀ message ∈ log.polled, Connection.CanDeliver message)
    (heard : log.shown.map .ok <+: log.heard)
    (renders : Renders predicate log.shown text fragment) : SentAs fragment text := by
  obtain ⟨earlier, before, rfl⟩ := renders
  have begins : earlier.map .ok <+: heardFrom log.polled := (before.map Except.ok).trans heard
  exact ⟨_, ⟨predicate, log.polled, earlier, valid, delivered, begins, rfl⟩, rfl⟩

theorem writes_of_run {config : Config} {format : OutputFormat} {created session : Session}
    (creates : Session.create config format = .ok created)
    (connects : created.connect .accepted = (.ok (), session)) {isPaced : Bool}
    {moves : List Move} {final : AsyncRun}
    (runs : (start session isPaced).runMoves moves = some final) :
    let log := Log.empty.recordAll ((start session isPaced).trace moves)
    ∃ fragments, Writes log.returned fragments log.wrote (final.main = .ended (.ok .stopped)) := by
  intro log
  have fresh := Session.fresh_of_create creates connects
  have delivered : ∀ message ∈ log.polled, Connection.CanDeliver message := by
    intro message member
    rcases polled_of_record member with before | polled
    · cases before
    · exact delivered_of_trace polled
  -- Each text was rendered at some moment of the run, with what had been shown until then.
  have sent {fragments : List Fragment} {texts : List Text}
      (heard : log.shown.map .ok <+: log.heard)
      (renders : List.Forall₂ (Renders config.carryOver log.shown) texts fragments) :
      List.Forall₂ SentAs fragments texts := by
    apply List.Forall₂.flip
    exact renders.imp fun _ _ => sent_of_renders (Session.valid_of_create creates) delivered heard
  have position : Position config.carryOver log final :=
    position_of_run (position_start fresh isPaced) runs
  cases position with
  | running goes_on forwards hears =>
      obtain ⟨fragments, underway, renders, sending, returned⟩ := forwards.pipeline
      refine ⟨fragments, log.wrote, sent (shown_prefix_of_hears hears) renders, .inr ⟨?_, ?_, rfl⟩⟩
      · intro ended
        rw [isEnded, ended] at goes_on
        cases goes_on
      · apply begins_of_handed_out
        rw [returned]
        exact List.prefix_append _ _
  | finished outcome finished =>
      obtain ⟨texts, fragments, renders, begins, ends⟩ := finished.forwarded
      refine ⟨fragments, texts, sent finished.shown renders, ?_⟩
      rw [finished.ended]
      rcases ends with ⟨rfl, wrote, returned, -⟩ | ⟨unstopped, wrote⟩
      · exact .inl ⟨rfl, returned, wrote⟩
      · exact .inr ⟨by simpa using unstopped, begins, wrote⟩

end AsyncRun

/-- A text that is sent for a fragment is one message exactly if no line of the fragment holds
the character NUL, and no line does if the input does not. What a run of either mode writes is
the texts of the first fragments of its source, and the stop behind all of them if it is
stopped. The server decodes exactly these texts unless one of the fragments holds the
character. -/
theorem one_message_for_each_iff {config : Config} {format : OutputFormat}
    {created session : Session} (creates : Session.create config format = .ok created)
    (connects : created.connect .accepted = (.ok (), session)) {text : Text} {source : Source}
    (opens : source.Opens text) (steps : List Nat) :
    let answers := source.answers steps
    (∀ fragment sent, SentAs fragment sent →
      (Message.ArriveOneByOne [sent] ↔ fragment.IsUndivided)) ∧
    ('\x00' ∉ text → ∀ fragment, .ok (.fragment fragment) ∈ answers → fragment.IsUndivided) ∧
    (∀ moves final, (SyncRun.start session).runMoves moves = some final →
      moves.filterMap SyncRun.Move.input? = answers →
      let written := SyncRun.written ((SyncRun.start session).trace moves)
      ∃ fragments, Writes answers fragments written (final.phase = .ended (.ok .stopped)) ∧
        (Message.ArriveOneByOne written ↔ ∀ fragment ∈ fragments, fragment.IsUndivided) ∧
        ('\x00' ∉ text → Message.ArriveOneByOne written)) ∧
    ∀ moves final, (AsyncRun.start session source.isPaced).runMoves moves = some final →
      let log := AsyncRun.Log.empty.recordAll ((AsyncRun.start session source.isPaced).trace moves)
      log.returned = answers →
      ∃ fragments, Writes answers fragments log.wrote (final.main = .ended (.ok .stopped)) ∧
        (Message.ArriveOneByOne log.wrote ↔ ∀ fragment ∈ fragments, fragment.IsUndivided) ∧
        ('\x00' ∉ text → Message.ArriveOneByOne log.wrote) := by
  intro answers
  have undivided (free : '\x00' ∉ text) (fragment : Fragment)
      (member : .ok (.fragment fragment) ∈ answers) : fragment.IsUndivided :=
    Source.undivided_answers (Source.undivided_of_opens opens free) steps
      (.ok (.fragment fragment)) member
  have arrives {fragments : List Fragment} {written : List Text} {stopped : Prop}
      (writes : Writes answers fragments written stopped) (free : '\x00' ∉ text) :
      Message.ArriveOneByOne written :=
    (writes_arrive_iff writes).2 (undivided_of_writes writes (undivided free))
  refine ⟨?_, undivided, ?_, ?_⟩
  · intro fragment sent renders
    rw [Message.arrive_one_by_one_iff, List.forall_mem_singleton, sent_undivided_iff renders]
  · intro moves final runs fed written
    obtain ⟨fragments, writes⟩ := SyncRun.writes_of_run creates connects runs
    rw [fed] at writes
    exact ⟨fragments, writes, writes_arrive_iff writes, arrives writes⟩
  · intro moves final runs log fed
    obtain ⟨fragments, writes⟩ := AsyncRun.writes_of_run creates connects runs
    have writes : Writes answers fragments log.wrote (final.main = .ended (.ok .stopped)) :=
      fed ▸ writes
    exact ⟨fragments, writes, writes_arrive_iff writes, arrives writes⟩

/-- A fragment is typed in and sent after a first answer, and the stop after a second one. -/
def typedFragment : List SyncRun.Move :=
  [.read (.received (Message.encode "End of Step.\n".toList)), .work, .work,
    .supplied ⟨.ok (.fragment ⟨["a.\n".toList]⟩), 0, []⟩, .sent .delivered,
    .read (.received (Message.encode "End of Step.\n".toList)), .work, .work,
    .supplied ⟨.ok .stop, 0, []⟩, .sent .delivered]

theorem typed_fragment_arrives :
    ∃ created session final, Session.create .standard .text = .ok created ∧
      created.connect .accepted = (.ok (), session) ∧
      (SyncRun.start session).runMoves typedFragment = some final ∧
      '\x00' ∉ "a.\n#endstep.\n".toList ∧
      Message.ArriveOneByOne ["a.\n#endstep.\n".toList, "#stop.\n".toList] := by
  have creates : Session.create .standard .text = .ok _ := rfl
  have free : '\x00' ∉ "a.\n#endstep.\n".toList := by decide
  have opens : (Source.interactive ⟨.ofBytes (Text.utf8 "a.\n#endstep.\n".toList), false⟩).Opens
      "a.\n#endstep.\n".toList := .interactive
  obtain ⟨-, -, synchronous, -⟩ := one_message_for_each_iff creates rfl opens [0, 0]
  obtain ⟨fragments, -, -, arrives⟩ := synchronous typedFragment _ rfl (by decide)
  exact ⟨_, _, _, creates, rfl, rfl, free, arrives free⟩

/-- A fact whose argument holds the character NUL is accepted, and is sent as two messages. -/
theorem nul_divides_fact :
    StepBuffer.ofLines [] (Text.splitAfter '\n' "p(\x00).\n#endstep.\n".toList) =
        .ok ⟨[⟨["p(\x00).\n".toList]⟩]⟩ ∧
      (Message.Decoder.empty.push
          (Message.encode (Fragment.render [] ⟨["p(\x00).\n".toList]⟩))).drain.1 =
        [.ok "p(".toList, .ok ").\n#endstep.\n".toList] := by
  have pieces := Message.drain_sent [Fragment.render [] ⟨["p(\x00).\n".toList]⟩]
  rw [List.flatMap_singleton] at pieces
  rw [pieces]
  decide

end StepStream
