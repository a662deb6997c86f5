import StepStream.Proofs.AsyncTrace
import StepStream.Proofs.Lockstep

/-!
What a session has heard, in either mode. As long as its connection holds, the results that it
has shown and those that are still to come are together what the bytes of all reads yield.
-/

namespace StepStream

set_option autoImplicit false

open Message (delimiter)
open Response (StepResult)
open Text (Bytes)

namespace Connection

theorem message_of_answer {connection later : Connection} {text : Text}
    (answered : connection.answerBuffered = (some (.ok (.message text)), later))
    (holds : later.state = .connected) :
    connection.state = .connected ∧ ∃ segment rest,
      connection.decoder.pending = segment ++ delimiter :: rest ∧ delimiter ∉ segment ∧
        later.decoder.pending = rest ∧ messageLines segment = (Text.lines text).map .ok := by
  have connected : connection.state = .connected :=
    (answer_keeps_state answered).1.symm.trans holds
  rcases Message.unfinished_or_segment connection.decoder.pending with
    absent | ⟨segment, rest, pending, absent⟩
  · rw [answer_of_unfinished connected absent] at answered
    cases answered
  · rw [answer_segment connected pending absent, Prod.mk.injEq, Option.some.injEq] at answered
    obtain ⟨answer, rfl⟩ := answered
    refine ⟨connected, segment, rest, pending, absent, rfl, ?_⟩
    rw [answerOf] at answer
    split at answer
    · next decoded =>
        cases answer
        rw [messageLines, decoded]
    · cases answer

theorem pending_of_absorb {connection later : Connection} {outcome : ReadOutcome}
    {answer : Option (Except Error Received)}
    (absorbed : connection.absorb outcome = (answer, later)) (holds : later.state = .connected) :
    connection.state = .connected ∧
      later.decoder.pending = connection.decoder.pending ++ outcome.bytes := by
  cases outcome with
  | received bytes =>
      cases bytes with
      | nil =>
          cases absorbed
          cases holds
      | cons byte bytes =>
          cases absorbed
          exact ⟨holds, rfl⟩
  | timedOut | interrupted | unlimited =>
      cases absorbed
      exact ⟨holds, (List.append_nil _).symm⟩
  | failed =>
      cases absorbed
      cases holds

end Connection

namespace Session

variable {bytes : Bytes} {shown : List StepResult} {session after : Session}

structure Counts (shown : List StepResult) (session : Session) : Prop where
  steps : session.steps = shown.length
  answerSets : session.answerSets = (shown.flatMap StepResult.answerSets).length

theorem Counts.aside (counts : session.Counts shown) (status : Status) :
    { session with status := status }.Counts shown :=
  ⟨counts.steps, counts.answerSets⟩

theorem counts_display (counts : session.Counts shown) (result : StepResult) :
    (session.display result).Counts (shown ++ [result]) := by
  obtain ⟨steps, answerSets⟩ := counts
  constructor
  · rw [List.length_append, ← steps]
    rfl
  · rw [List.flatMap_append, List.length_append, ← answerSets, List.flatMap_singleton]
    rfl

/-- What a session has shown after these bytes have been read, and what it can still show while
its connection holds. -/
structure Listens (bytes : Bytes) (shown : List StepResult) (session : Session) : Prop where
  counts : session.Counts shown
  hears : session.connection.state = .connected → ∀ later,
    Response.Assembly.empty.ahead (streamLines (bytes ++ later)) =
      shown.map .ok ++ session.ahead later
  leaves : session.connection.state = .connected → ∀ later,
    Message.unfinished (bytes ++ later) =
      Message.unfinished (session.connection.decoder.pending ++ later)

theorem Listens.aside (listens : session.Listens bytes shown) (status : Status)
    (transcript : Text) :
    { session with status := status, transcript := transcript }.Listens bytes shown :=
  ⟨⟨listens.counts.steps, listens.counts.answerSets⟩, listens.hears, listens.leaves⟩

theorem Listens.display (listens : session.Listens bytes shown) {result : StepResult}
    (next : session.nextResult = (some (.ok result), after)) :
    (after.display result).Listens bytes (shown ++ [result]) := by
  obtain ⟨assembly, rfl, -, ahead⟩ := next_result_some next
  have counts : { session with assembly := assembly }.Counts shown :=
    ⟨listens.counts.steps, listens.counts.answerSets⟩
  refine ⟨counts_display counts result, ?_, listens.leaves⟩
  intro connected later
  have hears := listens.hears connected later
  rw [Session.ahead, ahead] at hears
  rw [List.map_append, List.append_assoc, hears]
  rfl

theorem Listens.drain (listens : session.Listens bytes shown)
    (next : session.nextResult = (none, after)) : after.Listens bytes shown := by
  obtain ⟨assembly, rfl, -, ahead⟩ := next_result_none next
  refine ⟨⟨listens.counts.steps, listens.counts.answerSets⟩, ?_, listens.leaves⟩
  intro connected later
  have hears := listens.hears connected later
  rw [Session.ahead, ahead] at hears
  exact hears

theorem Listens.message (listens : session.Listens bytes shown) {text : Text}
    {connection : Connection}
    (answered : session.connection.answerBuffered = (some (.ok (.message text)), connection)) :
    ({ session with connection := connection }.pushMessage text).Listens bytes shown := by
  refine ⟨⟨listens.counts.steps, listens.counts.answerSets⟩, ?_, ?_⟩
  · intro holds later
    obtain ⟨connected, segment, rest, pending, absent, left, lines⟩ :=
      Connection.message_of_answer answered holds
    have hears := listens.hears connected later
    rw [Session.ahead_segment absent pending, lines, ← Response.Assembly.ahead_push, ← left]
      at hears
    exact hears
  · intro holds later
    obtain ⟨connected, segment, rest, pending, absent, left, lines⟩ :=
      Connection.message_of_answer answered holds
    have leaves := listens.leaves connected later
    rw [pending, List.append_assoc, List.cons_append, (Message.segments_cons absent _).2,
      ← left] at leaves
    exact leaves

theorem Listens.portion (listens : session.Listens bytes shown) {outcome : ReadOutcome}
    {answer : Option (Except Error Received)} {connection : Connection}
    (absorbed : session.connection.absorb outcome = (answer, connection)) :
    { session with connection := connection }.Listens (bytes ++ outcome.bytes) shown := by
  refine ⟨⟨listens.counts.steps, listens.counts.answerSets⟩, ?_, ?_⟩
  · intro holds later
    obtain ⟨connected, pending⟩ := Connection.pending_of_absorb absorbed holds
    have hears := listens.hears connected (outcome.bytes ++ later)
    rw [Session.ahead] at hears
    rw [Session.ahead, pending, List.append_assoc, List.append_assoc]
    exact hears
  · intro holds later
    obtain ⟨connected, pending⟩ := Connection.pending_of_absorb absorbed holds
    rw [pending, List.append_assoc, List.append_assoc]
    exact listens.leaves connected (outcome.bytes ++ later)

end Session

namespace SyncRun

variable {heard : Bytes} {shown : List StepResult} {session : Session} {run next : SyncRun}
  {move : Move}

def Move.bytes : Move → Bytes
  | .read outcome => outcome.bytes
  | _ => []

theorem listens_work (listens : session.Listens heard shown)
    (worked : work session = some next) (goes_on : ¬ next.isEnded) :
    next.session.Listens heard (shown ++ results (emits ⟨session, .receiving⟩ .work)) := by
  unfold emits
  dsimp only
  cases worked_of_work worked with
  | shown asked =>
      rw [asked]
      exact listens.display asked
  | refused asked => exact absurd ⟨_, rfl⟩ goes_on
  | @answered later answer connection asked answers =>
      have drained := listens.drain asked
      rw [asked, results, List.filterMap_nil, List.append_nil]
      cases answer with
      | error fault => exact absurd ⟨_, rfl⟩ goes_on
      | ok received =>
          cases received with
          | message text => exact drained.message answers
          | timeout => exact absurd rfl (Connection.answer_keeps_state answers).2
          | closed => exact absurd ⟨_, rfl⟩ goes_on

theorem listens_read (listens : session.Listens heard shown) {outcome : ReadOutcome}
    (stepped : step ⟨session, .receiving⟩ (.read outcome) = some next) (goes_on : ¬ next.isEnded) :
    next.session.Listens (heard ++ outcome.bytes) shown := by
  obtain ⟨assembly, idle, rfl⟩ := idle_of_read stepped
  have absorbed : session.connection.absorb outcome =
    ((session.connection.absorb outcome).1, (session.connection.absorb outcome).2) := rfl
  have read := (listens.drain idle.asked).portion absorbed
  cases outcome with
  | received bytes =>
      cases bytes with
      | nil => exact absurd ⟨_, rfl⟩ goes_on
      | cons byte bytes => exact read
  | timedOut | interrupted | failed => exact read
  | unlimited reason => exact absurd ⟨_, rfl⟩ goes_on

theorem begin_sending_goes_on {text : Text} {isStop : Bool}
    (goes_on : ¬ (beginSending session text isStop).isEnded) :
    ∃ transcript, (beginSending session text isStop).session =
      { session with transcript := transcript } := by
  obtain ⟨transcript, echoed⟩ := Session.echo_changes_transcript session text
  refine ⟨transcript, ?_⟩
  unfold beginSending at goes_on ⊢
  rw [echoed] at goes_on ⊢
  dsimp only at goes_on ⊢
  split
  · rfl
  · next refused =>
      rw [refused] at goes_on
      exact absurd ⟨_, rfl⟩ goes_on

theorem take_goes_on {answer : Supplied} (goes_on : ¬ (take session answer).isEnded) :
    ∃ status transcript, (take session answer).session =
      { session with status := status, transcript := transcript } := by
  unfold take at goes_on ⊢
  dsimp only at goes_on ⊢
  split
  · next failed =>
      rw [failed] at goes_on
      exact absurd ⟨_, rfl⟩ goes_on
  · next fragment given =>
      rw [given] at goes_on
      obtain ⟨transcript, same⟩ := begin_sending_goes_on goes_on
      rw [same]
      exact ⟨_, transcript, rfl⟩
  · next given =>
      rw [given] at goes_on
      obtain ⟨transcript, same⟩ := begin_sending_goes_on goes_on
      rw [same]
      exact ⟨_, transcript, rfl⟩

theorem listens_step (listens : run.session.Listens heard shown)
    (stepped : run.step move = some next) (goes_on : ¬ next.isEnded) :
    next.session.Listens (heard ++ move.bytes) (shown ++ results (run.emits move)) := by
  obtain ⟨session, phase⟩ := run
  have nothing : shown ++ results [] = shown := List.append_nil shown
  have unread : heard ++ [] = heard := List.append_nil heard
  cases phase with
  | receiving =>
      cases move with
      | work =>
          change next.session.Listens (heard ++ []) _
          rw [unread]
          exact listens_work listens stepped goes_on
      | read outcome =>
          change next.session.Listens _ (shown ++ results [])
          rw [nothing]
          exact listens_read listens stepped goes_on
      | supplied answer => cases stepped
      | sent outcome => cases stepped
  | asking =>
      cases move with
      | supplied answer =>
          change next.session.Listens (heard ++ []) (shown ++ results [])
          rw [unread, nothing]
          cases stepped
          obtain ⟨status, transcript, same⟩ := take_goes_on goes_on
          rw [same]
          exact listens.aside status transcript
      | work => cases stepped
      | read outcome => cases stepped
      | sent outcome => cases stepped
  | sending text isStop =>
      cases move with
      | sent outcome =>
          cases outcome with
          | delivered =>
              cases isStop with
              | true =>
                  cases stepped
                  exact absurd ⟨_, rfl⟩ goes_on
              | false =>
                  cases stepped
                  change session.Listens (heard ++ []) (shown ++ results [])
                  rw [unread, nothing]
                  exact listens
          | broken | failed =>
              cases stepped
              exact absurd ⟨_, rfl⟩ goes_on
      | work => cases stepped
      | read outcome => cases stepped
      | supplied answer => cases stepped
  | ended outcome => cases move <;> cases stepped

def bytesRead (moves : List Move) : Bytes := moves.flatMap Move.bytes

theorem run_of_ended {moves : List Move} {final : SyncRun} (ended : run.isEnded)
    (runs : run.runMoves moves = some final) : final = run := by
  cases moves with
  | nil =>
      cases runs
      rfl
  | cons move moves =>
      rw [runMoves, step_of_ended ended] at runs
      cases runs

theorem listens_of_run {moves : List Move} {final : SyncRun}
    (listens : run.session.Listens heard shown) (runs : run.runMoves moves = some final)
    (goes_on : ¬ final.isEnded) :
    final.session.Listens (heard ++ bytesRead moves) (shown ++ results (run.trace moves)) := by
  induction moves generalizing run heard shown with
  | nil =>
      cases runs
      rw [bytesRead, List.flatMap_nil, trace, results, List.filterMap_nil, List.append_nil,
        List.append_nil]
      exact listens
  | cons move moves induction =>
      cases stepped : run.step move with
      | none =>
          rw [runMoves, stepped] at runs
          cases runs
      | some next =>
          rw [runMoves, stepped, Option.bind_some] at runs
          have active : ¬ next.isEnded := by
            intro ended
            rw [run_of_ended ended runs] at goes_on
            exact goes_on ended
          have later := induction (listens_step listens stepped active) runs
          rw [trace, stepped, bytesRead, List.flatMap_cons, results, List.filterMap_append,
            ← List.append_assoc, ← List.append_assoc]
          exact later

end SyncRun

namespace AsyncRun

variable {heard : Bytes} {shown : List StepResult} {run next : AsyncRun} {move : Move}

def Move.bytes : Move → Bytes
  | .read outcome _ => outcome.bytes
  | _ => []

def bytesRead (moves : List Move) : Bytes := moves.flatMap Move.bytes

def Event.result? : Event → Option StepResult
  | .shown result => some result
  | _ => none

def results (events : List Event) : List StepResult := events.filterMap Event.result?

theorem results_of_producer (stepped : run.stepProducer move = some next) :
    results (run.emits move) = [] := by
  obtain ⟨session, isPaced, producer, slot, main⟩ := run
  cases move with
  | begin | paced | handed | released => rfl
  | supplied | cleared => cases producer <;> rfl
  | forward | sent | work | read => cases producer <;> cases stepped

theorem listens_producer (listens : run.session.Listens heard shown)
    (stepped : run.stepProducer move = some next) : next.session.Listens heard shown := by
  obtain ⟨-, status, same, -⟩ := session_of_producer stepped
  rw [same]
  exact listens.aside status _

theorem begin_sending_goes_on {text : Text} {ending : Option End}
    (goes_on : (run.beginSending text ending).isEnded = false) :
    ∃ transcript, run.beginSending text ending =
      { run with
        session := { run.session with transcript := transcript }
        main := .sending text ending } := by
  obtain ⟨transcript, echoed⟩ := Session.echo_changes_transcript run.session text
  refine ⟨transcript, ?_⟩
  unfold beginSending at goes_on ⊢
  rw [echoed] at goes_on ⊢
  dsimp only at goes_on ⊢
  split
  · rfl
  · next refused =>
      rw [refused] at goes_on
      cases goes_on

theorem listens_begin_sending (listens : run.session.Listens heard shown) {text : Text}
    {ending : Option End} (goes_on : (run.beginSending text ending).isEnded = false) :
    (run.beginSending text ending).session.Listens heard shown := by
  obtain ⟨transcript, same⟩ := begin_sending_goes_on goes_on
  rw [same]
  exact listens.aside _ transcript

theorem listens_forward (listens : run.session.Listens heard shown)
    (goes_on : run.forward.isEnded = false) : run.forward.session.Listens heard shown := by
  have emptied : { run with slot := none }.session.Listens heard shown := listens
  unfold forward at goes_on ⊢
  split at goes_on
  · exact listens_begin_sending emptied goes_on
  · exact listens_begin_sending emptied goes_on
  · cases goes_on
  · exact listens_begin_sending listens goes_on
  · exact listens

theorem listens_sent (listens : run.session.Listens heard shown) {outcome : SendOutcome}
    (stepped : run.stepMain (.sent outcome) = some next) (goes_on : next.isEnded = false) :
    next.session.Listens heard shown := by
  obtain ⟨session, isPaced, producer, slot, main⟩ := run
  cases main with
  | sending text ending =>
      cases outcome with
      | delivered =>
          cases ending with
          | none =>
              cases stepped
              exact listens
          | some ending =>
              cases stepped
              cases goes_on
      | broken | failed =>
          cases stepped
          cases goes_on
  | _ => cases stepped

theorem listens_work (listens : run.session.Listens heard shown)
    (worked : run.work = some next) (goes_on : next.isEnded = false) :
    next.session.Listens heard (shown ++ results (run.emits .work)) := by
  obtain ⟨session, isPaced, producer, slot, main⟩ := run
  cases main with
  | polling =>
      unfold work at worked
      unfold emits
      dsimp only at worked ⊢
      cases answered : session.connection.answerBuffered with
      | mk answer connection =>
          rw [answered] at worked
          cases answer with
          | none => cases worked
          | some received =>
              cases worked
              cases received with
              | error fault => cases goes_on
              | ok received =>
                  cases received with
                  | message text =>
                      rw [Event.ofReceived, results, List.filterMap_cons_none rfl,
                        List.filterMap_nil, List.append_nil]
                      exact listens.message answered
                  | timeout => exact absurd rfl (Connection.answer_keeps_state answered).2
                  | closed => cases goes_on
  | showing =>
      unfold work at worked
      unfold emits
      dsimp only at worked ⊢
      cases asked : session.nextResult with
      | mk found after =>
          rw [asked] at worked
          cases found with
          | none =>
              cases worked
              rw [Event.ofResult, results, List.filterMap_nil, List.append_nil]
              · exact listens.drain asked
              · nofun
          | some outcome =>
              cases outcome with
              | ok result =>
                  cases worked
                  exact listens.display asked
              | error fault =>
                  cases worked
                  cases goes_on
  | _ => cases worked

theorem listens_read (listens : run.session.Listens heard shown) {outcome : ReadOutcome}
    {late : Bool} (stepped : run.stepMain (.read outcome late) = some next)
    (goes_on : next.isEnded = false) :
    next.session.Listens (heard ++ outcome.bytes)
      (shown ++ results (run.emits (.read outcome late))) := by
  obtain ⟨session, isPaced, producer, slot, main⟩ := run
  cases main with
  | polling =>
      unfold stepMain at stepped
      unfold emits
      dsimp only at stepped ⊢
      split at stepped
      · cases stepped
      · have absorbed : session.connection.absorb outcome =
          ((session.connection.absorb outcome).1, (session.connection.absorb outcome).2) := rfl
        have read := listens.portion absorbed
        have nothing : shown ++ results [] = shown := List.append_nil shown
        cases outcome with
        | received bytes =>
            cases bytes with
            | nil =>
                cases stepped
                cases goes_on
            | cons byte bytes =>
                cases stepped
                change Session.Listens _ (shown ++ results []) _
                rw [nothing]
                exact read
        | timedOut | interrupted | failed =>
            cases stepped
            change Session.Listens _ (shown ++ results []) _
            rw [nothing]
            exact read.aside _ _
        | unlimited reason =>
            cases stepped
            cases goes_on
  | _ => cases stepped

theorem listens_step (listens : run.session.Listens heard shown)
    (stepped : run.step move = some next) (goes_on : next.isEnded = false) :
    next.session.Listens (heard ++ move.bytes) (shown ++ results (run.emits move)) := by
  have nothing : shown ++ results [] = shown := List.append_nil shown
  have unread : heard ++ [] = heard := List.append_nil heard
  cases move with
  | begin | paced | supplied | cleared | handed | released =>
      change next.session.Listens (heard ++ []) _
      rw [unread, results_of_producer stepped, List.append_nil]
      exact listens_producer listens stepped
  | forward =>
      change next.session.Listens (heard ++ []) (shown ++ results [])
      rw [unread, nothing]
      obtain ⟨session, isPaced, producer, slot, main⟩ := run
      cases main with
      | forwarding =>
          cases stepped
          exact listens_forward listens goes_on
      | _ => cases stepped
  | sent outcome =>
      have silent : results (run.emits (.sent outcome)) = [] := by
        obtain ⟨session, isPaced, producer, slot, main⟩ := run
        cases outcome <;> cases main <;> rfl
      change next.session.Listens (heard ++ []) _
      rw [unread, silent, List.append_nil]
      exact listens_sent listens stepped goes_on
  | work =>
      change next.session.Listens (heard ++ []) _
      rw [unread]
      obtain ⟨session, isPaced, producer, slot, main⟩ := run
      cases main with
      | polling => exact listens_work listens stepped goes_on
      | showing => exact listens_work listens stepped goes_on
      | _ => cases stepped
  | read outcome late => exact listens_read listens stepped goes_on

/-- The producer may go on after the end, but the end stays what it is. -/
theorem ended_of_run {moves : List Move} {final : AsyncRun} {outcome : Except Error End}
    (ended : run.main = .ended outcome) (runs : run.runMoves moves = some final) :
    final.main = .ended outcome := by
  induction moves generalizing run with
  | nil =>
      cases runs
      exact ended
  | cons move moves induction =>
      cases stepped : run.step move with
      | none =>
          rw [runMoves, stepped] at runs
          cases runs
      | some next =>
          rw [runMoves, stepped, Option.bind_some] at runs
          obtain ⟨-, session, producer, -, same, -⟩ :=
            transition_after_end ended (transition_of_step stepped)
          have later : next.main = .ended outcome := by
            rw [same]
            exact ended
          exact induction later runs

theorem is_ended_iff : run.isEnded = true ↔ ∃ outcome, run.main = .ended outcome := by
  obtain ⟨session, isPaced, producer, slot, main⟩ := run
  cases main <;> simp [isEnded]

theorem listens_of_run {moves : List Move} {final : AsyncRun}
    (listens : run.session.Listens heard shown) (runs : run.runMoves moves = some final)
    (goes_on : final.isEnded = false) :
    final.session.Listens (heard ++ bytesRead moves) (shown ++ results (run.trace moves)) := by
  induction moves generalizing run heard shown with
  | nil =>
      cases runs
      rw [bytesRead, List.flatMap_nil, trace, results, List.filterMap_nil, List.append_nil,
        List.append_nil]
      exact listens
  | cons move moves induction =>
      cases stepped : run.step move with
      | none =>
          rw [runMoves, stepped] at runs
          cases runs
      | some next =>
          rw [runMoves, stepped, Option.bind_some] at runs
          have active : next.isEnded = false := by
            rw [← Bool.not_eq_true, is_ended_iff]
            rintro ⟨outcome, ended⟩
            have after := is_ended_iff.2 ⟨outcome, ended_of_run ended runs⟩
            rw [goes_on] at after
            cases after
          have later := induction (listens_step listens stepped active) runs
          rw [trace, stepped, bytesRead, List.flatMap_cons, results, List.filterMap_append,
            ← List.append_assoc, ← List.append_assoc]
          exact later

end AsyncRun

theorem Session.listens_of_create {config : Config} {format : OutputFormat}
    {created session : Session} (creates : create config format = .ok created)
    (connects : created.connect .accepted = (.ok (), session)) : session.Listens [] [] := by
  have connected : session = (created.connect .accepted).2 := by rw [connects]
  obtain rfl := carry_of_create creates
  subst connected
  exact ⟨⟨rfl, rfl⟩, fun _ _ => rfl, fun _ _ => rfl⟩

end StepStream
