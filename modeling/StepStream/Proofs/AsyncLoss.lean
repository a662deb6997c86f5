import StepStream.Proofs.BrokenStream
import StepStream.Proofs.Forwarding

/-!
Asynchronous runs after the loss of the connection. The main line takes up the tail, reads it
and looks into the slot once more, where an input may wait that cannot be sent. The producer
goes on meanwhile.
-/

namespace StepStream

set_option autoImplicit false

open Response (StepResult)
open Text (Bytes)

namespace AsyncRun

variable {tail : Bytes} {before more : List StepResult} {run next : AsyncRun} {move : Move}
  {predicate : Option Text} {log : Log}

def findsInput (run : AsyncRun) : Move → Bool
  | .forward => run.slot.isSome
  | _ => false

def findsInputs (run : AsyncRun) : List Move → Bool
  | [] => false
  | move :: moves =>
      run.findsInput move ||
        match run.step move with
        | some next => next.findsInputs moves
        | none => false

/-- Where a run stands after its connection has been lost: the moves that its main line has left
at most, whether an input has been found since, and what has been shown since. -/
inductive After (tail : Bytes) (before : List StepResult) :
    Nat → Bool → List StepResult → AsyncRun → Prop
  | waiting {run : AsyncRun} (polling : run.main = .polling)
      (broken : run.session.Broken [] tail) (counts : run.session.Counts before) :
      After tail before 5 false [] run
  | taken {run : AsyncRun} {text : Text} (showing : run.main = .showing)
      (encoded : Text.utf8 text = tail) (nonempty : tail ≠ [])
      (broken : run.session.Broken [text] []) (counts : run.session.Counts before) :
      After tail before 4 false [] run
  | read {run : AsyncRun} {left : Nat} {more : List StepResult}
      (stands : left = 3 ∧ run.main = .showing ∨ left = 2 ∧ run.main = .forwarding ∨
        left = 1 ∧ run.main = .polling)
      (nonempty : tail ≠ []) (told : more = [] ↔ TailPasses tail)
      (broken : run.session.Broken [] []) (counts : run.session.Counts (before ++ more)) :
      After tail before left false more run
  | lost {run : AsyncRun} {more : List StepResult}
      (ended : run.main = .ended (.ok .connectionLost)) (told : more = [] ↔ TailPasses tail)
      (counts : run.session.Counts (before ++ more)) : After tail before 0 false more run
  | failed {run : AsyncRun} {found : Bool} {more : List StepResult} {fault : Error}
      (ended : run.main = .ended (.error fault)) (nonempty : tail ≠ [])
      (reason : found = true ∨ ¬ TailPasses tail) : After tail before 0 found more run

theorem work_waiting (polling : run.main = .polling) (broken : run.session.Broken [] tail)
    (counts : run.session.Counts before) (single : IsSingle tail) :
    ∃ next left, run.work = some next ∧ left < 5 ∧
      After tail before left false (results (run.emits .work)) next := by
  unfold work emits
  rw [polling]
  dsimp only
  by_cases nothing : tail = []
  · subst nothing
    rw [broken.answer_of_nothing]
    dsimp only [afterReceiving]
    rw [broken.closed_end]
    refine ⟨_, 0, rfl, by decide, .lost rfl ⟨fun _ => .inl rfl, fun _ => rfl⟩ ?_⟩
    exact (List.append_nil before).symm ▸ ⟨counts.steps, counts.answerSets⟩
  · rcases broken.answer_tail single nothing with
      ⟨text, connection, encoded, answered, later⟩ | ⟨loud, fault, connection, answered⟩
    · rw [answered]
      exact ⟨_, 4, rfl, by decide,
        .taken rfl encoded nothing later ⟨counts.steps, counts.answerSets⟩⟩
    · rw [answered]
      exact ⟨_, 0, rfl, by decide, .failed rfl nothing (.inr loud)⟩

theorem work_taken {text : Text} (showing : run.main = .showing)
    (encoded : Text.utf8 text = tail) (nonempty : tail ≠ [])
    (broken : run.session.Broken [text] []) (counts : run.session.Counts before) :
    ∃ next left, run.work = some next ∧ left < 4 ∧
      After tail before left false (results (run.emits .work)) next := by
  unfold work emits
  rw [showing]
  dsimp only
  rcases broken.read_tail encoded nonempty with
    ⟨passes, assembly, asked, later⟩ |
      ⟨loud, ⟨result, assembly, asked, later⟩ | ⟨fault, after, asked⟩⟩
  · rw [asked]
    refine ⟨_, 2, rfl, by decide, .read (.inr (.inl ⟨rfl, rfl⟩)) nonempty
      ⟨fun _ => passes, fun _ => rfl⟩ later ?_⟩
    exact (List.append_nil before).symm ▸ ⟨counts.steps, counts.answerSets⟩
  · have counted : { run.session with assembly := assembly }.Counts before :=
      ⟨counts.steps, counts.answerSets⟩
    rw [asked]
    exact ⟨_, 3, rfl, by decide, .read (.inl ⟨rfl, rfl⟩) nonempty
      ⟨nofun, fun passes => absurd passes loud⟩
      ⟨later.closed, later.lost, later.queued, later.left⟩ (Session.counts_display counted result)⟩
  · rw [asked]
    exact ⟨_, 0, rfl, by decide, .failed rfl nonempty (.inr loud)⟩

theorem begin_sending_refused (closed : run.session.connection.state = .closed) (text : Text)
    (ending : Option End) :
    ∃ fault, (run.beginSending text ending).main = .ended (.error fault) := by
  obtain ⟨transcript, echoed⟩ := Session.echo_changes_transcript run.session text
  unfold beginSending
  rw [echoed]
  dsimp only
  rw [Connection.usable_of_closed closed]
  exact ⟨_, rfl⟩

theorem forward_found (closed : run.session.connection.state = .closed)
    (found : run.slot.isSome = true) : ∃ fault, run.forward.main = .ended (.error fault) := by
  unfold forward
  split
  · apply begin_sending_refused
    exact closed
  · apply begin_sending_refused
    exact closed
  · exact ⟨_, rfl⟩
  · next free _ =>
      rw [free] at found
      cases found
  · next free _ =>
      rw [free] at found
      cases found

theorem forward_free (free : run.slot = none) (present : run.producer ≠ .gone) :
    run.forward = { run with main := .polling } := by
  obtain ⟨session, isPaced, producer, slot, main⟩ := run
  cases free
  cases producer with
  | gone => exact absurd rfl present
  | _ => rfl

theorem After.of_producer {left : Nat} {found : Bool}
    (after : After tail before left found more run)
    (stepped : run.stepProducer move = some next) : After tail before left found more next := by
  obtain ⟨session, isPaced, producer, slot, main⟩ := next
  obtain ⟨same, status, rfl, -⟩ := session_of_producer stepped
  cases after with
  | waiting polling broken counts =>
      exact .waiting (same.trans polling) (broken.aside status) (counts.aside status)
  | taken showing encoded nonempty broken counts =>
      exact .taken (same.trans showing) encoded nonempty (broken.aside status)
        (counts.aside status)
  | read stands nonempty told broken counts =>
      rw [← same] at stands
      exact .read stands nonempty told (broken.aside status) (counts.aside status)
  | lost ended told counts =>
      exact .lost (same.trans ended) told (counts.aside status)
  | failed ended nonempty reason => exact .failed (same.trans ended) nonempty reason

theorem work_read {left : Nat} (stands : left = 3 ∧ run.main = .showing ∨
      left = 1 ∧ run.main = .polling)
    (nonempty : tail ≠ []) (told : more = [] ↔ TailPasses tail)
    (broken : run.session.Broken [] []) (counts : run.session.Counts (before ++ more)) :
    ∃ next fewer, run.work = some next ∧ fewer < left ∧ results (run.emits .work) = [] ∧
      After tail before fewer false more next := by
  unfold work emits
  rcases stands with ⟨rfl, showing⟩ | ⟨rfl, polling⟩
  · rw [showing]
    dsimp only
    rw [broken.next_of_nothing]
    exact ⟨_, 2, rfl, by decide, rfl, .read (.inr (.inl ⟨rfl, rfl⟩)) nonempty told broken counts⟩
  · rw [polling]
    dsimp only
    rw [broken.answer_of_nothing]
    dsimp only [afterReceiving]
    rw [broken.closed_end]
    exact ⟨_, 0, rfl, by decide, rfl, .lost rfl told ⟨counts.steps, counts.answerSets⟩⟩

theorem step_main_work {later : AsyncRun} (waits : run.main = .polling ∨ run.main = .showing)
    (worked : run.work = some later) (stepped : run.stepMain move = some next) :
    move = .work ∧ next = later := by
  unfold stepMain at stepped
  rcases waits with polling | showing
  · rw [polling] at stepped
    cases move with
    | work =>
        cases worked.symm.trans stepped
        exact ⟨rfl, rfl⟩
    | read outcome late =>
        dsimp only at stepped
        rw [worked] at stepped
        cases stepped
    | _ => cases stepped
  · rw [showing] at stepped
    cases move with
    | work =>
        cases worked.symm.trans stepped
        exact ⟨rfl, rfl⟩
    | _ => cases stepped

theorem forward_read (forwarding : run.main = .forwarding) (nonempty : tail ≠ [])
    (told : more = [] ↔ TailPasses tail) (broken : run.session.Broken [] [])
    (counts : run.session.Counts (before ++ more))
    (present : run.main = .forwarding → run.slot = none → run.producer ≠ .gone) :
    ∃ fewer, fewer < 2 ∧ After tail before fewer run.slot.isSome more run.forward := by
  cases found : run.slot.isSome with
  | true =>
      obtain ⟨fault, ended⟩ := forward_found broken.closed found
      exact ⟨0, by decide, .failed ended nonempty (.inl rfl)⟩
  | false =>
      have free : run.slot = none := by simpa using found
      rw [forward_free free (present forwarding free)]
      exact ⟨1, by decide, .read (.inr (.inr ⟨rfl, rfl⟩)) nonempty told broken counts⟩

theorem After.step_main {left : Nat} {found : Bool}
    (after : After tail before left found more run) (single : IsSingle tail)
    (present : run.main = .forwarding → run.slot = none → run.producer ≠ .gone)
    (stepped : run.stepMain move = some next) :
    ∃ fewer, fewer < left ∧
      After tail before fewer (found || run.findsInput move)
        (more ++ results (run.emits move)) next := by
  cases after with
  | waiting polling broken counts =>
      obtain ⟨later, fewer, worked, less, after⟩ :=
        work_waiting polling broken counts single
      obtain ⟨rfl, rfl⟩ := step_main_work (.inl polling) worked stepped
      exact ⟨fewer, less, after⟩
  | taken showing encoded nonempty broken counts =>
      obtain ⟨later, fewer, worked, less, after⟩ :=
        work_taken showing encoded nonempty broken counts
      obtain ⟨rfl, rfl⟩ := step_main_work (.inr showing) worked stepped
      exact ⟨fewer, less, after⟩
  | read stands nonempty told broken counts =>
      rcases stands with showing | ⟨rfl, forwarding⟩ | polling
      · obtain ⟨later, fewer, worked, less, silent, after⟩ :=
          work_read (.inl showing) nonempty told broken counts
        obtain ⟨rfl, rfl⟩ := step_main_work (.inr showing.2) worked stepped
        rw [silent, List.append_nil]
        exact ⟨fewer, less, after⟩
      · obtain ⟨fewer, less, after⟩ :=
          forward_read forwarding nonempty told broken counts present
        unfold stepMain at stepped
        rw [forwarding] at stepped
        cases move with
        | forward =>
            cases stepped
            have silent : more ++ results (run.emits .forward) = more := List.append_nil more
            rw [silent]
            exact ⟨fewer, less, after⟩
        | _ => cases stepped
      · obtain ⟨later, fewer, worked, less, silent, after⟩ :=
          work_read (.inr polling) nonempty told broken counts
        obtain ⟨rfl, rfl⟩ := step_main_work (.inl polling.2) worked stepped
        rw [silent, List.append_nil]
        exact ⟨fewer, less, after⟩
  | lost ended told counts =>
      unfold stepMain at stepped
      rw [ended] at stepped
      cases stepped
  | failed ended nonempty reason =>
      unfold stepMain at stepped
      rw [ended] at stepped
      cases stepped

/-- The main line never finds that nobody will fill the slot again. -/
theorem present_of_position (position : Position predicate log run) :
    run.main = .forwarding → run.slot = none → run.producer ≠ .gone := by
  intro forwarding free gone
  cases position with
  | running goes_on forwards hears =>
      rcases forwards.left gone with ⟨input, waiting, -⟩ | sending
      · rw [free] at waiting
        cases waiting
      · rw [forwarding] at sending
        cases sending
  | finished outcome finished =>
      have ended := finished.ended
      rw [forwarding] at ended
      cases ended

theorem After.step {left : Nat} {found : Bool} (after : After tail before left found more run)
    (single : IsSingle tail) (position : Position predicate log run)
    (stepped : run.step move = some next) :
    ∃ fewer, After tail before fewer (found || run.findsInput move)
      (more ++ results (run.emits move)) next := by
  have present := present_of_position position
  cases move with
  | forward | sent | work | read =>
      obtain ⟨fewer, -, later⟩ := after.step_main single present stepped
      exact ⟨fewer, later⟩
  | begin | paced | supplied | cleared | handed | released =>
      have later := after.of_producer stepped
      rw [results_of_producer stepped, List.append_nil, findsInput, Bool.or_false]
      · exact ⟨left, later⟩
      · nofun

theorem After.of_run {moves : List Move} {final : AsyncRun} {left : Nat} {found : Bool}
    (after : After tail before left found more run) (single : IsSingle tail)
    (position : Position predicate log run) (runs : run.runMoves moves = some final) :
    (∃ fewer, After tail before fewer (found || run.findsInputs moves)
      (more ++ results (run.trace moves)) final) ∧ ∃ log, Position predicate log final := by
  induction moves generalizing run more left found log with
  | nil =>
      cases runs
      rw [trace, results, List.filterMap_nil, List.append_nil, findsInputs, Bool.or_false]
      exact ⟨⟨left, after⟩, log, position⟩
  | cons move moves induction =>
      cases stepped : run.step move with
      | none =>
          rw [runMoves, stepped] at runs
          cases runs
      | some next =>
          rw [runMoves, stepped, Option.bind_some] at runs
          obtain ⟨fewer, moved⟩ := after.step single position stepped
          have later := induction moved (position_step position (transition_of_step stepped)) runs
          rw [trace, stepped, results, List.filterMap_append, ← List.append_assoc, findsInputs,
            stepped, ← Bool.or_assoc]
          exact later

def CanEnd (run : AsyncRun) : Prop :=
  ∃ moves final outcome, run.runMoves moves = some final ∧ final.main = .ended outcome

theorem After.can_end {left : Nat} {found : Bool} (after : After tail before left found more run)
    (single : IsSingle tail) (position : Position predicate log run) : run.CanEnd := by
  -- The main line can always move by itself, and every such move leaves fewer moves.
  induction left using Nat.strongRecOn generalizing run more found log with
  | ind left induction =>
      have present := present_of_position position
      have goes_on {move : Move} {next : AsyncRun} (same : run.step move = run.stepMain move)
          (stepped : run.stepMain move = some next) : run.CanEnd := by
        obtain ⟨fewer, less, later⟩ := after.step_main single present stepped
        have moved : run.step move = some next := same.trans stepped
        obtain ⟨moves, final, outcome, runs, ended⟩ :=
          induction fewer less later (position_step position (transition_of_step moved))
        refine ⟨move :: moves, final, outcome, ?_, ended⟩
        rw [runMoves, moved, Option.bind_some, runs]
      have works {next : AsyncRun} (waits : run.main = .polling ∨ run.main = .showing)
          (worked : run.work = some next) : run.CanEnd := by
        have stepped : run.stepMain .work = some next := by
          unfold stepMain
          rcases waits with polling | showing
          · rw [polling]
            exact worked
          · rw [showing]
            exact worked
        exact goes_on rfl stepped
      cases after with
      | waiting polling broken counts =>
          obtain ⟨next, -, worked, -⟩ := work_waiting polling broken counts single
          exact works (.inl polling) worked
      | taken showing encoded nonempty broken counts =>
          obtain ⟨next, -, worked, -⟩ := work_taken showing encoded nonempty broken counts
          exact works (.inr showing) worked
      | read stands nonempty told broken counts =>
          rcases stands with showing | ⟨rfl, forwarding⟩ | polling
          · obtain ⟨next, -, worked, -⟩ := work_read (.inl showing) nonempty told broken counts
            exact works (.inr showing.2) worked
          · have stepped : run.stepMain .forward = some run.forward := by
              unfold stepMain
              rw [forwarding]
            exact goes_on rfl stepped
          · obtain ⟨next, -, worked, -⟩ := work_read (.inr polling) nonempty told broken counts
            exact works (.inl polling.2) worked
      | lost ended | failed ended => exact ⟨[], run, _, rfl, ended⟩

theorem after_failure (stream : BrokenStream) {session : Session} {isPaced : Bool}
    (listens : session.Listens [] []) (position : Position predicate .empty (start session isPaced))
    {moves : List Move} (runs : (start session isPaced).runMoves moves = some run)
    (bytes : bytesRead moves = stream.before) {late : Bool}
    (failed : run.step (.read .failed late) = some next) :
    results ((start session isPaced).trace moves) = stream.steps ∧
      After stream.tail stream.steps 5 false [] next := by
  have reached := position_of_run position runs
  have begins : (start session isPaced).session.Listens [] [] :=
    ⟨⟨listens.counts.steps, listens.counts.answerSets⟩, listens.hears, listens.leaves⟩
  obtain ⟨current, isPaced, producer, slot, main⟩ := run
  cases main with
  | polling =>
      have heard := listens_of_run begins runs rfl
      rw [List.nil_append, List.nil_append, bytes] at heard
      cases reached with
      | finished outcome finished => cases finished.ended
      | running goes_on forwards hears =>
          have queue : current.assembly.queue = [] := hears.drained (by simp)
          have drained : current.assembly.ahead [] = [] := by
            rw [Response.Assembly.ahead, queue]
            rfl
          unfold step at failed
          dsimp only at failed
          unfold stepMain at failed
          dsimp only at failed
          split at failed
          · cases failed
          · next idle =>
              unfold work at idle
              dsimp only at idle
              split at idle
              · next silent =>
                  obtain ⟨connected, absent⟩ := Connection.connected_of_silent silent
                  obtain ⟨steps, left⟩ := heard.whole connected absent drained
                  cases failed
                  refine ⟨steps, .waiting rfl ⟨rfl, rfl, queue, left⟩ ?_⟩
                  rw [← steps]
                  exact ⟨heard.counts.steps, heard.counts.answerSets⟩
              · cases idle
  | _ => cases failed

theorem After.unfound {left : Nat} {found : Bool} (after : After tail before left found more run)
    (nothing : tail = []) : found = false := by
  cases after with
  | failed ended nonempty => exact absurd nothing nonempty
  | _ => rfl

/-- How a run ends depends on the tail, and on whether an input is found afterwards. -/
theorem After.report {left : Nat} {found : Bool} (after : After tail before left found more run)
    {outcome : Except Error End} (ended : run.main = .ended outcome) :
    (run.session.report outcome =
          .ok ⟨.connectionLost, before.length, (before.flatMap StepResult.answerSets).length⟩ ∧
        more = []) ↔ TailPasses tail ∧ found = false := by
  have stays {other : Except Error End} (same : run.main = .ended other) : other = outcome := by
    rw [ended] at same
    cases same
    rfl
  cases after with
  | lost same told counts =>
      obtain rfl := stays same
      refine ⟨fun both => ⟨told.1 both.2, rfl⟩, fun both => ?_⟩
      obtain rfl := told.2 both.1
      rw [List.append_nil] at counts
      rw [Session.report, counts.steps, counts.answerSets]
      exact ⟨rfl, rfl⟩
  | failed same nonempty reason =>
      obtain rfl := stays same
      refine ⟨nofun, fun both => ?_⟩
      rcases reason with found | loud
      · rw [found] at both
        cases both.2
      · exact absurd both.1 loud
  | waiting elsewhere | taken elsewhere =>
      rw [ended] at elsewhere
      cases elsewhere
  | read stands =>
      simp [ended] at stands

end AsyncRun

end StepStream
