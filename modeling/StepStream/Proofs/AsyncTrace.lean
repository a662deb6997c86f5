import StepStream.Proofs.Session
import StepStream.Session.Async

/-!
What happens in asynchronous runs. A move of either side is one of a few transitions, each
with its guard, its effect on the run and what can be seen of it. Everything that is said
about all runs is derived from these.
-/

namespace StepStream.AsyncRun

set_option autoImplicit false

open Response (StepResult)

inductive Event where
  | returned (input : Except Error StepInput)
  /-- The flags of the last answer are cleared for a fragment. -/
  | taken
  | wrote (text : Text)
  | polled (message : Text)
  | shown (result : StepResult)

/-- What has been seen of a run, sorted by kind. -/
structure Log where
  returned : List (Except Error StepInput)
  wrote : List Text
  polled : List Text
  shown : List StepResult

namespace Log

def empty : Log := ⟨[], [], [], []⟩

def record (log : Log) : Event → Log
  | .returned input => { log with returned := log.returned ++ [input] }
  | .taken => log
  | .wrote text => { log with wrote := log.wrote ++ [text] }
  | .polled message => { log with polled := log.polled ++ [message] }
  | .shown result => { log with shown := log.shown ++ [result] }

def recordAll (log : Log) (events : List Event) : Log := events.foldl record log

theorem record_all_append (log : Log) (first second : List Event) :
    log.recordAll (first ++ second) = (log.recordAll first).recordAll second :=
  List.foldl_append

end Log

def Event.ofReceived : Option (Except Error Received) → List Event
  | some (.ok (.message text)) => [.polled text]
  | _ => []

def Event.ofResult : Option (Except Error StepResult) → List Event
  | some (.ok result) => [.shown result]
  | _ => []

def emits (run : AsyncRun) : Move → List Event
  | .supplied answer =>
      match run.producer with
      | .asking => [.returned answer.input]
      | _ => []
  | .cleared =>
      match run.producer with
      | .taking _ => [.taken]
      | _ => []
  | .sent .delivered =>
      match run.main with
      | .sending text _ => [.wrote text]
      | _ => []
  | .work =>
      match run.main with
      | .polling => Event.ofReceived run.session.connection.answerBuffered.1
      | .showing => Event.ofResult run.session.nextResult.1
      | _ => []
  | .read outcome _ =>
      match run.main with
      | .polling => Event.ofReceived (run.session.connection.absorb outcome).1
      | _ => []
  | _ => []

def trace (run : AsyncRun) : List Move → List Event
  | [] => []
  | move :: moves =>
      run.emits move ++
        match run.step move with
        | some next => next.trace moves
        | none => []

def holder : Except Error StepInput → Producer
  | .ok (.fragment fragment) => .taking fragment
  | .ok .stop => .holding
  | .error fault => .handing (.error fault)

def afterHanding : Except Error StepInput → Producer
  | .ok (.fragment _) => .starting
  | _ => .gone

/-- The ends that a run can have without a stop being sent. -/
def IsAbrupt (outcome : Except Error End) : Prop :=
  outcome ≠ .ok .stopped ∧ outcome ≠ .ok .inputExhausted

/-- One move of either side, with what can be seen of it. -/
inductive Transition (run : AsyncRun) : List Event → AsyncRun → Prop
  | leave (exit : run.session.status.exit = true)
      (before : run.producer = .starting ∨ run.producer = .pacing) :
      Transition run [] { run with producer := .gone }
  | proceed {producer : Producer} (goes_on : run.session.status.exit = false)
      (before : run.producer = .starting ∨ run.producer = .pacing)
      (after : producer = .pacing ∨ producer = .asking) :
      Transition run [] { run with producer := producer }
  | answer (answer : Supplied) (asking : run.producer = .asking) :
      Transition run [.returned answer.input]
        { run with
          session :=
            { run.session with status := { run.session.status with step := answer.step } }
          producer := holder answer.input }
  | clear (fragment : Fragment) (taking : run.producer = .taking fragment) :
      Transition run [.taken]
        { run with
          session := { run.session with status := run.session.status.fragmentTaken }
          producer := .handing (.ok (.fragment fragment)) }
  | release (holding : run.producer = .holding)
      (answered : run.session.status.haveAnswerSet = true ∨ run.session.status.exit = true) :
      Transition run [] { run with producer := .handing (.ok .stop) }
  | abandon (input : Except Error StepInput) (handing : run.producer = .handing input)
      (ended : run.isEnded = true) :
      Transition run [] { run with producer := .gone }
  | hand (input : Except Error StepInput) (handing : run.producer = .handing input)
      (goes_on : run.isEnded = false) (free : run.slot = none) :
      Transition run [] { run with slot := some input, producer := afterHanding input }
  | forward (fragment : Fragment) (transcript : Text) (forwarding : run.main = .forwarding)
      (found : run.slot = some (.ok (.fragment fragment))) :
      Transition run []
        { run with
          slot := none
          session := { run.session with transcript := transcript }
          main := .sending (fragment.render run.session.constraints) none }
  | stop (transcript : Text) (forwarding : run.main = .forwarding)
      (found : run.slot = some (.ok .stop)) :
      Transition run []
        { run with
          slot := none
          session := { run.session with transcript := transcript }
          main := .sending Fragment.stop (some .stopped) }
  | exhaust (transcript : Text) (forwarding : run.main = .forwarding) (free : run.slot = none)
      (gone : run.producer = .gone) :
      Transition run []
        { run with
          session := { run.session with transcript := transcript }
          main := .sending Fragment.stop (some .inputExhausted) }
  | look (forwarding : run.main = .forwarding) (free : run.slot = none) :
      Transition run [] { run with main := .polling }
  | deliver (text : Text) (sending : run.main = .sending text none) :
      Transition run [.wrote text] { run with main := .forwarding }
  | close (text : Text) (ending : End) (sending : run.main = .sending text (some ending)) :
      Transition run [.wrote text]
        ({ run with
            session := { run.session with connection := run.session.connection.close } }.finish
          (.ok ending))
  | poll (text : Text) (connection : Connection) (polling : run.main = .polling) :
      Transition run [.polled text]
        { run with
          session := { run.session with connection := connection }.pushMessage text
          main := .showing }
  | read (connection : Connection) (polling : run.main = .polling) :
      Transition run []
        { run with session := { run.session with connection := connection } }
  | pause (connection : Connection) (late : Bool) (polling : run.main = .polling) :
      Transition run []
        { run with
          session :=
            { run.session with
              connection := connection
              status := { run.session.status with answerTimedOut := late } }
          main := .forwarding }
  | display (result : StepResult) (session : Session) (showing : run.main = .showing)
      (next : run.session.nextResult = (some (.ok result), session)) :
      Transition run [.shown result] { run with session := session.display result }
  | drain (session : Session) (showing : run.main = .showing)
      (next : run.session.nextResult = (none, session)) :
      Transition run [] { run with session := session, main := .forwarding }
  | fail (session : Session) (slot : Option (Except Error StepInput))
      (outcome : Except Error End) (goes_on : run.isEnded = false)
      (abrupt : IsAbrupt outcome) (kept : slot = none ∨ slot = run.slot) :
      Transition run [] ({ run with session := session, slot := slot }.finish outcome)

variable {run next : AsyncRun} {move : Move}

/-- A producer changes nothing of the session but its status, and never takes back the request
to leave. -/
theorem session_of_producer (stepped : run.stepProducer move = some next) :
    next.main = run.main ∧ ∃ status, next.session = { run.session with status := status } ∧
      (run.session.status.exit = true → status.exit = true) := by
  unfold stepProducer at stepped
  split at stepped
  · split at stepped <;> cases stepped <;> exact ⟨rfl, _, rfl, id⟩
  · split at stepped
    · cases stepped
      exact ⟨rfl, _, rfl, id⟩
    · cases stepped
  · dsimp only at stepped
    split at stepped <;> cases stepped <;> exact ⟨rfl, _, rfl, id⟩
  · cases stepped
    exact ⟨rfl, _, rfl, id⟩
  · split at stepped
    · cases stepped
      exact ⟨rfl, _, rfl, id⟩
    · cases stepped
  · split at stepped
    · cases stepped
      exact ⟨rfl, _, rfl, id⟩
    · split at stepped
      · cases stepped
      · cases stepped
        exact ⟨rfl, _, rfl, id⟩
  · cases stepped

theorem transition_of_begin (stepped : run.stepProducer .begin = some next) :
    Transition run [] next := by
  obtain ⟨session, isPaced, producer, slot, main⟩ := run
  cases producer with
  | starting =>
      unfold stepProducer at stepped
      dsimp only at stepped
      split at stepped
      · next exit =>
          cases stepped
          exact .leave exit (.inl rfl)
      · next goes_on =>
          cases stepped
          refine .proceed (Bool.not_eq_true _ ▸ goes_on) (.inl rfl) ?_
          cases isPaced
          · exact .inr rfl
          · exact .inl rfl
  | _ => cases stepped

theorem transition_of_paced (stepped : run.stepProducer .paced = some next) :
    Transition run [] next := by
  obtain ⟨session, isPaced, producer, slot, main⟩ := run
  cases producer with
  | pacing =>
      unfold stepProducer at stepped
      dsimp only at stepped
      split at stepped
      · cases exit : session.status.exit with
        | true =>
            rw [exit] at stepped
            cases stepped
            exact .leave exit (.inr rfl)
        | false =>
            rw [exit] at stepped
            cases stepped
            exact .proceed exit (.inr rfl) (.inr rfl)
      · cases stepped
  | _ => cases stepped

theorem transition_of_supplied {answer : Supplied}
    (stepped : run.stepProducer (.supplied answer) = some next) :
    Transition run (run.emits (.supplied answer)) next := by
  obtain ⟨session, isPaced, producer, slot, main⟩ := run
  cases producer with
  | asking =>
      have moved : Transition ⟨session, isPaced, .asking, slot, main⟩ [.returned answer.input] _ :=
        .answer answer rfl
      unfold stepProducer at stepped
      dsimp only at stepped
      change Transition _ [.returned answer.input] next
      cases input : answer.input with
      | error fault =>
          rw [input] at stepped moved
          cases stepped
          exact moved
      | ok returned =>
          rw [input] at stepped moved
          cases returned <;> cases stepped <;> exact moved
  | _ => cases stepped

theorem transition_of_cleared (stepped : run.stepProducer .cleared = some next) :
    Transition run (run.emits .cleared) next := by
  obtain ⟨session, isPaced, producer, slot, main⟩ := run
  cases producer with
  | taking fragment =>
      cases stepped
      exact .clear fragment rfl
  | _ => cases stepped

theorem transition_of_released (stepped : run.stepProducer .released = some next) :
    Transition run [] next := by
  obtain ⟨session, isPaced, producer, slot, main⟩ := run
  cases producer with
  | holding =>
      unfold stepProducer at stepped
      dsimp only at stepped
      split at stepped
      · next answered =>
          cases stepped
          exact .release rfl (Bool.or_eq_true _ _ ▸ answered)
      · cases stepped
  | _ => cases stepped

theorem transition_of_handed (stepped : run.stepProducer .handed = some next) :
    Transition run [] next := by
  obtain ⟨session, isPaced, producer, slot, main⟩ := run
  cases producer with
  | handing input =>
      unfold stepProducer at stepped
      dsimp only at stepped
      split at stepped
      · next ended =>
          cases stepped
          exact .abandon input rfl ended
      · next goes_on =>
          cases slot with
          | some waiting => cases stepped
          | none =>
              have moved : Transition ⟨session, isPaced, .handing input, none, main⟩ [] _ :=
                .hand input rfl (Bool.not_eq_true _ ▸ goes_on) rfl
              cases stepped
              cases input with
              | error fault => exact moved
              | ok returned => cases returned <;> exact moved
  | _ => cases stepped

theorem is_abrupt_error (fault : Error) : IsAbrupt (.error fault) := ⟨nofun, nofun⟩

theorem transition_of_begin_sending {begun : AsyncRun} {text : Text} {ending : Option End}
    (sends : ∀ transcript, Transition run []
      { begun with
        session := { begun.session with transcript := transcript }
        main := .sending text ending })
    (refuses : ∀ transcript fault, Transition run []
      ({ begun with session := { begun.session with transcript := transcript } }.finish
        (.error fault))) :
    Transition run [] (begun.beginSending text ending) := by
  obtain ⟨transcript, echoed⟩ := Session.echo_changes_transcript begun.session text
  unfold beginSending
  rw [echoed]
  dsimp only
  cases begun.session.connection.usable with
  | ok => exact sends transcript
  | error fault => exact refuses transcript fault

theorem transition_of_forward (forwarding : run.main = .forwarding) :
    Transition run [] run.forward := by
  obtain ⟨session, isPaced, producer, slot, main⟩ := run
  cases forwarding
  have refuses (transcript : Text) (fault : Error) :
      Transition ⟨session, isPaced, producer, slot, .forwarding⟩ []
        (finish
          ⟨{ session with transcript := transcript }, isPaced, producer, none, .forwarding⟩
          (.error fault)) :=
    .fail _ none _ rfl (is_abrupt_error fault) (.inl rfl)
  cases slot with
  | some found =>
      cases found with
      | error fault => exact refuses session.transcript fault
      | ok input =>
          cases input with
          | fragment fragment =>
              exact transition_of_begin_sending
                (fun transcript => .forward fragment transcript rfl rfl) refuses
          | stop =>
              exact transition_of_begin_sending (fun transcript => .stop transcript rfl rfl)
                refuses
  | none =>
      cases producer with
      | gone =>
          exact transition_of_begin_sending
            (fun transcript => .exhaust transcript rfl rfl rfl) refuses
      | _ => exact .look rfl rfl

theorem transition_of_sent {outcome : SendOutcome}
    (stepped : run.stepMain (.sent outcome) = some next) :
    Transition run (run.emits (.sent outcome)) next := by
  obtain ⟨session, isPaced, producer, slot, main⟩ := run
  cases main with
  | sending text ending =>
      cases outcome with
      | delivered =>
          cases ending with
          | none =>
              cases stepped
              exact .deliver text rfl
          | some ending =>
              cases stepped
              exact .close text ending rfl
      | broken =>
          cases stepped
          exact .fail session slot _ rfl (is_abrupt_error _) (.inr rfl)
      | failed reason =>
          cases stepped
          exact .fail session slot _ rfl (is_abrupt_error _) (.inr rfl)
  | _ => cases stepped

theorem transition_of_receiving (polling : run.main = .polling) (connection : Connection)
    (late : Bool) (answer : Option (Except Error Received)) :
    Transition run (Event.ofReceived answer)
      ({ run with session := { run.session with connection := connection } }.afterReceiving late
        answer) := by
  have goes_on : run.isEnded = false := by rw [isEnded, polling]
  cases answer with
  | none => exact .read connection polling
  | some received =>
      cases received with
      | error fault => exact .fail _ run.slot _ goes_on (is_abrupt_error fault) (.inr rfl)
      | ok received =>
          cases received with
          | message text => exact .poll text connection polling
          | timeout => exact .pause connection _ polling
          | closed =>
              refine .fail _ run.slot _ goes_on ?_ (.inr rfl)
              unfold Session.closedEnd
              split <;> exact ⟨nofun, nofun⟩

theorem transition_of_work (worked : run.work = some next) :
    Transition run (run.emits .work) next := by
  obtain ⟨session, isPaced, producer, slot, main⟩ := run
  cases main with
  | polling =>
      unfold work at worked
      unfold emits
      dsimp only at worked ⊢
      cases buffered : session.connection.answerBuffered with
      | mk answer connection =>
          rw [buffered] at worked
          cases answer with
          | none => cases worked
          | some received =>
              cases worked
              exact transition_of_receiving rfl connection false (some received)
  | showing =>
      unfold work at worked
      unfold emits
      dsimp only at worked ⊢
      cases asked : session.nextResult with
      | mk found after =>
          rw [asked] at worked
          cases found with
          | none =>
              cases worked
              exact .drain after rfl asked
          | some outcome =>
              cases outcome with
              | ok result =>
                  cases worked
                  exact .display result after rfl asked
              | error fault =>
                  cases worked
                  exact .fail after slot _ rfl (is_abrupt_error fault) (.inr rfl)
  | _ => cases worked

theorem transition_of_read {outcome : ReadOutcome} {late : Bool}
    (stepped : run.stepMain (.read outcome late) = some next) :
    Transition run (run.emits (.read outcome late)) next := by
  obtain ⟨session, isPaced, producer, slot, main⟩ := run
  cases main with
  | polling =>
      unfold stepMain at stepped
      unfold emits
      dsimp only at stepped ⊢
      split at stepped
      · cases stepped
      · cases stepped
        exact transition_of_receiving rfl _ late _
  | _ => cases stepped

theorem transition_of_step (stepped : run.step move = some next) :
    Transition run (run.emits move) next := by
  cases move with
  | begin => exact transition_of_begin stepped
  | paced => exact transition_of_paced stepped
  | supplied answer => exact transition_of_supplied stepped
  | cleared => exact transition_of_cleared stepped
  | released => exact transition_of_released stepped
  | handed => exact transition_of_handed stepped
  | forward =>
      obtain ⟨session, isPaced, producer, slot, main⟩ := run
      cases main with
      | forwarding =>
          cases stepped
          exact transition_of_forward rfl
      | _ => cases stepped
  | sent outcome => exact transition_of_sent stepped
  | work =>
      obtain ⟨session, isPaced, producer, slot, main⟩ := run
      cases main with
      | polling => exact transition_of_work stepped
      | showing => exact transition_of_work stepped
      | _ => cases stepped
  | read outcome late => exact transition_of_read stepped

/-- Once a run has ended, only a producer that has not left can still move. -/
theorem transition_after_end {outcome : Except Error End} (ended : run.main = .ended outcome)
    {events : List Event} (moved : Transition run events next) :
    run.producer ≠ .gone ∧ ∃ session producer more,
      next = { run with session := session, producer := producer } ∧
        ∀ log : Log, log.recordAll events = { log with returned := log.returned ++ more } := by
  have quiet (log : Log) : log.recordAll [] = { log with returned := log.returned ++ [] } := by
    rw [List.append_nil]
    rfl
  cases moved with
  | leave _ before | proceed _ before =>
      have here : run.producer ≠ .gone := by rcases before with stands | stands <;> simp [stands]
      exact ⟨here, _, _, [], rfl, quiet⟩
  | answer answer asking => exact ⟨by simp [asking], _, _, [answer.input], rfl, fun _ => rfl⟩
  | clear _ stands | release stands | abandon _ stands =>
      exact ⟨by simp [stands], _, _, [], rfl, quiet⟩
  | hand _ _ goes_on | fail _ _ _ goes_on => simp [isEnded, ended] at goes_on
  | forward _ _ elsewhere | stop _ elsewhere | exhaust _ elsewhere | look elsewhere
  | deliver _ elsewhere | close _ _ elsewhere | poll _ _ elsewhere | read _ elsewhere
  | pause _ _ elsewhere | display _ _ elsewhere | drain _ elsewhere =>
      rw [ended] at elsewhere
      cases elsewhere

/-- A run ends with the last text it sends, or abruptly. -/
theorem transition_to_end (goes_on : run.isEnded = false) {events : List Event}
    (moved : Transition run events next) (ended : next.isEnded = true) :
    (∃ text ending, run.main = .sending text (some ending) ∧ events = [.wrote text] ∧
        next.main = .ended (.ok ending) ∧ next.producer = run.producer) ∨
      ∃ outcome, IsAbrupt outcome ∧ events = [] ∧ next.main = .ended outcome := by
  cases moved with
  | close text ending sending => exact .inl ⟨text, ending, sending, rfl, rfl, rfl⟩
  | fail _ _ outcome _ abrupt => exact .inr ⟨outcome, abrupt, rfl, rfl⟩
  | leave | proceed | answer | clear | release | abandon | hand | read | display =>
      cases goes_on.symm.trans ended
  | forward | stop | exhaust | look | deliver | poll | pause | drain => cases ended

theorem invariant_of_run {invariant : List Event → AsyncRun → Prop}
    (preserved : ∀ seen run events next, invariant seen run → Transition run events next →
      invariant (seen ++ events) next)
    {moves : List Move} {seen : List Event} {final : AsyncRun} (holds : invariant seen run)
    (runs : run.runMoves moves = some final) : invariant (seen ++ run.trace moves) final := by
  induction moves generalizing run seen with
  | nil =>
      cases runs
      rw [trace, List.append_nil]
      exact holds
  | cons move moves induction =>
      cases stepped : run.step move with
      | none =>
          rw [runMoves, stepped] at runs
          cases runs
      | some next =>
          rw [runMoves, stepped, Option.bind_some] at runs
          have after := preserved seen run _ next holds (transition_of_step stepped)
          rw [trace, stepped, ← List.append_assoc]
          exact induction after runs

theorem run_moves_append {middle : AsyncRun} {first : List Move}
    (runs : run.runMoves first = some middle) (second : List Move) :
    run.runMoves (first ++ second) = middle.runMoves second ∧
      run.trace (first ++ second) = run.trace first ++ middle.trace second := by
  induction first generalizing run with
  | nil =>
      cases runs
      exact ⟨rfl, rfl⟩
  | cons move first induction =>
      cases stepped : run.step move with
      | none =>
          rw [runMoves, stepped] at runs
          cases runs
      | some next =>
          rw [runMoves, stepped, Option.bind_some] at runs
          obtain ⟨moves, events⟩ := induction runs
          rw [List.cons_append, runMoves, trace, trace, stepped, Option.bind_some]
          dsimp only
          rw [moves, events, List.append_assoc]
          exact ⟨rfl, rfl⟩

end StepStream.AsyncRun
