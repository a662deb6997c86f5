import StepStream.Proofs.StopDeferral
import StepStream.Source.Supply

/-!
The pace at which the fragments of a file are taken when every fragment waits for an answer.
The flag of the last answer is a permit for one fragment: showing a result gives it out, and
taking a fragment uses it up. A permit that the producer has seen stays until it is used, since
nobody else clears the flag.
-/

namespace StepStream.AsyncRun

set_option autoImplicit false

variable {run next : AsyncRun} {move : Move} {seen : List Event} {span : Duration}

/-- Whether the answer timeout has been declared in one of the states that these moves lead
through. -/
def timesOut (run : AsyncRun) : List Move → Bool
  | [] => run.session.status.answerTimedOut
  | move :: moves =>
      run.session.status.answerTimedOut ||
        match run.step move with
        | some next => next.timesOut moves
        | none => false

structure Pace where
  isPaced : Bool
  config : Config
  producer : Producer
  answered : Bool

def pace (run : AsyncRun) : Pace :=
  ⟨run.isPaced, run.session.config, run.producer, run.session.status.haveAnswerSet⟩

section MainLine

theorem pace_begin_sending (text : Text) (ending : Option End) :
    (run.beginSending text ending).pace = run.pace := by
  obtain ⟨transcript, echoed⟩ := Session.echo_changes_transcript run.session text
  unfold beginSending
  rw [echoed]
  dsimp only
  split <;> rfl

theorem pace_forward (run : AsyncRun) : run.forward.pace = run.pace := by
  unfold forward
  split
  · exact pace_begin_sending _ _
  · exact pace_begin_sending _ _
  · rfl
  · exact pace_begin_sending _ _
  · rfl

theorem pace_after_receiving (late : Bool) (answer : Option (Except Error Received)) :
    (run.afterReceiving late answer).pace = run.pace := by
  unfold afterReceiving
  split <;> rfl

def isTraffic : Event → Bool
  | .wrote _ | .polled _ => true
  | _ => false

/-- What the main line does to the pace: nothing, or it shows a result and sets the flag. -/
inductive Paces (run : AsyncRun) (events : List Event) (next : AsyncRun) : Prop
  | stays (same : next.pace = run.pace) (traffic : ∀ event ∈ events, isTraffic event = true)
  | shows (result : Response.StepResult) (event : events = [.shown result])
      (same : next.pace = { run.pace with answered := true })

theorem traffic_of_received (answer : Option (Except Error Received)) :
    ∀ event ∈ Event.ofReceived answer, isTraffic event = true := by
  intro event member
  unfold Event.ofReceived at member
  split at member
  · rw [List.mem_singleton.1 member, isTraffic]
  · cases member

theorem traffic_of_nothing : ∀ event ∈ ([] : List Event), isTraffic event = true :=
  List.forall_mem_nil _

theorem paces_of_sent {outcome : SendOutcome} (stepped : run.stepMain (.sent outcome) = some next) :
    Paces run (run.emits (.sent outcome)) next := by
  obtain ⟨session, isPaced, producer, slot, main⟩ := run
  cases main with
  | sending text ending =>
      cases outcome with
      | delivered =>
          have traffic : ∀ event ∈ [Event.wrote text], isTraffic event = true := by
            simp [isTraffic]
          cases ending <;> cases stepped <;> exact .stays rfl traffic
      | broken | failed =>
          cases stepped
          exact .stays rfl traffic_of_nothing
  | _ => cases stepped

theorem paces_of_work (worked : run.work = some next) : Paces run (run.emits .work) next := by
  obtain ⟨session, isPaced, producer, slot, main⟩ := run
  cases main with
  | polling =>
      unfold work at worked
      unfold emits
      dsimp only at worked ⊢
      cases buffered : session.connection.answerBuffered with
      | mk answer connection =>
          rw [buffered] at worked
          cases answer with
          | none => cases worked
          | some received =>
              cases worked
              exact .stays (pace_after_receiving _ _) (traffic_of_received _)
  | showing =>
      unfold work at worked
      unfold emits
      dsimp only at worked ⊢
      cases asked : session.nextResult with
      | mk found after =>
          have config : after.config = session.config ∧ after.status = session.status := by
            cases asked
            exact ⟨rfl, rfl⟩
          rw [asked] at worked
          cases found with
          | none =>
              cases worked
              exact .stays (by simp [pace, config]) traffic_of_nothing
          | some outcome =>
              cases outcome with
              | ok result =>
                  cases worked
                  exact .shows result rfl (by simp [pace, Session.display, Session.print, config])
              | error fault =>
                  cases worked
                  refine .stays ?_ traffic_of_nothing
                  simp [pace, finish, Session.requestExit, Status.requestExit, config]
  | _ => cases worked

theorem paces_of_main (stepped : run.stepMain move = some next) :
    Paces run (run.emits move) next := by
  unfold stepMain at stepped
  split at stepped
  · cases stepped
    exact .stays (pace_forward run) nofun
  · exact paces_of_sent (by simpa [stepMain, *] using stepped)
  · exact paces_of_work stepped
  · exact paces_of_work stepped
  · next polling =>
      split at stepped
      · cases stepped
      · cases stepped
        unfold emits
        rw [polling]
        exact .stays (pace_after_receiving _ _) (traffic_of_received _)
  · cases stepped

end MainLine

def isFragmentReturn : Event → Bool
  | .returned input => (fragmentOf input).isSome
  | _ => false

def untaken : Producer → Nat
  | .taking _ => 1
  | _ => 0

/-- Whether the producer has been allowed to ask and has not cleared the flags since. -/
def isAllowed : Producer → Bool
  | .asking | .taking _ => true
  | _ => false

/-- No more fragments have been taken than results have been shown, one less while the flag is
set, and the flag is set as long as a permit is in use. -/
structure KeepsPace (span : Duration) (seen : List Event) (pace : Pace) : Prop where
  isPaced : pace.isPaced = true
  awaits : pace.config.pacing = .awaitAnswer span
  returned : seen.countP isFragmentReturn = seen.countP isTaking + untaken pace.producer
  permits : seen.countP isTaking + pace.answered.toNat ≤ seen.countP isShowing
  permitted : isAllowed pace.producer = true → pace.answered = true

theorem count_behind_traffic {events : List Event} (counts : Event → Bool) (seen : List Event)
    (traffic : ∀ event ∈ events, isTraffic event = true)
    (elsewhere : ∀ event, isTraffic event = true → counts event = false) :
    (seen ++ events).countP counts = seen.countP counts := by
  have nothing : events.countP counts = 0 := by
    rw [List.countP_eq_zero]
    intro event member
    simp [elsewhere event (traffic event member)]
  rw [List.countP_append, nothing, Nat.add_zero]

theorem keeps_pace_of_main (keeps : KeepsPace span seen run.pace)
    (stepped : run.stepMain move = some next) :
    KeepsPace span (seen ++ run.emits move) next.pace := by
  obtain ⟨isPaced, awaits, returned, permits, permitted⟩ := keeps
  cases paces_of_main stepped with
  | stays same traffic =>
      rw [same]
      have unreturned := count_behind_traffic isFragmentReturn seen traffic
        (by rintro (_ | _) <;> simp [isTraffic, isFragmentReturn])
      have untaken := count_behind_traffic isTaking seen traffic
        (by rintro (_ | _) <;> simp [isTraffic, isTaking])
      have unshown := count_behind_traffic isShowing seen traffic
        (by rintro (_ | _) <;> simp [isTraffic, isShowing])
      refine ⟨isPaced, awaits, ?_, ?_, permitted⟩
      · rw [unreturned, untaken, returned]
      · rw [untaken, unshown]
        exact permits
  | shows result event same =>
      rw [same, event]
      refine ⟨isPaced, awaits, ?_, ?_, fun _ => rfl⟩
      · simpa [isFragmentReturn, isTaking] using returned
      · simp [isTaking, isShowing]
        omega

theorem pace_allows_asking (awaits : run.session.config.pacing = .awaitAnswer span)
    (untimed : run.session.status.answerTimedOut = false)
    (goes_on : run.session.status.exit = false) (allows : run.paceAllows = true) :
    run.session.status.haveAnswerSet = true := by
  rw [paceAllows, awaits] at allows
  simpa [untimed, goes_on] using allows

theorem keeps_pace_moving {pace : Pace} (keeps : KeepsPace span seen pace) {producer : Producer}
    (before : untaken pace.producer = 0) (after : untaken producer = 0)
    (permitted : isAllowed producer = true → pace.answered = true) :
    KeepsPace span (seen ++ []) { pace with producer := producer } := by
  have returned := keeps.returned
  rw [before] at returned
  rw [List.append_nil]
  refine ⟨keeps.isPaced, keeps.awaits, ?_, keeps.permits, permitted⟩
  rw [after]
  exact returned

theorem keeps_pace_supplied {pace : Pace} (keeps : KeepsPace span seen pace)
    (asking : pace.producer = .asking) (input : Except Error StepInput) :
    KeepsPace span (seen ++ [.returned input]) { pace with producer := holder input } := by
  obtain ⟨isPaced, awaits, returned, permits, permitted⟩ := keeps
  have answered : pace.answered = true := permitted (by rw [asking, isAllowed])
  rw [asking] at returned
  refine ⟨isPaced, awaits, ?_, ?_, fun _ => answered⟩
  · rw [List.countP_append, List.countP_append, returned]
    cases input with
    | error fault => rfl
    | ok input => cases input <;> rfl
  · rw [List.countP_append, List.countP_append]
    exact permits

theorem keeps_pace_cleared {pace : Pace} (keeps : KeepsPace span seen pace) {fragment : Fragment}
    (taking : pace.producer = .taking fragment) :
    KeepsPace span (seen ++ [.taken])
      { pace with answered := false, producer := .handing (.ok (.fragment fragment)) } := by
  obtain ⟨isPaced, awaits, returned, permits, permitted⟩ := keeps
  rw [permitted (by rw [taking, isAllowed])] at permits
  rw [taking] at returned
  refine ⟨isPaced, awaits, ?_, ?_, nofun⟩
  · rw [List.countP_append, List.countP_append, returned]
    rfl
  · rw [List.countP_append, List.countP_append]
    exact permits

theorem keeps_pace_of_producer (keeps : KeepsPace span seen run.pace)
    (untimed : run.session.status.answerTimedOut = false)
    (stepped : run.stepProducer move = some next) :
    KeepsPace span (seen ++ run.emits move) next.pace := by
  obtain ⟨session, isPaced, producer, slot, main⟩ := run
  have paced : isPaced = true := keeps.isPaced
  subst paced
  cases producer with
  | starting =>
      cases move with
      | begin =>
          unfold stepProducer at stepped
          dsimp only at stepped
          split at stepped <;> cases stepped <;> exact keeps_pace_moving keeps rfl rfl nofun
      | _ => cases stepped
  | pacing =>
      cases move with
      | paced =>
          unfold stepProducer at stepped
          dsimp only at stepped
          split at stepped
          · next allows =>
              cases stepped
              cases exit : session.status.exit with
              | true => exact keeps_pace_moving keeps rfl rfl nofun
              | false =>
                  have answered := pace_allows_asking keeps.awaits untimed exit allows
                  exact keeps_pace_moving keeps rfl rfl fun _ => answered
          · cases stepped
      | _ => cases stepped
  | asking =>
      cases move with
      | supplied answer =>
          have supplied := keeps_pace_supplied keeps rfl answer.input
          unfold stepProducer at stepped
          dsimp only at stepped
          change KeepsPace span (seen ++ [.returned answer.input]) next.pace
          cases input : answer.input with
          | error fault =>
              rw [input] at stepped supplied
              cases stepped
              exact supplied
          | ok returned =>
              rw [input] at stepped supplied
              cases returned <;> cases stepped <;> exact supplied
      | _ => cases stepped
  | taking fragment =>
      cases move with
      | cleared =>
          cases stepped
          exact keeps_pace_cleared keeps rfl
      | _ => cases stepped
  | handing input =>
      cases move with
      | handed =>
          unfold stepProducer at stepped
          dsimp only at stepped
          split at stepped
          · cases stepped
            exact keeps_pace_moving keeps rfl rfl nofun
          · split at stepped
            · cases stepped
            · cases stepped
              split <;> exact keeps_pace_moving keeps rfl rfl nofun
      | _ => cases stepped
  | holding =>
      cases move with
      | released =>
          unfold stepProducer at stepped
          dsimp only at stepped
          split at stepped
          · cases stepped
            exact keeps_pace_moving keeps rfl rfl nofun
          · cases stepped
      | _ => cases stepped
  | gone => cases move <;> cases stepped

theorem keeps_pace_step (keeps : KeepsPace span seen run.pace)
    (untimed : run.session.status.answerTimedOut = false) (stepped : run.step move = some next) :
    KeepsPace span (seen ++ run.emits move) next.pace := by
  cases move with
  | begin | paced | supplied | cleared | handed | released =>
      exact keeps_pace_of_producer keeps untimed stepped
  | forward | sent | work | read => exact keeps_pace_of_main keeps stepped

theorem keeps_pace_of_run {moves : List Move} {final : AsyncRun}
    (keeps : KeepsPace span seen run.pace) (runs : run.runMoves moves = some final)
    (untimed : run.timesOut moves = false) :
    KeepsPace span (seen ++ run.trace moves) final.pace := by
  induction moves generalizing run seen with
  | nil =>
      cases runs
      rw [trace, List.append_nil]
      exact keeps
  | cons move moves induction =>
      rw [timesOut, Bool.or_eq_false_iff] at untimed
      cases stepped : run.step move with
      | none =>
          rw [runMoves, stepped] at runs
          cases runs
      | some next =>
          rw [runMoves, stepped, Option.bind_some] at runs
          rw [stepped] at untimed
          rw [trace, stepped, ← List.append_assoc]
          exact induction (keeps_pace_step keeps untimed.1 stepped) runs untimed.2

theorem keeps_pace_start {config : Config} {format : OutputFormat} {session : Session}
    (fresh : session.Fresh config format) (awaits : config.pacing = .awaitAnswer span)
    (buffer : StepBuffer) :
    KeepsPace span [] (start session (Source.buffer buffer).isPaced).pace := by
  refine ⟨rfl, ?_, rfl, ?_, nofun⟩
  · change session.config.pacing = .awaitAnswer span
    rw [fresh.settings, awaits]
  · change 0 + session.status.haveAnswerSet.toNat ≤ 0
    rw [fresh.nothing_told]
    exact Nat.le_refl 0

/-- A fragment that has not been taken yet has a permit that has not been used. -/
theorem untaken_le_answered {pace : Pace} (keeps : KeepsPace span seen pace) :
    untaken pace.producer ≤ pace.answered.toNat := by
  unfold untaken
  split
  · next fragment taking =>
      rw [keeps.permitted (by rw [taking, isAllowed])]
      exact Nat.le_refl 1
  · exact Nat.zero_le _

/-- While the fragments of a file wait for answers and no answer has timed out, the source has
never returned more fragments than results have been shown, whatever the source and the server
do and in whatever order the two sides move. Hence no more have been taken either. -/
theorem fragments_within_answers {config : Config} {format : OutputFormat}
    {created session : Session} (creates : Session.create config format = .ok created)
    (connects : created.connect .accepted = (.ok (), session))
    (awaits : config.pacing = .awaitAnswer span) (buffer : StepBuffer) {moves : List Move}
    {final : AsyncRun}
    (runs : (start session (Source.buffer buffer).isPaced).runMoves moves = some final)
    (untimed : (start session (Source.buffer buffer).isPaced).timesOut moves = false) :
    let events := (start session (Source.buffer buffer).isPaced).trace moves
    events.countP isTaking ≤ events.countP isFragmentReturn ∧
      events.countP isFragmentReturn ≤ events.countP isShowing := by
  intro events
  have fresh := Session.fresh_of_create creates connects
  have keeps := keeps_pace_of_run (keeps_pace_start fresh awaits buffer) runs untimed
  have returned : events.countP isFragmentReturn =
      events.countP isTaking + untaken final.pace.producer := keeps.returned
  have permits : events.countP isTaking + final.pace.answered.toNat ≤ events.countP isShowing :=
    keeps.permits
  have spare := untaken_le_answered keeps
  omega

def patientConfig : Config :=
  { Config.standard with mode := .async, pacing := .awaitAnswer (.ofSeconds 5) }

/-- A second result is shown between the look at the flag and the taking of the fragment. It
gives no second permit, since the taking clears the flag for both. -/
def answeredTwice : List Move :=
  [.begin, .forward, .read (.received (Message.encode "End of Step.\nEnd of Step.\n".toList)) false,
    .work, .work, .paced, .supplied ⟨.ok (.fragment ⟨["a.\n".toList]⟩), 0, []⟩, .work, .work,
    .cleared, .handed, .begin]

theorem answered_twice_takes_once :
    ∃ created session final, Session.create patientConfig .text = .ok created ∧
      created.connect .accepted = (.ok (), session) ∧
      (start session true).runMoves answeredTwice = some final ∧
      (start session true).timesOut answeredTwice = false ∧
      final.paceAllows = false ∧
      let events := (start session true).trace answeredTwice
      events.countP isTaking = 1 ∧ events.countP isShowing = 2 ∧
        events.countP isTaking ≤ events.countP isFragmentReturn ∧
        events.countP isFragmentReturn ≤ events.countP isShowing := by
  have creates : Session.create patientConfig .text = .ok _ := rfl
  refine ⟨_, _, _, creates, rfl, rfl, rfl, rfl, rfl, rfl, ?_⟩
  exact fragments_within_answers creates rfl rfl ⟨[⟨["a.\n".toList]⟩]⟩ rfl rfl

end StepStream.AsyncRun
