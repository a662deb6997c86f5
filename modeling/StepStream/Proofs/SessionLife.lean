import StepStream.Proofs.AsyncTrace
import StepStream.Proofs.SyncWork
import StepStream.Session.Life

/-!
The end of a session. A run that ends without a fault has closed the connection, in whichever
way it has ended, and has asked everybody to leave. Nothing can begin after that: a later run is
refused before it has done anything.
-/

namespace StepStream

set_option autoImplicit false

/-- Whether the connection of a session is over, and everybody has been asked to leave. -/
structure Session.IsOver (session : Session) : Prop where
  closed : session.connection.state = .closed
  exit : session.status.exit = true

namespace SyncRun

variable {session : Session} {run next : SyncRun} {move : Move}

/-- Whether a run has ended without a fault only if the session is over. -/
def EndsOver (run : SyncRun) : Prop :=
  ∀ ending, run.phase = .ended (.ok ending) → run.session.IsOver

theorem ends_over_finish {outcome : Except Error End}
    (closed : ∀ ending, outcome = .ok ending → session.connection.state = .closed) :
    (finish session outcome).EndsOver := by
  rintro ending ⟨⟩
  exact ⟨closed ending rfl, rfl⟩

theorem ends_over_after_receiving {answer : Option (Except Error Received)}
    (closed : answer = some (.ok .closed) → session.connection.state = .closed) :
    (afterReceiving session answer).EndsOver := by
  cases answer with
  | none => exact nofun
  | some received =>
      cases received with
      | error fault => exact ends_over_finish nofun
      | ok received =>
          cases received with
          | message text => exact nofun
          | timeout => exact nofun
          | closed => exact ends_over_finish fun _ _ => closed rfl

theorem ends_over_begin_sending (session : Session) (text : Text) (isStop : Bool) :
    (beginSending session text isStop).EndsOver := by
  unfold beginSending
  dsimp only
  split
  · exact nofun
  · exact ends_over_finish nofun

theorem ends_over_take (session : Session) (answer : Supplied) :
    (take session answer).EndsOver := by
  unfold take
  dsimp only
  split
  · exact ends_over_finish nofun
  · exact ends_over_begin_sending _ _ _
  · exact ends_over_begin_sending _ _ _

theorem ends_over_step (stepped : run.step move = some next) : next.EndsOver := by
  obtain ⟨session, phase⟩ := run
  unfold step at stepped
  split at stepped
  · cases worked_of_work stepped with
    | shown asked => exact nofun
    | refused asked => exact ends_over_finish nofun
    | answered asked answers =>
        apply ends_over_after_receiving
        rintro ⟨⟩
        exact Connection.closed_of_answer answers
  · split at stepped
    · cases stepped
    · cases stepped
      apply ends_over_after_receiving
      intro told
      exact Connection.closed_of_absorb (Prod.ext told rfl)
  · cases stepped
    exact ends_over_take _ _
  · split at stepped
    · cases stepped
      exact ends_over_finish nofun
    · split at stepped
      · cases stepped
        exact ends_over_finish fun _ _ => Connection.close_closes _
      · cases stepped
        exact nofun
  · cases stepped

end SyncRun

namespace AsyncRun

variable {run next : AsyncRun} {move : Move}

def EndsOver (run : AsyncRun) : Prop :=
  ∀ ending, run.main = .ended (.ok ending) → run.session.IsOver

theorem ends_over_finish {outcome : Except Error End}
    (closed : ∀ ending, outcome = .ok ending → run.session.connection.state = .closed) :
    (run.finish outcome).EndsOver := by
  rintro ending ⟨⟩
  exact ⟨closed ending rfl, rfl⟩

theorem ends_over_begin_sending (run : AsyncRun) (text : Text) (ending : Option End) :
    (run.beginSending text ending).EndsOver := by
  unfold beginSending
  dsimp only
  split
  · exact nofun
  · exact ends_over_finish nofun

theorem ends_over_forward (run : AsyncRun) : run.forward.EndsOver := by
  unfold forward
  split
  · exact ends_over_begin_sending _ _ _
  · exact ends_over_begin_sending _ _ _
  · exact ends_over_finish nofun
  · exact ends_over_begin_sending _ _ _
  · exact nofun

theorem ends_over_after_receiving {late : Bool} {answer : Option (Except Error Received)}
    (polling : run.main = .polling)
    (closed : answer = some (.ok .closed) → run.session.connection.state = .closed) :
    (run.afterReceiving late answer).EndsOver := by
  cases answer with
  | none =>
      intro ending ended
      cases polling.symm.trans ended
  | some received =>
      cases received with
      | error fault => exact ends_over_finish nofun
      | ok received =>
          cases received with
          | message text => exact nofun
          | timeout => exact nofun
          | closed => exact ends_over_finish fun _ _ => closed rfl

theorem ends_over_work (worked : run.work = some next) : next.EndsOver := by
  unfold work at worked
  split at worked
  · next polling =>
      split at worked
      · cases worked
      · next answer connection _ answers =>
          cases worked
          apply ends_over_after_receiving
          · exact polling
          · rintro ⟨⟩
            exact Connection.closed_of_answer answers
  · next showing =>
      split at worked
      · cases worked
        intro ending ended
        cases showing.symm.trans ended
      · cases worked
        exact ends_over_finish nofun
      · cases worked
        exact nofun
  · cases worked

theorem ends_over_main (stepped : run.stepMain move = some next) : next.EndsOver := by
  unfold stepMain at stepped
  split at stepped
  · cases stepped
    exact ends_over_forward run
  · split at stepped
    · cases stepped
      exact ends_over_finish nofun
    · split at stepped
      · cases stepped
        exact nofun
      · cases stepped
        exact ends_over_finish fun _ _ => Connection.close_closes _
  · exact ends_over_work stepped
  · exact ends_over_work stepped
  · next polling =>
      split at stepped
      · cases stepped
      · cases stepped
        apply ends_over_after_receiving
        · exact polling
        · intro told
          exact Connection.closed_of_absorb (Prod.ext told rfl)
  · cases stepped

theorem ends_over_step (sound : run.EndsOver) (stepped : run.step move = some next) :
    next.EndsOver := by
  have moved (produces : run.stepProducer move = some next) : next.EndsOver := by
    obtain ⟨main, status, session, kept⟩ := session_of_producer produces
    intro ending ended
    have before := sound ending (main.symm.trans ended)
    rw [session]
    exact ⟨before.closed, kept before.exit⟩
  cases move with
  | begin | paced | supplied | cleared | handed | released => exact moved stepped
  | forward | sent | work | read => exact ends_over_main stepped

end AsyncRun

namespace Life

variable {life later : Life} {session : Session} {move : Move} {moves : List Move}
  {returned : Option (Except Error Summary)}

def EndsOver (life : Life) : Prop :=
  ∀ ending, life.activity.outcome? = some (.ok ending) → life.activity.session.IsOver

theorem outcome_sync_iff (run : SyncRun) (outcome : Except Error End) :
    (Activity.sync run).outcome? = some outcome ↔ run.phase = .ended outcome := by
  obtain ⟨session, phase⟩ := run
  cases phase <;> simp [Activity.outcome?]

theorem outcome_async_iff (run : AsyncRun) (outcome : Except Error End) :
    (Activity.async run).outcome? = some outcome ↔ run.main = .ended outcome := by
  obtain ⟨session, isPaced, producer, slot, main⟩ := run
  cases main <;> simp [Activity.outcome?]

theorem left_behind_changes_status {index : Nat} {move : AsyncRun.Move}
    (moved : life.moveLeftBehind index move = some later) :
    ∃ status, later.activity = life.activity.withStatus status ∧
      (life.activity.session.status.exit = true → status.exit = true) := by
  unfold moveLeftBehind at moved
  obtain ⟨run, found, moved⟩ := Option.bind_eq_some_iff.1 moved
  obtain ⟨next, stepped, moved⟩ := Option.bind_eq_some_iff.1 moved
  cases moved
  obtain ⟨-, status, session, kept⟩ := AsyncRun.session_of_producer stepped
  rw [session]
  exact ⟨status, rfl, kept⟩

theorem over_with_status {activity : Activity} {status : Status}
    (before : activity.session.IsOver)
    (kept : activity.session.status.exit = true → status.exit = true) :
    (activity.withStatus status).session.IsOver := by
  cases activity <;> exact ⟨before.closed, kept before.exit⟩

theorem outcome_with_status (activity : Activity) (status : Status) :
    (activity.withStatus status).outcome? = activity.outcome? := by
  cases activity <;> rfl

/-- A run that begins has not ended, and one that cannot begin returns a fault. -/
theorem begin_has_no_end (life : Life) (session : Session) (outcome : ConnectOutcome)
    (isPaced : Bool) (spawned : Except Text Unit) :
    (life.beginRun session outcome isPaced spawned).1.activity.outcome? = none ∧
      ∀ summary, (life.beginRun session outcome isPaced spawned).2 ≠ some (.ok summary) := by
  unfold beginRun
  split
  · exact ⟨rfl, nofun⟩
  · split
    · exact ⟨rfl, nofun⟩
    · exact ⟨rfl, nofun⟩
    · exact ⟨rfl, nofun⟩

theorem ends_over_step (sound : life.EndsOver) (stepped : life.step move = some (later, returned)) :
    later.EndsOver := by
  unfold step at stepped
  split at stepped
  · next outcome isPaced spawned session idle =>
      have begun : life.beginRun session outcome isPaced spawned = (later, returned) :=
        Option.some.inj stepped
      have nothing := (begin_has_no_end life session outcome isPaced spawned).1
      rw [begun] at nothing
      intro ending ended
      cases nothing.symm.trans ended
  · obtain ⟨next, moved, same⟩ := Option.map_eq_some_iff.1 stepped
    cases same
    intro ending ended
    exact SyncRun.ends_over_step moved ending ((outcome_sync_iff next _).1 ended)
  · next move run busy =>
      obtain ⟨next, moved, same⟩ := Option.map_eq_some_iff.1 stepped
      cases same
      have before : run.EndsOver := by
        intro ending ended
        have ends : life.activity.outcome? = some (.ok ending) := by
          rw [busy, outcome_async_iff, ended]
        have isOver := sound ending ends
        rwa [busy] at isOver
      intro ending ended
      exact AsyncRun.ends_over_step before moved ending ((outcome_async_iff next _).1 ended)
  · obtain ⟨outcome, ended, same⟩ := Option.map_eq_some_iff.1 stepped
    cases same
    exact nofun
  · obtain ⟨next, moved, same⟩ := Option.map_eq_some_iff.1 stepped
    cases same
    obtain ⟨status, activity, kept⟩ := left_behind_changes_status moved
    intro ending ended
    rw [activity, outcome_with_status] at ended
    rw [activity]
    exact over_with_status (sound ending ended) kept
  · cases stepped

theorem ends_over_run (sound : life.EndsOver) (runs : life.runMoves moves = some later) :
    later.EndsOver := by
  induction moves generalizing life with
  | nil =>
      cases runs
      exact sound
  | cons move moves induction =>
      obtain ⟨⟨next, returned⟩, stepped, others⟩ := Option.bind_eq_some_iff.1 runs
      exact induction (ends_over_step sound stepped) others

theorem over_of_return (sound : life.EndsOver) {summary : Summary}
    (stepped : life.step move = some (later, some (.ok summary))) :
    ∃ session, later.activity = .idle session ∧ session.IsOver := by
  unfold step at stepped
  split at stepped
  · next outcome isPaced spawned session idle =>
      have begun : life.beginRun session outcome isPaced spawned =
          (later, some (.ok summary)) := Option.some.inj stepped
      have fails := (begin_has_no_end life session outcome isPaced spawned).2 summary
      rw [begun] at fails
      exact absurd rfl fails
  · obtain ⟨next, moved, same⟩ := Option.map_eq_some_iff.1 stepped
    cases same
  · obtain ⟨next, moved, same⟩ := Option.map_eq_some_iff.1 stepped
    cases same
  · obtain ⟨outcome, ended, same⟩ := Option.map_eq_some_iff.1 stepped
    rw [Prod.mk.injEq] at same
    obtain ⟨rfl, reports⟩ := same
    cases outcome with
    | error fault => cases reports
    | ok ending => exact ⟨_, rfl, sound ending ended⟩
  · obtain ⟨next, moved, same⟩ := Option.map_eq_some_iff.1 stepped
    cases same
  · cases stepped

/-- Whether nothing is going on in a session, and of the session nothing has changed but the
status, in which the request to leave stands. -/
def Rests (session : Session) (life : Life) : Prop :=
  ∃ status, life.activity = .idle { session with status := status } ∧ status.exit = true

theorem begin_refused (closed : session.connection.state = .closed)
    (idle : life.activity = .idle session) (outcome : ConnectOutcome) (isPaced : Bool)
    (spawned : Except Text Unit) :
    life.step (.begin outcome isPaced spawned) =
      some (life, some (.error (.connection .sessionClosed))) := by
  obtain ⟨activity, returned⟩ := life
  cases idle
  have refused : session.connect outcome =
      (.error (.connection .sessionClosed), session) := by
    unfold Session.connect Connection.connect
    rw [closed]
  unfold step beginRun
  dsimp only
  rw [refused]

theorem rests_step (closed : session.connection.state = .closed) (rests : life.Rests session)
    (stepped : life.step move = some (later, returned)) : later.Rests session := by
  obtain ⟨status, idle, exit⟩ := rests
  cases move with
  | begin outcome isPaced spawned =>
      have closedNow : ({ session with status := status } : Session).connection.state =
          .closed := closed
      cases (begin_refused closedNow idle outcome isPaced spawned).symm.trans stepped
      exact ⟨status, idle, exit⟩
  | sync move =>
      unfold step at stepped
      rw [idle] at stepped
      cases stepped
  | async move =>
      unfold step at stepped
      rw [idle] at stepped
      cases stepped
  | report =>
      unfold step at stepped
      rw [idle] at stepped
      cases stepped
  | leftBehind index move =>
      unfold step at stepped
      dsimp only at stepped
      obtain ⟨next, moved, same⟩ := Option.map_eq_some_iff.1 stepped
      cases same
      obtain ⟨after, activity, kept⟩ := left_behind_changes_status moved
      rw [idle] at activity kept
      exact ⟨after, activity, kept exit⟩

theorem rests_run (closed : session.connection.state = .closed) (rests : life.Rests session)
    (runs : life.runMoves moves = some later) : later.Rests session := by
  induction moves generalizing life with
  | nil =>
      cases runs
      exact rests
  | cons move moves induction =>
      obtain ⟨⟨next, returned⟩, stepped, others⟩ := Option.bind_eq_some_iff.1 runs
      exact induction (rests_step closed rests stepped) others

/-- Once a run of a session has returned a summary, the connection is closed and everybody has
been asked to leave. Whatever is tried afterwards, nothing goes on in the session: nothing of it
changes but what a producer that was left behind does to the status, a later run with any source
is refused and leaves everything as it is, and no move of a run is possible, in which a source
would be asked or something sent or read. -/
theorem finished_session_is_terminal (session : Session) {history : List Move} {finished : Life}
    {last : Move} {summary : Summary} (runs : (start session).runMoves history = some life)
    (returns : life.step last = some (finished, some (.ok summary))) :
    ∃ final, finished.activity = .idle final ∧ final.connection.state = .closed ∧
      final.status.exit = true ∧
      ∀ future later, finished.runMoves future = some later →
        later.Rests final ∧
        (∀ outcome isPaced spawned, later.step (.begin outcome isPaced spawned) =
          some (later, some (.error (.connection .sessionClosed)))) ∧
        (∀ move, later.step (.sync move) = none) ∧ ∀ move, later.step (.async move) = none := by
  have fresh : (start session).EndsOver := nofun
  obtain ⟨final, idle, isOver⟩ := over_of_return (ends_over_run fresh runs) returns
  refine ⟨final, idle, isOver.closed, isOver.exit, ?_⟩
  intro future later continues
  have rests : later.Rests final :=
    rests_run isOver.closed ⟨final.status, idle, isOver.exit⟩ continues
  obtain ⟨status, resting, exit⟩ := rests
  refine ⟨⟨status, resting, exit⟩, ?_, ?_, ?_⟩
  · apply begin_refused _ resting
    exact isOver.closed
  · intro move
    unfold step
    rw [resting]
  · intro move
    unfold step
    rw [resting]

def typingSession : Session where
  config := { Config.standard with mode := .async }
  format := .text
  connection := .toAddress Config.defaultHost Config.defaultPort
  assembly := .empty
  status := .initial
  carry := none
  steps := 0
  answerSets := 0
  transcript := []

/-- The server closes the connection while the user is still typing. -/
def closedWhileTyping : List Move :=
  [.begin .accepted false (.ok ()), .async .begin, .async .forward,
    .async (.read (.received []) false)]

/-- The input of the user arrives later, and another run is tried in between. -/
def typedTooLate : List Move :=
  [.leftBehind 0 (.supplied ⟨.ok (.fragment ⟨["a.\n".toList]⟩), 7, []⟩),
    .begin .accepted true (.ok ()), .leftBehind 0 .cleared, .leftBehind 0 .handed]

theorem late_input_is_left_alone :
    Session.create { Config.standard with mode := .async } .text = .ok typingSession ∧
      ∃ life finished later, (start typingSession).runMoves closedWhileTyping = some life ∧
        life.step .report = some (finished, some (.ok ⟨.peerClosed, 0, 0⟩)) ∧
        finished.runMoves typedTooLate = some later ∧
        later.activity.session.status = ⟨false, false, true, 7⟩ ∧
        later.step (.begin .accepted true (.ok ())) =
          some (later, some (.error (.connection .sessionClosed))) := by
  have played : ∃ life finished later,
      (start typingSession).runMoves closedWhileTyping = some life ∧
      life.step .report = some (finished, some (.ok ⟨.peerClosed, 0, 0⟩)) ∧
      finished.runMoves typedTooLate = some later ∧
      later.activity.session.status = ⟨false, false, true, 7⟩ :=
    ⟨_, _, _, rfl, rfl, rfl, rfl⟩
  obtain ⟨life, finished, later, runs, returns, continues, status⟩ := played
  obtain ⟨_, _, _, _, future⟩ := finished_session_is_terminal typingSession runs returns
  have refused := (future typedTooLate later continues).2.1 .accepted true (.ok ())
  exact ⟨rfl, life, finished, later, runs, returns, continues, status, refused⟩

end Life

end StepStream
