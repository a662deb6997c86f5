import StepStream.Proofs.SyncMoves

/-!
Synchronous runs in lock step. Every move of a run is accounted for by the reference loop,
and every run can reach its end. Hence a run does what the loop does, however the stream of
the server arrives.
-/

namespace StepStream.SyncRun

set_option autoImplicit false

open Response (StepResult)

variable {predicate : Option Text} {format : OutputFormat} {world later : World}
  {shown : List StepResult} {session : Session} {run next : SyncRun} {move : Move}
  {moves : List Move}

theorem step_advance (ready : Ready predicate format shown run.session)
    (goes : ¬ run.isEnded) (admitted : world.Admits move later)
    (stepped : run.step move = some next) :
    Advance predicate format world later shown run next (run.emits move) := by
  obtain ⟨session, phase⟩ := run
  cases phase with
  | receiving =>
      cases move with
      | work =>
          cases admitted
          exact work_advance ready stepped
      | read outcome => exact read_advance ready admitted stepped
      | supplied answer => cases stepped
      | sent outcome => cases stepped
  | asking =>
      cases move with
      | supplied answer =>
          cases admitted
          cases stepped
          exact take_advance ready
      | work => cases stepped
      | read outcome => cases stepped
      | sent outcome => cases stepped
  | sending text isStop =>
      cases move with
      | sent outcome =>
          cases admitted
          exact sent_advance ready stepped
      | work => cases stepped
      | read outcome => cases stepped
      | supplied answer => cases stepped
  | ended outcome => exact absurd ⟨outcome, rfl⟩ goes

theorem step_of_ended (ended : run.isEnded) (move : Move) : run.step move = none := by
  obtain ⟨session, phase⟩ := run
  obtain ⟨outcome, same⟩ := ended
  cases same
  cases move <;> rfl

theorem run_advance {final : SyncRun}
    (position : run.isEnded ∨ Ready predicate format shown run.session)
    (admitted : world.AdmitsAll moves) (runs : run.runMoves moves = some final) :
    final.session.transcript =
        run.session.transcript ++ (run.trace moves).flatMap (Event.printed format) ∧
      ∃ later shownAfter, run.expected predicate world shown =
        (run.trace moves ++ (final.expected predicate later shownAfter).1,
          (final.expected predicate later shownAfter).2) := by
  induction moves generalizing run world shown with
  | nil =>
      cases runs
      exact ⟨(List.append_nil _).symm, world, shown, rfl⟩
  | cons move moves induction =>
      cases admitted with
      | cons first others =>
          cases stepped : run.step move with
          | none =>
              rw [runMoves, stepped] at runs
              cases runs
          | some next =>
              rw [runMoves, stepped, Option.bind_some] at runs
              have goes : ¬ run.isEnded := by
                intro ended
                rw [step_of_ended ended] at stepped
                cases stepped
              have ready := position.resolve_left goes
              have advance := step_advance ready goes first stepped
              obtain ⟨shownNext, positionNext, future⟩ := advance.goes_on
              obtain ⟨printed, later, shownAfter, rest⟩ := induction positionNext others runs
              rw [trace, stepped]
              refine ⟨?_, later, shownAfter, ?_⟩
              · rw [printed, advance.printed, List.flatMap_append, List.append_assoc]
              · rw [future, rest, List.append_assoc]

theorem exists_move (goes : ¬ run.isEnded) :
    ∃ move later next, world.Admits move later ∧ run.step move = some next := by
  obtain ⟨session, phase⟩ := run
  cases phase with
  | receiving =>
      cases worked : work session with
      | some next => exact ⟨.work, world, next, .work world, worked⟩
      | none =>
          obtain ⟨reads, inputs, goes_on⟩ := world
          have reading (outcome : ReadOutcome) :
              ∃ next, step ⟨session, .receiving⟩ (.read outcome) = some next := by
            unfold step
            dsimp only
            rw [worked]
            exact ⟨_, rfl⟩
          cases reads with
          | nil =>
              obtain ⟨next, stepped⟩ := reading (.received [])
              exact ⟨_, _, next, .close inputs goes_on, stepped⟩
          | cons outcome reads =>
              obtain ⟨next, stepped⟩ := reading outcome
              exact ⟨_, _, next, .read outcome reads inputs goes_on, stepped⟩
  | asking => exact ⟨_, _, _, .supplied world, rfl⟩
  | sending text isStop =>
      cases isStop with
      | true => exact ⟨_, _, _, .sent world, rfl⟩
      | false => exact ⟨_, _, _, .sent world, rfl⟩
  | ended outcome => exact absurd ⟨outcome, rfl⟩ goes

/-- A run reaches its end, since every move takes something away. -/
theorem exists_end (position : run.isEnded ∨ Ready predicate format shown run.session) :
    ∃ moves final, world.AdmitsAll moves ∧ run.runMoves moves = some final ∧ final.isEnded := by
  -- One phase may take any number of reads, so the induction is on the weight.
  generalize size : run.weight world = weight
  induction weight using Nat.strongRecOn generalizing run world shown with
  | ind weight induction =>
      by_cases ended : run.isEnded
      · exact ⟨[], run, .nil world, rfl, ended⟩
      · have ready := position.resolve_left ended
        have possible : ∃ move later next, world.Admits move later ∧ run.step move = some next :=
          exists_move ended
        obtain ⟨move, later, next, admitted, stepped⟩ := possible
        have advance := step_advance ready ended admitted stepped
        have lighter := advance.lighter
        obtain ⟨shownNext, positionNext, -⟩ := advance.goes_on
        rw [size] at lighter
        obtain ⟨moves, final, others, runs, finished⟩ := induction _ lighter positionNext rfl
        refine ⟨move :: moves, final, .cons admitted others, ?_, finished⟩
        rw [runMoves, stepped, Option.bind_some, runs]

/-- A run of a session that has just been connected does what the reference loop does with
the results of the whole stream, in whatever portions the stream is read. -/
theorem synchronous_run_follows_loop {config : Config} {format : OutputFormat}
    {created session : Session} (creates : Session.create config format = .ok created)
    (connects : created.connect .accepted = (.ok (), session))
    (silent : config.echoInput = false) (world : World) :
    let found := resultsOf world.stream
    let reference := loop config.carryOver world.inputs [] found
    Concludes world.inputs found reference.1 reference.2 ∧
      (∀ moves final, world.AdmitsAll moves → (start session).runMoves moves = some final →
        (start session).trace moves <+: reference.1 ∧
          final.session.transcript =
            ((start session).trace moves).flatMap (Event.printed format) ∧
          ∀ outcome, final.phase = .ended outcome →
            (start session).trace moves = reference.1 ∧ outcome = reference.2) ∧
      ∃ moves final, world.AdmitsAll moves ∧ (start session).runMoves moves = some final ∧
        final.phase = .ended reference.2 := by
  intro found reference
  have fresh := Session.fresh_of_create creates connects
  have silent : session.config.echoInput = false := by rw [fresh.settings, silent]
  have ready : Ready config.carryOver format [] session :=
    ⟨fresh.shows, silent, fresh.connected, fresh.held, fresh.found, fresh.remembers⟩
  have begins : (start session).expected config.carryOver world [] = reference := by
    rw [start, expected, Session.ahead, fresh.nothing_queued, fresh.nothing_pending,
      List.nil_append]
    rfl
  have follows : ∀ moves final, world.AdmitsAll moves →
      (start session).runMoves moves = some final →
      (start session).trace moves <+: reference.1 ∧
        final.session.transcript =
          ((start session).trace moves).flatMap (Event.printed format) ∧
        ∀ outcome, final.phase = .ended outcome →
          (start session).trace moves = reference.1 ∧ outcome = reference.2 := by
    intro moves final admitted runs
    obtain ⟨printed, later, shownAfter, future⟩ := run_advance (.inr ready) admitted runs
    rw [begins] at future
    rw [start, fresh.nothing_shown] at printed
    refine ⟨?_, printed, ?_⟩
    · rw [future]
      exact List.prefix_append _ _
    · intro outcome ended
      rw [expected, ended, List.append_nil] at future
      rw [future]
      exact ⟨rfl, rfl⟩
  refine ⟨loop_concludes _ _ _ _, follows, ?_⟩
  have finite : ∃ moves final, world.AdmitsAll moves ∧ (start session).runMoves moves = some final ∧
      final.isEnded := exists_end (.inr ready)
  obtain ⟨moves, final, admitted, runs, outcome, ended⟩ := finite
  have same := ((follows moves final admitted runs).2.2 outcome ended).2
  exact ⟨moves, final, admitted, runs, by rw [ended, same]⟩

/-- The first answer arrives in two reads with a time-out between them, and the second one
together with its end. -/
def dividedAnswer : World where
  reads := [.received (Text.utf8 "End of ".toList), .timedOut,
    .received (Message.encode "Step.\n".toList ++ Message.encode "End of Step.\n".toList)]
  inputs
    | 0 => ⟨.ok (.fragment ⟨["a.\n".toList]⟩), 0, []⟩
    | _ => ⟨.ok .stop, 0, []⟩
  goes_on := by decide

theorem divided_answer_stops :
    ∃ created session, Session.create .standard .text = .ok created ∧
      created.connect .accepted = (.ok (), session) ∧
      ∃ moves final, dividedAnswer.AdmitsAll moves ∧
        (start session).runMoves moves = some final ∧
        (start session).trace moves =
          [.shown ⟨none, [], .satisfiable⟩, .prompted [], .wrote "a.\n#endstep.\n".toList,
            .shown ⟨none, [], .satisfiable⟩, .prompted [], .wrote "#stop.\n".toList] ∧
        final.phase = .ended (.ok .stopped) := by
  have creates : Session.create .standard .text = .ok _ := rfl
  obtain ⟨-, follows, moves, final, admitted, runs, ended⟩ :=
    synchronous_run_follows_loop creates rfl rfl dividedAnswer
  have events := ((follows moves final admitted runs).2.2 _ ended).1
  exact ⟨_, _, rfl, rfl, moves, final, admitted, runs, events.trans rfl, ended⟩

end StepStream.SyncRun
