import StepStream.Proofs.AsyncLoss
import StepStream.Proofs.SyncLoss

/-!
What becomes of a session whose connection is lost. The bytes behind the last delimiter are
taken for one more message. The session ends as it should where this message goes unnoticed,
and with a fault or with one more result where it does not.
-/

namespace StepStream

set_option autoImplicit false

open Response (StepResult)

/-- When the connection of a session is lost while a result is awaited, the steps that are
complete have been shown, and the session comes to its end. It reports the lost connection and
shows nothing more if and only if the tail of the stream passes and, in asynchronous runs, the
main line finds no input afterwards. -/
theorem lost_connection_ends_session {config : Config} {format : OutputFormat}
    {created session : Session} (creates : Session.create config format = .ok created)
    (connects : created.connect .accepted = (.ok (), session)) (stream : BrokenStream) :
    let report : Except Error Summary :=
      .ok ⟨.connectionLost, stream.steps.length,
        (stream.steps.flatMap StepResult.answerSets).length⟩
    (∀ moves run next, (SyncRun.start session).runMoves moves = some run →
      SyncRun.bytesRead moves = stream.before → run.step (.read .failed) = some next →
        SyncRun.results ((SyncRun.start session).trace moves) = stream.steps ∧
        ∀ more state, next.runMoves more = some state → state.CanEnd ∧
          ∀ outcome, state.phase = .ended outcome →
            (state.session.report outcome = report ∧ SyncRun.results (next.trace more) = [] ↔
              TailPasses stream.tail)) ∧
    ∀ isPaced moves run next late,
      (AsyncRun.start session isPaced).runMoves moves = some run →
      AsyncRun.bytesRead moves = stream.before → run.step (.read .failed late) = some next →
        AsyncRun.results ((AsyncRun.start session isPaced).trace moves) = stream.steps ∧
        ∀ more state, next.runMoves more = some state → state.CanEnd ∧
          (stream.tail = [] → next.findsInputs more = false) ∧
          ∀ outcome, state.main = .ended outcome →
            (state.session.report outcome = report ∧ AsyncRun.results (next.trace more) = [] ↔
              TailPasses stream.tail ∧ next.findsInputs more = false) := by
  have listens := Session.listens_of_create creates connects
  have fresh := Session.fresh_of_create creates connects
  have single := stream.single_tail
  intro report
  constructor
  · intro moves run next runs bytes failed
    obtain ⟨shown, after⟩ := SyncRun.after_failure stream listens runs bytes failed
    refine ⟨shown, ?_⟩
    intro more state later
    obtain ⟨left, stands⟩ := after.of_run single later
    rw [List.nil_append] at stands
    exact ⟨stands.can_end single, fun outcome ended => stands.report ended⟩
  · intro isPaced moves run next late runs bytes failed
    have position := AsyncRun.position_start fresh isPaced
    obtain ⟨shown, after⟩ := AsyncRun.after_failure stream listens position runs bytes failed
    refine ⟨shown, ?_⟩
    intro more state later
    have reached := AsyncRun.position_step (AsyncRun.position_of_run position runs)
      (AsyncRun.transition_of_step failed)
    obtain ⟨⟨left, stands⟩, log, position⟩ := after.of_run single reached later
    rw [List.nil_append, Bool.false_or] at stands
    exact ⟨stands.can_end single position, stands.unfound,
      fun outcome ended => stands.report ended⟩

def twoStepLines : List Text :=
  ["Step: 1".toList, "End of Step.".toList, "Step: 2".toList, "a b".toList, "End of Step.".toList]

def twoSteps (count : Nat) : BrokenStream where
  lines := twoStepLines
  before := (twoStepLines.flatMap Message.encode).take count
  single := by decide
  readable := by decide +kernel
  begins := List.take_prefix _ _

/-- One step is shown, and the next is awaited when the stream breaks off. -/
def untilBroken (count : Nat) : List SyncRun.Move :=
  [.read (.received (twoSteps count).before), .work, .work, .work,
    .supplied ⟨.ok (.fragment ⟨["b.\n".toList]⟩), 0, []⟩, .sent .delivered, .work]

def untilBrokenPolling (count : Nat) : List AsyncRun.Move :=
  [.forward, .read (.received (twoSteps count).before) false, .work, .work, .forward, .work,
    .work, .work, .forward, .work, .work, .forward]

theorem broken_answer_passes :
    ∃ created session, Session.create .standard .text = .ok created ∧
      created.connect .accepted = (.ok (), session) ∧
      (∃ run next final,
        (SyncRun.start session).runMoves (untilBroken 32) = some run ∧
        run.step (.read .failed) = some next ∧ next.runMoves [.work, .work] = some final ∧
        final.session.report (.ok .connectionLost) = .ok ⟨.connectionLost, 1, 0⟩ ∧
        SyncRun.results (next.trace [.work, .work]) = []) ∧
      ∃ run next final,
        (AsyncRun.start session false).runMoves (untilBrokenPolling 32) = some run ∧
        run.step (.read .failed false) = some next ∧
        next.runMoves [.work, .work, .forward, .work] = some final ∧
        final.session.report (.ok .connectionLost) = .ok ⟨.connectionLost, 1, 0⟩ ∧
        AsyncRun.results (next.trace [.work, .work, .forward, .work]) = [] := by
  have creates : Session.create .standard .text = .ok _ := rfl
  have passes : TailPasses (twoSteps 32).tail :=
    .inr ⟨"a b".toList, .answer _, by decide, rfl, rfl⟩
  obtain ⟨sync, async⟩ := lost_connection_ends_session creates rfl (twoSteps 32)
  refine ⟨_, _, creates, rfl, ⟨_, _, _, rfl, rfl, rfl, ?_⟩, _, _, _, rfl, rfl, rfl, ?_⟩
  · have ends := (sync (untilBroken 32) _ _ rfl rfl rfl).2 [.work, .work] _ rfl
    exact (ends.2 _ rfl).2 passes
  · have ends := (async false (untilBrokenPolling 32) _ _ false rfl rfl rfl).2
      [.work, .work, .forward, .work] _ rfl
    exact (ends.2.2 _ rfl).2 ⟨passes, rfl⟩

/-- The stream breaks off in a keyword. -/
theorem broken_keyword_refused :
    ∃ created session run next final, Session.create .standard .text = .ok created ∧
      created.connect .accepted = (.ok (), session) ∧
      (SyncRun.start session).runMoves (untilBroken 35 ++ [.work]) = some run ∧
      SyncRun.bytesRead (untilBroken 35 ++ [.work]) = (twoSteps 35).before ∧
      run.step (.read .failed) = some next ∧ next.runMoves [.work, .work] = some final ∧
      final.phase = .ended (.error (.protocol (.unknownOutput "En".toList))) :=
  ⟨_, _, _, _, _, rfl, rfl, rfl, rfl, rfl, rfl, rfl⟩

end StepStream
