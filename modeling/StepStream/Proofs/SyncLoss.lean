import StepStream.Proofs.BrokenStream

/-!
Synchronous runs after the loss of the connection. A run has three moves left at most: it takes
up the tail, it reads it, and if that is one more result it asks for an input.
-/

namespace StepStream

set_option autoImplicit false

open Response (StepResult)
open Text (Bytes)

namespace SyncRun

variable {tail : Bytes} {before more : List StepResult} {session : Session} {run next : SyncRun}
  {move : Move}

/-- Where a run stands after its connection has been lost: the moves that it has left at most,
and what it has shown since. -/
inductive After (tail : Bytes) (before : List StepResult) :
    Nat → List StepResult → SyncRun → Prop
  | waiting {session : Session} (broken : session.Broken [] tail)
      (counts : session.Counts before) : After tail before 3 [] ⟨session, .receiving⟩
  | taken {session : Session} {text : Text} (encoded : Text.utf8 text = tail)
      (nonempty : tail ≠ []) (broken : session.Broken [text] [])
      (counts : session.Counts before) : After tail before 2 [] ⟨session, .receiving⟩
  | asking {session : Session} {result : StepResult} (broken : session.Broken [] [])
      (loud : ¬ TailPasses tail) : After tail before 1 [result] ⟨session, .asking⟩
  | lost {session : Session} (passes : TailPasses tail) (counts : session.Counts before) :
      After tail before 0 [] ⟨session, .ended (.ok .connectionLost)⟩
  | failed {session : Session} {more : List StepResult} {fault : Error}
      (loud : ¬ TailPasses tail) : After tail before 0 more ⟨session, .ended (.error fault)⟩

theorem work_waiting (broken : session.Broken [] tail) (counts : session.Counts before)
    (single : IsSingle tail) :
    ∃ next left, work session = some next ∧ left < 3 ∧
      After tail before left (results (emits ⟨session, .receiving⟩ .work)) next := by
  unfold work emits
  dsimp only
  rw [broken.next_of_nothing]
  dsimp only
  by_cases nothing : tail = []
  · subst nothing
    rw [broken.answer_of_nothing]
    dsimp only [afterReceiving]
    rw [broken.closed_end]
    exact ⟨_, 0, rfl, by decide, .lost (.inl rfl) ⟨counts.steps, counts.answerSets⟩⟩
  · rcases broken.answer_tail single nothing with
      ⟨text, connection, encoded, answered, later⟩ | ⟨loud, fault, connection, answered⟩
    · rw [answered]
      exact ⟨_, 2, rfl, by decide,
        .taken encoded nothing later ⟨counts.steps, counts.answerSets⟩⟩
    · rw [answered]
      exact ⟨_, 0, rfl, by decide, .failed loud⟩

theorem work_taken {text : Text} (encoded : Text.utf8 text = tail) (nonempty : tail ≠ [])
    (broken : session.Broken [text] []) (counts : session.Counts before) :
    ∃ next left, work session = some next ∧ left < 2 ∧
      After tail before left (results (emits ⟨session, .receiving⟩ .work)) next := by
  unfold work emits
  dsimp only
  rcases broken.read_tail encoded nonempty with
    ⟨passes, assembly, asked, later⟩ |
      ⟨loud, ⟨result, assembly, asked, later⟩ | ⟨fault, after, asked⟩⟩
  · rw [asked]
    dsimp only
    rw [later.answer_of_nothing]
    dsimp only [afterReceiving]
    rw [later.closed_end]
    exact ⟨_, 0, rfl, by decide, .lost passes ⟨counts.steps, counts.answerSets⟩⟩
  · rw [asked]
    exact ⟨_, 1, rfl, by decide,
      .asking ⟨later.closed, later.lost, later.queued, later.left⟩ loud⟩
  · rw [asked]
    exact ⟨_, 0, rfl, by decide, .failed loud⟩

theorem begin_sending_refused (closed : session.connection.state = .closed) (text : Text)
    (isStop : Bool) :
    ∃ after fault, beginSending session text isStop = ⟨after, .ended (.error fault)⟩ := by
  obtain ⟨transcript, echoed⟩ := Session.echo_changes_transcript session text
  unfold beginSending
  rw [echoed]
  dsimp only
  rw [Connection.usable_of_closed closed]
  exact ⟨_, _, rfl⟩

theorem take_refused (closed : session.connection.state = .closed) (answer : Supplied) :
    ∃ after fault, take session answer = ⟨after, .ended (.error fault)⟩ := by
  unfold take
  dsimp only
  split
  · exact ⟨_, _, rfl⟩
  · apply begin_sending_refused
    exact closed
  · apply begin_sending_refused
    exact closed

theorem After.step {left : Nat} (after : After tail before left more run)
    (single : IsSingle tail) (stepped : run.step move = some next) :
    ∃ fewer, fewer < left ∧ After tail before fewer (more ++ results (run.emits move)) next := by
  have unread {session : Session} {outcome : ReadOutcome} {later : SyncRun}
      (worked : work session = some later) :
      SyncRun.step ⟨session, .receiving⟩ (.read outcome) = none := by
    unfold SyncRun.step
    dsimp only
    rw [worked]
  cases after with
  | waiting broken counts =>
      obtain ⟨later, fewer, worked, less, after⟩ := work_waiting broken counts single
      cases move with
      | work =>
          cases worked.symm.trans stepped
          exact ⟨fewer, less, after⟩
      | read outcome => cases (unread worked).symm.trans stepped
      | supplied answer => cases stepped
      | sent outcome => cases stepped
  | taken encoded nonempty broken counts =>
      obtain ⟨later, fewer, worked, less, after⟩ := work_taken encoded nonempty broken counts
      cases move with
      | work =>
          cases worked.symm.trans stepped
          exact ⟨fewer, less, after⟩
      | read outcome => cases (unread worked).symm.trans stepped
      | supplied answer => cases stepped
      | sent outcome => cases stepped
  | asking broken loud =>
      cases move with
      | supplied answer =>
          obtain ⟨later, fault, refused⟩ := take_refused broken.closed answer
          change some (take _ answer) = some next at stepped
          rw [refused] at stepped
          cases stepped
          exact ⟨0, by decide, .failed loud⟩
      | work => cases stepped
      | read outcome => cases stepped
      | sent outcome => cases stepped
  | lost => cases move <;> cases stepped
  | failed => cases move <;> cases stepped

theorem After.of_run {moves : List Move} {final : SyncRun} {left : Nat}
    (after : After tail before left more run) (single : IsSingle tail)
    (runs : run.runMoves moves = some final) :
    ∃ fewer, After tail before fewer (more ++ results (run.trace moves)) final := by
  induction moves generalizing run more left with
  | nil =>
      cases runs
      rw [trace, results, List.filterMap_nil, List.append_nil]
      exact ⟨left, after⟩
  | cons move moves induction =>
      cases stepped : run.step move with
      | none =>
          rw [runMoves, stepped] at runs
          cases runs
      | some next =>
          rw [runMoves, stepped, Option.bind_some] at runs
          obtain ⟨fewer, -, moved⟩ := after.step single stepped
          have later := induction moved runs
          rw [trace, stepped, results, List.filterMap_append, ← List.append_assoc]
          exact later

def CanEnd (run : SyncRun) : Prop :=
  ∃ moves final outcome, run.runMoves moves = some final ∧ final.phase = .ended outcome

theorem After.can_end {left : Nat} (after : After tail before left more run)
    (single : IsSingle tail) : run.CanEnd := by
  -- Every move that is open here leaves fewer moves.
  induction left using Nat.strongRecOn generalizing run more with
  | ind left induction =>
      have goes_on {move : Move} {next : SyncRun} (stepped : run.step move = some next) :
          run.CanEnd := by
        obtain ⟨fewer, less, later⟩ := after.step single stepped
        obtain ⟨moves, final, outcome, runs, ended⟩ := induction fewer less later
        refine ⟨move :: moves, final, outcome, ?_, ended⟩
        rw [runMoves, stepped, Option.bind_some, runs]
      cases after with
      | waiting broken counts =>
          obtain ⟨next, -, worked, -⟩ := work_waiting broken counts single
          have stepped : SyncRun.step ⟨_, .receiving⟩ .work = some next := worked
          exact goes_on stepped
      | taken encoded nonempty broken counts =>
          obtain ⟨next, -, worked, -⟩ := work_taken encoded nonempty broken counts
          have stepped : SyncRun.step ⟨_, .receiving⟩ .work = some next := worked
          exact goes_on stepped
      | @asking session result broken loud =>
          have stepped : SyncRun.step ⟨session, .asking⟩ (.supplied ⟨.ok .stop, 0, []⟩) =
              some (take session ⟨.ok .stop, 0, []⟩) := rfl
          exact goes_on stepped
      | lost | failed => exact ⟨[], _, _, rfl, rfl⟩

theorem after_failure (stream : BrokenStream) (listens : session.Listens [] [])
    {moves : List Move} (runs : (start session).runMoves moves = some run)
    (bytes : bytesRead moves = stream.before)
    (failed : run.step (.read .failed) = some next) :
    results ((start session).trace moves) = stream.steps ∧
      After stream.tail stream.steps 3 [] next := by
  obtain ⟨current, phase⟩ := run
  cases phase with
  | receiving =>
      have goes_on : ¬ isEnded ⟨current, .receiving⟩ := by
        rintro ⟨outcome, ended⟩
        cases ended
      have begins : (start session).session.Listens [] [] := listens
      have heard := listens_of_run begins runs goes_on
      rw [List.nil_append, List.nil_append, bytes] at heard
      obtain ⟨assembly, idle, rfl⟩ := idle_of_read failed
      have drained : current.assembly.ahead [] = [] := by
        rw [idle.ahead, Response.Assembly.ahead, idle.drained]
        rfl
      obtain ⟨steps, left⟩ := heard.whole idle.connected idle.absent drained
      refine ⟨steps, .waiting ⟨rfl, rfl, idle.drained, left⟩ ?_⟩
      rw [← steps]
      exact ⟨heard.counts.steps, heard.counts.answerSets⟩
  | _ => cases failed

/-- How a run ends depends on the tail alone. -/
theorem After.report {left : Nat} (after : After tail before left more run)
    {outcome : Except Error End} (ended : run.phase = .ended outcome) :
    (run.session.report outcome =
          .ok ⟨.connectionLost, before.length, (before.flatMap StepResult.answerSets).length⟩ ∧
        more = []) ↔ TailPasses tail := by
  cases after with
  | lost passes counts =>
      cases ended
      refine ⟨fun _ => passes, fun _ => ⟨?_, rfl⟩⟩
      rw [Session.report, counts.steps, counts.answerSets]
  | failed loud =>
      cases ended
      exact ⟨nofun, fun passes => absurd passes loud⟩
  | _ => cases ended

end SyncRun

end StepStream
