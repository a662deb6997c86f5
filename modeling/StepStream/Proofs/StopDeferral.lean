import StepStream.Proofs.Forwarding

/-!
When a stop is sent. It is held back until a result has been shown since the last fragment
was taken from the source. That the fragment has been written by then is not asked for: a
result that is shown in between releases the stop, although it answers something else.
-/

namespace StepStream.AsyncRun

set_option autoImplicit false

open Response (StepResult)

/-- Whether a result has been shown since the last of the events that are counted. -/
def answers (counts : Event → Bool) (answered : Bool) : Event → Bool
  | .shown _ => true
  | event => answered && !counts event

def answeredSince (counts : Event → Bool) (events : List Event) : Bool :=
  events.foldl (answers counts) false

def isTaking : Event → Bool
  | .taken => true
  | _ => false

def isFragmentWrite : Event → Bool
  | .wrote text => decide (text ≠ Fragment.stop)
  | _ => false

variable {predicate : Option Text} {log : Log} {run next : AsyncRun} {events seen : List Event}

def isReleased (run : AsyncRun) : Prop :=
  run.producer = .handing (.ok .stop) ∨ run.slot = some (.ok .stop) ∨
    run.main = .sending Fragment.stop (some .stopped)

/-- The flag says whether a result has been shown since the last taking, and a stop is only
released when it is set. -/
structure Defers (seen : List Event) (run : AsyncRun) : Prop where
  flag : run.session.status.haveAnswerSet = answeredSince isTaking seen
  held : isReleased run → run.session.status.haveAnswerSet = true

theorem answered_since_append (counts : Event → Bool) (first second : List Event) :
    answeredSince counts (first ++ second) =
      second.foldl (answers counts) (answeredSince counts first) :=
  List.foldl_append

theorem defers_of_quiet (defers : Defers seen run)
    (flag : next.session.status.haveAnswerSet = run.session.status.haveAnswerSet)
    (quiet : ∀ answered, events.foldl (answers isTaking) answered = answered)
    (released : isReleased next → isReleased run) : Defers (seen ++ events) next where
  flag := by rw [flag, defers.flag, answered_since_append, quiet]
  held := fun releases => flag.trans (defers.held (released releases))

theorem released_of_main {session : Session} {main : MainLine}
    (elsewhere : main ≠ .sending Fragment.stop (some .stopped))
    (released : isReleased { run with session := session, main := main }) : isReleased run :=
  released.imp_right (Or.imp_right fun sending => absurd sending elsewhere)

theorem defers_step (defers : Defers seen run) (forwards : Forwards predicate log run)
    (moved : Transition run events next) (goes_on : next.isEnded = false) :
    Defers (seen ++ events) next := by
  cases moved with
  | leave exit =>
      rw [forwards.goes_on] at exit
      cases exit
  | proceed _ _ after =>
      refine defers_of_quiet defers rfl (fun _ => rfl) (Or.imp_left fun handing => ?_)
      rcases after with stands | stands <;> simp [stands] at handing
  | answer answer asking =>
      refine defers_of_quiet defers rfl Bool.and_true (Or.imp_left fun handing => ?_)
      unfold holder at handing
      split at handing <;> simp at handing
  | clear fragment taking =>
      -- A stop that is ahead of this fragment would have been the last input.
      have here : run.producer ≠ .gone := by simp [taking]
      constructor
      · rw [answered_since_append]
        exact (Bool.and_false _).symm
      · intro releases
        rcases releases with handing | waiting | sending
        · cases handing
        · exact absurd (forwards.last _ waiting rfl) here
        · exact absurd (forwards.stopping _ _ sending).2 here
  | release holding answered =>
      rw [forwards.goes_on] at answered
      have flag := answered.resolve_right Bool.false_ne_true
      refine ⟨?_, fun _ => flag⟩
      rw [List.append_nil]
      exact defers.flag
  | abandon input handing ended =>
      exact absurd goes_on (by simpa [isEnded] using ended)
  | hand input handing =>
      refine defers_of_quiet defers rfl (fun _ => rfl) ?_
      intro releases
      rcases releases with stands | waiting | sending
      · unfold afterHanding at stands
        split at stands <;> cases stands
      · cases waiting
        exact .inl handing
      · exact .inr (.inr sending)
  | forward =>
      refine defers_of_quiet defers rfl (fun _ => rfl) ?_
      intro releases
      rcases releases with handing | waiting | sending
      · exact .inl handing
      · cases waiting
      · simp at sending
  | stop transcript forwarding found =>
      exact defers_of_quiet defers rfl (fun _ => rfl) fun _ => .inr (.inl found)
  | exhaust | look | pause =>
      exact defers_of_quiet defers rfl (fun _ => rfl) (released_of_main (by simp))
  | deliver | poll =>
      exact defers_of_quiet defers rfl Bool.and_true (released_of_main (by simp))
  | close | fail => cases goes_on
  | read => exact defers_of_quiet defers rfl (fun _ => rfl) id
  | display result session showing found =>
      refine ⟨?_, fun _ => rfl⟩
      rw [answered_since_append]
      rfl
  | drain session showing found =>
      obtain ⟨assembly, rfl, -, -⟩ := Session.next_result_none found
      exact defers_of_quiet defers rfl (fun _ => rfl) (released_of_main (by simp))

/-- A run that has stopped stands still, since its producer has left too. -/
theorem no_transition_of_stopped (finished : Over predicate log run (.ok .stopped)) :
    ¬ Transition run events next := by
  intro moved
  obtain ⟨here, -⟩ := transition_after_end finished.ended moved
  obtain ⟨_, _, _, _, ⟨_, _, _, gone⟩ | ⟨unstopped, _⟩⟩ := finished.forwarded
  · exact here gone
  · exact unstopped rfl

structure Deferral (predicate : Option Text) (seen : List Event) (run : AsyncRun) : Prop where
  position : Position predicate (Log.empty.recordAll seen) run
  defers : run.isEnded = false → Defers seen run
  answered : run.main = .ended (.ok .stopped) → answeredSince isTaking seen = true

theorem answered_of_close (defers : Defers seen run) (forwards : Forwards predicate log run)
    {text : Text} (sending : run.main = .sending text (some .stopped)) :
    answeredSince isTaking (seen ++ [.wrote text]) = true := by
  obtain ⟨written, underway, wrote, sends, returned⟩ := forwards.pipeline
  have flag : run.session.status.haveAnswerSet = true := by
    apply defers.held
    rw [sending] at sends
    cases sends
    exact .inr (.inr sending)
  rw [answered_since_append, ← defers.flag, flag]
  rfl

theorem deferral_step (deferral : Deferral predicate seen run)
    (moved : Transition run events next) : Deferral predicate (seen ++ events) next := by
  have position := position_step deferral.position moved
  rw [← Log.record_all_append] at position
  cases deferral.position with
  | finished outcome finished =>
      have ended := (over_step finished moved).ended
      refine ⟨position, fun goes_on => ?_, fun stopped => ?_⟩
      · simp [isEnded, ended] at goes_on
      · rw [ended] at stopped
        cases stopped
        exact absurd moved (no_transition_of_stopped finished)
  | running goes_on forwards hears =>
      have defers := deferral.defers goes_on
      refine ⟨position, defers_step defers forwards moved, fun stopped => ?_⟩
      have active : next.isEnded = true := by rw [isEnded, stopped]
      rcases transition_to_end goes_on moved active with
        ⟨text, ending, sending, rfl, ended, -⟩ | ⟨outcome, abrupt, -, ended⟩
      · rw [stopped] at ended
        cases ended
        exact answered_of_close defers forwards sending
      · rw [stopped] at ended
        cases ended
        exact absurd rfl abrupt.1

theorem deferral_start {config : Config} {format : OutputFormat} {session : Session}
    (fresh : session.Fresh config format) (isPaced : Bool) :
    Deferral config.carryOver [] (start session isPaced) := by
  refine ⟨position_start fresh isPaced, fun _ => ⟨?_, ?_⟩, nofun⟩
  · change session.status.haveAnswerSet = false
    rw [fresh.nothing_told]
    rfl
  · intro releases
    rcases releases with handing | waiting | sending
    · cases handing
    · cases waiting
    · cases sending

theorem deferral_of_run {moves : List Move} {final : AsyncRun}
    (deferral : Deferral predicate [] run) (runs : run.runMoves moves = some final) :
    Deferral predicate (run.trace moves) final :=
  invariant_of_run (fun _ _ _ _ before moved => deferral_step before moved) deferral runs

def isShowing : Event → Bool
  | .shown _ => true
  | _ => false

theorem foldl_answers {counts : Event → Bool}
    (uncounted : ∀ event ∈ events, counts event = false) (answered : Bool) :
    events.foldl (answers counts) answered = (answered || events.any isShowing) := by
  induction events generalizing answered with
  | nil => exact (Bool.or_false answered).symm
  | cons event events induction =>
      have first : counts event = false := uncounted event List.mem_cons_self
      have later := fun other member => uncounted other (List.mem_cons_of_mem event member)
      rw [List.foldl_cons, induction later, List.any_cons]
      cases event <;> simp [answers, isShowing, first]

structure Drained (run : AsyncRun) : Prop where
  hand : ∀ input ∈ inHand run.producer, fragmentOf input = none
  slot : ∀ input ∈ run.slot, fragmentOf input = none
  main : ∀ text ending, run.main = .sending text ending → text = Fragment.stop

def needsFragment (event : Event) : Bool := isTaking event || isFragmentWrite event

theorem needs_fragment_stop : needsFragment (.wrote Fragment.stop) = false := by
  decide

theorem drained_step (drained : Drained run) (moved : Transition run events next)
    (unreturned : ∀ input, .returned input ∈ events → fragmentOf input = none) :
    Drained next ∧ ∀ event ∈ events, needsFragment event = false := by
  cases moved with
  | leave | abandon =>
      exact ⟨⟨List.forall_mem_nil _, drained.slot, drained.main⟩, List.forall_mem_nil _⟩
  | proceed _ _ after =>
      refine ⟨⟨?_, drained.slot, drained.main⟩, List.forall_mem_nil _⟩
      rcases after with stands | stands <;> rw [stands] <;> exact List.forall_mem_nil _
  | answer answer =>
      have closing := unreturned answer.input List.mem_cons_self
      refine ⟨⟨?_, drained.slot, drained.main⟩, by simp [needsFragment, isTaking,
        isFragmentWrite]⟩
      unfold holder
      split <;> simp_all [inHand, fragmentOf]
  | clear fragment taking =>
      have carried := drained.hand (.ok (.fragment fragment)) (by simp [taking, inHand])
      cases carried
  | release =>
      exact ⟨⟨by simp [inHand, fragmentOf], drained.slot, drained.main⟩, List.forall_mem_nil _⟩
  | hand input handing =>
      have closing := drained.hand input (by simp [handing, inHand])
      refine ⟨⟨?_, by simp [closing], drained.main⟩, List.forall_mem_nil _⟩
      unfold afterHanding
      split <;> exact List.forall_mem_nil _
  | forward fragment _ _ found =>
      have carried := drained.slot (.ok (.fragment fragment)) (by simp [found])
      cases carried
  | stop => exact ⟨⟨drained.hand, by simp, by simp⟩, List.forall_mem_nil _⟩
  | exhaust _ _ free => exact ⟨⟨drained.hand, drained.slot, by simp⟩, List.forall_mem_nil _⟩
  | look | pause | drain => exact ⟨⟨drained.hand, drained.slot, by simp⟩, List.forall_mem_nil _⟩
  | deliver text sending =>
      obtain rfl := drained.main text none sending
      exact ⟨⟨drained.hand, drained.slot, by simp⟩, by simp [needs_fragment_stop]⟩
  | close text ending sending =>
      obtain rfl := drained.main text (some ending) sending
      exact ⟨⟨drained.hand, drained.slot, by simp [finish]⟩, by simp [needs_fragment_stop]⟩
  | poll =>
      exact ⟨⟨drained.hand, drained.slot, by simp⟩, by simp [needsFragment, isTaking,
        isFragmentWrite]⟩
  | read => exact ⟨⟨drained.hand, drained.slot, drained.main⟩, List.forall_mem_nil _⟩
  | display =>
      exact ⟨⟨drained.hand, drained.slot, drained.main⟩, by simp [needsFragment, isTaking,
        isFragmentWrite]⟩
  | fail _ _ _ _ _ kept =>
      refine ⟨⟨drained.hand, ?_, by simp [finish]⟩, List.forall_mem_nil _⟩
      rcases kept with rfl | rfl
      · simp [finish]
      · exact drained.slot

theorem needs_no_fragment_of_run (drained : Drained run) {moves : List Move} {final : AsyncRun}
    (runs : run.runMoves moves = some final)
    (unreturned : ∀ input, .returned input ∈ run.trace moves → fragmentOf input = none) :
    ∀ event ∈ run.trace moves, needsFragment event = false := by
  let invariant (seen : List Event) (run : AsyncRun) : Prop :=
    (∀ input, .returned input ∈ seen → fragmentOf input = none) →
      Drained run ∧ ∀ event ∈ seen, needsFragment event = false
  have preserved (seen : List Event) (run : AsyncRun) (events : List Event) (next : AsyncRun)
      (before : invariant seen run) (moved : Transition run events next) :
      invariant (seen ++ events) next := by
    intro closing
    obtain ⟨drained, quiet⟩ := before fun input member =>
      closing input (List.mem_append_left events member)
    obtain ⟨drainedNext, quietNext⟩ := drained_step drained moved fun input member =>
      closing input (List.mem_append_right seen member)
    refine ⟨drainedNext, fun event member => ?_⟩
    rcases List.mem_append.1 member with earlier | now
    · exact quiet event earlier
    · exact quietNext event now
  have begins : invariant [] run := fun _ => ⟨drained, nofun⟩
  exact (invariant_of_run preserved begins runs unreturned).2

/-- Every fragment that the source has returned is on the wire, and the session can go on. -/
structure Settled (log : Log) (run : AsyncRun) : Prop where
  forwarding : run.main = .forwarding
  usable : run.session.connection.usable = .ok ()
  written : log.fragments.length = log.wrote.length
  unfailed : ∀ fault, .error fault ∉ log.returned

theorem only_stop_of_settled (forwards : Forwards predicate log run)
    (settled : Settled log run) :
    ∀ input ∈ run.slot.toList ++ inHand run.producer, input = .ok .stop := by
  obtain ⟨written, underway, wrote, sending, returned⟩ := forwards.pipeline
  have idle : isIdle run.main = true := by rw [settled.forwarding, isIdle]
  rw [underway_iff_of_idle idle] at sending
  subst sending
  have kept := fragments_of_returned returned
  have lengths := congrArg List.length kept
  rw [settled.written, wrote.length_eq, List.length_append, List.nil_append] at lengths
  have nothing : (run.slot.toList ++ inHand run.producer).filterMap fragmentOf = [] := by
    apply List.eq_nil_of_length_eq_zero
    omega
  intro input member
  have closing := List.filterMap_eq_nil_iff.1 nothing input member
  have known : input ∈ log.returned := by
    rw [returned]
    exact List.mem_append_right _ member
  cases input with
  | error fault => exact absurd known (settled.unfailed fault)
  | ok input =>
      cases input with
      | fragment fragment => cases closing
      | stop => rfl

theorem drained_of_settled (forwards : Forwards predicate log run)
    (settled : Settled log run) : Drained run := by
  have only := only_stop_of_settled forwards settled
  refine ⟨?_, ?_, ?_⟩
  · intro input member
    rw [only input (List.mem_append_right _ member)]
    rfl
  · intro input found
    rw [only input (List.mem_append_left _ (Option.mem_toList.2 found))]
    rfl
  · intro text ending sending
    rw [settled.forwarding] at sending
    cases sending

def IsSilent (event : Event) : Prop :=
  isShowing event = false ∧ needsFragment event = false ∧
    ∀ input, event = .returned input → fragmentOf input = none

/-- Whether a run can be brought to its stop without a result and without a fragment. -/
def CanStop (run : AsyncRun) : Prop :=
  ∃ rest final, run.runMoves rest = some final ∧ final.main = .ended (.ok .stopped) ∧
    ∀ event ∈ run.trace rest, IsSilent event

theorem can_stop_of_step (move : Move) (stepped : run.step move = some next)
    (silent : ∀ event ∈ run.emits move, IsSilent event) (stops : CanStop next) :
    CanStop run := by
  obtain ⟨rest, final, runs, stopped, quiet⟩ := stops
  refine ⟨move :: rest, final, ?_, stopped, ?_⟩
  · rw [runMoves, stepped, Option.bind_some, runs]
  · intro event member
    rw [trace, stepped] at member
    rcases List.mem_append.1 member with now | later
    · exact silent event now
    · exact quiet event later

section CanStop

variable {session : Session} {isPaced : Bool} {producer : Producer}

theorem can_stop_sending :
    CanStop ⟨session, isPaced, producer, none, .sending Fragment.stop (some .stopped)⟩ := by
  refine ⟨[.sent .delivered], _, rfl, rfl, ?_⟩
  intro event member
  cases List.mem_singleton.1 member
  exact ⟨rfl, needs_fragment_stop, nofun⟩

theorem can_stop_waiting (usable : session.connection.usable = .ok ()) :
    CanStop ⟨session, isPaced, producer, some (.ok .stop), .forwarding⟩ := by
  obtain ⟨transcript, echoed⟩ := Session.echo_changes_transcript session Fragment.stop
  have begun : forward ⟨session, isPaced, producer, some (.ok .stop), .forwarding⟩ =
      ⟨{ session with transcript := transcript }, isPaced, producer, none,
        .sending Fragment.stop (some .stopped)⟩ := by
    change beginSending _ Fragment.stop (some .stopped) = _
    unfold beginSending
    dsimp only
    rw [echoed]
    dsimp only
    rw [usable]
  exact can_stop_of_step .forward (congrArg some begun) nofun can_stop_sending

theorem can_stop_handing (usable : session.connection.usable = .ok ()) :
    CanStop ⟨session, isPaced, .handing (.ok .stop), none, .forwarding⟩ :=
  can_stop_of_step .handed rfl nofun (can_stop_waiting usable)

theorem can_stop_holding (usable : session.connection.usable = .ok ())
    (flag : session.status.haveAnswerSet = true) :
    CanStop ⟨session, isPaced, .holding, none, .forwarding⟩ := by
  have released : step ⟨session, isPaced, .holding, none, .forwarding⟩ .released =
      some ⟨session, isPaced, .handing (.ok .stop), none, .forwarding⟩ := by
    unfold step stepProducer
    dsimp only
    rw [flag]
    rfl
  exact can_stop_of_step .released released nofun (can_stop_handing usable)

theorem can_stop_asking (usable : session.connection.usable = .ok ())
    (flag : session.status.haveAnswerSet = true) :
    CanStop ⟨session, isPaced, .asking, none, .forwarding⟩ := by
  refine can_stop_of_step (.supplied ⟨.ok .stop, session.status.step, []⟩) rfl ?_
    (can_stop_holding usable flag)
  intro event member
  cases List.mem_singleton.1 member
  refine ⟨rfl, rfl, fun input same => ?_⟩
  cases same
  rfl

theorem can_stop_pacing (usable : session.connection.usable = .ok ())
    (flag : session.status.haveAnswerSet = true) (goes_on : session.status.exit = false) :
    CanStop ⟨session, isPaced, .pacing, none, .forwarding⟩ := by
  have allows : paceAllows ⟨session, isPaced, .pacing, none, .forwarding⟩ = true := by
    unfold paceAllows
    dsimp only
    rw [flag]
    cases session.config.pacing <;> rfl
  have asks : step ⟨session, isPaced, .pacing, none, .forwarding⟩ .paced =
      some ⟨session, isPaced, .asking, none, .forwarding⟩ := by
    unfold step stepProducer
    dsimp only
    rw [if_pos allows, goes_on]
    rfl
  exact can_stop_of_step .paced asks nofun (can_stop_asking usable flag)

theorem can_stop_starting (usable : session.connection.usable = .ok ())
    (flag : session.status.haveAnswerSet = true) (goes_on : session.status.exit = false) :
    CanStop ⟨session, isPaced, .starting, none, .forwarding⟩ := by
  have begins : step ⟨session, isPaced, .starting, none, .forwarding⟩ .begin =
      some ⟨session, isPaced, if isPaced then .pacing else .asking, none, .forwarding⟩ := by
    unfold step stepProducer
    dsimp only
    rw [goes_on]
    rfl
  apply can_stop_of_step .begin begins nofun
  cases isPaced with
  | true => exact can_stop_pacing usable flag goes_on
  | false => exact can_stop_asking usable flag

end CanStop

theorem can_stop_of_settled (forwards : Forwards predicate log run)
    (settled : Settled log run) (flag : run.session.status.haveAnswerSet = true) :
    CanStop run := by
  have only := only_stop_of_settled forwards settled
  have goes_on := forwards.goes_on
  have usable := settled.usable
  have left := forwards.left
  have forwarding := settled.forwarding
  obtain ⟨session, isPaced, producer, slot, main⟩ := run
  cases forwarding
  cases slot with
  | some input =>
      cases only input List.mem_cons_self
      exact can_stop_waiting usable
  | none =>
      cases producer with
      | starting => exact can_stop_starting usable flag goes_on
      | pacing => exact can_stop_pacing usable flag goes_on
      | asking => exact can_stop_asking usable flag
      | taking fragment => cases only _ List.mem_cons_self
      | handing input =>
          cases only input List.mem_cons_self
          exact can_stop_handing usable
      | holding => exact can_stop_holding usable flag
      | gone =>
          rcases left rfl with ⟨_, waiting, _⟩ | sending
          · cases waiting
          · cases sending

/-- Whether every stop without another fragment comes after an answer to the last one. -/
def AnswersLast (before : List Event) (run : AsyncRun) : Prop :=
  ∀ rest final, run.runMoves rest = some final → final.main = .ended (.ok .stopped) →
    (∀ input, .returned input ∈ run.trace rest → fragmentOf input = none) →
    answeredSince isFragmentWrite (before ++ run.trace rest) = true

theorem uncounted_of_needs_none
    (quiet : ∀ event ∈ events, needsFragment event = false) :
    (∀ event ∈ events, isTaking event = false) ∧
      ∀ event ∈ events, isFragmentWrite event = false := by
  refine ⟨fun event member => ?_, fun event member => ?_⟩
  · exact (Bool.or_eq_false_iff.1 (quiet event member)).1
  · exact (Bool.or_eq_false_iff.1 (quiet event member)).2

/-- A stop comes after a result that has been shown since the last fragment was taken. It
comes after one that has been shown since the last fragment was written unless, when that
fragment had been written, a result had been shown since the taking and none since the
writing. -/
theorem stop_deferral {config : Config} {format : OutputFormat} {created session : Session}
    (creates : Session.create config format = .ok created)
    (connects : created.connect .accepted = (.ok (), session)) (isPaced : Bool) :
    (∀ moves final, (start session isPaced).runMoves moves = some final →
        final.main = .ended (.ok .stopped) →
        answeredSince isTaking ((start session isPaced).trace moves) = true) ∧
      ∀ moves now, (start session isPaced).runMoves moves = some now →
        let before := (start session isPaced).trace moves
        Settled (Log.empty.recordAll before) now →
        (AnswersLast before now ↔
          (answeredSince isTaking before = true →
            answeredSince isFragmentWrite before = true)) := by
  have fresh := Session.fresh_of_create creates connects
  have begins := deferral_start fresh isPaced
  have always (moves : List Move) (final : AsyncRun)
      (runs : (start session isPaced).runMoves moves = some final)
      (stopped : final.main = .ended (.ok .stopped)) :
      answeredSince isTaking ((start session isPaced).trace moves) = true :=
    (deferral_of_run begins runs).answered stopped
  refine ⟨always, ?_⟩
  intro moves now runs before settled
  have deferral := deferral_of_run begins runs
  have active : now.isEnded = false := by rw [isEnded, settled.forwarding]
  have flag := (deferral.defers active).flag
  have forwards : Forwards config.carryOver (Log.empty.recordAll before) now := by
    cases deferral.position with
    | running _ forwards _ => exact forwards
    | finished outcome finished =>
        have ended := finished.ended
        rw [settled.forwarding] at ended
        cases ended
  constructor
  · -- The flag is set, so the source can stop at once.
    intro answers taken
    rw [taken] at flag
    obtain ⟨rest, final, continues, stopped, silent⟩ := can_stop_of_settled forwards settled flag
    have shows := answers rest final continues stopped fun input member =>
      (silent _ member).2.2 input rfl
    have uncounted := uncounted_of_needs_none fun event member => (silent event member).2.1
    have unshown : (now.trace rest).any isShowing = false := by
      rw [List.any_eq_false]
      intro event member
      rw [(silent event member).1]
      exact Bool.false_ne_true
    rw [answered_since_append, foldl_answers uncounted.2, unshown, Bool.or_false] at shows
    exact shows
  · -- Nothing that follows clears the flag, so what set it is before or behind `now`.
    intro written rest final continues stopped closing
    have quiet := needs_no_fragment_of_run (drained_of_settled forwards settled) continues closing
    have uncounted := uncounted_of_needs_none quiet
    obtain ⟨whole, events⟩ := run_moves_append runs rest
    have shows := always (moves ++ rest) final (whole.trans continues) stopped
    rw [events, answered_since_append, foldl_answers uncounted.1, Bool.or_eq_true] at shows
    rw [answered_since_append, foldl_answers uncounted.2, Bool.or_eq_true]
    exact shows.imp_left written

/-- A result is shown while the first fragment waits in the slot, which is written then. -/
def hastyWrite : List Move :=
  [.forward, .begin, .supplied ⟨.ok (.fragment ⟨["b.\n".toList]⟩), 0, []⟩, .cleared, .handed,
    .read (.received (Message.encode "End of Step.\n".toList)) false, .work, .work, .work,
    .forward, .sent .delivered]

theorem hasty_write_answers_nothing :
    ∃ created session now, Session.create .standard .text = .ok created ∧
      created.connect .accepted = (.ok (), session) ∧
      (start session false).runMoves hastyWrite = some now ∧
      ¬ AnswersLast ((start session false).trace hastyWrite) now := by
  have creates : Session.create .standard .text = .ok _ := rfl
  refine ⟨_, _, _, creates, rfl, rfl, ?_⟩
  have deferral := (stop_deferral creates rfl false).2 hastyWrite _ rfl
  rw [deferral ⟨rfl, rfl, rfl, ?_⟩]
  · intro written
    cases written rfl
  · intro fault member
    cases List.mem_singleton.1 member

/-- The source has nothing more, and its stop follows the fragment at once. -/
def hastyStop : List Move :=
  hastyWrite ++ [.begin, .supplied ⟨.ok .stop, 0, []⟩, .released, .handed, .forward,
    .sent .delivered]

theorem hasty_stop_unanswered :
    ∃ created session final, Session.create .standard .text = .ok created ∧
      created.connect .accepted = (.ok (), session) ∧
      (start session false).runMoves hastyStop = some final ∧
      final.main = .ended (.ok .stopped) ∧
      answeredSince isFragmentWrite ((start session false).trace hastyStop) = false :=
  ⟨_, _, _, rfl, rfl, rfl, rfl, rfl⟩

end StepStream.AsyncRun
