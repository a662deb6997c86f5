import StepStream.Proofs.Listening

/-!
What asynchronous runs show. The transcript is made of the results that have been shown and, if
the session echoes its input, of the texts that have been sent, in the order of the trace. One
more text may stand behind them: one that is being sent, or that could not be sent. The counters
of the session are those of the results.
-/

namespace StepStream

set_option autoImplicit false

open Response (StepResult)

def Config.echoed (config : Config) (text : Text) : Text :=
  if config.echoInput then "Sending following input to controller:\n".toList ++ text else []

namespace Session

theorem echo_eq (session : Session) (text : Text) :
    session.echo text = session.print (session.config.echoed text) := by
  unfold echo Config.echoed
  split
  · rfl
  · rw [print, List.append_nil]

/-- Everything of a session that a display changes or depends on. -/
def screen (session : Session) : Config × OutputFormat × Text × Nat × Nat :=
  (session.config, session.format, session.transcript, session.steps, session.answerSets)

end Session

namespace AsyncRun

variable {config : Config} {format : OutputFormat} {seen events : List Event}
  {run next : AsyncRun} {move : Move}

def Event.printed (config : Config) (format : OutputFormat) : Event → Text
  | .shown result => Transcript.ofStepResult format result
  | .wrote text => config.echoed text
  | .returned _ | .taken | .polled _ => []

/-- What a transcript can hold behind the results and the texts that have been sent. -/
inductive Unsent (config : Config) : MainLine → Text → Prop
  | forwarding : Unsent config .forwarding []
  | polling : Unsent config .polling []
  | showing : Unsent config .showing []
  | sending (text : Text) (ending : Option End) :
      Unsent config (.sending text ending) (config.echoed text)
  | ended (outcome : Except Error End) : Unsent config (.ended outcome) []
  | failed (fault : Error) (text : Text) :
      Unsent config (.ended (.error fault)) (config.echoed text)

def IsQuiet (events : List Event) : Prop :=
  results events = [] ∧
    ∀ (config : Config) (format : OutputFormat), events.flatMap (Event.printed config format) = []

theorem quiet_nothing : IsQuiet [] := ⟨rfl, fun _ _ => rfl⟩

/-- Whether a run has shown and counted what is seen in its trace, and nothing else. -/
structure Displays (config : Config) (format : OutputFormat) (seen : List Event)
    (run : AsyncRun) : Prop where
  settings : run.session.config = config
  shows : run.session.format = format
  counts : run.session.Counts (results seen)
  printed : ∃ unsent, Unsent config run.main unsent ∧
    run.session.transcript = seen.flatMap (Event.printed config format) ++ unsent

/-- A step by which no result is shown. What has been printed and not been sent before is
accounted to the events of the step, or still not sent. -/
theorem displays_after (displays : Displays config format seen run)
    (same : next.session.screen = run.session.screen) (nothing : results events = [])
    (accounts : ∀ before, Unsent config run.main before → ∃ after,
      Unsent config next.main after ∧
        before = events.flatMap (Event.printed config format) ++ after) :
    Displays config format (seen ++ events) next := by
  simp only [Session.screen, Prod.mk.injEq] at same
  obtain ⟨settings, shows, transcript, steps, answerSets⟩ := same
  obtain ⟨before, waits, printed⟩ := displays.printed
  obtain ⟨after, unsent, rfl⟩ := accounts before waits
  have kept : results (seen ++ events) = results seen := by
    rw [results, List.filterMap_append, ← results, ← results, nothing, List.append_nil]
  refine ⟨settings.trans displays.settings, shows.trans displays.shows, ⟨?_, ?_⟩, after, unsent, ?_⟩
  · rw [kept, steps, displays.counts.steps]
  · rw [kept, answerSets, displays.counts.answerSets]
  · rw [transcript, printed, List.flatMap_append, List.append_assoc]

theorem displays_quiet (displays : Displays config format seen run) (quiet : IsQuiet events)
    (same : next.session.screen = run.session.screen)
    (unsent : ∀ text, Unsent config run.main text → Unsent config next.main text) :
    Displays config format (seen ++ events) next := by
  obtain ⟨nothing, blank⟩ := quiet
  refine displays_after displays same nothing fun text waits => ?_
  exact ⟨text, unsent text waits, by rw [blank, List.nil_append]⟩

theorem displays_begin_sending (displays : Displays config format seen run)
    (forwarding : run.main = .forwarding) (text : Text) (ending : Option End) :
    Displays config format seen (run.beginSending text ending) := by
  obtain ⟨settings, shows, counts, unsent, waits, printed⟩ := displays
  rw [forwarding] at waits
  cases waits
  have echoed : (run.session.echo text).transcript =
      seen.flatMap (Event.printed config format) ++ config.echoed text := by
    rw [Session.echo_eq, settings, Session.print, printed, List.append_nil]
  unfold beginSending
  rw [Session.echo_eq] at echoed ⊢
  dsimp only
  split
  · exact ⟨settings, shows, ⟨counts.steps, counts.answerSets⟩, _, .sending text ending, echoed⟩
  · next fault _ =>
      exact ⟨settings, shows, ⟨counts.steps, counts.answerSets⟩, _, .failed fault text, echoed⟩

theorem unsent_failed {main : MainLine} {text : Text} (unsent : Unsent config main text)
    (fault : Error) : Unsent config (.ended (.error fault)) text := by
  cases unsent with
  | forwarding | polling | showing | ended => exact .ended _
  | sending | failed => exact .failed fault _

theorem displays_forward (displays : Displays config format seen run)
    (forwarding : run.main = .forwarding) : Displays config format seen run.forward := by
  have emptied : Displays config format seen { run with slot := none } :=
    ⟨displays.settings, displays.shows, displays.counts, displays.printed⟩
  unfold forward
  split
  · exact displays_begin_sending emptied forwarding _ _
  · exact displays_begin_sending emptied forwarding _ _
  · next fault _ =>
      rw [← List.append_nil seen]
      exact displays_quiet displays quiet_nothing rfl fun _ unsent => unsent_failed unsent fault
  · exact displays_begin_sending displays forwarding _ _
  · rw [← List.append_nil seen]
    refine displays_quiet displays quiet_nothing rfl fun text unsent => ?_
    rw [forwarding] at unsent
    cases unsent
    exact .polling

/-- The echo of a text is accounted to the text when it has been sent. -/
theorem displays_wrote (displays : Displays config format seen run) {text : Text}
    {ending : Option End} (sending : run.main = .sending text ending)
    (same : next.session.screen = run.session.screen) (unsent : Unsent config next.main []) :
    Displays config format (seen ++ [.wrote text]) next := by
  refine displays_after displays same rfl fun before waits => ⟨[], unsent, ?_⟩
  rw [sending] at waits
  cases waits
  rw [List.flatMap_singleton, List.append_nil, Event.printed]

theorem displays_sent (displays : Displays config format seen run) {outcome : SendOutcome}
    (stepped : run.stepMain (.sent outcome) = some next) :
    Displays config format (seen ++ run.emits (.sent outcome)) next := by
  obtain ⟨session, isPaced, producer, slot, main⟩ := run
  cases main with
  | sending text ending =>
      cases outcome with
      | delivered =>
          cases ending with
          | none =>
              cases stepped
              exact displays_wrote displays rfl rfl .forwarding
          | some ending =>
              cases stepped
              exact displays_wrote displays rfl rfl (.ended _)
      | broken | failed =>
          cases stepped
          exact displays_quiet displays quiet_nothing rfl fun _ unsent => unsent_failed unsent _
  | _ => cases stepped

theorem displays_received (displays : Displays config format seen run)
    (polling : run.main = .polling) (connection : Connection) (late : Bool)
    (answer : Option (Except Error Received)) :
    Displays config format (seen ++ Event.ofReceived answer)
      ({ run with session := { run.session with connection := connection } }.afterReceiving late
        answer) := by
  have blank (text : Text) (unsent : Unsent config run.main text) : text = [] := by
    rw [polling] at unsent
    cases unsent
    rfl
  cases answer with
  | none => exact displays_quiet displays quiet_nothing rfl fun _ unsent => unsent
  | some received =>
      cases received with
      | error fault =>
          exact displays_quiet displays quiet_nothing rfl fun _ unsent => unsent_failed unsent fault
      | ok received =>
          cases received with
          | message message =>
              refine displays_quiet displays ⟨rfl, fun _ _ => rfl⟩ rfl fun text unsent => ?_
              exact blank text unsent ▸ .showing
          | timeout =>
              refine displays_quiet displays quiet_nothing rfl fun text unsent => ?_
              exact blank text unsent ▸ .forwarding
          | closed =>
              refine displays_quiet displays quiet_nothing rfl fun text unsent => ?_
              exact blank text unsent ▸ .ended _

theorem displays_shown (displays : Displays config format seen run)
    (showing : run.main = .showing) (result : StepResult) :
    Displays config format (seen ++ [.shown result])
      { run with session := run.session.display result } := by
  obtain ⟨settings, shows, counts, text, waits, printed⟩ := displays
  rw [showing] at waits
  cases waits
  have grows : results (seen ++ [.shown result]) = results seen ++ [result] := by
    rw [results, List.filterMap_append]
    rfl
  refine ⟨settings, shows, ?_, [], showing ▸ .showing, ?_⟩
  · rw [grows]
    exact Session.counts_display counts result
  · change run.session.transcript ++ Transcript.ofStepResult run.session.format result = _
    rw [printed, shows, List.flatMap_append, List.flatMap_singleton, List.append_nil,
      List.append_nil, Event.printed]

theorem displays_work (displays : Displays config format seen run)
    (worked : run.work = some next) :
    Displays config format (seen ++ run.emits .work) next := by
  obtain ⟨session, isPaced, producer, slot, main⟩ := run
  unfold work at worked
  unfold emits
  cases main with
  | polling =>
      dsimp only at worked ⊢
      cases answered : session.connection.answerBuffered with
      | mk answer connection =>
          rw [answered] at worked
          cases answer with
          | none => cases worked
          | some received =>
              cases worked
              exact displays_received displays rfl connection false _
  | showing =>
      dsimp only at worked ⊢
      cases asked : session.nextResult with
      | mk found after =>
          rw [asked] at worked
          cases found with
          | none =>
              obtain ⟨assembly, rfl, -, -⟩ := Session.next_result_none asked
              cases worked
              refine displays_quiet displays quiet_nothing rfl fun text unsent => ?_
              cases unsent
              exact .forwarding
          | some outcome =>
              obtain ⟨assembly, rfl, -, -⟩ := Session.next_result_some asked
              cases outcome with
              | ok result =>
                  cases worked
                  have taken : Displays config format seen
                      ⟨{ session with assembly := assembly }, isPaced, producer, slot, .showing⟩ :=
                    ⟨displays.settings, displays.shows,
                      ⟨displays.counts.steps, displays.counts.answerSets⟩, displays.printed⟩
                  exact displays_shown taken rfl result
              | error fault =>
                  cases worked
                  exact displays_quiet displays quiet_nothing rfl
                    fun _ unsent => unsent_failed unsent fault
  | _ => cases worked

theorem displays_read (displays : Displays config format seen run) {outcome : ReadOutcome}
    {late : Bool} (stepped : run.stepMain (.read outcome late) = some next) :
    Displays config format (seen ++ run.emits (.read outcome late)) next := by
  obtain ⟨session, isPaced, producer, slot, main⟩ := run
  cases main with
  | polling =>
      unfold stepMain at stepped
      dsimp only at stepped
      split at stepped
      · cases stepped
      · cases stepped
        exact displays_received displays rfl _ late _
  | _ => cases stepped

theorem displays_producer (displays : Displays config format seen run)
    (stepped : run.stepProducer move = some next) :
    Displays config format (seen ++ run.emits move) next := by
  obtain ⟨stands, status, same, -⟩ := session_of_producer stepped
  have quiet : IsQuiet (run.emits move) := by
    obtain ⟨session, isPaced, producer, slot, main⟩ := run
    cases move with
    | begin | paced | handed | released => exact quiet_nothing
    | supplied | cleared => cases producer <;> exact ⟨rfl, fun _ _ => rfl⟩
    | forward | sent | work | read => cases producer <;> cases stepped
  refine displays_quiet displays quiet ?_ fun text unsent => ?_
  · rw [same]
    rfl
  · exact stands ▸ unsent

theorem displays_step (displays : Displays config format seen run)
    (stepped : run.step move = some next) :
    Displays config format (seen ++ run.emits move) next := by
  cases move with
  | begin | paced | supplied | cleared | handed | released =>
      exact displays_producer displays stepped
  | forward =>
      obtain ⟨session, isPaced, producer, slot, main⟩ := run
      cases main with
      | forwarding =>
          cases stepped
          exact (List.append_nil seen).symm ▸ displays_forward displays rfl
      | _ => cases stepped
  | sent outcome => exact displays_sent displays stepped
  | work =>
      obtain ⟨session, isPaced, producer, slot, main⟩ := run
      cases main with
      | polling | showing => exact displays_work displays stepped
      | _ => cases stepped
  | read outcome late => exact displays_read displays stepped

theorem displays_of_run {moves : List Move} {final : AsyncRun}
    (displays : Displays config format seen run) (runs : run.runMoves moves = some final) :
    Displays config format (seen ++ run.trace moves) final := by
  induction moves generalizing run seen with
  | nil =>
      cases runs
      rw [trace, List.append_nil]
      exact displays
  | cons move moves induction =>
      cases stepped : run.step move with
      | none =>
          rw [runMoves, stepped] at runs
          cases runs
      | some next =>
          rw [runMoves, stepped, Option.bind_some] at runs
          rw [trace, stepped, ← List.append_assoc]
          exact induction (displays_step displays stepped) runs

theorem displays_start {created session : Session}
    (creates : Session.create config format = .ok created)
    (connects : created.connect .accepted = (.ok (), session)) (isPaced : Bool) :
    Displays config format [] (start session isPaced) := by
  have fresh := Session.fresh_of_create creates connects
  have counts := (Session.listens_of_create creates connects).counts
  exact ⟨fresh.settings, fresh.shows, ⟨counts.steps, counts.answerSets⟩, [], .forwarding,
    fresh.nothing_shown⟩

theorem shown_of_record (log : Log) (events : List Event) :
    (log.recordAll events).shown = log.shown ++ results events := by
  induction events generalizing log with
  | nil => exact (List.append_nil _).symm
  | cons event events induction =>
      change ((log.record event).recordAll events).shown = _
      rw [induction]
      cases event with
      | shown result => exact List.append_assoc _ _ _
      | returned | taken | wrote | polled => rfl

/-- The transcript of a session in a run holds the results that have been shown, each once and
in order, and besides them at most the echoes of texts. Its counters are those of the results. -/
theorem displayed_of_run {created session : Session}
    (creates : Session.create config format = .ok created)
    (connects : created.connect .accepted = (.ok (), session)) (isPaced : Bool)
    {moves : List Move} {final : AsyncRun}
    (runs : (start session isPaced).runMoves moves = some final) :
    let events := (start session isPaced).trace moves
    let shown := (Log.empty.recordAll events).shown
    (∃ unsent, Unsent config final.main unsent ∧
        final.session.transcript = events.flatMap (Event.printed config format) ++ unsent) ∧
      final.session.steps = shown.length ∧
      final.session.answerSets = (shown.flatMap StepResult.answerSets).length := by
  intro events shown
  have displays := displays_of_run (displays_start creates connects isPaced) runs
  have results : shown = results events := shown_of_record .empty events
  rw [results]
  exact ⟨displays.printed, displays.counts.steps, displays.counts.answerSets⟩

end AsyncRun

end StepStream
