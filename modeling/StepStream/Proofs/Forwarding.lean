import Mathlib.Data.List.Forall2
import StepStream.Proofs.AsyncDisplay

/-!
Forwarding in asynchronous runs. Between the source and the wire an input stands in at most
three places: with the producer, in the slot, or with the main line that sends it. Hence the
fragments on the wire are a beginning of those that the source has returned, in whatever
order the moves of the two sides come.
-/

namespace StepStream.AsyncRun

set_option autoImplicit false

open Response (StepResult)

def fragmentOf : Except Error StepInput → Option Fragment
  | .ok (.fragment fragment) => some fragment
  | _ => none

def Log.fragments (log : Log) : List Fragment := log.returned.filterMap fragmentOf

/-- Everything that the lines of the polled messages yield. -/
def Log.heard (log : Log) : List (Except Error StepResult) :=
  Response.Assembly.empty.ahead (log.polled.flatMap fun message =>
    (Text.lines message).map .ok)

/-- Whether a text is a fragment with the constraints of some moment up to now. -/
def Renders (predicate : Option Text) (shown : List StepResult) (text : Text)
    (fragment : Fragment) : Prop :=
  ∃ earlier, earlier <+: shown ∧
    text = fragment.render (carriedConstraints predicate earlier)

inductive Underway (predicate : Option Text) (shown : List StepResult) :
    MainLine → List (Except Error StepInput) → Prop
  | forwarding : Underway predicate shown .forwarding []
  | polling : Underway predicate shown .polling []
  | showing : Underway predicate shown .showing []
  | fragment {text : Text} {fragment : Fragment}
      (renders : Renders predicate shown text fragment) :
      Underway predicate shown (.sending text none) [.ok (.fragment fragment)]
  | stop : Underway predicate shown (.sending Fragment.stop (some .stopped)) [.ok .stop]

def inHand : Producer → List (Except Error StepInput)
  | .taking fragment => [.ok (.fragment fragment)]
  | .handing input => [input]
  | .holding => [.ok .stop]
  | .starting | .pacing | .asking | .gone => []

/-- Every input that has been returned is on the wire, on its way there, in the slot or with
the producer, in this order. The producer only leaves behind an input that is no fragment. -/
structure Forwards (predicate : Option Text) (log : Log) (run : AsyncRun) : Prop where
  goes_on : run.session.status.exit = false
  remembers : run.session.Remembers predicate log.shown
  pipeline : ∃ written underway,
    List.Forall₂ (Renders predicate log.shown) log.wrote written ∧
    Underway predicate log.shown run.main underway ∧
    log.returned = written.map (fun fragment => .ok (.fragment fragment)) ++
      (underway ++ (run.slot.toList ++ inHand run.producer))
  left : run.producer = .gone →
    (∃ input, run.slot = some input ∧ fragmentOf input = none) ∨
      run.main = .sending Fragment.stop (some .stopped)
  last : ∀ input, run.slot = some input → fragmentOf input = none → run.producer = .gone
  stopping : ∀ text ending, run.main = .sending text (some ending) →
    run.slot = none ∧ run.producer = .gone

/-- The results are shown as they are heard, whatever lines follow, and the queue is empty
unless the main line is about to show what is in it. -/
structure Hears (log : Log) (run : AsyncRun) : Prop where
  heard : ∀ later, Response.Assembly.empty.ahead
      ((log.polled.flatMap fun message => (Text.lines message).map .ok) ++ later) =
    log.shown.map .ok ++ run.session.assembly.ahead later
  drained : run.main ≠ .showing → run.session.assembly.queue = []

variable {predicate : Option Text} {log : Log} {run next : AsyncRun} {events : List Event}

theorem hears_step (hears : Hears log run) (moved : Transition run events next)
    (goes_on : next.isEnded = false) : Hears (log.recordAll events) next := by
  cases moved with
  | leave | proceed | answer | clear | release | abandon | hand | read =>
      exact ⟨hears.heard, hears.drained⟩
  | forward | stop | exhaust | look | deliver | pause =>
      have waiting : run.main ≠ .showing := by simp [*]
      exact ⟨hears.heard, fun _ => hears.drained waiting⟩
  | close | fail => cases goes_on
  | poll text connection polling =>
      refine ⟨fun later => ?_, fun elsewhere => absurd rfl elsewhere⟩
      change Response.Assembly.empty.ahead
          (((log.polled ++ [text]).flatMap fun message => (Text.lines message).map .ok) ++ later) =
        log.shown.map .ok ++ (run.session.assembly.push text).ahead later
      rw [List.flatMap_append, List.flatMap_singleton, List.append_assoc, hears.heard,
        Response.Assembly.ahead_push]
  | display result session showing found =>
      obtain ⟨assembly, rfl, -, ahead⟩ := Session.next_result_some found
      refine ⟨fun later => ?_, fun elsewhere => absurd showing elsewhere⟩
      change _ = (log.shown ++ [result]).map .ok ++ assembly.ahead later
      have heard := hears.heard later
      rw [ahead] at heard
      rw [List.map_append, List.append_assoc]
      exact heard
  | drain session showing found =>
      obtain ⟨assembly, rfl, drained, ahead⟩ := Session.next_result_none found
      refine ⟨fun later => ?_, fun _ => drained⟩
      have heard := hears.heard later
      rw [ahead] at heard
      exact heard

theorem renders_mono {shown later : List StepResult} (extends_shown : shown <+: later)
    {text : Text} {fragment : Fragment} (renders : Renders predicate shown text fragment) :
    Renders predicate later text fragment := by
  obtain ⟨earlier, before, same⟩ := renders
  exact ⟨earlier, before.trans extends_shown, same⟩

def isIdle : MainLine → Bool
  | .forwarding | .polling | .showing => true
  | .sending _ _ | .ended _ => false

theorem underway_iff_of_idle {shown : List StepResult} {main : MainLine}
    (idle : isIdle main = true) (underway : List (Except Error StepInput)) :
    Underway predicate shown main underway ↔ underway = [] := by
  constructor
  · intro sends
    cases sends with
    | forwarding | polling | showing => rfl
    | fragment | stop => cases idle
  · intro nothing
    subst nothing
    cases main with
    | forwarding => exact .forwarding
    | polling => exact .polling
    | showing => exact .showing
    | sending | ended => cases idle

theorem forwards_of_producer (forwards : Forwards predicate log run)
    {session : Session} {producer : Producer} {returned more : List (Except Error StepInput)}
    (goes_on : session.status.exit = false) (remembers : session.carry = run.session.carry)
    (here : run.producer ≠ .gone) (there : producer ≠ .gone)
    (hand : inHand producer = inHand run.producer ++ more)
    (grows : returned = log.returned ++ more) :
    Forwards predicate { log with returned := returned }
      { run with session := session, producer := producer } where
  goes_on := goes_on
  remembers := remembers.trans forwards.remembers
  pipeline := by
    obtain ⟨written, underway, wrote, sending, before⟩ := forwards.pipeline
    refine ⟨written, underway, wrote, sending, ?_⟩
    simp only [grows, before, hand, List.append_assoc]
  left := fun gone => absurd gone there
  last := fun input found closing => absurd (forwards.last input found closing) here
  stopping := fun text ending sending => absurd (forwards.stopping text ending sending).2 here

theorem forwards_of_main (forwards : Forwards predicate log run)
    {session : Session} {main : MainLine} {polled : List Text} {shown : List StepResult}
    (extends_shown : log.shown <+: shown) (before : isIdle run.main = true)
    (after : isIdle main = true) (goes_on : session.status.exit = run.session.status.exit)
    (remembers : session.Remembers predicate shown) :
    Forwards predicate { log with polled := polled, shown := shown }
      { run with session := session, main := main } where
  goes_on := goes_on.trans forwards.goes_on
  remembers := remembers
  pipeline := by
    obtain ⟨written, underway, wrote, sending, returned⟩ := forwards.pipeline
    rw [underway_iff_of_idle before] at sending
    have renders := wrote.imp fun _ _ renders => renders_mono extends_shown renders
    exact ⟨written, underway, renders, (underway_iff_of_idle after underway).2 sending, returned⟩
  left := by
    intro gone
    rcases forwards.left gone with waiting | sending
    · exact .inl waiting
    · rw [sending] at before
      cases before
  last := forwards.last
  stopping := by
    intro text ending sending
    change main = .sending text (some ending) at sending
    rw [sending] at after
    cases after

theorem forwards_of_hand (forwards : Forwards predicate log run)
    {input : Except Error StepInput} (handing : run.producer = .handing input)
    (free : run.slot = none) :
    Forwards predicate log
      { run with slot := some input, producer := afterHanding input } where
  goes_on := forwards.goes_on
  remembers := forwards.remembers
  pipeline := by
    obtain ⟨written, underway, wrote, sending, returned⟩ := forwards.pipeline
    refine ⟨written, underway, wrote, sending, ?_⟩
    have nothing : inHand (afterHanding input) = [] := by
      unfold afterHanding
      split <;> rfl
    rw [returned, free, handing, nothing]
    rfl
  left := by
    intro gone
    refine .inl ⟨input, rfl, ?_⟩
    unfold afterHanding at gone
    split at gone
    · cases gone
    · unfold fragmentOf
      split
      · next fragment same => exact absurd rfl (same fragment)
      · rfl
  last := by
    intro other found closing
    cases found
    unfold afterHanding
    split
    · cases closing
    · rfl
  stopping := by
    intro text ending sending
    have gone := (forwards.stopping text ending sending).2
    rw [handing] at gone
    cases gone

theorem forwards_of_forward (forwards : Forwards predicate log run) {fragment : Fragment}
    (transcript : Text) (forwarding : run.main = .forwarding)
    (found : run.slot = some (.ok (.fragment fragment))) :
    Forwards predicate log
      { run with
        slot := none
        session := { run.session with transcript := transcript }
        main := .sending (fragment.render run.session.constraints) none } where
  goes_on := forwards.goes_on
  remembers := forwards.remembers
  pipeline := by
    obtain ⟨written, underway, wrote, sending, returned⟩ := forwards.pipeline
    have idle : isIdle run.main = true := by rw [forwarding, isIdle]
    have constraints := Session.constraints_of_remembers forwards.remembers
    rw [underway_iff_of_idle idle] at sending
    refine ⟨written, [.ok (.fragment fragment)], wrote, .fragment ?_, ?_⟩
    · exact ⟨log.shown, List.prefix_rfl, by rw [constraints]⟩
    · rw [returned, sending, found]
      rfl
  left := by
    intro gone
    rcases forwards.left gone with ⟨input, waiting, closing⟩ | sending
    · rw [found] at waiting
      cases waiting
      cases closing
    · rw [forwarding] at sending
      cases sending
  last := nofun
  stopping := nofun

theorem forwards_of_stop (forwards : Forwards predicate log run) (transcript : Text)
    (forwarding : run.main = .forwarding) (found : run.slot = some (.ok .stop)) :
    Forwards predicate log
      { run with
        slot := none
        session := { run.session with transcript := transcript }
        main := .sending Fragment.stop (some .stopped) } where
  goes_on := forwards.goes_on
  remembers := forwards.remembers
  pipeline := by
    obtain ⟨written, underway, wrote, sending, returned⟩ := forwards.pipeline
    have idle : isIdle run.main = true := by rw [forwarding, isIdle]
    rw [underway_iff_of_idle idle] at sending
    refine ⟨written, [.ok .stop], wrote, .stop, ?_⟩
    rw [returned, sending, found]
    rfl
  left := fun _ => .inr rfl
  last := nofun
  stopping := fun _ _ _ => ⟨rfl, forwards.last _ found rfl⟩

theorem forwards_of_deliver (forwards : Forwards predicate log run) {text : Text}
    (sending : run.main = .sending text none) :
    Forwards predicate { log with wrote := log.wrote ++ [text] }
      { run with main := .forwarding } where
  goes_on := forwards.goes_on
  remembers := forwards.remembers
  pipeline := by
    obtain ⟨written, underway, wrote, sends, returned⟩ := forwards.pipeline
    rw [sending] at sends
    cases sends with
    | @fragment _ fragment renders =>
        have renders := List.rel_append wrote (.cons renders .nil)
        refine ⟨written ++ [fragment], [], renders, .forwarding, ?_⟩
        simp only [returned, List.map_append, List.map_singleton, List.append_assoc,
          List.nil_append]
  left := by
    intro gone
    rcases forwards.left gone with waiting | stopping
    · exact .inl waiting
    · rw [sending] at stopping
      cases stopping
  last := forwards.last
  stopping := nofun

theorem forwards_step (forwards : Forwards predicate log run)
    (moved : Transition run events next) (goes_on : next.isEnded = false) :
    Forwards predicate (log.recordAll events) next := by
  cases moved with
  | leave exit =>
      rw [forwards.goes_on] at exit
      cases exit
  | proceed exit before after =>
      refine forwards_of_producer forwards exit rfl ?_ ?_ ?_ (List.append_nil _).symm
      · rcases before with stands | stands <;> simp [stands]
      · rcases after with stands | stands <;> simp [stands]
      · rcases before with here | here <;> rcases after with there | there <;>
          simp [here, there, inHand]
  | answer answer asking =>
      refine forwards_of_producer forwards forwards.goes_on rfl ?_ ?_ ?_ rfl
      · simp [asking]
      · unfold holder
        split <;> simp
      · rw [asking]
        unfold holder
        split <;> simp [inHand, *]
  | clear fragment taking =>
      refine forwards_of_producer forwards forwards.goes_on rfl ?_ ?_ ?_ (List.append_nil _).symm
      · simp [taking]
      · simp
      · simp [taking, inHand]
  | release holding =>
      refine forwards_of_producer forwards forwards.goes_on rfl ?_ ?_ ?_ (List.append_nil _).symm
      · simp [holding]
      · simp
      · simp [holding, inHand]
  | abandon input handing ended =>
      exact absurd goes_on (by simpa [isEnded] using ended)
  | hand input handing _ free => exact forwards_of_hand forwards handing free
  | forward fragment transcript forwarding found =>
      exact forwards_of_forward forwards transcript forwarding found
  | stop transcript forwarding found =>
      exact forwards_of_stop forwards transcript forwarding found
  | exhaust transcript forwarding free gone =>
      -- A producer that has left put a stop or a fault into the slot before.
      rcases forwards.left gone with ⟨input, waiting, -⟩ | sending
      · rw [free] at waiting
        cases waiting
      · rw [forwarding] at sending
        cases sending
  | deliver text sending => exact forwards_of_deliver forwards sending
  | close | fail => cases goes_on
  | look forwarding =>
      exact forwards_of_main forwards List.prefix_rfl (by rw [forwarding, isIdle]) rfl rfl
        forwards.remembers
  | poll text connection polling =>
      exact forwards_of_main forwards List.prefix_rfl (by rw [polling, isIdle]) rfl rfl
        forwards.remembers
  | read connection polling =>
      have idle : isIdle run.main = true := by rw [polling, isIdle]
      exact forwards_of_main forwards List.prefix_rfl idle idle rfl forwards.remembers
  | pause connection late polling =>
      exact forwards_of_main forwards List.prefix_rfl (by rw [polling, isIdle]) rfl rfl
        forwards.remembers
  | display result session showing found =>
      have idle : isIdle run.main = true := by rw [showing, isIdle]
      obtain ⟨assembly, rfl, -, -⟩ := Session.next_result_some found
      exact forwards_of_main forwards (List.prefix_append _ _) idle idle rfl
        (Session.remembers_display forwards.remembers result)
  | drain session showing found =>
      obtain ⟨assembly, rfl, -, -⟩ := Session.next_result_none found
      exact forwards_of_main forwards List.prefix_rfl (by rw [showing, isIdle]) rfl rfl
        forwards.remembers

/-- A run that has ended. Only the producer of one that was not stopped may still move. -/
structure Over (predicate : Option Text) (log : Log) (run : AsyncRun)
    (outcome : Except Error End) : Prop where
  ended : run.main = .ended outcome
  possible : outcome ≠ .ok .inputExhausted
  forwarded : ∃ texts written, List.Forall₂ (Renders predicate log.shown) texts written ∧
    written <+: log.fragments ∧
    (outcome = .ok .stopped ∧ log.wrote = texts ++ [Fragment.stop] ∧
        log.returned = written.map (fun fragment => .ok (.fragment fragment)) ++ [.ok .stop] ∧
        run.producer = .gone ∨
      outcome ≠ .ok .stopped ∧ log.wrote = texts)
  shown : log.shown.map .ok <+: log.heard

theorem fragments_of_returned {written : List Fragment} {rest : List (Except Error StepInput)}
    (returned : log.returned = written.map (fun fragment => .ok (.fragment fragment)) ++ rest) :
    log.fragments = written ++ rest.filterMap fragmentOf := by
  have kept : fragmentOf ∘ (fun fragment => Except.ok (StepInput.fragment fragment)) = some := by
    funext fragment
    rfl
  rw [Log.fragments, returned, List.filterMap_append, List.filterMap_map, kept,
    List.filterMap_some]

theorem shown_prefix_of_hears (hears : Hears log run) :
    log.shown.map .ok <+: log.heard := by
  have heard := hears.heard []
  rw [List.append_nil] at heard
  rw [Log.heard, heard]
  exact List.prefix_append _ _

theorem shown_of_drained (hears : Hears log run) (waiting : run.main ≠ .showing) :
    log.shown.map .ok = log.heard := by
  have nothing : run.session.assembly.ahead [] = [] := by
    rw [Response.Assembly.ahead, hears.drained waiting]
    rfl
  have heard := hears.heard []
  rw [nothing, List.append_nil, List.append_nil] at heard
  exact heard.symm

theorem over_of_fail (forwards : Forwards predicate log run) (hears : Hears log run)
    {outcome : Except Error End} (abrupt : IsAbrupt outcome) (ended : next.main = .ended outcome) :
    Over predicate log next outcome := by
  obtain ⟨written, underway, wrote, sending, returned⟩ := forwards.pipeline
  have kept := fragments_of_returned returned
  refine ⟨ended, abrupt.2, ⟨log.wrote, written, wrote, ?_, .inr ⟨abrupt.1, rfl⟩⟩,
    shown_prefix_of_hears hears⟩
  rw [kept]
  exact List.prefix_append _ _

theorem over_of_close (forwards : Forwards predicate log run) (hears : Hears log run)
    {text : Text} {ending : End} (sending : run.main = .sending text (some ending))
    (ended : next.main = .ended (.ok ending)) (stays : next.producer = run.producer) :
    Over predicate { log with wrote := log.wrote ++ [text] } next (.ok ending) := by
  obtain ⟨written, underway, wrote, sends, returned⟩ := forwards.pipeline
  obtain ⟨free, gone⟩ := forwards.stopping text ending sending
  have kept := fragments_of_returned returned
  have shown := shown_prefix_of_hears hears
  rw [sending] at sends
  rw [free, gone] at returned
  cases sends
  refine ⟨ended, nofun, ⟨log.wrote, written, wrote, ?_, .inl ⟨rfl, rfl, returned, ?_⟩⟩,
    shown⟩
  · change written <+: log.fragments
    rw [kept]
    exact List.prefix_append _ _
  · rw [stays, gone]

theorem over_step {outcome : Except Error End} (finished : Over predicate log run outcome)
    (moved : Transition run events next) : Over predicate (log.recordAll events) next outcome := by
  obtain ⟨here, session, producer, more, rfl, recorded⟩ :=
    transition_after_end finished.ended moved
  rw [recorded]
  obtain ⟨texts, written, renders, begins, ⟨-, -, -, gone⟩ | unstopped⟩ := finished.forwarded
  · exact absurd gone here
  · refine ⟨finished.ended, finished.possible, ⟨texts, written, renders, ?_, .inr unstopped⟩,
      finished.shown⟩
    rw [Log.fragments, List.filterMap_append]
    exact begins.trans (List.prefix_append _ _)

inductive Position (predicate : Option Text) (log : Log) (run : AsyncRun) : Prop
  | running (goes_on : run.isEnded = false) (forwards : Forwards predicate log run)
      (hears : Hears log run)
  | finished (outcome : Except Error End) (finished : Over predicate log run outcome)

theorem position_step (position : Position predicate log run)
    (moved : Transition run events next) : Position predicate (log.recordAll events) next := by
  cases position with
  | finished outcome finished => exact .finished outcome (over_step finished moved)
  | running goes_on forwards hears =>
      cases active : next.isEnded with
      | false =>
          exact .running active (forwards_step forwards moved active)
            (hears_step hears moved active)
      | true =>
          rcases transition_to_end goes_on moved active with
            ⟨text, ending, sending, rfl, ended, stays⟩ | ⟨outcome, abrupt, rfl, ended⟩
          · exact .finished _ (over_of_close forwards hears sending ended stays)
          · exact .finished _ (over_of_fail forwards hears abrupt ended)

theorem position_start {config : Config} {format : OutputFormat} {session : Session}
    (fresh : session.Fresh config format) (isPaced : Bool) :
    Position config.carryOver .empty (start session isPaced) := by
  refine .running rfl ?_ ?_
  · refine ⟨?_, fresh.remembers, ⟨[], [], .nil, .forwarding, rfl⟩, nofun, nofun, nofun⟩
    change session.status.exit = false
    rw [fresh.nothing_told]
    rfl
  · have queue : session.assembly = .empty := fresh.nothing_queued
    refine ⟨fun later => ?_, fun _ => ?_⟩
    · change _ = session.assembly.ahead later
      rw [queue]
      rfl
    · change session.assembly.queue = []
      rw [queue]
      rfl

theorem position_of_run {moves : List Move} {final : AsyncRun}
    (position : Position predicate .empty run) (runs : run.runMoves moves = some final) :
    Position predicate (Log.empty.recordAll (run.trace moves)) final := by
  have preserved (seen : List Event) (run : AsyncRun) (events : List Event) (next : AsyncRun)
      (before : Position predicate (Log.empty.recordAll seen) run)
      (moved : Transition run events next) :
      Position predicate (Log.empty.recordAll (seen ++ events)) next := by
    rw [Log.record_all_append]
    exact position_step before moved
  have begins : Position predicate (Log.empty.recordAll []) run := position
  exact invariant_of_run preserved begins runs

theorem stop_not_rendered {shown : List StepResult} {texts : List Text} {written : List Fragment}
    (renders : List.Forall₂ (Renders predicate shown) texts written) :
    Fragment.stop ∉ texts := by
  induction renders with
  | nil => exact List.not_mem_nil
  | cons first _ induction =>
      obtain ⟨earlier, -, same⟩ := first
      rw [List.mem_cons, not_or]
      refine ⟨fun stop => ?_, induction⟩
      rw [same] at stop
      exact Fragment.render_ne_stop _ _ stop.symm

/-- In every state that a run of a fresh session reaches, the fragments on the wire are the
first ones that the source has returned, and the results that have been shown are the first
ones in the messages that have been polled. A stop is sent after all fragments and is the
last text. Nobody is ever found to have left the slot empty for good. The transcript holds the
results that have been shown, each once and in order, and besides them at most the echoes of
texts; the counters of the session are those of the same results. -/
theorem asynchronous_run_forwards {config : Config} {format : OutputFormat}
    {created session : Session} (creates : Session.create config format = .ok created)
    (connects : created.connect .accepted = (.ok (), session)) (isPaced : Bool)
    {moves : List Move} {final : AsyncRun}
    (runs : (start session isPaced).runMoves moves = some final) :
    let events := (start session isPaced).trace moves
    let log := Log.empty.recordAll events
    (∃ texts written, List.Forall₂ (Renders config.carryOver log.shown) texts written ∧
        written <+: log.fragments ∧ Fragment.stop ∉ texts ∧
        (final.main = .ended (.ok .stopped) ∧ log.wrote = texts ++ [Fragment.stop] ∧
            log.returned = written.map (fun fragment => .ok (.fragment fragment)) ++ [.ok .stop] ∨
          final.main ≠ .ended (.ok .stopped) ∧ log.wrote = texts)) ∧
      log.shown.map .ok <+: log.heard ∧
      (final.main = .polling → log.shown.map .ok = log.heard) ∧
      final.main ≠ .ended (.ok .inputExhausted) ∧
      (∃ unsent, Unsent config final.main unsent ∧
        final.session.transcript = events.flatMap (Event.printed config format) ++ unsent) ∧
      final.session.steps = log.shown.length ∧
      final.session.answerSets = (log.shown.flatMap StepResult.answerSets).length := by
  intro events log
  have fresh := Session.fresh_of_create creates connects
  have displayed := displayed_of_run creates connects isPaced runs
  have position := position_of_run (position_start fresh isPaced) runs
  cases position with
  | running goes_on forwards hears =>
      have open_ended (outcome : Except Error End) : final.main ≠ .ended outcome := by
        intro ended
        rw [isEnded, ended] at goes_on
        cases goes_on
      obtain ⟨written, underway, wrote, sending, returned⟩ := forwards.pipeline
      have kept := fragments_of_returned returned
      have begins : written <+: log.fragments := by
        rw [kept]
        exact List.prefix_append _ _
      refine ⟨⟨log.wrote, written, wrote, begins, stop_not_rendered wrote,
        .inr ⟨open_ended _, rfl⟩⟩, shown_prefix_of_hears hears, fun polling => ?_, open_ended _,
        displayed⟩
      exact shown_of_drained hears (by simp [polling])
  | finished outcome finished =>
      have ended := finished.ended
      have elsewhere : final.main ≠ .polling := by simp [ended]
      have unexhausted : final.main ≠ .ended (.ok .inputExhausted) := by
        simp [ended, finished.possible]
      obtain ⟨texts, written, renders, begins, stopped⟩ := finished.forwarded
      refine ⟨⟨texts, written, renders, begins, stop_not_rendered renders, ?_⟩, finished.shown,
        fun polling => absurd polling elsewhere, unexhausted, displayed⟩
      rcases stopped with ⟨rfl, wrote, returned, -⟩ | ⟨unstopped, wrote⟩
      · exact .inl ⟨ended, wrote, returned⟩
      · exact .inr ⟨by simp [ended, unstopped], wrote⟩

/-- A fragment is sent and answered, and the source stops. -/
def answeredFragment : List Move :=
  [.begin, .supplied ⟨.ok (.fragment ⟨["a.\n".toList]⟩), 0, []⟩, .cleared, .handed, .forward,
    .begin, .sent .delivered, .supplied ⟨.ok .stop, 0, []⟩, .forward,
    .read (.received (Message.encode "a\nEnd of Step.\n".toList)) false, .work, .work, .work,
    .released, .handed, .forward, .sent .delivered]

theorem answered_fragment_forwarded :
    ∃ created session final, Session.create .standard .text = .ok created ∧
      created.connect .accepted = (.ok (), session) ∧
      (start session false).runMoves answeredFragment = some final ∧
      final.main = .ended (.ok .stopped) ∧
      let log := Log.empty.recordAll ((start session false).trace answeredFragment)
      log.wrote = ["a.\n#endstep.\n".toList, "#stop.\n".toList] ∧ log.shown.length = 1 ∧
        log.shown.map .ok <+: log.heard ∧
        final.session.transcript = "Answer: 1\n  B. a \n".toList ∧
        final.session.steps = log.shown.length ∧ final.session.answerSets = 1 := by
  have creates : Session.create .standard .text = .ok _ := rfl
  refine ⟨_, _, _, creates, rfl, rfl, rfl, rfl, rfl, ?_⟩
  have forwards := @asynchronous_run_forwards _ _ _ _ creates rfl false answeredFragment _ rfl
  refine ⟨forwards.2.1, ?_, forwards.2.2.2.2.2.1, forwards.2.2.2.2.2.2⟩
  decide +kernel

end StepStream.AsyncRun
