import StepStream.Proofs.Session
import StepStream.Session.Sync

/-!
The reference loop of synchronous runs. It takes the results that the whole stream of the
server yields, one after the other, and answers each with one input of the source. It knows
nothing of reads, portions and queues.
-/

namespace StepStream

set_option autoImplicit false

open Text (Bytes)
open Response (StepResult)

namespace SyncRun

inductive Event where
  | shown (result : StepResult)
  | prompted (text : Text)
  | wrote (text : Text)

def Event.printed (format : OutputFormat) : Event → Text
  | .shown result => Transcript.ofStepResult format result
  | .prompted text => text
  | .wrote _ => []

def Event.result? : Event → Option StepResult
  | .shown result => some result
  | _ => none

/-- The world around a run: the reads up to the orderly end of the stream, and the answers of
the source. -/
structure World where
  reads : List ReadOutcome
  inputs : Nat → Supplied
  goes_on : ∀ outcome ∈ reads, outcome.goesOn = true

namespace World

def stream (world : World) : Bytes := world.reads.flatMap ReadOutcome.bytes

def unread (world : World) : Nat := world.reads.length + 6 * world.stream.length

theorem stream_cons {world later : World} {outcome : ReadOutcome}
    (reads : world.reads = outcome :: later.reads) :
    world.stream = outcome.bytes ++ later.stream := by
  rw [stream, reads, List.flatMap_cons, stream]

theorem unread_cons {world later : World} {outcome : ReadOutcome}
    (reads : world.reads = outcome :: later.reads) :
    world.unread = 1 + 6 * outcome.bytes.length + later.unread := by
  rw [unread, unread, stream_cons reads, reads, List.length_append, List.length_cons]
  omega

def asked (world : World) : World :=
  { world with inputs := fun count => world.inputs (count + 1) }

/-- Whether a move is what this world answers, and the world after it. All sends succeed. -/
inductive Admits : World → Move → World → Prop
  | work (world : World) : Admits world .work world
  | read (outcome : ReadOutcome) (reads : List ReadOutcome) (inputs : Nat → Supplied)
      (goes_on : ∀ other ∈ outcome :: reads, other.goesOn = true) :
      Admits ⟨outcome :: reads, inputs, goes_on⟩ (.read outcome)
        ⟨reads, inputs, fun other member => goes_on other (List.mem_cons_of_mem outcome member)⟩
  | close (inputs : Nat → Supplied)
      (goes_on : ∀ other ∈ ([] : List ReadOutcome), other.goesOn = true) :
      Admits ⟨[], inputs, goes_on⟩ (.read (.received [])) ⟨[], inputs, goes_on⟩
  | supplied (world : World) : Admits world (.supplied (world.inputs 0)) world.asked
  | sent (world : World) : Admits world (.sent .delivered) world

inductive AdmitsAll : World → List Move → Prop
  | nil (world : World) : AdmitsAll world []
  | cons {world later : World} {move : Move} {moves : List Move}
      (first : Admits world move later) (others : AdmitsAll later moves) :
      AdmitsAll world (move :: moves)

end World

/-- The results that a stream yields, with the faults other than warnings. -/
def resultsOf (stream : Bytes) : List (Except Error StepResult) :=
  Response.Assembly.empty.ahead (streamLines stream)

/-- One round of the reference loop after a result has been shown: the source is asked, and
its input is sent with these constraints. -/
def reply (constraints : List Text) (answer : Supplied)
    (rest : List Event × Except Error End) : List Event × Except Error End :=
  match answer.input with
  | .error fault => ([.prompted answer.prompt], .error fault)
  | .ok .stop => ([.prompted answer.prompt, .wrote Fragment.stop], .ok .stopped)
  | .ok (.fragment fragment) =>
      (.prompted answer.prompt :: .wrote (fragment.render constraints) :: rest.1, rest.2)

/-- The reference loop, after some results, over the results and faults that follow. -/
def loop (predicate : Option Text) (inputs : Nat → Supplied) (shown : List StepResult) :
    List (Except Error StepResult) → List Event × Except Error End
  | [] => ([], .ok .peerClosed)
  | .error fault :: _ => ([], .error fault)
  | .ok result :: rest =>
      let shown := shown ++ [result]
      let round := reply (carriedConstraints predicate shown) (inputs 0)
        (loop predicate (fun count => inputs (count + 1)) shown rest)
      (.shown result :: round.1, round.2)

def emits (run : SyncRun) (move : Move) : List Event :=
  match run.phase, move with
  | .receiving, .work =>
      match run.session.nextResult with
      | (some (.ok result), _) => [.shown result]
      | _ => []
  | .asking, .supplied answer => [.prompted answer.prompt]
  | .sending text _, .sent .delivered => [.wrote text]
  | _, _ => []

def trace (run : SyncRun) : List Move → List Event
  | [] => []
  | move :: moves =>
      run.emits move ++
        match run.step move with
        | some next => next.trace moves
        | none => []

def results (events : List Event) : List StepResult := events.filterMap Event.result?

structure Concludes (inputs : Nat → Supplied) (found : List (Except Error StepResult))
    (events : List Event) (outcome : Except Error End) : Prop where
  expected : outcome ≠ .ok .connectionLost ∧ outcome ≠ .ok .inputExhausted
  stopped : outcome = .ok .stopped ↔ events.getLast? = some (.wrote Fragment.stop)
  /-- The results are used up, and the last of them has been answered with a fragment. -/
  closed : outcome = .ok .peerClosed ↔
    (results events).map .ok = found ∧
      ∀ last ∈ events.getLast?, ∃ fragment constraints,
        last = .wrote (Fragment.render constraints fragment)
  /-- The stream has a fault behind the results that have been shown, or the source has
  failed when it was asked after the last of them. -/
  failed : ∀ fault, outcome = .error fault →
    (results events).map .ok ++ [.error fault] <+: found ∨
      ∃ count, (results events).length = count + 1 ∧ (inputs count).input = .error fault

theorem round_concludes {inputs : Nat → Supplied} {found : List (Except Error StepResult)}
    {events : List Event} {outcome : Except Error End}
    (rest : Concludes (fun count => inputs (count + 1)) found events outcome)
    (result : StepResult) (prompt : Text) (constraints : List Text) (fragment : Fragment) :
    Concludes inputs (.ok result :: found)
      (.shown result :: .prompted prompt :: .wrote (fragment.render constraints) :: events)
      outcome := by
  have shows : results (.shown result :: .prompted prompt ::
      .wrote (fragment.render constraints) :: events) = result :: results events := rfl
  have ends : (Event.shown result :: .prompted prompt ::
      .wrote (fragment.render constraints) :: events).getLast? =
      some ((events.getLast?).getD (.wrote (fragment.render constraints))) := by
    rw [List.getLast?_cons_cons, List.getLast?_cons_cons, List.getLast?_cons]
  refine ⟨rest.expected, ?_, ?_, ?_⟩
  · rw [rest.stopped, ends]
    cases last : events.getLast? with
    | none =>
        refine ⟨nofun, fun same => ?_⟩
        have text := Event.wrote.inj (Option.some.inj same)
        exact absurd text (Fragment.render_ne_stop constraints fragment)
    | some event => rfl
  · rw [rest.closed, shows, ends, List.map_cons, List.cons.injEq]
    cases last : events.getLast? with
    | none =>
        refine ⟨fun both => ⟨⟨rfl, both.1⟩, ?_⟩, fun both => ⟨both.1.2, nofun⟩⟩
        intro event same
        cases same
        exact ⟨fragment, constraints, rfl⟩
    | some event =>
        exact ⟨fun both => ⟨⟨rfl, both.1⟩, both.2⟩, fun both => ⟨both.1.2, both.2⟩⟩
  · intro fault failed
    rw [shows, List.map_cons, List.cons_append]
    rcases rest.failed fault failed with front | ⟨count, shown, asked⟩
    · exact .inl (List.cons_prefix_cons.2 ⟨rfl, front⟩)
    · exact .inr ⟨count + 1, congrArg (· + 1) shown, asked⟩

theorem loop_concludes (predicate : Option Text) (inputs : Nat → Supplied)
    (shown : List StepResult) (found : List (Except Error StepResult)) :
    Concludes inputs found (loop predicate inputs shown found).1
      (loop predicate inputs shown found).2 := by
  induction found generalizing inputs shown with
  | nil =>
      refine ⟨⟨nofun, nofun⟩, ⟨nofun, nofun⟩, ⟨fun _ => ⟨rfl, nofun⟩, fun _ => rfl⟩, nofun⟩
  | cons outcome rest induction =>
      cases outcome with
      | error fault =>
          refine ⟨⟨nofun, nofun⟩, ⟨nofun, nofun⟩, ⟨nofun, nofun⟩, ?_⟩
          intro fault same
          cases same
          exact .inl (List.prefix_append _ _)
      | ok result =>
          rw [loop, reply]
          cases asked : (inputs 0).input with
          | error fault =>
              refine ⟨⟨nofun, nofun⟩, ⟨nofun, nofun⟩, ⟨nofun, ?_⟩, ?_⟩
              · intro both
                obtain ⟨_, _, same⟩ := both.2 _ rfl
                cases same
              · intro other same
                cases same
                exact .inr ⟨0, rfl, asked⟩
          | ok input =>
              cases input with
              | stop =>
                  refine ⟨⟨nofun, nofun⟩, ⟨fun _ => rfl, fun _ => rfl⟩, ⟨nofun, ?_⟩, nofun⟩
                  intro both
                  obtain ⟨fragment, constraints, same⟩ := both.2 _ rfl
                  have text := (Event.wrote.inj same).symm
                  exact absurd text (Fragment.render_ne_stop constraints fragment)
              | fragment fragment =>
                  exact round_concludes (induction _ _) result _ _ fragment

end SyncRun

end StepStream
