import StepStream.Proofs.Calls

/-!
What sources answer after a stop. A buffer that has stopped is empty. A reader that has met
`#stop.` with nothing gathered has lines behind it, and goes on with them when it is asked again.
-/

namespace StepStream

set_option autoImplicit false

open Text (Bytes)

/-- What a line that is typed in leads to when nothing has been gathered before it. -/
inductive Meaning where
  | passed
  | stops
  | tells
  deriving DecidableEq

/-- The lines behind the one that a reader stops at, if it stops. At the end it always does. -/
def behindStop (meaning : Bytes → Meaning) : List Bytes → Option (List Bytes)
  | [] => some []
  | line :: rest =>
      match meaning line with
      | .passed => behindStop meaning rest
      | .stops => some rest
      | .tells => none

section Readers

variable {meaning : Bytes → Meaning}

theorem behind_stop_shorter {lines rest : List Bytes}
    (stops : behindStop meaning lines = some rest) : rest = [] ∨ rest.length < lines.length := by
  induction lines with
  | nil =>
      cases stops
      exact .inl rfl
  | cons line lines induction =>
      rw [behindStop] at stops
      rw [List.length_cons]
      split at stops
      · rcases induction stops with drained | shorter
        · exact .inl drained
        · exact .inr (by omega)
      · cases stops
        exact .inr (by omega)
      · cases stops

theorem behind_stop_tells {lines rest : List Bytes} (stops : behindStop meaning lines = some rest) :
    (∀ line ∈ lines, meaning line ≠ .tells) ↔ ∀ line ∈ rest, meaning line ≠ .tells := by
  induction lines with
  | nil =>
      cases stops
      exact Iff.rfl
  | cons line lines induction =>
      rw [behindStop] at stops
      rw [List.forall_mem_cons]
      split at stops
      · next passed =>
          rw [induction stops]
          exact ⟨And.right, fun others => ⟨by simp [passed], others⟩⟩
      · next stopped =>
          cases stops
          exact ⟨And.right, fun others => ⟨by simp [stopped], others⟩⟩
      · cases stops

theorem tells_of_behind_stop {lines : List Bytes} (goes_on : behindStop meaning lines = none) :
    ∃ line ∈ lines, meaning line = .tells := by
  induction lines with
  | nil => cases goes_on
  | cons line lines induction =>
      rw [behindStop] at goes_on
      split at goes_on
      · obtain ⟨found, member, tells⟩ := induction goes_on
        exact ⟨found, List.mem_cons_of_mem _ member, tells⟩
      · cases goes_on
      · next tells => exact ⟨line, List.mem_cons_self, tells⟩

end Readers

namespace Source

def OnlyStops (source : Source) : Prop :=
  ∀ steps, ∀ answer ∈ source.answers steps, answer = .ok .stop

theorem only_stops_next (source : Source) :
    source.OnlyStops ↔
      ∀ step, (source.next step).1.input = .ok .stop ∧ (source.next step).2.OnlyStops := by
  constructor
  · intro stops step
    refine ⟨stops [step] _ List.mem_cons_self, fun steps answer member => ?_⟩
    exact stops (step :: steps) answer (List.mem_cons_of_mem _ member)
  · intro stops steps
    cases steps with
    | nil => nofun
    | cons step steps =>
        rw [answers, List.forall_mem_cons]
        exact ⟨(stops step).1, (stops step).2 steps⟩

theorem only_stops_of_fixed {source : Source}
    (stops : ∀ step, (source.next step).1.input = .ok .stop ∧ (source.next step).2 = source) :
    source.OnlyStops := by
  intro steps
  induction steps with
  | nil => nofun
  | cons step steps induction =>
      rw [answers, List.forall_mem_cons, (stops step).2]
      exact ⟨(stops step).1, induction⟩

/-- Whether a source that reads lines stops where their meaning says so, and with which lines
left. -/
def StopsAt (meaning : Bytes → Meaning) (reading : List Bytes → Source) : Prop :=
  ∀ lines step, match behindStop meaning lines with
    | some rest => ((reading lines).next step).1.input = .ok .stop ∧
        ((reading lines).next step).2 = reading rest
    | none => ((reading lines).next step).1.input ≠ .ok .stop

/-- Such a source stops for ever if and only if no line calls for anything else. -/
theorem only_stops_reading {meaning : Bytes → Meaning} {reading : List Bytes → Source}
    (stops_at : StopsAt meaning reading) (lines : List Bytes) :
    (reading lines).OnlyStops ↔ ∀ line ∈ lines, meaning line ≠ .tells := by
  generalize size : lines.length = length
  induction length using Nat.strongRecOn generalizing lines with
  | ind length induction =>
      have next := stops_at lines
      rw [only_stops_next]
      cases found : behindStop meaning lines with
      | none =>
          obtain ⟨line, member, tells⟩ := tells_of_behind_stop found
          simp only [found] at next
          constructor
          · intro stops
            exact absurd (stops 0).1 (next 0)
          · intro others
            exact absurd tells (others line member)
      | some rest =>
          simp only [found] at next
          -- At the end of the lines it stays as it is, and before the end fewer lines are left.
          have later : (reading rest).OnlyStops ↔ ∀ line ∈ rest, meaning line ≠ .tells := by
            rcases behind_stop_shorter found with rfl | shorter
            · exact ⟨fun _ => nofun, fun _ => only_stops_of_fixed (stops_at [])⟩
            · exact induction rest.length (by omega) rest rfl
          rw [behind_stop_tells found, ← later]
          constructor
          · intro stops
            rw [← (next 0).2]
            exact (stops 0).2
          · intro stops step
            rw [(next step).2]
            exact ⟨(next step).1, stops⟩

end Source

namespace Interactive

def meaning (bytes : Bytes) : Meaning :=
  match Terminal.decodeLine bytes with
  | .error _ => .tells
  | .ok line =>
      match Line.classify line with
      | .commentOrBlank | .incrementStep _ | .unrecognized => .passed
      | .stop => .stops
      | _ => .tells

theorem at_stop_goes_on {current : List Text} (gathered : current ≠ []) :
    (atStop current).1 ≠ .stop := by
  rw [atStop, if_neg (by simpa using gathered)]
  nofun

theorem gathered_goes_on {current : List Text} (gathered : current ≠ []) (prompts : Text)
    (lines : List Bytes) : (gatherFrom current prompts lines).1.1 ≠ .ok .stop := by
  induction lines generalizing current prompts with
  | nil =>
      intro stops
      exact at_stop_goes_on gathered (Except.ok.inj stops)
  | cons bytes lines induction =>
      rw [gatherFrom]
      cases Terminal.decodeLine bytes with
      | error fault => nofun
      | ok line =>
          have effect := absorb_cases current line
          revert effect
          dsimp only
          cases absorb current line with
          | gather more =>
              rintro (rfl | rfl)
              · exact induction gathered prompts
              · exact induction (by simp) prompts
          | askAgain =>
              intro _
              exact induction gathered _
          | finish input pendingStop =>
              rintro (rfl | rfl) stops
              · cases stops
              · exact at_stop_goes_on gathered (Except.ok.inj stops)

theorem gather_from_nothing (lines : List Bytes) (prompts : Text) :
    match behindStop meaning lines with
    | some rest => (gatherFrom [] prompts lines).1.1 = .ok .stop ∧
        (gatherFrom [] prompts lines).2 = ⟨⟨rest⟩, false⟩
    | none => (gatherFrom [] prompts lines).1.1 ≠ .ok .stop := by
  induction lines generalizing prompts with
  | nil => exact ⟨rfl, rfl⟩
  | cons bytes lines induction =>
      rw [behindStop, meaning, gatherFrom]
      cases Terminal.decodeLine bytes with
      | error fault =>
          intro stops
          cases stops
      | ok line =>
          dsimp only
          rw [absorb]
          cases Line.classify line with
          | step | cumulative | volatile | forget | assert | retract | fact | integrity | rule =>
              exact gathered_goes_on (List.cons_ne_nil line []) prompts lines
          | commentOrBlank => exact induction prompts
          | incrementStep | unrecognized => exact induction _
          | endStep =>
              intro stops
              cases stops
          | stop => exact ⟨rfl, rfl⟩

theorem stops_at_meaning : Source.StopsAt meaning Source.typed := by
  intro lines step
  have gathers := gather_from_nothing lines prompt
  split at gathers
  · exact ⟨gathers.1, congrArg Source.interactive gathers.2⟩
  · exact gathers

end Interactive

namespace Query

def meaning (bytes : Bytes) : Meaning :=
  match Terminal.decodeLine bytes with
  | .error _ => .tells
  | .ok line =>
      match Line.classify line with
      | .fact | .integrity | .rule | .incrementStep _ | .retract | .endStep => .tells
      | .stop => .stops
      | _ => .passed

theorem read_from (options : QueryOptions) (step : Nat) (lines : List Bytes)
    (held : Option Text) :
    match behindStop meaning lines with
    | some rest => readFrom options step held lines = ((.ok .stop, step), rest)
    | none => (readFrom options step held lines).1.1 ≠ .ok .stop := by
  induction lines generalizing held with
  | nil => rfl
  | cons bytes lines induction =>
      rw [behindStop, meaning, readFrom]
      cases Terminal.decodeLine bytes with
      | error fault => nofun
      | ok line =>
          dsimp only
          rw [absorb]
          cases Line.classify line with
          | fact | integrity | rule | incrementStep | retract | endStep => nofun
          | assert => exact induction (some line)
          | step | cumulative | volatile | forget | commentOrBlank | unrecognized =>
              exact induction held
          | stop => rfl

theorem stops_at_meaning (options : QueryOptions) :
    Source.StopsAt meaning (Source.asked options) := by
  intro lines step
  have reads := read_from options step lines none
  split at reads
  · rw [Source.asked, Source.next, next, reads]
    exact ⟨rfl, rfl⟩
  · exact reads

end Query

namespace Source

def IsSpent : Source → Prop
  | buffer left => left.fragments = []
  | interactive reader => reader.pendingStop = true ∨
      ∀ line ∈ reader.terminal.lines, Interactive.meaning line ≠ .tells
  | query reader => ∀ line ∈ reader.terminal.lines, Query.meaning line ≠ .tells

theorem only_stops_iff_spent (source : Source) : source.OnlyStops ↔ source.IsSpent := by
  cases source with
  | buffer left =>
      obtain ⟨fragments⟩ := left
      cases fragments with
      | nil => exact ⟨fun _ => rfl, fun _ => only_stops_of_fixed fun _ => ⟨rfl, rfl⟩⟩
      | cons fragment fragments =>
          refine ⟨fun stops => ?_, nofun⟩
          cases stops [0] _ List.mem_cons_self
  | interactive reader =>
      obtain ⟨⟨lines⟩, pendingStop⟩ := reader
      cases pendingStop with
      | true => exact ⟨fun _ => .inl rfl, fun _ => only_stops_of_fixed fun _ => ⟨rfl, rfl⟩⟩
      | false =>
          have stops := only_stops_reading Interactive.stops_at_meaning lines
          exact stops.trans ⟨.inr, fun spent => spent.resolve_left Bool.false_ne_true⟩
  | query reader =>
      obtain ⟨⟨lines⟩, options⟩ := reader
      exact only_stops_reading (Query.stops_at_meaning options) lines

/-- A stop is the last answer of a source if and only if nothing else is left, as it is for every
buffer. A reader that has met `#stop.` with nothing gathered reads on behind it. -/
theorem stop_is_final_iff (source : Source) (step : Nat)
    (stopped : (source.next step).1.input = .ok .stop) :
    let rest := (source.next step).2
    (rest.OnlyStops ↔ rest.IsSpent) ∧ ∀ left, source = .buffer left → rest.IsSpent := by
  intro rest
  refine ⟨only_stops_iff_spent rest, ?_⟩
  rintro ⟨fragments⟩ rfl
  cases fragments with
  | nil => rfl
  | cons fragment fragments => cases stopped

theorem lines_behind_stop_passed :
    let text := "% one\n#stop.\n% two\n".toList
    let source := Source.interactive ⟨.ofBytes (Text.utf8 text), false⟩
    (source.next 0).1.input = .ok .stop ∧ (source.next 0).2.OnlyStops := by
  intro text source
  have stopped : (source.next 0).1.input = .ok .stop := by decide
  have passed : ∀ line ∈ [Text.utf8 "% two\n".toList], Interactive.meaning line ≠ .tells := by
    decide
  exact ⟨stopped, (stop_is_final_iff source 0 stopped).1.2 (.inr passed)⟩

/-- A fragment and a query that are typed in behind a stop are handed out. -/
theorem typed_behind_stop_read :
    (Source.interactive
        ⟨.ofBytes (Text.utf8 "#stop.\na.\n#endstep.\n".toList), false⟩).answers [0, 0] =
      [.ok .stop, .ok (.fragment ⟨["a.\n".toList]⟩)] ∧
    (Source.query ⟨.ofBytes (Text.utf8 "#stop.\na.\n".toList),
        ⟨.input, false, false⟩⟩).answers [0, 0] =
      [.ok .stop,
        .ok (.fragment ⟨["#step 0.\n".toList, "#volatile.\n".toList, "a.\n".toList]⟩)] := by
  decide

end Source

end StepStream
