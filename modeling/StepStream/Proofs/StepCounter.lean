import StepStream.Proofs.HeldAssertion

/-!
The step counter of a reader of queries. Only clauses move it, never back and never beyond the
greatest step, and the fragment of a clause begins with the directive of the counter that the
clause has moved on to. What the reader writes itself is read back by the classifier as the
directive with the same numbers.
-/

namespace StepStream

set_option autoImplicit false

open Text (greatestStep nextStep)

namespace Line

theorem classify_command {kind : LineKind} {command : Text} (derived : Command kind command) :
    classify (command ++ ".\n".toList) = kind := by
  have directive : IsDirective kind (command ++ ['.']) :=
    ⟨command, [], derived, ⟨[], [], rfl, nofun, .inl rfl⟩, rfl⟩
  have stripped : Text.stripLineEnd (command ++ ".\n".toList) = command ++ ['.'] := by
    have ended : command ++ ".\n".toList = (command ++ ['.']) ++ ['\n'] := by simp
    rw [ended, Text.strip_line_end_newline, Text.strip_line_end_of_last (by decide) (by decide)]
  rw [classify_iff_read (directive_kind directive), stripped]
  exact read_directive_iff.2 directive

theorem is_numeral_show {number : Nat} (small : number ≤ greatestStep) :
    IsNumeral number (Text.showNumeral number) :=
  read_numeral_iff.1 (Text.read_show_numeral small)

theorem classify_step_line {step : Nat} (small : step ≤ greatestStep) :
    classify (Query.stepLine step) = .step step none :=
  classify_command (.step (is_numeral_show small))

end Line

namespace Query

open Line

def lapseKind : Volatility → Option LineKind
  | .input => some (.volatile none)
  | .window size => some (.volatile (some size))
  | .none => none

def IsSized (volatility : Volatility) : Prop :=
  ∀ size, volatility = .window size → size ≤ greatestStep

theorem classify_volatile_line {volatility : Volatility} (sized : IsSized volatility) :
    (volatileLine volatility).map classify = lapseKind volatility := by
  cases volatility with
  | input => exact congrArg some (classify_command .volatile)
  | window size =>
      have space : IsSpaces [' '] := by simp [IsSpaces]
      have derived : Command (.volatile (some size))
          ("#volatile".toList ++ ([' '] ++ ':' :: ([' '] ++ Text.showNumeral size))) :=
        .volatileWindow space space (is_numeral_show (sized size rfl))
      have read := classify_command derived
      rw [volatileLine, Option.map_some, lapseKind, ← read]
      simp
  | none => rfl

/-! ## The counter of a clause -/

def incremented (options : QueryOptions) (kind : LineKind) (step : Nat) : Nat :=
  if options.implicitIncrement && (kind = .fact || kind = .integrity) then nextStep step else step

/-- The step that a clause as it is sent names at its end, if the options ask for it. -/
def namedStep (options : QueryOptions) (clause : Text) : Nat :=
  if options.autoIncrement then (QueryClause.lastStep clause).getD 0 else 0

theorem advance_counter (options : QueryOptions) (line : Text) (step : Nat) :
    (advance options (classify line) line step).2 =
      max (incremented options (classify line) step)
        (namedStep options (sentAs options step line)) := by
  unfold advance incremented namedStep sentAs
  cases options.implicitIncrement && (classify line = .fact || classify line = .integrity) with
  | false =>
      cases options.autoIncrement with
      | false => exact (Nat.max_zero _).symm
      | true => cases found : QueryClause.lastStep line <;> simp [found]
  | true =>
      cases options.autoIncrement with
      | false => exact (Nat.max_zero _).symm
      | true =>
          cases found : QueryClause.lastStep (QueryClause.appendStep line (nextStep step)) <;>
            simp [found]

theorem last_step_complete (line : Text) :
    QueryClause.lastStep (Text.completeLine line) = QueryClause.lastStep line := by
  have trimmed : Text.trimEnd (Text.completeLine line) = Text.trimEnd line := by
    rw [Text.completeLine]
    split
    · rfl
    · exact Text.drop_end_while_run line (List.forall_mem_singleton.2 (by decide))
  rw [QueryClause.lastStep, trimmed, QueryClause.lastStep]

theorem named_step_complete (options : QueryOptions) (line : Text) :
    namedStep options (Text.completeLine line) = namedStep options line := by
  rw [namedStep, last_step_complete, namedStep]

theorem small_of_last_step {line : Text} {step : Nat}
    (found : QueryClause.lastStep line = some step) : step ≤ greatestStep := by
  rw [QueryClause.lastStep, Option.bind_eq_bind, Option.bind_eq_some_iff] at found
  obtain ⟨arguments, -, found⟩ := found
  rw [Option.bind_eq_some_iff] at found
  obtain ⟨digits, -, read⟩ := found
  exact Text.small_of_read_numeral read

theorem small_of_named (options : QueryOptions) (clause : Text) :
    namedStep options clause ≤ greatestStep := by
  rw [namedStep]
  split
  · cases found : QueryClause.lastStep clause with
    | none => exact Nat.zero_le _
    | some step => exact small_of_last_step found
  · exact Nat.zero_le _

theorem incremented_between (options : QueryOptions) (kind : LineKind) {step : Nat}
    (small : step ≤ greatestStep) :
    step ≤ incremented options kind step ∧ incremented options kind step ≤ greatestStep := by
  rw [incremented, nextStep]
  split <;> omega

/-! ## What a call tells -/

/-- A call of a reader, and the step counter behind it. -/
structure Turn extends Call where
  later : Nat

/-- Whether the fragment of a turn announces this clause: it begins with the directive of the
counter behind the turn, goes on with an assertion that has been held back or else with the
directive that makes the clause lapse, and ends with the clause as it is sent. -/
def Turn.AnnouncesClause (options : QueryOptions) (turn : Turn) (clause : Text) : Prop :=
  ∃ opening between sent,
    turn.answer = .ok (.fragment ⟨opening :: (between ++ [sent])⟩) ∧
    classify opening = .step turn.later none ∧
    between.map classify =
      (if turn.read.any isAssertion then [.assert] else (lapseKind options.volatility).toList) ∧
    sent = Text.completeLine (sentAs options turn.step clause) ∧
    turn.later =
      max (incremented options (classify clause) turn.step) (namedStep options sent)

/-- Whether the fragment of a turn announces this retraction, which leaves the counter alone. -/
def Turn.AnnouncesRetraction (turn : Turn) (line : Text) : Prop :=
  turn.later = turn.step ∧
    ∃ opening, turn.answer = .ok (.fragment ⟨[opening, Text.completeLine line]⟩) ∧
      classify opening = .step turn.step none

/-- What a turn does to the step counter, and how it tells the server. -/
structure Turn.IsFaithful (options : QueryOptions) (turn : Turn) : Prop where
  grows : turn.step ≤ turn.later
  small : turn.later ≤ greatestStep
  moves : turn.later ≠ turn.step → turn.hasClause = true
  clause : turn.hasClause = true →
    ∃ clause ∈ turn.read, isClause clause = true ∧ turn.AnnouncesClause options clause
  retraction : ∀ line ∈ turn.read, classify line = .retract → turn.AnnouncesRetraction line

theorem held_after_some (held : Option Text) (passed : List Text) :
    (heldAfter held passed).isSome = (held.isSome || passed.any isAssertion) := by
  induction passed generalizing held with
  | nil => simp [heldAfter]
  | cons line passed induction =>
      rw [heldAfter, induction, List.any_cons, ← Bool.or_assoc]
      cases isAssertion line <;> simp

theorem complete_step_line (step : Nat) : Text.completeLine (stepLine step) = stepLine step := by
  have ended : (stepLine step).getLast? = some '\n' := by
    unfold stepLine
    rw [List.getLast?_append_of_ne_nil _ (by decide)]
    rfl
  exact if_pos ended

theorem classify_between {volatility : Volatility} (sized : IsSized volatility)
    (passed : List Text) :
    ((heldAfter none passed).or (volatileLine volatility)).toList.map
        (classify ∘ Text.completeLine) =
      if passed.any isAssertion then [.assert] else (lapseKind volatility).toList := by
  have completed : classify ∘ Text.completeLine = classify := funext classify_complete
  have held := held_after_some none passed
  rw [Option.isSome_none, Bool.false_or] at held
  rw [completed, ← held]
  cases found : heldAfter none passed with
  | none =>
      rw [Option.none_or, ← classify_volatile_line sized]
      cases volatileLine volatility <;> rfl
  | some assertion =>
      have asserts : isAssertion assertion = true :=
        held_is_assertion passed none nofun assertion found
      have kind : classify assertion = .assert := of_decide_eq_true asserts
      rw [Option.some_or, Option.toList_some, List.map_singleton, kind]
      rfl

section Faithful

variable {options : QueryOptions} {step later : Nat} {passed : List Text} {line : Text}
  {input : StepInput}

theorem faithful_of_unmoved {read : List Text} (small : step ≤ greatestStep)
    (noClause : read.any isClause = false)
    (retraction : ∀ line ∈ read, classify line = .retract →
      Turn.AnnouncesRetraction ⟨⟨step, read, .ok input⟩, step⟩ line) :
    Turn.IsFaithful options ⟨⟨step, read, .ok input⟩, step⟩ where
  grows := Nat.le_refl step
  small := small
  moves moved := absurd rfl moved
  clause spoken := by
    rw [Call.hasClause, noClause] at spoken
    cases spoken
  retraction := retraction

theorem no_retraction_passed (passes : ∀ line ∈ passed, endsCall line = false) :
    ∀ line ∈ passed, classify line ≠ .retract := by
  intro line member kind
  have ends := passes line member
  rw [endsCall, kind] at ends
  cases ends

theorem last_of_retraction {other : Text} (passes : ∀ line ∈ passed, endsCall line = false)
    (member : other ∈ passed ++ [line]) (retracts : classify other = .retract) : other = line := by
  cases List.mem_append.1 member with
  | inl earlier => exact absurd retracts (no_retraction_passed passes other earlier)
  | inr final => exact List.mem_singleton.1 final

theorem faithful_of_clause (sized : IsSized options.volatility) (small : step ≤ greatestStep)
    (passes : ∀ line ∈ passed, endsCall line = false) (clause : isClause line = true)
    (absorbed : absorb options step (heldAfter none passed) line = .finish input later) :
    Turn.IsFaithful options ⟨⟨step, passed ++ [line], .ok input⟩, later⟩ := by
  have noAssertion : isAssertion line = false := no_assertion_of_ends (ends_of_clause clause)
  have kind := clause
  rw [isClause] at kind
  rw [absorb] at absorbed
  dsimp only at absorbed
  rw [if_pos kind, advance_eq, advance_counter] at absorbed
  cases absorbed
  have within := incremented_between options (classify line) small
  have named := small_of_named options (sentAs options step line)
  have bounded : max (incremented options (classify line) step)
      (namedStep options (sentAs options step line)) ≤ greatestStep :=
    Nat.max_le.2 ⟨within.2, named⟩
  refine ⟨?grows, bounded, ?moves, ?clause, ?retraction⟩
  case grows => exact Nat.le_trans within.1 (Nat.le_max_left _ _)
  case moves =>
    intro _
    simp [Call.hasClause, clause]
  case clause =>
    intro _
    let between := ((heldAfter none passed).or (volatileLine options.volatility)).toList
    refine ⟨line, by simp, clause, _, between.map Text.completeLine, _, ?answer,
      classify_step_line bounded, ?between, rfl, ?later⟩
    case answer =>
      rw [Fragment.ofLines, clauseLines, List.map_append, List.map_append, List.map_singleton,
        List.map_singleton, complete_step_line]
      rfl
    case between =>
      rw [List.map_map, classify_between sized, List.any_append]
      simp [noAssertion]
    case later => rw [named_step_complete]
  case retraction =>
    intro other member retracts
    rw [isClause, ← last_of_retraction passes member retracts, retracts] at clause
    cases clause

theorem faithful_of_absorb (sized : IsSized options.volatility) (small : step ≤ greatestStep)
    (passes : ∀ line ∈ passed, endsCall line = false) (ends : endsCall line = true)
    (absorbed : absorb options step (heldAfter none passed) line = .finish input later) :
    Turn.IsFaithful options ⟨⟨step, passed ++ [line], .ok input⟩, later⟩ := by
  cases clause : isClause line with
  | true => exact faithful_of_clause sized small passes clause absorbed
  | false =>
      have noClause : (passed ++ [line]).any isClause = false := by
        rw [List.any_append, no_clause_passed passes]
        simp [clause]
      cases kind : classify line with
      | fact | integrity | rule =>
          rw [isClause, kind] at clause
          cases clause
      | retract =>
          rw [absorb, kind] at absorbed
          cases absorbed
          refine faithful_of_unmoved small noClause fun other member retracts => ?_
          refine ⟨rfl, stepLine step, ?_, classify_step_line small⟩
          rw [last_of_retraction passes member retracts, Fragment.ofLines, List.map_cons,
            List.map_singleton, complete_step_line]
      | incrementStep | endStep | stop =>
          rw [absorb, kind] at absorbed
          cases absorbed
          refine faithful_of_unmoved small noClause fun other member retracts => ?_
          rw [last_of_retraction passes member retracts, kind] at retracts
          cases retracts
      | step | cumulative | volatile | forget | assert | commentOrBlank | unrecognized =>
          rw [endsCall, kind] at ends
          cases ends

theorem next_faithful (sized : IsSized options.volatility) (small : step ≤ greatestStep)
    (lines : List Text) :
    ∃ read rest input later, lines = read ++ rest ∧
      next ⟨⟨lines.map Text.utf8⟩, options⟩ step =
        (⟨.ok input, later, prompt⟩, ⟨⟨rest.map Text.utf8⟩, options⟩) ∧
      Turn.IsFaithful options ⟨⟨step, read, .ok input⟩, later⟩ := by
  obtain ⟨passed, passes, reads⟩ := read_from_lines options step none lines
  rcases reads with ⟨rfl, reads⟩ | ⟨line, rest, input, later, rfl, ends, absorbed, reads⟩
  · refine ⟨lines, [], .stop, step, (List.append_nil lines).symm, ?_, ?_⟩
    · rw [next, reads]
      rfl
    · refine faithful_of_unmoved small (no_clause_passed passes) fun line member retracts => ?_
      exact absurd retracts (no_retraction_passed passes line member)
  · refine ⟨passed ++ [line], rest, input, later, by simp, ?_, ?_⟩
    · rw [next, reads]
    · exact faithful_of_absorb sized small passes ends absorbed

end Faithful

/-! ## All calls -/

/-- This many calls of a reader, each at the step counter that the one before it leaves. -/
def turns (reader : Query) (step : Nat) : Nat → List Turn
  | 0 => []
  | count + 1 =>
      let (supplied, rest) := reader.next step
      (reader.calls [step]).map (⟨·, supplied.step⟩) ++ rest.turns supplied.step count

theorem length_turns (reader : Query) (step count : Nat) :
    (reader.turns step count).length = count := by
  induction count generalizing reader step with
  | zero => rfl
  | succ count induction =>
      rw [turns, List.length_append, induction, List.length_map]
      exact Nat.add_comm 1 count

theorem steps_of_turns (reader : Query) (step count : Nat) :
    (reader.turns step count).map (·.step) =
      (step :: (reader.turns step count).map Turn.later).dropLast := by
  induction count generalizing reader step with
  | zero => rfl
  | succ count induction =>
      have behind := induction (reader.next step).2 (reader.next step).1.step
      exact congrArg (step :: ·) behind

theorem answers_of_turns (reader : Query) (step count : Nat) :
    (reader.turns step count).map (·.answer) =
      (Source.query reader).answers ((reader.turns step count).map (·.step)) := by
  induction count generalizing reader step with
  | zero => rfl
  | succ count induction =>
      have behind := induction (reader.next step).2 (reader.next step).1.step
      exact congrArg ((reader.next step).1.input :: ·) behind

theorem turns_faithful {options : QueryOptions} (sized : IsSized options.volatility)
    (lines : List Text) {step : Nat} (small : step ≤ greatestStep) (count : Nat) :
    let history := turns ⟨⟨lines.map Text.utf8⟩, options⟩ step count
    (step :: history.map Turn.later).Pairwise (· ≤ ·) ∧
      ∀ turn ∈ history, turn.IsFaithful options := by
  induction count generalizing lines step with
  | zero => exact ⟨List.pairwise_singleton _ _, nofun⟩
  | succ count induction =>
      obtain ⟨read, rest, input, later, rfl, moved, faithful⟩ := next_faithful sized small lines
      obtain ⟨ordered, others⟩ := induction rest faithful.small
      rw [turns, calls_cons moved, moved]
      dsimp only
      rw [calls, List.map_singleton, List.singleton_append, List.map_cons]
      refine ⟨List.pairwise_cons.2 ⟨fun counter member => ?_, ordered⟩,
        List.forall_mem_cons.2 ⟨faithful, others⟩⟩
      cases List.mem_cons.1 member with
      | inl here => exact here ▸ faithful.grows
      | inr behind =>
          exact Nat.le_trans faithful.grows ((List.pairwise_cons.1 ordered).1 counter behind)

/-- However often a reader of queries is called, its counter only grows and stays within its
bounds. Clauses alone move it, and the fragment of a clause announces what the counter has become,
while the fragment of a retraction announces what it has been. -/
theorem counter_announced (options : QueryOptions) (text : Text) (start count : Nat)
    (small : start ≤ greatestStep) (sized : IsSized options.volatility) :
    let reader : Query := ⟨Terminal.ofBytes (Text.utf8 text), options⟩
    let history := turns reader start count
    history.length = count ∧
    history.map (·.answer) = (Source.query reader).answers (history.map (·.step)) ∧
    history.map (·.step) = (start :: history.map Turn.later).dropLast ∧
    (start :: history.map Turn.later).Pairwise (· ≤ ·) ∧
    ∀ turn ∈ history, turn.IsFaithful options := by
  have cut : Terminal.ofBytes (Text.utf8 text) = ⟨(Text.splitAfter '\n' text).map Text.utf8⟩ := by
    rw [← Terminal.lines_of_text]
  refine ⟨length_turns _ start count, answers_of_turns _ start count, steps_of_turns _ start count,
    ?_⟩
  rw [cut]
  exact turns_faithful sized (Text.splitAfter '\n' text) small count

/-- At the greatest step a fact gets that step, and the counter stays. -/
theorem counter_saturates :
    let options : QueryOptions := ⟨.window 2, true, true⟩
    let text := "p(3).\n#retract : p(3).\nq(7).\n".toList
    let history := turns ⟨Terminal.ofBytes (Text.utf8 text), options⟩ (greatestStep - 1) 4
    greatestStep - 1 ≤ greatestStep ∧ IsSized options.volatility ∧
      history.map Turn.later = [greatestStep, greatestStep, greatestStep, greatestStep] ∧
      (history.map fun turn => turn.sent.getLast?) =
        [some "p(3,18446744073709551615).\n".toList, some "#retract : p(3).\n".toList,
          some "q(7,18446744073709551615).\n".toList, none] ∧
      ∀ turn ∈ history, turn.IsFaithful options := by
  intro options text history
  have small : greatestStep - 1 ≤ greatestStep := by decide
  have sized : IsSized options.volatility := by
    intro size window
    cases window
    decide
  obtain ⟨-, -, -, -, faithful⟩ := counter_announced options text (greatestStep - 1) 4 small sized
  exact ⟨small, sized, by decide +kernel, by decide +kernel, faithful⟩

end Query

end StepStream
