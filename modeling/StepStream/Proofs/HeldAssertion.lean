import StepStream.Proofs.Calls
import StepStream.Proofs.ClauseKind
import StepStream.Proofs.QueryText

/-!
What a reader of queries makes of the lines that it reads. Clauses and retractions go out, each
in the fragment of the call that reads it. An assertion is held back, but only until the call
ends and only one at a time, so it is lost if anything else comes between it and its clause.
-/

namespace StepStream

set_option autoImplicit false

open Text (Bytes)

namespace Line

def isClause (line : Text) : Bool := (classify line).isClause

def isAssertion (line : Text) : Bool := classify line = .assert

/-- Clauses and retractions, which are sent for their own sake. -/
def isOwn (line : Text) : Bool := isClause line || classify line = .retract

/-- The lines of a fragment that a reader sends for their own sake. The others are directives that
it adds, and assertions. -/
def isPayload (line : Text) : Bool := line.head? != some '#' || classify line = .retract

theorem classify_complete (line : Text) : classify (Text.completeLine line) = classify line := by
  rw [Text.completeLine]
  split
  · rfl
  · exact classify_newline line

theorem is_assertion_complete (line : Text) :
    isAssertion (Text.completeLine line) = isAssertion line := by
  rw [isAssertion, classify_complete, isAssertion]

theorem is_payload_complete (line : Text) :
    isPayload (Text.completeLine line) = isPayload line := by
  have begins : (Text.completeLine line).head? = some '#' ↔ line.head? = some '#' := by
    rw [Text.completeLine]
    split
    · exact Iff.rfl
    · cases line with
      | nil => decide
      | cons first rest => exact Iff.rfl
  have same : ((Text.completeLine line).head? != some '#') = (line.head? != some '#') := by
    rw [Bool.eq_iff_iff, bne_iff_ne, bne_iff_ne, ne_eq, ne_eq, begins]
  rw [isPayload, classify_complete, same, isPayload]

theorem keyword_of_classify {line keyword : Text} {kind : LineKind}
    {reader : Text → Option LineKind} (known : readerOf kind = some (keyword, reader))
    (found : classify line = kind) : keyword <+: line := by
  have directed : isDirectiveKind kind = true := by
    cases kind <;> first | rfl | cases known
  have read := (classify_iff_read directed).1 found
  obtain ⟨other, _, rest, same, whole, -⟩ := reader_complete (read_directive_iff.1 read)
  obtain ⟨rfl, -⟩ := Prod.mk.inj (Option.some.inj (known.symm.trans same))
  have front : Text.stripLineEnd line <+: line := Text.drop_end_while_front _ line
  exact (List.prefix_append keyword rest).trans (whole ▸ front)

theorem added_line {second : Char} (rest : Text) (noAssertion : second ≠ 'a')
    (noRetraction : second ≠ 'r') :
    isAssertion ('#' :: second :: rest) = false ∧ isPayload ('#' :: second :: rest) = false := by
  have unasserted : classify ('#' :: second :: rest) ≠ .assert := by
    intro found
    obtain ⟨more, whole⟩ := keyword_of_classify rfl found
    exact noAssertion (List.cons.inj (List.cons.inj whole).2).1.symm
  have kept : classify ('#' :: second :: rest) ≠ .retract := by
    intro found
    obtain ⟨more, whole⟩ := keyword_of_classify rfl found
    exact noRetraction (List.cons.inj (List.cons.inj whole).2).1.symm
  rw [isAssertion, isPayload, decide_eq_false kept, decide_eq_false unasserted]
  exact ⟨rfl, rfl⟩

theorem assertion_is_no_payload {line : Text} (asserts : isAssertion line = true) :
    isPayload line = false := by
  have kind : classify line = .assert := of_decide_eq_true asserts
  obtain ⟨more, rfl⟩ := keyword_of_classify rfl kind
  rw [isPayload, kind]
  rfl

theorem unsigned_line {line : Text} (unsigned : line.head? ≠ some '#') :
    isAssertion line = false ∧ isPayload line = true := by
  have kind : isDirectiveKind (classify line) = false := by
    rw [Clause.classify_unsigned unsigned]
    exact clause_kind _
  refine ⟨?_, by simp [isPayload, unsigned]⟩
  rw [isAssertion, decide_eq_false_iff_not]
  intro found
  rw [found] at kind
  cases kind

theorem unsigned_of_clause {line : Text} (clause : isClause line = true) :
    line.head? ≠ some '#' := by
  intro signed
  rw [isClause, classify_behind_number_sign signed] at clause
  cases read : readDirective (Text.stripLineEnd line) with
  | none =>
      rw [read] at clause
      cases clause
  | some kind =>
      rw [read, Option.getD_some,
        (no_clause_of_directive_kind (directive_kind (read_directive_iff.1 read))).1] at clause
      cases clause

end Line

namespace Query

open Line

/-- A call of a reader: the step counter before it, the lines that it has read, and its answer. -/
structure Call where
  step : Nat
  read : List Text
  answer : Except Error StepInput

namespace Call

def sent (call : Call) : List Text :=
  match call.answer with
  | .ok (.fragment fragment) => fragment.lines
  | _ => []

def hasClause (call : Call) : Bool := call.read.any isClause

end Call

def sentAs (options : QueryOptions) (step : Nat) (line : Text) : Text :=
  if options.implicitIncrement && (classify line = .fact || classify line = .integrity) then
    QueryClause.appendStep line (Text.nextStep step)
  else line

def Call.payload (options : QueryOptions) (call : Call) : List Text :=
  (call.read.filter isOwn).map fun line => Text.completeLine (sentAs options call.step line)

/-- The calls at these step counters, with the lines that each has taken from the terminal. -/
def calls (reader : Query) : List Nat → List Call
  | [] => []
  | step :: steps =>
      let (supplied, rest) := reader.next step
      let taken := reader.terminal.lines.length - rest.terminal.lines.length
      let read := (reader.terminal.lines.take taken).filterMap fun bytes =>
        (Terminal.decodeLine bytes).toOption
      ⟨step, read, supplied.input⟩ :: rest.calls steps

def assertionsSent (history : List Call) : List (List Text) :=
  (history.filter Call.hasClause).map fun call => call.sent.filter isAssertion

/-- The assertions in front of each clause and behind the one before it, the first of them behind
those that wait. -/
def assertionsDue (waiting : List Text) : List Text → List (List Text)
  | [] => []
  | line :: rest =>
      if isClause line then waiting :: assertionsDue [] rest
      else if isAssertion line then assertionsDue (waiting ++ [Text.completeLine line]) rest
      else assertionsDue waiting rest

def endsCall (line : Text) : Bool :=
  match classify line with
  | .fact | .integrity | .rule | .incrementStep _ | .retract | .endStep | .stop => true
  | _ => false

/-- Between an assertion and the next clause there is no other assertion and nothing that ends a
call. -/
def Undisturbed (lines : List Text) : Prop :=
  ∀ front assertion between clause back,
    lines = front ++ assertion :: (between ++ clause :: back) →
    isAssertion assertion = true → isClause clause = true →
    (∀ line ∈ between, isClause line = false) →
    ∀ line ∈ between, isAssertion line = false ∧ endsCall line = false

def heldAfter (held : Option Text) : List Text → Option Text
  | [] => held
  | line :: rest => heldAfter (if isAssertion line then some line else held) rest

inductive Answers (options : QueryOptions) (step : Nat) : List Text → StepInput → Prop
  | exhausted {passed : List Text} (passes : ∀ line ∈ passed, endsCall line = false) :
      Answers options step passed .stop
  | stop {passed : List Text} {line : Text} (passes : ∀ line ∈ passed, endsCall line = false)
      (kind : classify line = .stop) : Answers options step (passed ++ [line]) .stop
  | clause {passed : List Text} {line : Text} (passes : ∀ line ∈ passed, endsCall line = false)
      (kind : isClause line = true) (later : Nat) :
      Answers options step (passed ++ [line])
        (.fragment (Fragment.ofLines
          (clauseLines options (heldAfter none passed) (sentAs options step line) later)))
  | retract {passed : List Text} {line : Text} (passes : ∀ line ∈ passed, endsCall line = false)
      (kind : classify line = .retract) :
      Answers options step (passed ++ [line])
        (.fragment (Fragment.ofLines [stepLine step, line]))
  | increment {passed : List Text} {line : Text} (passes : ∀ line ∈ passed, endsCall line = false)
      {target : Option Nat} (kind : classify line = .incrementStep target) (later : Nat) :
      Answers options step (passed ++ [line]) (.fragment (Fragment.ofLines [stepLine later]))
  | endStep {passed : List Text} {line : Text} (passes : ∀ line ∈ passed, endsCall line = false)
      (kind : classify line = .endStep) :
      Answers options step (passed ++ [line]) (.fragment (Fragment.ofLines []))

theorem advance_eq (options : QueryOptions) (line : Text) (step : Nat) :
    (advance options (classify line) line step).1 = sentAs options step line := by
  unfold advance sentAs
  dsimp only
  split
  · split <;> split <;> rfl
  · split <;> rfl

theorem absorb_passed {options : QueryOptions} {step : Nat} {held : Option Text} {line : Text}
    (passes : endsCall line = false) :
    absorb options step held line = .hold (if isAssertion line then some line else held) := by
  rw [endsCall] at passes
  rw [absorb, isAssertion]
  cases kind : classify line <;> rw [kind] at passes <;> first | rfl | cases passes

theorem read_from_lines (options : QueryOptions) (step : Nat) (held : Option Text)
    (lines : List Text) :
    ∃ passed, (∀ line ∈ passed, endsCall line = false) ∧
      ((lines = passed ∧
          readFrom options step held (lines.map Text.utf8) = ((.ok .stop, step), [])) ∨
        ∃ line rest input later, lines = passed ++ line :: rest ∧ endsCall line = true ∧
          absorb options step (heldAfter held passed) line = .finish input later ∧
          readFrom options step held (lines.map Text.utf8) =
            ((.ok input, later), rest.map Text.utf8)) := by
  induction lines generalizing held with
  | nil => exact ⟨[], nofun, .inl ⟨rfl, rfl⟩⟩
  | cons line lines induction =>
      rw [List.map_cons, readFrom, Terminal.decode_line_utf8]
      dsimp only
      cases ends : endsCall line with
      | false =>
          rw [absorb_passed ends]
          obtain ⟨passed, passes, reads⟩ :=
            induction (if isAssertion line then some line else held)
          refine ⟨line :: passed, List.forall_mem_cons.2 ⟨ends, passes⟩, ?_⟩
          rcases reads with ⟨rfl, reads⟩ | ⟨ending, rest, input, later, rfl, other, absorbed, reads⟩
          · exact .inl ⟨rfl, reads⟩
          · exact .inr ⟨ending, rest, input, later, rfl, other, absorbed, reads⟩
      | true =>
          refine ⟨[], nofun, .inr ⟨line, lines, ?_⟩⟩
          have finishes : ∃ input later, absorb options step held line = .finish input later := by
            rw [endsCall] at ends
            rw [absorb]
            cases kind : classify line <;> rw [kind] at ends <;>
              first | exact ⟨_, _, rfl⟩ | cases ends
          obtain ⟨input, later, absorbed⟩ := finishes
          refine ⟨input, later, rfl, ends, absorbed, ?_⟩
          rw [absorbed]

theorem answers_of_absorb {options : QueryOptions} {step later : Nat} {passed : List Text}
    {line : Text} {input : StepInput} (passes : ∀ line ∈ passed, endsCall line = false)
    (ends : endsCall line = true)
    (absorbed : absorb options step (heldAfter none passed) line = .finish input later) :
    Answers options step (passed ++ [line]) input := by
  have spoken : isClause line = true → Answers options step (passed ++ [line]) input := by
    intro clause
    rw [absorb] at absorbed
    dsimp only at absorbed
    rw [isClause] at clause
    rw [if_pos clause, advance_eq] at absorbed
    cases absorbed
    exact .clause passes clause _
  rw [endsCall] at ends
  cases kind : classify line with
  | fact | integrity | rule => exact spoken (by rw [isClause, kind]; rfl)
  | incrementStep target =>
      rw [absorb, kind] at absorbed
      cases absorbed
      exact .increment passes kind _
  | retract =>
      rw [absorb, kind] at absorbed
      cases absorbed
      exact .retract passes kind
  | endStep =>
      rw [absorb, kind] at absorbed
      cases absorbed
      exact .endStep passes kind
  | stop =>
      rw [absorb, kind] at absorbed
      cases absorbed
      exact .stop passes kind
  | step | cumulative | volatile | forget | assert | commentOrBlank | unrecognized =>
      rw [kind] at ends
      cases ends

/-- A call reads some lines and leaves the others. If none of them ends it, it has read all. -/
theorem next_from_lines (options : QueryOptions) (step : Nat) (lines : List Text) :
    ∃ read rest input later, lines = read ++ rest ∧ Answers options step read input ∧
      ((∀ line ∈ read, endsCall line = false) → rest = []) ∧
      next ⟨⟨lines.map Text.utf8⟩, options⟩ step =
        (⟨.ok input, later, prompt⟩, ⟨⟨rest.map Text.utf8⟩, options⟩) := by
  obtain ⟨passed, passes, reads⟩ := read_from_lines options step none lines
  rcases reads with ⟨rfl, reads⟩ | ⟨line, rest, input, later, rfl, ends, absorbed, reads⟩
  · refine ⟨lines, [], .stop, step, (List.append_nil lines).symm, .exhausted passes,
      fun _ => rfl, ?_⟩
    rw [next, reads]
    rfl
  · refine ⟨passed ++ [line], rest, input, later, by simp, answers_of_absorb passes ends absorbed,
      fun none => ?_, ?_⟩
    · rw [none line (by simp)] at ends
      cases ends
    · rw [next, reads]

/-- The calls of a reader with these lines in front of it. -/
inductive Told (options : QueryOptions) : List Text → List Call → Prop
  | done (lines : List Text) : Told options lines []
  | call {step : Nat} {read rest : List Text} {input : StepInput} {history : List Call}
      (answers : Answers options step read input)
      (drained : (∀ line ∈ read, endsCall line = false) → rest = [])
      (later : Told options rest history) :
      Told options (read ++ rest) (⟨step, read, .ok input⟩ :: history)

theorem calls_cons {options : QueryOptions} {step : Nat} {read rest : List Text}
    {supplied : Supplied}
    (moved : next ⟨⟨(read ++ rest).map Text.utf8⟩, options⟩ step =
      (supplied, ⟨⟨rest.map Text.utf8⟩, options⟩)) (steps : List Nat) :
    calls ⟨⟨(read ++ rest).map Text.utf8⟩, options⟩ (step :: steps) =
      ⟨step, read, supplied.input⟩ :: calls ⟨⟨rest.map Text.utf8⟩, options⟩ steps := by
  have decoded : (((read ++ rest).map Text.utf8).take
      (((read ++ rest).map Text.utf8).length - (rest.map Text.utf8).length)).filterMap
        (fun bytes => (Terminal.decodeLine bytes).toOption) = read := by
    have size : ((read ++ rest).map Text.utf8).length - (rest.map Text.utf8).length =
        (read.map Text.utf8).length := by simp
    rw [size, List.map_append, List.take_left, List.filterMap_map]
    have kept : (fun bytes => (Terminal.decodeLine bytes).toOption) ∘ Text.utf8 = some := by
      funext line
      rw [Function.comp_apply, Terminal.decode_line_utf8]
      rfl
    rw [kept, List.filterMap_some]
  rw [calls, moved]
  dsimp only
  rw [decoded]

theorem told_calls (options : QueryOptions) (steps : List Nat) (lines : List Text) :
    Told options lines (calls ⟨⟨lines.map Text.utf8⟩, options⟩ steps) := by
  induction steps generalizing lines with
  | nil => exact .done lines
  | cons step steps induction =>
      obtain ⟨read, rest, input, later, rfl, answers, drained, moved⟩ :=
        next_from_lines options step lines
      rw [calls_cons moved]
      exact .call answers drained (induction rest)

theorem unsigned_sent (options : QueryOptions) (step : Nat) {line : Text}
    (clause : isClause line = true) : (sentAs options step line).head? ≠ some '#' := by
  have unsigned := unsigned_of_clause clause
  rw [sentAs]
  split
  · obtain ⟨front, mark, within, marked, appended⟩ :=
      QueryClause.append_step_front line (Text.nextStep step)
    obtain ⟨behind, rfl⟩ := within.trans (List.takeWhile_prefix _)
    rw [appended]
    cases front with
    | nil => rcases marked with rfl | rfl <;> simp
    | cons first front => exact unsigned
  · exact unsigned

theorem step_line_added (step : Nat) :
    isAssertion (stepLine step) = false ∧ isPayload (stepLine step) = false :=
  added_line _ (by decide) (by decide)

theorem volatile_line_added {volatility : Volatility} {line : Text}
    (added : line ∈ volatileLine volatility) :
    isAssertion line = false ∧ isPayload line = false := by
  cases volatility with
  | input =>
      cases added
      exact added_line _ (by decide) (by decide)
  | window size =>
      cases added
      exact added_line _ (by decide) (by decide)
  | none => cases added

/-! ## One call -/

theorem ends_of_own {line : Text} (own : isOwn line = true) : endsCall line = true := by
  rw [isOwn, isClause] at own
  rw [endsCall]
  cases kind : classify line <;> rw [kind] at own <;> first | rfl | cases own

theorem ends_of_clause {line : Text} (clause : isClause line = true) : endsCall line = true :=
  ends_of_own (by rw [isOwn, clause]; rfl)

theorem no_assertion_of_ends {line : Text} (ends : endsCall line = true) :
    isAssertion line = false := by
  rw [endsCall] at ends
  rw [isAssertion]
  cases kind : classify line <;> rw [kind] at ends <;> first | rfl | cases ends

theorem no_own_passed {passed : List Text} (passes : ∀ line ∈ passed, endsCall line = false) :
    passed.filter isOwn = [] := by
  rw [List.filter_eq_nil_iff]
  intro line member own
  have ends := ends_of_own own
  rw [passes line member] at ends
  cases ends

theorem no_clause_passed {passed : List Text} (passes : ∀ line ∈ passed, endsCall line = false) :
    passed.any isClause = false := by
  rw [List.any_eq_false]
  intro line member clause
  have ends := ends_of_clause clause
  rw [passes line member] at ends
  cases ends

theorem held_is_assertion (passed : List Text) (held : Option Text)
    (asserts : ∀ assertion ∈ held, isAssertion assertion = true) :
    ∀ assertion ∈ heldAfter held passed, isAssertion assertion = true := by
  induction passed generalizing held with
  | nil => exact asserts
  | cons line passed induction =>
      refine induction _ fun assertion found => ?_
      split at found
      · next here =>
          cases found
          exact here
      · exact asserts assertion found

theorem filter_completed (test : Text → Bool)
    (kept : ∀ line, test (Text.completeLine line) = test line) (lines : List Text) :
    (Fragment.ofLines lines).lines.filter test = (lines.filter test).map Text.completeLine := by
  rw [Fragment.ofLines, List.filter_map]
  congr 1
  exact List.filter_congr fun line _ => kept line

theorem between_filtered {held : Option Text} (volatility : Volatility)
    (asserts : ∀ assertion ∈ held, isAssertion assertion = true) :
    (held.or (volatileLine volatility)).toList.filter isAssertion = held.toList ∧
      (held.or (volatileLine volatility)).toList.filter isPayload = [] := by
  cases held with
  | some assertion =>
      have asserted := asserts assertion rfl
      simp [asserted, assertion_is_no_payload asserted]
  | none =>
      cases added : volatileLine volatility with
      | none => exact ⟨rfl, rfl⟩
      | some line => simp [volatile_line_added added]

theorem clause_fragment (options : QueryOptions) (step later : Nat) {held : Option Text}
    {line : Text} (clause : isClause line = true)
    (asserts : ∀ assertion ∈ held, isAssertion assertion = true) :
    let sent := (Fragment.ofLines (clauseLines options held (sentAs options step line) later)).lines
    let final := Text.completeLine (sentAs options step line)
    sent.filter isAssertion = held.toList.map Text.completeLine ∧ sent.filter isPayload = [final] ∧
      [final] <:+ sent := by
  obtain ⟨noAssertion, payload⟩ := unsigned_line (unsigned_sent options step clause)
  obtain ⟨held, added⟩ := between_filtered options.volatility asserts
  dsimp only
  rw [filter_completed isAssertion is_assertion_complete,
    filter_completed isPayload is_payload_complete, clauseLines, List.filter_append,
    List.filter_append, List.filter_append, List.filter_append, held, added]
  refine ⟨?_, ?_, ?_⟩
  · simp [step_line_added, noAssertion]
  · simp [step_line_added, payload]
  · rw [Fragment.ofLines, List.map_append]
    exact List.suffix_append _ _

theorem payload_last {options : QueryOptions} {step : Nat} {passed : List Text} {line : Text}
    {answer : Except Error StepInput} (passes : ∀ line ∈ passed, endsCall line = false) :
    Call.payload options ⟨step, passed ++ [line], answer⟩ =
      if isOwn line then [Text.completeLine (sentAs options step line)] else [] := by
  rw [Call.payload, List.filter_append, no_own_passed passes, List.nil_append,
    List.filter_singleton]
  cases isOwn line <;> rfl

theorem payload_of_answers {options : QueryOptions} {step : Nat} {read : List Text}
    {input : StepInput} (answers : Answers options step read input) :
    let call : Call := ⟨step, read, .ok input⟩
    (call.payload options).length ≤ 1 ∧ call.payload options <:+ call.sent ∧
      call.sent.filter isPayload = call.payload options := by
  cases answers with
  | exhausted passes => simp [Call.payload, Call.sent, no_own_passed passes]
  | @stop passed line passes kind =>
      have own : isOwn line = false := by rw [isOwn, isClause, kind]; rfl
      simp [payload_last passes, own, Call.sent]
  | @endStep passed line passes kind =>
      have own : isOwn line = false := by rw [isOwn, isClause, kind]; rfl
      simp [payload_last passes, own, Call.sent, Fragment.ofLines]
  | @increment passed line passes target kind later =>
      have own : isOwn line = false := by rw [isOwn, isClause, kind]; rfl
      simp [payload_last passes, own, Call.sent, filter_completed isPayload is_payload_complete,
        step_line_added]
  | @clause passed line passes kind later =>
      have own : isOwn line = true := by rw [isOwn, kind]; rfl
      obtain ⟨-, payload, final⟩ := clause_fragment options step later kind
        (held_is_assertion passed none nofun)
      dsimp only
      rw [payload_last passes, if_pos own]
      exact ⟨le_rfl, final, payload⟩
  | @retract passed line passes kind =>
      have own : isOwn line = true := by rw [isOwn, isClause, kind]; rfl
      have payload : isPayload line = true := by simp [isPayload, kind]
      have same : sentAs options step line = line := by simp [sentAs, kind]
      dsimp only
      rw [payload_last passes, if_pos own, same, Call.sent,
        filter_completed isPayload is_payload_complete]
      refine ⟨le_rfl, List.suffix_append [_] [_], ?_⟩
      simp [step_line_added, payload]

/-! ## Assertions of a history -/

/-- The assertions that go out with each clause of these lines, if this one is held back. -/
def emitted (held : Option Text) : List Text → List (List Text)
  | [] => []
  | line :: rest =>
      if isClause line then held.toList.map Text.completeLine :: emitted none rest
      else if isAssertion line then emitted (some line) rest
      else emitted (if endsCall line then none else held) rest

theorem emitted_passed {passed : List Text} (passes : ∀ line ∈ passed, endsCall line = false)
    (held : Option Text) (rest : List Text) :
    emitted held (passed ++ rest) = emitted (heldAfter held passed) rest := by
  induction passed generalizing held with
  | nil => rfl
  | cons line passed induction =>
      obtain ⟨here, others⟩ := List.forall_mem_cons.1 passes
      have plain : isClause line = false := by
        have whole := no_clause_passed passes
        rw [List.any_cons, Bool.or_eq_false_iff] at whole
        exact whole.1
      rw [List.cons_append, emitted, heldAfter, ← induction others, plain, here]
      cases isAssertion line <;> rfl

/-- What a call with these lines behind it sends: the assertions that its lines emit in a fragment
with a clause, and none in any other. -/
def Call.Emits (call : Call) (rest : List Text) : Prop :=
  emitted none (call.read ++ rest) =
      (if call.hasClause then [call.sent.filter isAssertion] else []) ++ emitted none rest ∧
    (call.hasClause = false → call.sent.filter isAssertion = [])

theorem emits_without_clause {step : Nat} {passed rest : List Text} {line : Text}
    {answer : Except Error StepInput} (passes : ∀ line ∈ passed, endsCall line = false)
    (ends : endsCall line = true) (noClause : isClause line = false)
    (silent : (Call.sent ⟨step, passed ++ [line], answer⟩).filter isAssertion = []) :
    Call.Emits ⟨step, passed ++ [line], answer⟩ rest := by
  have noAssertion := no_assertion_of_ends ends
  have plain : (passed ++ [line]).any isClause = false := by
    rw [List.any_append, no_clause_passed passes]
    simp [noClause]
  refine ⟨?_, fun _ => silent⟩
  dsimp only
  rw [Call.hasClause, plain, List.append_assoc, emitted_passed passes]
  simp [emitted, ends, noClause, noAssertion]

theorem emits_of_answers {options : QueryOptions} {step : Nat} {read rest : List Text}
    {input : StepInput} (answers : Answers options step read input)
    (drained : (∀ line ∈ read, endsCall line = false) → rest = []) :
    Call.Emits ⟨step, read, .ok input⟩ rest := by
  cases answers with
  | exhausted passes =>
      obtain rfl := drained passes
      refine ⟨?_, fun _ => rfl⟩
      dsimp only
      rw [emitted_passed passes, Call.hasClause, no_clause_passed passes]
      rfl
  | stop passes kind =>
      exact emits_without_clause passes (by rw [endsCall, kind]) (by rw [isClause, kind]; rfl) rfl
  | endStep passes kind =>
      exact emits_without_clause passes (by rw [endsCall, kind]) (by rw [isClause, kind]; rfl) rfl
  | increment passes kind later =>
      refine emits_without_clause passes (by rw [endsCall, kind]) (by rw [isClause, kind]; rfl) ?_
      rw [Call.sent, filter_completed isAssertion is_assertion_complete]
      simp [step_line_added]
  | @retract passed line passes kind =>
      have noAssertion : isAssertion line = false := by simp [isAssertion, kind]
      refine emits_without_clause passes (by rw [endsCall, kind]) (by rw [isClause, kind]; rfl) ?_
      rw [Call.sent, filter_completed isAssertion is_assertion_complete]
      simp [step_line_added, noAssertion]
  | @clause passed line passes kind later =>
      obtain ⟨sent, -⟩ :=
        clause_fragment options step later kind (held_is_assertion passed none nofun)
      have clause : (passed ++ [line]).any isClause = true := by simp [kind]
      rw [Call.Emits, Call.hasClause, clause, Call.sent, sent, List.append_assoc,
        emitted_passed passes]
      simp [emitted, kind]

theorem assertions_sent_cons (call : Call) (history : List Call) :
    assertionsSent (call :: history) =
      (if call.hasClause then [call.sent.filter isAssertion] else []) ++
        assertionsSent history := by
  rw [assertionsSent, List.filter_cons]
  split <;> rfl

theorem read_front {options : QueryOptions} {lines : List Text} {history : List Call}
    (told : Told options lines history) : history.flatMap Call.read <+: lines := by
  induction told with
  | done lines => exact List.nil_prefix
  | call answers drained later induction =>
      rw [List.flatMap_cons]
      exact (List.prefix_append_right_inj _).2 induction

theorem assertions_emitted {options : QueryOptions} {lines : List Text} {history : List Call}
    (told : Told options lines history) :
    assertionsSent history = emitted none (history.flatMap Call.read) := by
  induction told with
  | done lines => rfl
  | @call step read rest input history answers drained later induction =>
      have ended : (∀ line ∈ read, endsCall line = false) → history.flatMap Call.read = [] := by
        intro passes
        have within := read_front later
        rw [drained passes] at within
        exact List.prefix_nil.1 within
      obtain ⟨emits, -⟩ := emits_of_answers answers ended
      rw [List.flatMap_cons, emits, ← induction, assertions_sent_cons]

theorem payload_of_told {options : QueryOptions} {lines : List Text} {history : List Call}
    (told : Told options lines history) :
    ∀ call ∈ history, (call.payload options).length ≤ 1 ∧ call.payload options <:+ call.sent ∧
      call.sent.filter isPayload = call.payload options := by
  induction told with
  | done lines => nofun
  | call answers drained later induction =>
      exact List.forall_mem_cons.2 ⟨payload_of_answers answers, induction⟩

theorem assertions_of_told {options : QueryOptions} {lines : List Text} {history : List Call}
    (told : Told options lines history) :
    (history.flatMap fun call => call.sent.filter isAssertion) =
      (assertionsSent history).flatten := by
  induction told with
  | done lines => rfl
  | @call step read rest input history answers drained later induction =>
      obtain ⟨-, silent⟩ := emits_of_answers answers drained
      rw [List.flatMap_cons, induction, assertions_sent_cons, List.flatten_append]
      cases speaks : Call.hasClause ⟨step, read, .ok input⟩ with
      | true => simp
      | false => simp [silent speaks]

theorem answers_of_calls (reader : Query) (steps : List Nat) :
    (reader.calls steps).map Call.answer = (Source.query reader).answers steps := by
  induction steps generalizing reader with
  | nil => rfl
  | cons step steps induction =>
      rw [calls, Source.answers, List.map_cons, induction]
      rfl

/-! ## Assertions that are due -/

/-- In front of the first clause there is no assertion and nothing that ends a call. -/
def Clear (lines : List Text) : Prop :=
  ∀ between clause back, lines = between ++ clause :: back → isClause clause = true →
    (∀ line ∈ between, isClause line = false) →
    ∀ line ∈ between, isAssertion line = false ∧ endsCall line = false

theorem undisturbed_cons {line : Text} {rest : List Text} :
    Undisturbed (line :: rest) ↔ (isAssertion line = true → Clear rest) ∧ Undisturbed rest := by
  constructor
  · intro undisturbed
    constructor
    · intro asserts between clause back whole
      exact undisturbed [] line between clause back (by rw [whole]; rfl) asserts
    · intro front assertion between clause back whole
      exact undisturbed (line :: front) assertion between clause back (by rw [whole]; rfl)
  · rintro ⟨here, later⟩ front assertion between clause back whole asserts
    cases front with
    | nil =>
        obtain ⟨rfl, rfl⟩ := List.cons.inj whole
        exact here asserts between clause back rfl
    | cons first front =>
        obtain ⟨rfl, rfl⟩ := List.cons.inj whole
        exact later front assertion between clause back rfl asserts

theorem clear_behind_clause {line : Text} {rest : List Text} (clause : isClause line = true) :
    Clear (line :: rest) := by
  intro between other back whole _ plain
  cases between with
  | nil => nofun
  | cons first between =>
      obtain ⟨rfl, -⟩ := List.cons.inj whole
      rw [plain line List.mem_cons_self] at clause
      cases clause

theorem clear_cons {line : Text} {rest : List Text} (passes : endsCall line = false)
    (noClause : isClause line = false) (noAssertion : isAssertion line = false) :
    Clear (line :: rest) ↔ Clear rest := by
  constructor
  · intro clear between clause back whole kind plain other member
    exact clear (line :: between) clause back (by rw [whole]; rfl) kind
      (List.forall_mem_cons.2 ⟨noClause, plain⟩) other (List.mem_cons_of_mem _ member)
  · intro clear between clause back whole kind plain
    cases between with
    | nil => nofun
    | cons first between =>
        obtain ⟨rfl, rfl⟩ := List.cons.inj whole
        exact List.forall_mem_cons.2 ⟨⟨noAssertion, passes⟩, clear between clause back rfl kind
          fun other member => plain other (List.mem_cons_of_mem _ member)⟩

theorem undisturbed_without_clause {lines : List Text} (none : lines.any isClause = false) :
    Clear lines ∧ Undisturbed lines := by
  rw [List.any_eq_false] at none
  constructor
  · rintro between clause back rfl kind
    exact absurd kind (none clause (by simp))
  · rintro front assertion between clause back rfl - kind
    exact absurd kind (none clause (by simp))

theorem clear_disturbed {line : Text} {rest : List Text} (noClause : isClause line = false)
    (disturbs : isAssertion line = true ∨ endsCall line = true) :
    Clear (line :: rest) ↔ rest.any isClause = false := by
  constructor
  · intro clear
    by_contra some
    obtain ⟨clause, found⟩ := Option.isSome_iff_exists.1 <|
      List.find?_isSome.2 (List.any_eq_true.1 (Bool.not_eq_false _ ▸ some))
    obtain ⟨kind, between, back, rfl, plain⟩ := List.find?_eq_some_iff_append.1 found
    have others : ∀ other ∈ between, isClause other = false :=
      fun other member => Bool.not_eq_true' _ ▸ plain other member
    obtain ⟨noAssertion, passes⟩ := clear (line :: between) clause back rfl kind
      (List.forall_mem_cons.2 ⟨noClause, others⟩) line List.mem_cons_self
    rw [noAssertion, passes] at disturbs
    rcases disturbs with asserts | ends
    · cases asserts
    · cases ends
  · intro none
    exact (undisturbed_without_clause (by rw [List.any_cons, noClause, none]; rfl)).1

/-- With fewer assertions held back than are due, the next clause goes out without them. -/
theorem emitted_short {held : Option Text} {waiting lines : List Text}
    (short : held.toList.length < waiting.length) :
    emitted held lines = assertionsDue waiting lines ↔ lines.any isClause = false := by
  induction lines generalizing held waiting with
  | nil => exact iff_of_true rfl rfl
  | cons line rest induction =>
      rw [emitted, assertionsDue, List.any_cons]
      cases isClause line with
      | true =>
          refine iff_of_false (fun same => ?_) nofun
          rw [← (List.cons.inj same).1, List.length_map] at short
          exact Nat.lt_irrefl _ short
      | false =>
          cases isAssertion line with
          | true =>
              refine induction ?_
              rw [List.length_append]
              exact Nat.add_lt_add_right (Nat.zero_lt_of_lt short) 1
          | false =>
              refine induction ?_
              split
              · exact Nat.zero_lt_of_lt short
              · exact short

/-- What is emitted is what is due, exactly if nothing disturbs. An assertion that is held back
counts as the line in front. -/
theorem emitted_eq_due (lines : List Text) :
    (emitted none lines = assertionsDue [] lines ↔ Undisturbed lines) ∧
      ∀ held, emitted (some held) lines = assertionsDue [Text.completeLine held] lines ↔
        Clear lines ∧ Undisturbed lines := by
  induction lines with
  | nil =>
      have quiet : Clear [] ∧ Undisturbed [] := undisturbed_without_clause rfl
      exact ⟨iff_of_true rfl quiet.2, fun held => iff_of_true rfl quiet⟩
  | cons line rest induction =>
      obtain ⟨fresh, holding⟩ := induction
      simp only [emitted, assertionsDue, undisturbed_cons]
      cases clause : isClause line with
      | true =>
          have noAssertion := no_assertion_of_ends (ends_of_clause clause)
          have clear : Clear (line :: rest) := clear_behind_clause clause
          simp [noAssertion, clear, fresh]
      | false =>
          cases asserts : isAssertion line with
          | true =>
              have disturbed : Clear (line :: rest) ↔ rest.any isClause = false :=
                clear_disturbed clause (.inl asserts)
              refine ⟨by simp [holding], fun held => ?_⟩
              have short : (some line).toList.length <
                  ([Text.completeLine held] ++ [Text.completeLine line]).length := Nat.one_lt_two
              simp only [Bool.false_eq_true, if_false, if_true, forall_const, disturbed]
              rw [emitted_short short]
              exact ⟨fun none => ⟨none, undisturbed_without_clause none⟩, And.left⟩
          | false =>
              cases ends : endsCall line with
              | true =>
                  have disturbed : Clear (line :: rest) ↔ rest.any isClause = false :=
                    clear_disturbed clause (.inr ends)
                  refine ⟨by simp [fresh], fun held => ?_⟩
                  have short : (none : Option Text).toList.length <
                      [Text.completeLine held].length := Nat.zero_lt_one
                  simp only [Bool.false_eq_true, if_false, if_true, disturbed]
                  rw [emitted_short short]
                  exact ⟨fun none => ⟨none, nofun, (undisturbed_without_clause none).2⟩, And.left⟩
              | false =>
                  have clear : Clear (line :: rest) ↔ Clear rest := clear_cons ends clause asserts
                  simp [clear, fresh, holding]

/-- Every clause and every retraction goes out at the end of the fragment of the call that reads
it, and every assertion goes out with the next clause behind it, in the order of the lines, exactly
if no other assertion and nothing that ends a call comes in between. -/
theorem assertions_sent_iff (options : QueryOptions) (text : Text) (steps : List Nat) :
    let reader : Query := ⟨Terminal.ofBytes (Text.utf8 text), options⟩
    let history := calls reader steps
    let read := history.flatMap Call.read
    history.map Call.answer = (Source.query reader).answers steps ∧
    read <+: Text.splitAfter '\n' text ∧
    (∀ call ∈ history, (call.payload options).length ≤ 1 ∧ call.payload options <:+ call.sent ∧
      call.sent.filter isPayload = call.payload options) ∧
    (history.flatMap fun call => call.sent.filter isAssertion) = (assertionsSent history).flatten ∧
    (assertionsSent history = assertionsDue [] read ↔ Undisturbed read) := by
  have cut : Terminal.ofBytes (Text.utf8 text) = ⟨(Text.splitAfter '\n' text).map Text.utf8⟩ := by
    rw [← Terminal.lines_of_text]
  have told := told_calls options steps (Text.splitAfter '\n' text)
  rw [← cut] at told
  refine ⟨answers_of_calls _ steps, read_front told, ?_, ?_, ?_⟩
  · exact payload_of_told told
  · exact assertions_of_told told
  · rw [assertions_emitted told]
    exact (emitted_eq_due _).1

/-- Of two assertions in front of a clause the first is lost. -/
theorem first_of_two_assertions_lost :
    let reader : Query :=
      ⟨.ofBytes (Text.utf8 "#assert : a.\n#assert : b.\nc.\n".toList), ⟨.input, false, false⟩⟩
    let history := calls reader [0]
    history.flatMap Call.read = ["#assert : a.\n".toList, "#assert : b.\n".toList, "c.\n".toList] ∧
      assertionsDue [] (history.flatMap Call.read) =
        [["#assert : a.\n".toList, "#assert : b.\n".toList]] ∧
      assertionsSent history = [["#assert : b.\n".toList]] ∧
      history.map Call.sent =
        [["#step 0.\n".toList, "#assert : b.\n".toList, "c.\n".toList]] := by
  decide

end Query

end StepStream
