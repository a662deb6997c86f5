import StepStream.Proofs.Assembly
import StepStream.Proofs.Lines

/-!
Step results as an account of the lines. The account is kept line by line and knows neither
messages nor a queue. Assembling the lines gives the same account, in whatever messages they
come and whenever results are asked for.
-/

namespace StepStream.Response

set_option autoImplicit false

/-- What has been read of some lines: the step announced last, the answer sets since the last
result, and everything that has been told. -/
structure Account where
  step : Option Nat
  gathered : List AnswerSet
  told : List (Except Error StepResult)

namespace Account

def empty : Account := ⟨none, [], []⟩

def refuse (account : Account) (fault : Error) : Account :=
  { account with told := account.told ++ [.error fault] }

def conclude (account : Account) (outcome : Outcome) : Account :=
  { account with
    gathered := []
    told := account.told ++ [.ok ⟨account.step, account.gathered, outcome⟩] }

def record (account : Account) (line : Text) : Account :=
  match read? line with
  | some (.step number) => { account with step := some number }
  | some (.answer atoms) =>
      { account with gathered := account.gathered ++ [⟨account.step, atoms⟩] }
  | some .input => account
  | some .endOfStep => account.conclude .satisfiable
  | some (.unsat step) => account.conclude (.unsatisfiable step)
  | some (.warning text) => account.refuse (.server (.warning text))
  | some (.error text) => account.refuse (.server (.error text))
  | none => account.refuse (.protocol (.unknownOutput line))

def ofLines (lines : List Text) : Account := lines.foldl record empty

def results (account : Account) : List StepResult := account.told.filterMap Except.toOption

end Account

def announced (lines : List Text) : Option Nat :=
  (lines.filterMap fun line =>
    match read? line with
    | some (.step number) => some number
    | _ => none).getLast?

/-- The answer sets of lines that follow the lines `before`, each with the step announced
by the lines in front of it. -/
def answersAfter (before : List Text) : List Text → List AnswerSet
  | [] => []
  | line :: rest =>
      let answers :=
        match read? line with
        | some (.answer atoms) => [⟨announced before, atoms⟩]
        | _ => []
      answers ++ answersAfter (before ++ [line]) rest

namespace Account

theorem announced_concat (before : List Text) (line : Text) :
    announced (before ++ [line]) =
      match read? line with
      | some (.step number) => some number
      | _ => announced before := by
  unfold announced
  rw [List.filterMap_append]
  cases found : read? line with
  | none => simp [found]
  | some kind => cases kind <;> simp [found]

/-- Every answer set that has been read has been told or is still gathered, in the order of
the lines and under the step that was announced when it was read. -/
theorem told_and_gathered (before lines : List Text) (account : Account)
    (step : account.step = announced before) :
    let later := lines.foldl record account
    later.results.flatMap StepResult.answerSets ++ later.gathered =
      account.results.flatMap StepResult.answerSets ++ account.gathered ++
        answersAfter before lines := by
  induction lines generalizing before account with
  | nil => simp [answersAfter]
  | cons line lines induction =>
      have follows : (account.record line).step = announced (before ++ [line]) := by
        rw [announced_concat, record]
        split <;> simp_all [refuse, conclude]
      rw [List.foldl_cons]
      intro later
      rw [induction (before ++ [line]) (account.record line) follows, answersAfter]
      unfold record
      split <;> simp_all [refuse, conclude, results, Except.toOption]

end Account

namespace Assembly

inductive Call where
  | push (message : Text)
  | next

def pushed : List Call → List Text
  | [] => []
  | .push message :: calls => message :: pushed calls
  | .next :: calls => pushed calls

def serve (assembly : Assembly) : List Call → List (Except Error StepResult) × Assembly
  | [] => ([], assembly)
  | .push message :: calls => (assembly.push message).serve calls
  | .next :: calls =>
      let (found, assembly) := assembly.next
      let (others, assembly) := assembly.serve calls
      (found.toList ++ others, assembly)

variable {assembly later : Assembly} {found : Option (Except Error StepResult)}

def account (assembly : Assembly) (told : List (Except Error StepResult)) : Account :=
  ⟨assembly.step, assembly.gathered, told⟩

theorem record_absorb (assembly : Assembly) (told : List (Except Error StepResult))
    (line : Text) :
    (assembly.account told).record line =
      (assembly.absorb line).2.account (told ++ (assembly.absorb line).1.toList) := by
  unfold Account.record absorb read
  cases read? line with
  | none => rfl
  | some kind => cases kind <;> simp [account, Account.refuse, Account.conclude, finish]

theorem results_of_kept (skips : Error → Bool) (found : Option (Except Error StepResult)) :
    (kept skips found).filterMap Except.toOption = found.toList.filterMap Except.toOption := by
  unfold kept
  split
  · rfl
  · rfl
  · split <;> rfl

/-- The results among everything that lines yield are those of their account, whichever
faults are skipped. -/
theorem results_of_outcomes (skips : Error → Bool) (lines : List Text) (assembly : Assembly)
    (told : List (Except Error StepResult)) :
    (lines.foldl Account.record (assembly.account told)).results =
      (assembly.account told).results ++
        (outcomes skips assembly (lines.map .ok)).filterMap Except.toOption := by
  induction lines generalizing assembly told with
  | nil => exact (List.append_nil _).symm
  | cons line lines induction =>
      rw [List.foldl_cons, record_absorb, induction, List.map_cons, outcomes,
        List.filterMap_append, results_of_kept, Account.results, Account.results, account, account,
        List.filterMap_append, List.append_assoc]

theorem account_next_from {lines : List Text}
    (next : assembly.nextFrom (fun _ => false) lines = (found, later))
    (told : List (Except Error StepResult)) :
    lines.foldl Account.record (assembly.account told) =
      later.queue.foldl Account.record (later.account (told ++ found.toList)) := by
  induction lines generalizing assembly told with
  | nil =>
      cases next
      simp [account]
  | cons line lines induction =>
      rw [List.foldl_cons, record_absorb]
      rw [nextFrom] at next
      split at next
      · next absorbed =>
          rw [absorbed, Option.toList_none, List.append_nil]
          exact induction next told
      · next absorbed =>
          rw [absorbed]
          cases next
          rfl
      · next absorbed =>
          rw [absorbed]
          cases next
          rfl

def drain (assembly : Assembly) : List (Except Error StepResult) × Assembly :=
  match _found : assembly.next with
  | (none, later) => ([], later)
  | (some outcome, later) =>
      let (others, final) := later.drain
      (outcome :: others, final)
termination_by assembly.queue.length
decreasing_by exact (next_from_some _found []).2

theorem account_drain (assembly : Assembly) (told : List (Except Error StepResult)) :
    assembly.queue.foldl Account.record (assembly.account told) =
        assembly.drain.2.account (told ++ assembly.drain.1) ∧
      assembly.drain.2.queue = [] := by
  fun_induction drain assembly generalizing told with
  | case1 assembly later found =>
      have read := account_next_from found told
      have drained := (next_from_none found []).2
      rw [drained, List.foldl_nil] at read
      exact ⟨read, drained⟩
  | case2 assembly outcome later found others final rest induction =>
      have read := account_next_from found told
      obtain ⟨same, drained⟩ := induction (told ++ [outcome])
      rw [rest] at same drained
      refine ⟨?_, drained⟩
      rw [read, Option.toList_some, same, List.append_assoc, List.singleton_append]

theorem account_serve (calls : List Call) (assembly : Assembly)
    (told : List (Except Error StepResult)) :
    (assembly.queue ++ (pushed calls).flatMap Text.lines).foldl Account.record
        (assembly.account told) =
      (assembly.serve calls).2.queue.foldl Account.record
        ((assembly.serve calls).2.account (told ++ (assembly.serve calls).1)) := by
  induction calls generalizing assembly told with
  | nil => simp [pushed, serve]
  | cons call calls induction =>
      cases call with
      | push message =>
          have rest := induction (assembly.push message) told
          rw [push, List.append_assoc] at rest
          exact rest
      | next =>
          have found : assembly.next = (assembly.next.1, assembly.next.2) := rfl
          have read := account_next_from found told
          have rest := induction assembly.next.2 (told ++ assembly.next.1.toList)
          rw [List.foldl_append, ← read, ← List.foldl_append, List.append_assoc] at rest
          exact rest

end Assembly

/-- Lines that come in one message, with or without a newline behind the last of them. -/
structure Group where
  lines : List Text
  isEnded : Bool

def Group.message (group : Group) : Text :=
  ['\n'].intercalate group.lines ++ if group.isEnded then ['\n'] else []

theorem lines_of_messages (groups : List Group)
    (plain : ∀ group ∈ groups, ∀ line ∈ group.lines, Text.IsPlain line)
    (filled : ∀ group ∈ groups, group.lines ≠ []) :
    (groups.map Group.message).flatMap Text.lines = groups.flatMap Group.lines := by
  rw [List.flatMap_map]
  apply List.flatMap_congr
  intro group member
  apply Text.lines_of_joined group.lines (plain group member) _ _ (filled group member)
  by_cases ended : group.isEnded <;> simp [ended]

/-- However lines are grouped into messages and whenever results are asked for, what is
yielded is told by the account of the lines, and what is left over is what the account has
left over. No answer set is missing, told twice or told under another step. -/
theorem assembly_ignores_messages {lines : List Text} (plain : ∀ line ∈ lines, Text.IsPlain line)
    {groups : List Group} (cut : groups.flatMap Group.lines = lines)
    (filled : ∀ group ∈ groups, group.lines ≠ []) {calls : List Assembly.Call}
    (pushes : Assembly.pushed calls = groups.map Group.message) :
    let asked := Assembly.empty.serve calls
    let drained := asked.2.drain
    let account := Account.ofLines lines
    asked.1 ++ drained.1 = account.told ∧
      drained.2 = ⟨[], account.step, account.gathered⟩ ∧
      account.results.flatMap StepResult.answerSets ++ account.gathered =
        answersAfter [] lines := by
  intro asked drained account
  have inGroups : ∀ group ∈ groups, ∀ line ∈ group.lines, Text.IsPlain line := by
    intro group member line inside
    apply plain
    rw [← cut]
    exact List.mem_flatMap_of_mem member inside
  have arrive : (Assembly.pushed calls).flatMap Text.lines = lines := by
    rw [pushes, lines_of_messages groups inGroups filled, cut]
  have served := Assembly.account_serve calls .empty []
  obtain ⟨read, nothing⟩ := Assembly.account_drain asked.2 asked.1
  rw [arrive] at served
  have same : account = drained.2.account (asked.1 ++ drained.1) := served.trans read
  refine ⟨?_, ?_, ?_⟩
  · rw [same, Assembly.account]
  · rw [same, Assembly.account, ← nothing]
  · exact Account.told_and_gathered [] lines .empty rfl

/-- A warning stands between an answer set and the end of its step, and the first message is
taken up before the second comes. -/
def warnedStep : List Group :=
  [⟨["Step: 1".toList, "a(1) b".toList], false⟩,
    ⟨["Warning: c is undefined".toList, "End of Step.".toList], true⟩]

theorem warned_step_told :
    let calls : List Assembly.Call :=
      [.push "Step: 1\na(1) b".toList, .next,
        .push "Warning: c is undefined\nEnd of Step.\n".toList, .next]
    Assembly.pushed calls = warnedStep.map Group.message ∧
      (Assembly.empty.serve calls).1 ++ (Assembly.empty.serve calls).2.drain.1 =
        [.error (.server (.warning "c is undefined".toList)),
          .ok ⟨some 1, [⟨some 1, ["a(1)".toList, "b".toList]⟩], .satisfiable⟩] := by
  intro calls
  have plain : ∀ line ∈ warnedStep.flatMap Group.lines, Text.IsPlain line := by
    intro line member
    simp only [warnedStep, List.flatMap_cons, List.flatMap_nil, List.cons_append,
      List.nil_append, List.mem_cons, List.not_mem_nil, or_false] at member
    rcases member with rfl | rfl | rfl | rfl <;> exact ⟨by decide, by decide, by decide⟩
  have filled : ∀ group ∈ warnedStep, group.lines ≠ [] := by simp [warnedStep]
  have pushes : Assembly.pushed calls = warnedStep.map Group.message := by decide
  have account := assembly_ignores_messages plain rfl filled pushes
  exact ⟨pushes, account.1.trans (by decide +kernel)⟩

end StepStream.Response
