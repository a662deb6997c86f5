import StepStream.Response.Assembly

/-!
What lines yield. The results and faults of a sequence of lines are read off line by line,
whatever the queue holds at which moment. Asking an assembly takes the first of them and
leaves the others.
-/

namespace StepStream.Response.Assembly

set_option autoImplicit false

variable {skips : Error → Bool} {assembly later : Assembly} {lines : List Text}
  {found : Except Error StepResult}

def kept (skips : Error → Bool) : Option (Except Error StepResult) → List (Except Error StepResult)
  | none => []
  | some (.ok result) => [.ok result]
  | some (.error fault) => if skips fault then [] else [.error fault]

/-- Everything that lines yield, where a line may also be a fault by itself. -/
def outcomes (skips : Error → Bool) (assembly : Assembly) :
    List (Except Error Text) → List (Except Error StepResult)
  | [] => []
  | .error fault :: rest => .error fault :: outcomes skips assembly rest
  | .ok line :: rest =>
      kept skips (assembly.absorb line).1 ++ outcomes skips (assembly.absorb line).2 rest

theorem absorb_with_queue (assembly : Assembly) (queue : List Text) (line : Text) :
    { assembly with queue := queue }.absorb line =
      ((assembly.absorb line).1, { (assembly.absorb line).2 with queue := queue }) := by
  unfold absorb
  cases read line with
  | error fault => rfl
  | ok kind => cases kind <;> rfl

theorem outcomes_with_queue (skips : Error → Bool) (assembly : Assembly) (queue : List Text)
    (items : List (Except Error Text)) :
    outcomes skips { assembly with queue := queue } items = outcomes skips assembly items := by
  induction items generalizing assembly with
  | nil => rfl
  | cons item rest induction =>
      cases item with
      | error fault => rw [outcomes, outcomes, induction]
      | ok line => rw [outcomes, outcomes, absorb_with_queue, induction]

theorem next_from_none (next : assembly.nextFrom skips lines = (none, later))
    (rest : List (Except Error Text)) :
    outcomes skips assembly (lines.map .ok ++ rest) = outcomes skips later rest ∧
      later.queue = [] := by
  induction lines generalizing assembly with
  | nil =>
      cases next
      exact ⟨(outcomes_with_queue skips assembly [] rest).symm, rfl⟩
  | cons line lines induction =>
      rw [nextFrom] at next
      rw [List.map_cons, List.cons_append, outcomes]
      split at next
      · next absorbed => rw [absorbed]; exact induction next
      · next => cases next
      · next absorbed =>
          rw [absorbed]
          split at next
          · next skipped => rw [kept, if_pos skipped]; exact induction next
          · next => cases next

theorem next_from_some (next : assembly.nextFrom skips lines = (some found, later))
    (rest : List (Except Error Text)) :
    outcomes skips assembly (lines.map .ok ++ rest) =
        found :: outcomes skips later (later.queue.map .ok ++ rest) ∧
      later.queue.length < lines.length := by
  induction lines generalizing assembly with
  | nil => cases next
  | cons line lines induction =>
      rw [nextFrom] at next
      rw [List.map_cons, List.cons_append, outcomes, List.length_cons]
      split at next
      · next absorbed =>
          rw [absorbed]
          obtain ⟨same, shorter⟩ := induction next
          exact ⟨same, by omega⟩
      · next result after absorbed =>
          rw [absorbed]
          cases next
          have same := outcomes_with_queue skips after lines (lines.map .ok ++ rest)
          exact ⟨congrArg (_ :: ·) same.symm, Nat.lt_succ_self _⟩
      · next fault after absorbed =>
          rw [absorbed]
          split at next
          · next skipped =>
              rw [kept, if_pos skipped]
              obtain ⟨same, shorter⟩ := induction next
              exact ⟨same, by omega⟩
          · next told =>
              cases next
              have same := outcomes_with_queue skips after lines (lines.map .ok ++ rest)
              rw [kept, if_neg told]
              exact ⟨congrArg (_ :: ·) same.symm, Nat.lt_succ_self _⟩

/-- Everything that the queued lines yield, and then these. -/
def ahead (assembly : Assembly) (rest : List (Except Error Text)) :
    List (Except Error StepResult) :=
  outcomes Error.isRecoverable assembly (assembly.queue.map .ok ++ rest)

theorem next_unwarned_none (next : assembly.nextUnwarned = (none, later))
    (rest : List (Except Error Text)) :
    assembly.ahead rest = later.ahead rest ∧ later.queue = [] := by
  obtain ⟨same, drained⟩ := next_from_none next rest
  refine ⟨?_, drained⟩
  rw [ahead, same, ahead, drained]
  rfl

theorem next_unwarned_some (next : assembly.nextUnwarned = (some found, later))
    (rest : List (Except Error Text)) :
    assembly.ahead rest = found :: later.ahead rest ∧
      later.queue.length < assembly.queue.length :=
  next_from_some next rest

theorem ahead_push (assembly : Assembly) (message : Text) (rest : List (Except Error Text)) :
    (assembly.push message).ahead rest =
      assembly.ahead ((Text.lines message).map .ok ++ rest) := by
  rw [ahead, ahead, push, outcomes_with_queue, List.map_append, List.append_assoc]

end StepStream.Response.Assembly
