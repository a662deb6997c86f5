import Mathlib.Data.List.Basic
import StepStream.Proofs.TypedFragments

/-!
The steps of a stream file. The lines count up to the first `#stop.`, and the `#endstep.` lines
among them cut them into steps. One line that a file must not have refuses the whole file, before
anything is handed out. Otherwise each step is handed out once, and then the stop forever.
-/

namespace StepStream

set_option autoImplicit false

namespace Line

def isEndStep (line : Text) : Bool := classify line = .endStep

def isProgram (line : Text) : Bool := (classify line).isProgramLine

def isFileLine (line : Text) : Bool := (classify line).isFileLine

theorem is_file_line_iff (line : Text) :
    isFileLine line = false ↔
      classify line = .unrecognized ∨ ∃ target, classify line = .incrementStep target := by
  rw [isFileLine]
  cases classify line <;> simp [LineKind.isFileLine]

end Line

namespace StepBuffer

open Line

variable {file : Text}

def scanned (lines : List Text) : List Text := lines.takeWhile fun line => classify line ≠ .stop

/-- The program lines of each step. Those behind the last `#endstep.` come last. -/
def stepsOf (lines : List Text) : List (List Text) :=
  (lines.splitOnP isEndStep).map (List.filter isProgram)

def handedOut : StepBuffer → Nat → List StepInput
  | _, 0 => []
  | buffer, turns + 1 => buffer.pop.1 :: handedOut buffer.pop.2 turns

/-! ## The lines that count -/

theorem scanned_cons {line : Text} (goesOn : classify line ≠ .stop) (rest : List Text) :
    scanned (line :: rest) = line :: scanned rest :=
  List.takeWhile_cons_of_pos (decide_eq_true goesOn)

theorem scanned_at_stop {line : Text} (stops : classify line = .stop) (rest : List Text) :
    scanned (line :: rest) = [] :=
  List.takeWhile_cons_of_neg (by simp [stops])

theorem no_stop_scanned (lines : List Text) : ∀ line ∈ scanned lines, classify line ≠ .stop := by
  intro line member
  rw [scanned] at member
  have goesOn := List.mem_takeWhile_imp member
  exact of_decide_eq_true goesOn

theorem collect_scanned (closed : List Fragment) (current lines : List Text) :
    collect file closed current (scanned lines) = collect file closed current lines := by
  induction lines generalizing closed current with
  | nil => rfl
  | cons line lines induction =>
      by_cases stops : classify line = .stop
      · rw [scanned_at_stop stops, collect, collect, stops]
        rfl
      · rw [scanned_cons stops]
        simp only [collect, induction]

theorem of_lines_scanned (file : Text) (lines : List Text) :
    ofLines file (scanned lines) = ofLines file lines := by
  rw [ofLines, collect_scanned, ofLines]

/-- The first line that a file must not have is reported with the number of its step. -/
theorem collect_refused {before : List Text} {line : Text}
    (fits : ∀ earlier ∈ before, isFileLine earlier = true ∧ classify earlier ≠ .stop)
    (refused : isFileLine line = false) (closed : List Fragment) (current after : List Text) :
    collect file closed current (before ++ line :: after) =
      .error (.input (.invalidLine (Text.stripLineEnd line)
        (closed.length + before.countP isEndStep + 1) file)) := by
  induction before generalizing closed current with
  | nil =>
      rw [is_file_line_iff] at refused
      rw [List.nil_append, collect]
      cases refused with
      | inl kind =>
          rw [kind]
          rfl
      | inr step =>
          obtain ⟨target, kind⟩ := step
          rw [kind]
          rfl
  | cons first before induction =>
      obtain ⟨⟨fit, goesOn⟩, others⟩ := List.forall_mem_cons.1 fits
      have later := induction others
      rw [isFileLine] at fit
      rw [List.cons_append, collect, List.countP_cons, isEndStep]
      cases kind : classify first with
      | step | cumulative | volatile | forget | assert | retract | fact | integrity | rule =>
          exact later closed (first :: current)
      | endStep =>
          have next := later (Fragment.ofLines current.reverse :: closed) []
          rw [List.length_cons, Nat.add_right_comm closed.length] at next
          exact next
      | commentOrBlank => exact later closed current
      | stop => exact absurd kind goesOn
      | incrementStep | unrecognized =>
          rw [kind] at fit
          cases fit

/-! ## The steps -/

theorem steps_at_end {line : Text} (ends : isEndStep line = true) (rest : List Text) :
    stepsOf (line :: rest) = [] :: stepsOf rest := by
  rw [stepsOf, List.splitOnP_cons_eq_if_modifyHead, if_pos ends]
  rfl

theorem steps_within {line : Text} (within : isEndStep line = false) (rest : List Text) :
    stepsOf (line :: rest) =
      (stepsOf rest).modifyHead fun step => if isProgram line then line :: step else step := by
  obtain ⟨step, steps, cut⟩ := List.exists_cons_of_ne_nil (List.splitOnP_ne_nil isEndStep rest)
  rw [stepsOf, List.splitOnP_cons_eq_if_modifyHead, within, stepsOf, cut]
  simp only [Bool.false_eq_true, if_false, List.modifyHead_cons, List.map_cons, List.filter_cons]

/-- The steps whose fragments are handed out: those that are ended, and the last one unless it has
no program lines. -/
def sentSteps (ended : List (List Text)) (last : List Text) : List (List Text) :=
  ended ++ if last = [] then [] else [last]

theorem fragments_within {line : Text} (goesOn : classify line ≠ .stop)
    (within : isEndStep line = false) (current rest : List Text) :
    fragmentsFrom current (line :: rest) =
      fragmentsFrom (if isProgram line then current ++ [line] else current) rest := by
  rw [isEndStep, decide_eq_false_iff_not] at within
  rw [fragmentsFrom, isProgram]
  cases kind : classify line with
  | endStep => exact absurd kind within
  | stop => exact absurd kind goesOn
  | _ => rfl

/-- Lines are cut into the fragments of their steps. The first step goes on with the lines gathered
before. -/
theorem fragments_of_steps (lines current : List Text)
    (goesOn : ∀ line ∈ lines, classify line ≠ .stop) :
    ∃ ended last, (stepsOf lines).modifyHead (current ++ ·) = ended ++ [last] ∧
      ended.length = lines.countP isEndStep ∧
      fragmentsFrom current lines = (sentSteps ended last).map Fragment.ofLines := by
  induction lines generalizing current with
  | nil =>
      refine ⟨[], current, ?_, rfl, ?_⟩
      · simp [stepsOf]
      · rw [fragmentsFrom, lastFragment, sentSteps]
        cases current <;> rfl
  | cons line lines induction =>
      obtain ⟨here, others⟩ := List.forall_mem_cons.1 goesOn
      have later (more : List Text) := induction more others
      cases ends : isEndStep line with
      | true =>
          obtain ⟨ended, last, cut, count, fragments⟩ := later []
          have kind : classify line = .endStep := of_decide_eq_true ends
          refine ⟨current :: ended, last, ?_, ?_, ?_⟩
          · have same : stepsOf lines = ended ++ [last] :=
              (congrFun List.modifyHead_id _).symm.trans cut
            rw [steps_at_end ends, same]
            simp
          · rw [List.length_cons, count, List.countP_cons_of_pos ends]
          · rw [fragmentsFrom, kind]
            dsimp only
            rw [fragments, sentSteps, sentSteps, List.cons_append, List.map_cons]
            rfl
      | false =>
          obtain ⟨ended, last, cut, count, fragments⟩ :=
            later (if isProgram line then current ++ [line] else current)
          refine ⟨ended, last, ?_, ?_, ?_⟩
          · rw [steps_within ends, List.modifyHead_modifyHead, ← cut]
            congr 1
            funext step
            cases isProgram line <;> simp
          · rw [count, List.countP_cons_of_neg (by simp [ends])]
          · rw [fragments_within here ends, fragments]

theorem of_scanned_file_lines {lines : List Text}
    (fits : ∀ line ∈ scanned lines, isFileLine line = true) :
    ofLines file lines = .ok ⟨fragmentsFrom [] (scanned lines)⟩ := by
  have kept : (scanned lines).filter isFileLine = scanned lines := List.filter_eq_self.2 fits
  have cut := of_file_lines file (scanned lines)
  rw [← of_lines_scanned, ← cut]
  exact congrArg (ofLines file) kept.symm

theorem handed_out_then_stop (fragments : List Fragment) (turns : Nat) :
    handedOut ⟨fragments⟩ (fragments.length + turns) =
      fragments.map .fragment ++ List.replicate turns .stop := by
  induction fragments with
  | nil =>
      rw [List.length_nil, Nat.zero_add, List.map_nil, List.nil_append]
      induction turns with
      | zero => rfl
      | succ turns induction =>
          rw [handedOut, List.replicate_succ]
          exact congrArg _ induction
  | cons fragment fragments induction =>
      rw [List.length_cons, Nat.add_right_comm, handedOut, List.map_cons, List.cons_append]
      exact congrArg _ induction

theorem of_lines_ended {lines : List Text} (ended : ∀ line ∈ lines, line.getLast? = some '\n') :
    (Fragment.ofLines lines).lines = lines := by
  have complete : lines.map Text.completeLine = lines.map id := by
    rw [List.map_inj_left]
    intro line member
    exact if_pos (ended line member)
  rw [Fragment.ofLines, complete, List.map_id]

theorem mem_of_step {lines step : List Text} {line : Text} (member : step ∈ stepsOf lines)
    (here : line ∈ step) : line ∈ lines := by
  obtain ⟨piece, cut, rfl⟩ := List.mem_map.1 member
  exact (Text.item_of_piece cut line (List.mem_of_mem_filter here)).1

theorem mem_of_sent {ended : List (List Text)} {last step : List Text}
    (member : step ∈ sentSteps ended last) : step ∈ ended ++ [last] := by
  rw [sentSteps] at member
  cases List.mem_append.1 member with
  | inl earlier => exact List.mem_append_left _ earlier
  | inr final =>
      split at final
      · cases final
      · exact List.mem_append_right _ final

theorem lines_of_sent {lines last : List Text} {ended : List (List Text)}
    (cut : stepsOf lines = ended ++ [last])
    (complete : ∀ line ∈ lines, line.getLast? = some '\n') :
    ((sentSteps ended last).map Fragment.ofLines).map Fragment.lines = sentSteps ended last := by
  have kept : ∀ step ∈ sentSteps ended last, (Fragment.ofLines step).lines = step := by
    intro step member
    have known : step ∈ stepsOf lines := cut ▸ mem_of_sent member
    exact of_lines_ended fun line here => complete line (mem_of_step known here)
  rw [List.map_map]
  exact (List.map_congr_left kept).trans (List.map_id _)

theorem first_line_refused {lines before after : List Text} {line : Text}
    (whole : scanned lines = before ++ line :: after)
    (fits : ∀ earlier ∈ before, isFileLine earlier = true) (refused : isFileLine line = false) :
    ofLines file lines = .error (.input (.invalidLine (Text.stripLineEnd line)
      (1 + before.countP isEndStep) file)) := by
  have goesOn : ∀ earlier ∈ before, classify earlier ≠ .stop := by
    intro earlier member
    apply no_stop_scanned lines
    rw [whole]
    exact List.mem_append_left _ member
  have reported : collect file [] [] (before ++ line :: after) = _ :=
    collect_refused (fun earlier member => ⟨fits earlier member, goesOn earlier member⟩) refused
      [] [] after
  rw [← of_lines_scanned, ofLines, whole, reported, List.length_nil, Nat.zero_add, Nat.add_comm]

/-- Only the lines in front of the first `#stop.` count. If one of them is a line that a file must
not have, the first such line refuses the file, with the number of the step that it stands in.
Otherwise every `#endstep.` line yields the fragment of the program lines since the one before, a
last fragment follows if there are program lines behind all of them, and then the stop forever.
Lines that have their newline are handed out as they are. -/
theorem stream_file_checked_first (file : Text) (lines : List Text) :
    let counted := scanned lines
    ofLines file lines = ofLines file counted ∧
      (∀ before line after, counted = before ++ line :: after →
        (∀ earlier ∈ before, isFileLine earlier = true) → isFileLine line = false →
        ofLines file lines = .error (.input (.invalidLine (Text.stripLineEnd line)
          (1 + before.countP isEndStep) file))) ∧
      ((∀ line ∈ counted, isFileLine line = true) →
        ∃ ended last buffer, stepsOf counted = ended ++ [last] ∧
          ended.length = counted.countP isEndStep ∧
          ofLines file lines = .ok buffer ∧
          buffer.fragments = (sentSteps ended last).map Fragment.ofLines ∧
          (∀ turns, handedOut buffer (buffer.fragments.length + turns) =
            buffer.fragments.map .fragment ++ List.replicate turns .stop) ∧
          ((∀ line ∈ counted, line.getLast? = some '\n') →
            buffer.fragments.map Fragment.lines = sentSteps ended last)) := by
  intro counted
  refine ⟨(of_lines_scanned file lines).symm, ?_, ?_⟩
  · intro before line after whole fits refused
    exact first_line_refused whole fits refused
  · intro fits
    obtain ⟨ended, last, cut, count, fragments⟩ :=
      fragments_of_steps counted [] (no_stop_scanned lines)
    have steps : stepsOf counted = ended ++ [last] :=
      (congrFun List.modifyHead_id _).symm.trans cut
    refine ⟨ended, last, _, steps, count, of_scanned_file_lines fits, fragments,
      handed_out_then_stop _, fun complete => ?_⟩
    rw [fragments]
    exact lines_of_sent steps complete

-- An empty step, a comment in a step that is left open, and a line behind the stop.
example : ofLines [] ["#endstep.\n".toList, "a.\n".toList, "% b.\n".toList, "#stop.\n".toList,
    "Nothing".toList] = .ok ⟨[⟨[]⟩, ⟨["a.\n".toList]⟩]⟩ := by rfl

end StepBuffer

end StepStream
