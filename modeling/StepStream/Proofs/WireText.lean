import StepStream.Proofs.CarriedConstraint
import StepStream.Proofs.Lines
import StepStream.Source.StepBuffer

/-!
The text on the wire as a stream file. What a session sends for the fragments of a file, with
the constraints that it carries over, reads back as the same fragments with these constraints.
-/

namespace StepStream

set_option autoImplicit false

open Text (splitAfter completeLine EndsOnce)

namespace Text

def IsLine (line : Text) : Prop := EndsOnce '\n' line ∨ '\n' ∉ line

theorem is_line_of_split_after {text line : Text} (member : line ∈ splitAfter '\n' text) :
    IsLine line := by
  rcases piece_of_split_after member with ended | ⟨absent, -⟩
  · exact .inl ended
  · exact .inr absent

theorem complete_line_of_ended {line : Text} (ended : EndsOnce '\n' line) :
    completeLine line = line := by
  obtain ⟨body, -, rfl⟩ := ended
  rw [completeLine, if_pos (by simp)]

theorem complete_line_of_absent {line : Text} (absent : '\n' ∉ line) :
    completeLine line = line ++ ['\n'] := by
  rw [completeLine, if_neg]
  intro last
  exact absent (List.mem_of_getLast? last)

end Text

/-- Whether a line can stand in a fragment: it has its newline and no other, and it is sent to
the server. -/
structure Fragment.IsStatement (line : Text) : Prop where
  ended : EndsOnce '\n' line
  program : (Line.classify line).isProgramLine = true

namespace Fragment

def IsProgram (fragment : Fragment) : Prop := ∀ line ∈ fragment.lines, IsStatement line

def extended (extra : List Text) (fragment : Fragment) : Fragment :=
  ⟨fragment.lines ++ extra.map (· ++ ['\n'])⟩

theorem is_statement_of_complete {line : Text} (single : Text.IsLine line)
    (program : (Line.classify line).isProgramLine = true) : IsStatement (completeLine line) := by
  rcases single with ended | absent
  · rw [Text.complete_line_of_ended ended]
    exact ⟨ended, program⟩
  · rw [Text.complete_line_of_absent absent]
    refine ⟨⟨line, absent, rfl⟩, ?_⟩
    rw [Line.classify_newline]
    exact program

theorem of_lines_of_program {fragment : Fragment} (program : fragment.IsProgram) :
    ofLines fragment.lines = fragment := by
  have complete : fragment.lines.map completeLine = fragment.lines.map id := by
    rw [List.map_inj_left]
    intro line member
    exact Text.complete_line_of_ended (program line member).ended
  rw [ofLines, complete, List.map_id]

theorem is_program_extended {fragment : Fragment} (program : fragment.IsProgram)
    {extra : List Text} (constraints : ∀ line ∈ extra, CarryOver.IsConstraint line) :
    (fragment.extended extra).IsProgram := by
  intro line member
  rcases List.mem_append.1 member with own | further
  · exact program line own
  · obtain ⟨constraint, here, rfl⟩ := List.mem_map.1 further
    have single := constraints constraint here
    refine ⟨⟨constraint, single.newline, rfl⟩, ?_⟩
    rw [Line.classify_newline, single.kind]
    rfl

theorem render_eq {extra : List Text} (constraints : ∀ line ∈ extra, CarryOver.IsConstraint line)
    (fragment : Fragment) :
    fragment.render extra = ((fragment.extended extra).lines ++ [endStep]).flatten := by
  have complete : extra.map completeLine = extra.map (· ++ ['\n']) := by
    rw [List.map_inj_left]
    intro line member
    exact Text.complete_line_of_absent (constraints line member).newline
  rw [render, extended, List.flatMap_def, complete]
  simp

end Fragment

namespace StepBuffer

variable {file : Text}

theorem collect_program {line : Text} (program : (Line.classify line).isProgramLine = true)
    (closed : List Fragment) (current rest : List Text) :
    collect file closed current (line :: rest) = collect file closed (line :: current) rest := by
  rw [collect, if_pos program]

theorem collect_lines {lines : List Text}
    (program : ∀ line ∈ lines, (Line.classify line).isProgramLine = true)
    (closed : List Fragment) (current rest : List Text) :
    collect file closed current (lines ++ rest) =
      collect file closed (lines.reverse ++ current) rest := by
  induction lines generalizing current with
  | nil => rfl
  | cons line lines induction =>
      obtain ⟨here, others⟩ := List.forall_mem_cons.1 program
      rw [List.cons_append, collect_program here, induction others, List.reverse_cons,
        List.append_assoc, List.singleton_append]

theorem collect_end_step (closed : List Fragment) (current rest : List Text) :
    collect file closed current (Fragment.endStep :: rest) =
      collect file (Fragment.ofLines current.reverse :: closed) [] rest := by
  have kind : Line.classify Fragment.endStep = .endStep := by decide
  rw [collect, kind]
  rfl

theorem collect_stop (closed : List Fragment) (current rest : List Text) :
    collect file closed current (Fragment.stop :: rest) = .ok (closeLast closed current) := by
  have kind : Line.classify Fragment.stop = .stop := by decide
  rw [collect, kind]
  rfl

theorem collect_fragments {fragments : List Fragment}
    (program : ∀ fragment ∈ fragments, fragment.IsProgram) (closed : List Fragment) :
    collect file closed []
        ((fragments.flatMap fun fragment => fragment.lines ++ [Fragment.endStep]) ++
          [Fragment.stop]) =
      .ok (closed.reverse ++ fragments) := by
  induction fragments generalizing closed with
  | nil =>
      rw [List.flatMap_nil, List.nil_append, collect_stop, List.append_nil]
      rfl
  | cons fragment fragments induction =>
      obtain ⟨here, others⟩ := List.forall_mem_cons.1 program
      have sent : ∀ line ∈ fragment.lines, (Line.classify line).isProgramLine = true := by
        intro line member
        exact (here line member).program
      rw [List.flatMap_cons, List.append_assoc, List.append_assoc, collect_lines sent,
        List.singleton_append, collect_end_step, List.append_nil, List.reverse_reverse,
        Fragment.of_lines_of_program here, induction others, List.reverse_cons,
        List.append_assoc, List.singleton_append]

/-- What has been collected of fragments that can be sent: the complete ones, and the lines of
the one that is not complete. -/
structure Sound (closed : List Fragment) (current : List Text) : Prop where
  complete : ∀ fragment ∈ closed, fragment.IsProgram
  last : (Fragment.ofLines current.reverse).IsProgram

theorem Sound.start : Sound [] [] := ⟨nofun, nofun⟩

theorem Sound.line {closed : List Fragment} {current : List Text} (sound : Sound closed current)
    {line : Text} (single : Text.IsLine line)
    (program : (Line.classify line).isProgramLine = true) : Sound closed (line :: current) := by
  refine ⟨sound.complete, ?_⟩
  rw [Fragment.IsProgram, Fragment.ofLines, List.reverse_cons, List.map_append,
    List.forall_mem_append]
  refine ⟨sound.last, ?_⟩
  rw [List.map_singleton, List.forall_mem_singleton]
  exact Fragment.is_statement_of_complete single program

theorem Sound.step {closed : List Fragment} {current : List Text} (sound : Sound closed current) :
    Sound (Fragment.ofLines current.reverse :: closed) [] :=
  ⟨List.forall_mem_cons.2 ⟨sound.last, sound.complete⟩, nofun⟩

theorem Sound.close {closed : List Fragment} {current : List Text} (sound : Sound closed current) :
    ∀ fragment ∈ closeLast closed current, fragment.IsProgram := by
  intro fragment member
  rw [closeLast] at member
  split at member
  · exact sound.complete fragment (List.mem_reverse.1 member)
  · exact sound.step.complete fragment (List.mem_reverse.1 member)

theorem Sound.collect {lines current : List Text} {closed fragments : List Fragment}
    (sound : Sound closed current) (single : ∀ line ∈ lines, Text.IsLine line)
    (collected : StepBuffer.collect file closed current lines = .ok fragments) :
    ∀ fragment ∈ fragments, fragment.IsProgram := by
  -- Of the lines that are accepted only those for the server are kept.
  induction lines generalizing current closed with
  | nil =>
      cases collected
      exact sound.close
  | cons line lines induction =>
      obtain ⟨here, others⟩ := List.forall_mem_cons.1 single
      rw [StepBuffer.collect] at collected
      split at collected
      · next program => exact induction (sound.line here program) others collected
      · split at collected
        · exact induction sound others collected
        · exact induction sound.step others collected
        · cases collected
          exact sound.close
        · cases collected

theorem program_of_lines {lines : List Text} {buffer : StepBuffer}
    (single : ∀ line ∈ lines, Text.IsLine line) (accepted : ofLines file lines = .ok buffer) :
    ∀ fragment ∈ buffer.fragments, fragment.IsProgram := by
  rw [ofLines] at accepted
  split at accepted
  · next fragments collected =>
      cases accepted
      exact Sound.start.collect single collected
  · cases accepted

theorem of_lines_of_fragments {fragments : List Fragment}
    (program : ∀ fragment ∈ fragments, fragment.IsProgram) :
    ofLines file (splitAfter '\n'
        ((fragments.flatMap fun fragment => (fragment.lines ++ [Fragment.endStep]).flatten) ++
          Fragment.stop)) =
      .ok ⟨fragments⟩ := by
  have ended : ∀ line ∈ (fragments.flatMap fun fragment => fragment.lines ++ [Fragment.endStep]) ++
      [Fragment.stop], EndsOnce '\n' line := by
    intro line member
    rcases List.mem_append.1 member with inner | last
    · obtain ⟨fragment, here, inner⟩ := List.mem_flatMap.1 inner
      rcases List.mem_append.1 inner with own | boundary
      · exact (program fragment here line own).ended
      · rw [List.mem_singleton.1 boundary]
        exact ⟨"#endstep.".toList, by decide, rfl⟩
    · rw [List.mem_singleton.1 last]
      exact ⟨"#stop.".toList, by decide, rfl⟩
  have joined :
      (fragments.flatMap fun fragment => (fragment.lines ++ [Fragment.endStep]).flatten) ++
        Fragment.stop =
      ((fragments.flatMap fun fragment => fragment.lines ++ [Fragment.endStep]) ++
        [Fragment.stop]).flatten := by
    rw [List.flatten_append, List.flatten_singleton, List.flatMap_def, List.flatMap_def,
      List.flatten_flatten, List.map_map]
    rfl
  rw [joined, Text.split_after_flatten _ ended, ofLines, collect_fragments program]
  rfl

end StepBuffer

/-- Whether these are the constraints of some carry-over, after any answer sets. -/
def CarryOver.Carries (extra : List Text) : Prop :=
  ∃ (predicate : Text) (carry : CarryOver) (answerSets : List AnswerSet),
    CarryOver.ofPredicate predicate = .ok carry ∧
      extra = (answerSets.foldl CarryOver.observe carry).constraints

theorem CarryOver.constraints_of_carries {extra : List Text} (carries : CarryOver.Carries extra) :
    ∀ line ∈ extra, CarryOver.IsConstraint line := by
  obtain ⟨predicate, carry, answerSets, valid, rfl⟩ := carries
  intro line member
  exact CarryOver.constraints_of_observed valid answerSets member

namespace StepBuffer

theorem flatten_render {extras : List (List Text)} {fragments : List Fragment}
    (constraints : ∀ extra ∈ extras, ∀ line ∈ extra, CarryOver.IsConstraint line) :
    (List.zipWith Fragment.render extras fragments).flatten =
      (List.zipWith Fragment.extended extras fragments).flatMap
        fun fragment => (fragment.lines ++ [Fragment.endStep]).flatten := by
  induction extras generalizing fragments with
  | nil => rfl
  | cons extra extras induction =>
      obtain ⟨here, others⟩ := List.forall_mem_cons.1 constraints
      cases fragments with
      | nil => rfl
      | cons fragment fragments =>
          rw [List.zipWith_cons_cons, List.zipWith_cons_cons, List.flatten_cons,
            List.flatMap_cons, Fragment.render_eq here, induction others]

theorem program_of_extended {extras : List (List Text)} {fragments : List Fragment}
    (constraints : ∀ extra ∈ extras, ∀ line ∈ extra, CarryOver.IsConstraint line)
    (program : ∀ fragment ∈ fragments, fragment.IsProgram) :
    ∀ fragment ∈ List.zipWith Fragment.extended extras fragments, fragment.IsProgram := by
  intro fragment member
  rw [← List.map_uncurry_zip_eq_zipWith] at member
  obtain ⟨⟨extra, own⟩, paired, rfl⟩ := List.mem_map.1 member
  obtain ⟨chosen, here⟩ := List.of_mem_zip paired
  exact Fragment.is_program_extended (program own here) (constraints extra chosen)

theorem extended_nothing {extras : List (List Text)} {fragments : List Fragment}
    (counted : extras.length = fragments.length) (nothing : ∀ extra ∈ extras, extra = []) :
    List.zipWith Fragment.extended extras fragments = fragments := by
  induction extras generalizing fragments with
  | nil =>
      rw [List.length_nil, eq_comm, List.length_eq_zero_iff] at counted
      rw [counted, List.zipWith_nil_right]
  | cons extra extras induction =>
      obtain ⟨here, others⟩ := List.forall_mem_cons.1 nothing
      cases fragments with
      | nil => rfl
      | cons fragment fragments =>
          rw [List.zipWith_cons_cons, here, Fragment.extended, List.map_nil, List.append_nil,
            induction (Nat.succ.inj counted) others]

/-- What a session sends for the fragments of a stream file, and then the end of the session,
reads back as the same fragments, each with the constraints that were carried over to it, and
as the same buffer if there were none. No line closes a fragment, ends the session or is
refused. -/
theorem wire_text_reads_back (file other text : Text) (lines : List Text)
    (cut : lines = splitAfter '\n' text ∨ lines = Text.lines text) (buffer : StepBuffer)
    (accepted : ofLines file lines = .ok buffer) (extras : List (List Text))
    (counted : extras.length = buffer.fragments.length)
    (carried : ∀ extra ∈ extras, CarryOver.Carries extra) :
    let sent := (List.zipWith Fragment.render extras buffer.fragments).flatten ++ Fragment.stop
    ofLines other (splitAfter '\n' sent) =
        .ok ⟨List.zipWith Fragment.extended extras buffer.fragments⟩ ∧
      ((∀ extra ∈ extras, extra = []) → ofLines other (splitAfter '\n' sent) = .ok buffer) ∧
      (∀ fragment ∈ buffer.fragments, ∀ line ∈ fragment.lines,
        (Line.classify line).isProgramLine = true) ∧
      ∀ extra ∈ extras, ∀ line ∈ extra, Line.classify line = .integrity := by
  intro sent
  have single : ∀ line ∈ lines, Text.IsLine line := by
    intro line member
    rcases cut with rfl | rfl
    · exact Text.is_line_of_split_after member
    · exact .inr (Text.newline_of_lines member)
  have program := program_of_lines single accepted
  have constraints : ∀ extra ∈ extras, ∀ line ∈ extra, CarryOver.IsConstraint line := by
    intro extra member
    exact CarryOver.constraints_of_carries (carried extra member)
  have back : ofLines other (splitAfter '\n' sent) =
      .ok ⟨List.zipWith Fragment.extended extras buffer.fragments⟩ := by
    change ofLines other (splitAfter '\n' (_ ++ _)) = _
    rw [flatten_render constraints]
    exact of_lines_of_fragments (program_of_extended constraints program)
  refine ⟨back, ?_, ?_, ?_⟩
  · intro nothing
    rw [back, extended_nothing counted nothing]
  · intro fragment member line here
    exact (program fragment member line here).program
  · intro extra member line here
    exact (constraints extra member line here).kind

/-- Two steps, the second with a constraint from the answer to the first. -/
theorem carried_step_reads_back :
    ofLines [] (splitAfter '\n'
        "b.\n#endstep.\nc.\n:- not p(1).\n#endstep.\n#stop.\n".toList) =
      .ok ⟨[⟨["b.\n".toList]⟩, ⟨["c.\n".toList, ":- not p(1).\n".toList]⟩]⟩ := by
  have accepted : ofLines [] (splitAfter '\n' "b.\n#endstep.\n% two\nc.".toList) =
      .ok ⟨[⟨["b.\n".toList]⟩, ⟨["c.\n".toList]⟩]⟩ := by rfl
  have carried : ∀ extra ∈ [[], [":- not p(1).".toList]], CarryOver.Carries extra := by
    rw [List.forall_mem_cons, List.forall_mem_singleton]
    exact ⟨⟨['p'], ⟨['p'], []⟩, [], by rfl, rfl⟩,
      ⟨['p'], ⟨['p'], []⟩, [⟨none, ["p(1,2)".toList]⟩], by rfl, by rfl⟩⟩
  exact (wire_text_reads_back [] [] _ _ (.inl rfl) _ accepted _ rfl carried).1

end StepBuffer

end StepStream
