import StepStream.Proofs.Calls

/-!
The fragments that lines make up. A stream file is cut into them at once, and a reader hands
them out one call after the other. Lines that a file must not have are passed over by the reader,
so both agree on all other lines.
-/

namespace StepStream

set_option autoImplicit false

def lastFragment (current : List Text) : List Fragment :=
  if current.isEmpty then [] else [Fragment.ofLines current]

/-- The fragments of lines that follow the gathered ones. Nothing behind a `#stop.` line
matters. -/
def fragmentsFrom (current : List Text) : List Text → List Fragment
  | [] => lastFragment current
  | line :: rest =>
      let kind := Line.classify line
      if kind.isProgramLine then fragmentsFrom (current ++ [line]) rest
      else match kind with
        | .endStep => Fragment.ofLines current :: fragmentsFrom [] rest
        | .stop => lastFragment current
        | _ => fragmentsFrom current rest

def LineKind.isFileLine : LineKind → Bool
  | incrementStep _ | unrecognized => false
  | _ => true

namespace StepBuffer

theorem close_last_eq (closed : List Fragment) (current : List Text) :
    closeLast closed current.reverse = closed.reverse ++ lastFragment current := by
  rw [closeLast, lastFragment, List.isEmpty_reverse, List.reverse_reverse]
  split
  · rw [List.append_nil]
  · rw [List.reverse_cons]

/-- Lines that a file may have are cut into their fragments, and others do not belong to any. -/
theorem collect_file_lines (file : Text) (lines current : List Text) (closed : List Fragment) :
    collect file closed current.reverse
        (lines.filter fun line => (Line.classify line).isFileLine) =
      .ok (closed.reverse ++ fragmentsFrom current lines) := by
  induction lines generalizing current closed with
  | nil => simp only [List.filter_nil, collect, close_last_eq, fragmentsFrom]
  | cons line lines induction =>
      have gathers := induction (current ++ [line]) closed
      have passes := induction current closed
      have closes := induction [] (Fragment.ofLines current :: closed)
      rw [List.reverse_append, List.reverse_singleton, List.singleton_append] at gathers
      rw [List.reverse_nil, List.reverse_cons, List.append_assoc] at closes
      rw [List.filter_cons, fragmentsFrom]
      cases kind : Line.classify line with
      | step | cumulative | volatile | forget | assert | retract | fact | integrity | rule =>
          simp only [LineKind.isFileLine, LineKind.isProgramLine, if_true, collect, kind]
          exact gathers
      | endStep =>
          simp only [LineKind.isFileLine, LineKind.isProgramLine, if_true, collect, kind,
            Bool.false_eq_true, if_false, List.reverse_reverse]
          exact closes
      | stop =>
          simp only [LineKind.isFileLine, LineKind.isProgramLine, if_true, collect, kind,
            Bool.false_eq_true, if_false, close_last_eq]
      | commentOrBlank =>
          simp only [LineKind.isFileLine, LineKind.isProgramLine, if_true, collect, kind,
            Bool.false_eq_true, if_false]
          exact passes
      | incrementStep | unrecognized =>
          simp only [LineKind.isFileLine, LineKind.isProgramLine, Bool.false_eq_true, if_false]
          exact passes

theorem of_file_lines (file : Text) (lines : List Text) :
    ofLines file (lines.filter fun line => (Line.classify line).isFileLine) =
      .ok ⟨fragmentsFrom [] lines⟩ := by
  have collected := collect_file_lines file lines [] []
  rw [List.reverse_nil, List.reverse_nil, List.nil_append] at collected
  rw [ofLines, collected]

end StepBuffer

namespace Source

def Yields (source : Source) (fragments : List Fragment) : Prop :=
  ∀ steps, steps.length = fragments.length + 1 →
    source.answers steps =
      fragments.map (fun fragment => .ok (.fragment fragment)) ++ [.ok .stop]

theorem yields_of_stop {source : Source}
    (stops : ∀ step, (source.next step).1.input = .ok .stop) : source.Yields [] := by
  intro steps counted
  obtain ⟨step, rfl⟩ := List.length_eq_one_iff.1 counted
  rw [answers, stops]
  rfl

theorem yields_of_fragment {source : Source} {fragment : Fragment} {fragments : List Fragment}
    (first : ∀ step, (source.next step).1.input = .ok (.fragment fragment))
    (others : ∀ step, (source.next step).2.Yields fragments) :
    source.Yields (fragment :: fragments) := by
  intro steps counted
  obtain ⟨step, steps, rfl⟩ := List.exists_cons_of_length_eq_add_one counted
  rw [List.length_cons, Nat.add_right_cancel_iff] at counted
  rw [answers, first, others step steps counted]
  rfl

theorem yields_buffer (fragments : List Fragment) : (buffer ⟨fragments⟩).Yields fragments := by
  induction fragments with
  | nil => exact yields_of_stop fun _ => rfl
  | cons fragment fragments induction => exact yields_of_fragment (fun _ => rfl) fun _ => induction

end Source

namespace Interactive

theorem yields_pending (terminal : Terminal) : (Source.interactive ⟨terminal, true⟩).Yields [] :=
  Source.yields_of_stop fun _ => rfl

/-- What a call finds that begins with some lines gathered: the first of the fragments that are
to come, behind which the reader has the others, or the stop. -/
def Finds (fragments : List Fragment)
    (found : (Except Error StepInput × Text) × Interactive) : Prop :=
  match fragments with
  | [] => found.1.1 = .ok .stop
  | fragment :: others =>
      found.1.1 = .ok (.fragment fragment) ∧ (Source.interactive found.2).Yields others

theorem yields_of_finds {lines : List Text} {fragments : List Fragment}
    (finds : ∀ prompts, Finds fragments (gatherFrom [] prompts (lines.map Text.utf8))) :
    (Source.typed (lines.map Text.utf8)).Yields fragments := by
  have found := finds prompt
  cases fragments with
  | nil => exact Source.yields_of_stop fun _ => found
  | cons fragment others => exact Source.yields_of_fragment (fun _ => found.1) fun _ => found.2

theorem finds_at_stop (current : List Text) (prompts : Text) (terminal : Terminal) :
    Finds (lastFragment current)
      ((.ok (atStop current).1, prompts), ⟨terminal, (atStop current).2⟩) := by
  rw [lastFragment, atStop]
  split
  · rfl
  · exact ⟨rfl, yields_pending terminal⟩

theorem finds_fragments (lines current : List Text) (prompts : Text) :
    Finds (fragmentsFrom current lines)
      (gatherFrom current prompts (lines.map Text.utf8)) := by
  induction lines generalizing current prompts with
  | nil => exact finds_at_stop current prompts ⟨[]⟩
  | cons line lines induction =>
      rw [List.map_cons, gatherFrom, Terminal.decode_line_utf8, fragmentsFrom]
      dsimp only
      rw [absorb]
      cases Line.classify line with
      | step | cumulative | volatile | forget | assert | retract | fact | integrity | rule =>
          exact induction (current ++ [line]) prompts
      | commentOrBlank => exact induction current prompts
      | incrementStep | unrecognized => exact induction current (prompts ++ prompt)
      | stop => exact finds_at_stop current prompts ⟨lines.map Text.utf8⟩
      | endStep => exact ⟨rfl, yields_of_finds fun later => induction [] later⟩

end Interactive

/-- What is typed in yields the fragments of a stream file of the same lines, without those that
a file must not have, and then the stop. -/
theorem interactive_agrees_with_file (file text : Text) :
    let lines := (Text.splitAfter '\n' text).filter fun line => (Line.classify line).isFileLine
    ∃ buffer, StepBuffer.ofLines file lines = .ok buffer ∧
      (Source.buffer buffer).Yields buffer.fragments ∧
      (Source.interactive ⟨.ofBytes (Text.utf8 text), false⟩).Yields buffer.fragments := by
  intro lines
  refine ⟨⟨fragmentsFrom [] (Text.splitAfter '\n' text)⟩, StepBuffer.of_file_lines _ _,
    Source.yields_buffer _, ?_⟩
  change (Source.typed (Terminal.ofBytes (Text.utf8 text)).lines).Yields _
  rw [Terminal.lines_of_text]
  exact Interactive.yields_of_finds fun prompts => Interactive.finds_fragments _ [] prompts

end StepStream
