import StepStream.Line.Classify
import StepStream.Pattern.Lemmas
import StepStream.Proofs.Lines
import StepStream.Proofs.Session

/-!
What a carried constraint is to the one who reads it: one line, and an integrity constraint,
whatever the atom was that the server had printed.
-/

namespace StepStream

set_option autoImplicit false

namespace Text

theorem mem_of_split_first {mark : Char} {text before after : Text}
    (found : splitFirst mark text = some (before, after)) :
    ∀ character ∈ after, character ∈ text := by
  rw [splitFirst, List.span_eq_takeWhile_dropWhile] at found
  intro character member
  have whole := List.takeWhile_append_dropWhile (p := (· != mark)) (l := text)
  split at found
  · cases found
  · next _ _ parts =>
      cases found
      rw [Prod.mk.injEq] at parts
      rw [← whole, parts.2]
      simp [member]

theorem mem_of_split_last {mark : Char} {text before after : Text}
    (found : splitLast mark text = some (before, after)) :
    ∀ character ∈ before, character ∈ text := by
  rw [splitLast, Option.map_eq_some_iff] at found
  obtain ⟨⟨others, last⟩, found, same⟩ := found
  cases same
  intro character member
  rw [← List.mem_reverse]
  exact mem_of_split_first found character (List.mem_reverse.1 member)

theorem strip_line_end_of_last {text : Text} {last : Char} (newline : last ≠ '\n')
    (carriage : last ≠ '\r') : stripLineEnd (text ++ [last]) = text ++ [last] :=
  strip_line_end_append text [] newline carriage

theorem strip_line_end_newline (line : Text) :
    stripLineEnd (line ++ ['\n']) = stripLineEnd line :=
  drop_end_while_run line (by simp)

end Text

theorem CarryOver.is_predicate_iff {predicate : Text} : isPredicate predicate = true ↔
    ∃ first rest, predicate = first :: rest ∧ CharClass.isNameStart first = true ∧
      ∀ letter ∈ rest, CharClass.isNamePart letter = true := by
  cases predicate with
  | nil => simp [isPredicate]
  | cons first rest => simp [isPredicate]

namespace Line

open Pattern

theorem classify_newline (line : Text) : classify (line ++ ['\n']) = classify line := by
  rw [classify, Text.strip_line_end_newline, ← classify]

theorem matches_blanks_nil : Matches blanks [] := .starNil

theorem matches_char (character : Char) : Matches (char character) [character] :=
  .one (by simp [CharClass.holds])

theorem matches_tail_nil : Matches tail [] := .seq matches_blanks_nil (matches_opt_nil _)

def atomText (predicate arguments : Text) : Text :=
  if arguments = [] then predicate else predicate ++ ['('] ++ arguments ++ [')']

theorem matches_name {predicate : Text} (valid : CarryOver.isPredicate predicate = true) :
    Matches name predicate := by
  obtain ⟨first, rest, rfl, start, parts⟩ := CarryOver.is_predicate_iff.1 valid
  have begins : Matches (.one .nameStart) [first] := .one start
  exact .seq begins (matches_star parts)

theorem matches_signed_atom {sign predicate arguments : Text}
    (signed : Matches (opt (char '-')) sign) (valid : CarryOver.isPredicate predicate = true)
    (inline : ∀ character ∈ arguments, Text.isInline character = true) :
    Matches atom (sign ++ atomText predicate arguments) := by
  have named := matches_name valid
  rw [atomText]
  split
  · have bare : Matches atom _ := .seq signed (.seq named (matches_opt_nil Line.arguments))
    simpa using bare
  · next some =>
      have listed : Matches Line.arguments (['('] ++ (arguments ++ [')'])) :=
        .seq (matches_char '(') (.seq (matches_plus some inline) (matches_char ')'))
      have applied : Matches atom _ := .seq signed (.seq named (.altLeft listed))
      simpa using applied

theorem matches_atom {predicate arguments : Text}
    (valid : CarryOver.isPredicate predicate = true)
    (inline : ∀ character ∈ arguments, Text.isInline character = true) :
    Matches atom (atomText predicate arguments) :=
  matches_signed_atom (matches_opt_nil (char '-')) valid inline

theorem matches_integrity {predicate arguments : Text}
    (valid : CarryOver.isPredicate predicate = true)
    (inline : ∀ character ∈ arguments, Text.isInline character = true) :
    Matches integrityShape (":- not ".toList ++ atomText predicate arguments ++ ['.']) := by
  have blank : Matches (.one .blank) [' '] := .one (by decide)
  have negation : Matches (opt (.seq (literal "not".toList) (plus (.one .blank))))
      ("not".toList ++ ([' '] ++ [])) :=
    .altLeft (.seq (matches_literal _) (.seq blank .starNil))
  have literal := Matches.seq negation (matches_atom valid inline)
  have spaced : Matches blanks ([' '] ++ []) := .starCons blank .starNil
  have round := Matches.seq spaced
    (.seq literal (.seq matches_blanks_nil (.seq (matches_opt_nil (char ',')) matches_blanks_nil)))
  have rest : Matches body _ := .seq round .starNil
  have whole : Matches integrityShape _ :=
    .seq matches_blanks_nil
      (.seq (matches_literal _) (.seq rest (.seq (matches_char '.') matches_tail_nil)))
  simpa using whole

end Line

namespace CarryOver

theorem arguments_inline {predicate atom arguments : Text}
    (found : argumentsOf predicate atom = some arguments) :
    ∀ character ∈ arguments, Text.isInline character = true := by
  rw [argumentsOf, Option.bind_eq_bind, Option.bind_eq_some_iff] at found
  obtain ⟨rest, -, found⟩ := found
  split at found
  · cases found
    nofun
  · rw [Option.bind_eq_some_iff] at found
    obtain ⟨opened, -, found⟩ := found
    split at found
    · next inline =>
        cases found
        exact List.all_eq_true.1 inline.2
    · cases found

theorem mem_of_without_time {arguments : Text} :
    ∀ character ∈ withoutTime arguments, character ∈ arguments := by
  intro character member
  rw [withoutTime] at member
  split at member
  next others last parts =>
    split at member
    · cases found : Text.splitLast ',' arguments with
      | none =>
          rw [found] at parts
          cases parts
          cases member
      | some pair =>
          rw [found] at parts
          cases parts
          exact Text.mem_of_split_last found character member
    · exact member

theorem constraint_shape {predicate atom line : Text}
    (found : constraint predicate atom = some line) :
    ∃ arguments, (∀ character ∈ arguments, Text.isInline character = true) ∧
      line = ":- not ".toList ++ Line.atomText predicate arguments ++ ['.'] := by
  rw [constraint, Option.map_eq_some_iff] at found
  obtain ⟨arguments, listed, rfl⟩ := found
  refine ⟨withoutTime arguments, ?_, rfl⟩
  intro character member
  exact arguments_inline listed character (mem_of_without_time character member)

/-- Whether a line is one that a fragment can carry: one line, and an integrity constraint. -/
structure IsConstraint (line : Text) : Prop where
  newline : '\n' ∉ line
  kind : Line.classify line = .integrity

theorem name_part_of_predicate {predicate : Text} (valid : isPredicate predicate = true) :
    ∀ character ∈ predicate, CharClass.isNamePart character = true := by
  obtain ⟨first, rest, rfl, start, parts⟩ := is_predicate_iff.1 valid
  exact List.forall_mem_cons.2 ⟨by simp [CharClass.isNamePart, start], parts⟩

theorem newline_of_predicate {predicate : Text} (valid : isPredicate predicate = true) :
    '\n' ∉ predicate :=
  Text.not_mem_of_all (name_part_of_predicate valid) (by decide)

theorem newline_of_atom_text {predicate arguments : Text} (valid : isPredicate predicate = true)
    (inline : ∀ character ∈ arguments, Text.isInline character = true) :
    '\n' ∉ Line.atomText predicate arguments := by
  have named := newline_of_predicate valid
  have listed : '\n' ∉ arguments := Text.not_mem_of_all inline (by decide)
  rw [Line.atomText]
  split
  · exact named
  · simp [named, listed]

theorem is_constraint {predicate atom line : Text} (valid : isPredicate predicate = true)
    (found : constraint predicate atom = some line) : IsConstraint line := by
  obtain ⟨arguments, inline, rfl⟩ := constraint_shape found
  have plain := newline_of_atom_text valid inline
  constructor
  · simp [plain]
  · have accepted := (Pattern.accepts_iff _ _).2 (Line.matches_integrity valid inline)
    rw [Line.classify, Text.strip_line_end_of_last (by decide) (by decide)]
    have no_directive : (":- not ".toList ++ Line.atomText predicate arguments ++ ['.']).head? =
        some ':' := rfl
    rw [no_directive]
    simp only [Option.some.injEq, Char.reduceEq, if_false]
    rw [Line.readClause, if_pos accepted]

theorem constraints_of_observed {predicate line : Text} {carry : CarryOver}
    (valid : ofPredicate predicate = .ok carry) (answerSets : List AnswerSet)
    (member : line ∈ (answerSets.foldl observe carry).constraints) : IsConstraint line := by
  obtain rfl := carry_over_of_predicate valid
  rw [observe_all] at member
  cases last : answerSets.getLast? with
  | none =>
      rw [last] at member
      cases member
  | some answerSet =>
      rw [last] at member
      obtain ⟨atom, -, found⟩ := List.mem_filterMap.1 member
      rw [ofPredicate] at valid
      split at valid
      · next named => exact is_constraint named found
      · cases valid

end CarryOver

end StepStream
