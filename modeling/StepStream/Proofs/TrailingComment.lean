import StepStream.Pattern.Contexts
import StepStream.Proofs.DirectiveGrammar

/-!
What a comment behind a text does to its kind. The shapes look for the final period and
for the parenthesis that closes an argument list in the whole line, the comment included.
So a comment leaves the kind as it is unless it holds the end of a statement that the text
in front of it begins: the rest of an open argument list, or of the term of an assertion.
-/

namespace StepStream.Line

set_option autoImplicit false

open Text Pattern

/-! ## Tails and the ends of lines -/

theorem is_tail_of_blanks {blank : Text} (blanks : ∀ character ∈ blank, isBlank character = true) :
    IsTail blank :=
  ⟨blank, [], (List.append_nil blank).symm, blanks, .inl rfl⟩

theorem is_tail_front {front back : Text} (ended : IsTail (front ++ back)) : IsTail front := by
  obtain ⟨blank, comment, whole, blanks, commented⟩ := ended
  rcases List.append_eq_append_iff.1 whole with ⟨rest, rfl, -⟩ | ⟨words, rfl, rfl⟩
  · exact is_tail_of_blanks fun character member => blanks character (by simp [member])
  · refine ⟨blank, words, rfl, blanks, ?_⟩
    cases words with
    | nil => exact .inl rfl
    | cons first others =>
        rcases commented with nothing | ⟨letters, same, inline⟩
        · cases nothing
        · obtain ⟨rfl, rfl⟩ := List.cons.inj same
          exact .inr ⟨others, rfl, fun member => inline (by simp [member])⟩

theorem is_tail_append {front back : Text} (left : IsTail front) (right : IsTail back)
    (inline : '\n' ∉ back) : IsTail (front ++ back) := by
  obtain ⟨blank, _, rfl, blanks, rfl | ⟨words, rfl, oneLine⟩⟩ := left
  · obtain ⟨more, comment, rfl, others, commented⟩ := right
    refine ⟨blank ++ more, comment, by simp, ?_, commented⟩
    intro character member
    exact (List.mem_append.1 member).elim (blanks character) (others character)
  · exact ⟨blank, _, List.append_assoc _ _ _, blanks, .inr ⟨words ++ back, rfl, by simp [*]⟩⟩

theorem is_tail_before_comment {front comment : Text} (inline : '\n' ∉ comment) :
    IsTail (front ++ '%' :: comment) ↔ IsTail front := by
  have commented : IsTail ('%' :: comment) :=
    ⟨[], _, rfl, by simp, .inr ⟨comment, rfl, inline⟩⟩
  exact ⟨is_tail_front, fun ended => is_tail_append ended commented (by simp [inline])⟩

theorem strip_inline {text : Text} (inline : '\n' ∉ text) :
    ∃ returns, text = stripLineEnd text ++ returns ∧ IsTail returns ∧ '\n' ∉ returns := by
  obtain ⟨returns, ends, whole⟩ :=
    drop_end_while_eq (fun character => character == '\n' || character == '\r') text
  have oneLine : '\n' ∉ returns := fun member => inline (whole ▸ List.mem_append_right _ member)
  refine ⟨returns, whole, is_tail_of_blanks fun character member => ?_, oneLine⟩
  have ending := ends character member
  simp only [Bool.or_eq_true, beq_iff_eq] at ending
  rcases ending with rfl | rfl
  · exact absurd member oneLine
  · rfl

theorem is_tail_strip {text : Text} (inline : '\n' ∉ text) :
    IsTail (stripLineEnd text) ↔ IsTail text := by
  obtain ⟨returns, whole, ended, oneLine⟩ := strip_inline inline
  constructor
  · intro stripped
    rw [whole]
    exact is_tail_append stripped ended oneLine
  · intro here
    rw [whole] at here
    exact is_tail_front here

theorem terminated_strip {statement : Text → Prop} {text : Text} (inline : '\n' ∉ text) :
    Terminated statement (stripLineEnd text) ↔ Terminated statement text := by
  constructor
  · rintro ⟨front, rest, here, ended, same⟩
    obtain ⟨returns, whole, after, oneLine⟩ := strip_inline inline
    rw [same] at whole
    exact ⟨front, rest ++ returns, here, is_tail_append ended after oneLine, by simp [whole]⟩
  · rintro ⟨front, rest, here, ended, rfl⟩
    rw [strip_line_end_append front rest (by decide) (by decide)]
    have kept : '\n' ∉ rest := fun member => inline (by simp [member])
    exact ⟨front, _, here, (is_tail_strip kept).2 ended, rfl⟩

/-- A comment can hold the period of a statement, or stand behind it. -/
theorem terminated_before_comment {statement : Text → Prop} {front comment : Text}
    (inline : '\n' ∉ comment) :
    Terminated statement (front ++ '%' :: comment) ↔
      Terminated statement front ∨
        Terminated (fun more => statement (front ++ '%' :: more)) comment := by
  constructor
  · rintro ⟨before, rest, here, ended, whole⟩
    rcases append_around whole.symm with ⟨closed, rfl, rfl⟩ | ⟨opened, rfl, behind⟩
    · exact .inr ⟨closed, rest, here, ended, rfl⟩
    · cases opened with
      | nil => cases behind
      | cons period opened =>
          obtain ⟨rfl, rfl⟩ := List.cons.inj behind
          exact .inl ⟨before, opened, here, (is_tail_before_comment inline).1 ended, rfl⟩
  · rintro (⟨before, rest, here, ended, rfl⟩ | ⟨more, rest, here, ended, rfl⟩)
    · exact ⟨before, _, here, (is_tail_before_comment inline).2 ended, by simp⟩
    · exact ⟨_, rest, here, ended, by simp⟩

theorem terminated_mono {statement other : Text → Prop} {text : Text} (inline : '\n' ∉ text)
    (weaker : ∀ front, '\n' ∉ front → statement front → other front)
    (here : Terminated statement text) : Terminated other text := by
  obtain ⟨front, rest, stated, ended, rfl⟩ := here
  have kept : '\n' ∉ front := fun member => inline (by simp [member])
  exact ⟨front, rest, weaker front kept stated, ended, rfl⟩

theorem terminated_congr {statement other : Text → Prop} {text : Text} (inline : '\n' ∉ text)
    (same : ∀ front, '\n' ∉ front → (statement front ↔ other front)) :
    Terminated statement text ↔ Terminated other text :=
  ⟨terminated_mono inline fun front kept => (same front kept).1,
    terminated_mono inline fun front kept => (same front kept).2⟩

/-! ## Argument lists that reach into a comment -/

theorem matches_closing_iff (parts : List Pattern) {text : Text} (nonempty : parts ≠ []) :
    Matches (sequence (parts ++ [period, tail])) text ↔
      Terminated (Matches (sequence parts)) text := by
  rw [matches_sequence_append nonempty (List.cons_ne_nil _ _)]
  simp only [Pattern.sequence, matches_seq_iff, period, char, matches_exactly_iff, matches_tail_iff,
    Terminated]
  constructor
  · rintro ⟨front, _, rfl, here, _, rest, rfl, rfl, ended⟩
    exact ⟨front, rest, here, ended, rfl⟩
  · rintro ⟨front, rest, here, ended, rfl⟩
    exact ⟨front, _, rfl, here, ['.'], rest, rfl, rfl, ended⟩

theorem matches_arguments_iff {text : Text} :
    Matches arguments text ↔
      ∃ inside, inside ≠ [] ∧ '\n' ∉ inside ∧ text = '(' :: (inside ++ [')']) := by
  simp only [arguments, Pattern.sequence, char, matches_seq_iff, matches_plus_one_iff,
    matches_exactly_iff, all_inline_iff]
  constructor
  · rintro ⟨_, _, rfl, rfl, inside, _, rfl, ⟨nonempty, oneLine⟩, rfl⟩
    exact ⟨inside, nonempty, oneLine, rfl⟩
  · rintro ⟨inside, nonempty, oneLine, rfl⟩
    exact ⟨['('], _, rfl, rfl, inside, _, rfl, ⟨nonempty, oneLine⟩, rfl⟩

theorem matches_arguments_around {opened closed : Text} :
    Matches arguments (opened ++ '%' :: closed) ↔
      ∃ inside rest, opened = '(' :: inside ∧ closed = rest ++ [')'] ∧ '\n' ∉ inside ∧
        '\n' ∉ rest := by
  rw [matches_arguments_iff]
  constructor
  · rintro ⟨inner, -, oneLine, whole⟩
    cases opened with
    | nil => cases whole
    | cons first inside =>
        obtain ⟨rfl, same⟩ := List.cons.inj whole
        rcases append_around same.symm with ⟨rest, rfl, rfl⟩ | ⟨behind, rfl, last⟩
        · refine ⟨inside, rest, rfl, rfl, ?_, ?_⟩ <;> intro member <;> simp [member] at oneLine
        · cases behind <;> simp at last
  · rintro ⟨inside, rest, rfl, rfl, first, second⟩
    exact ⟨inside ++ '%' :: rest, by simp, by simp [first, second], by simp⟩

/-- An argument list of the statement is open at the end of `front` and closed in `back`, and
what comes before and behind the list fits the statement. -/
def ArgumentsSpan (statement : Pattern) (front back : Text) : Prop :=
  ∃ before behind, Context arguments statement before behind ∧
    ∃ ahead inside rest after, front = ahead ++ '(' :: inside ∧ back = rest ++ ')' :: after ∧
      Matches before ahead ∧ Matches behind after

theorem arguments_span_iff {statement : Pattern} {front back : Text}
    (only : confined arguments '%' statement = true) (inline : '\n' ∉ front)
    (oneLine : '\n' ∉ back) :
    Matches statement (front ++ '%' :: back) ↔ ArgumentsSpan statement front back := by
  rw [matches_across_iff only]
  constructor
  · rintro ⟨before, behind, occurrence, ahead, opened, closed, after, rfl, rfl, left, list, right⟩
    obtain ⟨inside, rest, rfl, rfl, -, -⟩ := matches_arguments_around.1 list
    exact ⟨before, behind, occurrence, ahead, inside, rest, after, rfl, by simp, left, right⟩
  · rintro ⟨before, behind, occurrence, ahead, inside, rest, after, rfl, rfl, left, right⟩
    have list : Matches arguments ('(' :: inside ++ '%' :: (rest ++ [')'])) :=
      matches_arguments_around.2 ⟨inside, rest, rfl, rfl, fun member => inline (by simp [member]),
        fun member => oneLine (by simp [member])⟩
    exact ⟨before, behind, occurrence, ahead, _, _, after, rfl, by simp, left, list, right⟩

/-- The comment closes an argument list that `front` leaves open, and ends the statement. -/
def FinishesClause (statement : Pattern) (front comment : Text) : Prop :=
  Terminated (ArgumentsSpan statement front) comment

theorem clause_before_comment (parts : List Pattern) {front comment : Text}
    (nonempty : parts ≠ []) (only : confined arguments '%' (sequence parts) = true)
    (inline : '\n' ∉ front) (oneLine : '\n' ∉ comment) :
    Matches (sequence (parts ++ [period, tail])) (front ++ '%' :: comment) ↔
      Matches (sequence (parts ++ [period, tail])) front ∨
        FinishesClause (sequence parts) front comment := by
  rw [matches_closing_iff parts nonempty, matches_closing_iff parts nonempty,
    terminated_before_comment oneLine, FinishesClause,
    terminated_congr oneLine fun more kept => arguments_span_iff only inline kept]

/-! ## Terms that reach into a comment -/

/-- The front part of an assertion or retraction, up to somewhere in its term. -/
def OpensTerm (front : Text) : Prop :=
  ∃ keyword ∈ ["#assert".toList, "#retract".toList], ∃ before term, IsSpaces before ∧
    front = keyword ++ (before ++ ':' :: term)

theorem numeral_unmarked {digits : Text} {number : Nat} (counted : IsNumeral number digits) :
    '%' ∉ digits := by
  intro member
  exact absurd (counted.ascii '%' member).1 (by decide)

theorem spaces_unmarked {spaces : Text} (all : IsSpaces spaces) : '%' ∉ spaces := by
  intro member
  exact absurd (all '%' member) (by decide)

theorem open_term_of_percent {keyword before term front more : Text}
    (known : keyword ∈ ["#assert".toList, "#retract".toList]) (spaces : IsSpaces before)
    (whole : keyword ++ (before ++ ':' :: term) = front ++ '%' :: more) : OpensTerm front := by
  have unmarked : '%' ∉ keyword := by
    rcases List.mem_cons.1 known with rfl | known
    · decide
    · obtain rfl := List.mem_singleton.1 known
      decide
  have cut : (keyword ++ (before ++ [':'])) ++ term = front ++ '%' :: more := by simpa using whole
  rcases append_around cut with ⟨closed, ahead, -⟩ | ⟨opened, rfl, -⟩
  · have member : '%' ∈ keyword ++ (before ++ [':']) := by simp [ahead]
    simp [unmarked, spaces_unmarked spaces] at member
  · exact ⟨keyword, known, before, opened, spaces, by simp⟩

theorem command_around_percent {kind : LineKind} {front more : Text}
    (derived : Command kind (front ++ '%' :: more)) : OpensTerm front := by
  generalize whole : front ++ '%' :: more = command at derived
  have marked : '%' ∈ command := by simp [← whole]
  cases derived with
  | endStep | cumulative | volatile | stop | incrementStep => simp at marked
  | step counted | forget counted | incrementStepTo counted =>
      simp [numeral_unmarked counted] at marked
  | stepWindow counted spacesBefore spacesAfter sized spacesLast =>
      simp [numeral_unmarked counted, numeral_unmarked sized, spaces_unmarked spacesBefore,
        spaces_unmarked spacesAfter, spaces_unmarked spacesLast] at marked
  | volatileWindow spacesBefore spacesAfter sized =>
      simp [numeral_unmarked sized, spaces_unmarked spacesBefore, spaces_unmarked spacesAfter]
        at marked
  | forgetRange counted numbered =>
      simp [numeral_unmarked counted, numeral_unmarked numbered] at marked
  | assert spaces | retract spaces => exact open_term_of_percent (by simp) spaces whole.symm

theorem command_of_open_term {front more : Text} (opens : OpensTerm front) (inline : '\n' ∉ front)
    (oneLine : '\n' ∉ more) : ∃ kind, Command kind (front ++ '%' :: more) := by
  obtain ⟨keyword, known, before, term, spaces, rfl⟩ := opens
  have kept : '\n' ∉ term ++ '%' :: more := by
    simp only [List.mem_append, List.mem_cons, not_or] at inline ⊢
    exact ⟨inline.2.2.2, by decide, oneLine⟩
  have nonempty : term ++ '%' :: more ≠ [] := by simp
  rw [List.append_assoc, List.append_assoc, List.cons_append]
  rcases List.mem_cons.1 known with rfl | known
  · exact ⟨_, .assert spaces nonempty kept⟩
  · obtain rfl := List.mem_singleton.1 known
    exact ⟨_, .retract spaces nonempty kept⟩

/-- The comment ends the term of an assertion or retraction that `front` begins. -/
def FinishesTerm (front comment : Text) : Prop :=
  OpensTerm front ∧ Terminated (fun _ => True) comment

theorem directive_before_comment {front comment : Text} (inline : '\n' ∉ front)
    (oneLine : '\n' ∉ comment) :
    (∃ kind, IsDirective kind (front ++ '%' :: comment)) ↔
      (∃ kind, IsDirective kind front) ∨ FinishesTerm front comment := by
  constructor
  · rintro ⟨kind, directive⟩
    rcases (terminated_before_comment oneLine).1 directive with here | ⟨more, rest, derived, ended,
      same⟩
    · exact .inl ⟨kind, here⟩
    · exact .inr ⟨command_around_percent derived, more, rest, trivial, ended, same⟩
  · rintro (⟨kind, here⟩ | ⟨opens, more, rest, -, ended, rfl⟩)
    · exact ⟨kind, (terminated_before_comment oneLine).2 (.inl here)⟩
    · have kept : '\n' ∉ more := fun member => oneLine (by simp [member])
      obtain ⟨kind, derived⟩ := command_of_open_term opens inline kept
      exact ⟨kind, _, rest, derived, ended, by simp⟩

/-! ## Kinds of lines without a newline -/

/-- What stands before the final period of an integrity constraint, and of a rule. The
statement of a fact is an atom. -/
def integrityStatement : Pattern := sequence [blanks, neck, body]

def ruleStatement : Pattern := sequence [blanks, atom, blanks, neck, body]

theorem integrity_shape_iff {text : Text} :
    integrityShape.accepts text = true ↔ Terminated (Matches integrityStatement) text := by
  rw [accepts_iff]
  exact matches_closing_iff [blanks, neck, body] (by simp)

theorem rule_shape_iff {text : Text} :
    ruleShape.accepts text = true ↔ Terminated (Matches ruleStatement) text := by
  rw [accepts_iff]
  exact matches_closing_iff [blanks, atom, blanks, neck, body] (by simp)

theorem fact_shape_iff {text : Text} :
    factShape.accepts text = true ↔ Terminated (Matches atom) text := by
  rw [accepts_iff]
  exact matches_closing_iff [atom] (by simp)

theorem read_clause_strip {text : Text} (inline : '\n' ∉ text) :
    readClause (stripLineEnd text) = readClause text := by
  have same (shape : Pattern) (statement : Text → Prop)
      (ends : ∀ text, shape.accepts text = true ↔ Terminated statement text) :
      shape.accepts (stripLineEnd text) = shape.accepts text := by
    rw [Bool.eq_iff_iff, ends, ends, terminated_strip inline]
  have tails : tail.accepts (stripLineEnd text) = tail.accepts text := by
    rw [Bool.eq_iff_iff, is_tail_iff, is_tail_iff, is_tail_strip inline]
  rw [readClause, readClause, same _ _ fun _ => integrity_shape_iff,
    same _ _ fun _ => rule_shape_iff, same _ _ fun _ => fact_shape_iff, tails]

theorem read_directive_strip {text : Text} (inline : '\n' ∉ text) :
    readDirective (stripLineEnd text) = readDirective text := by
  ext kind
  rw [read_directive_iff, read_directive_iff, IsDirective,
    IsDirective, terminated_strip inline]

theorem number_sign_first_iff (line : Text) :
    (stripLineEnd line).head? = some '#' ↔ line.head? = some '#' := by
  constructor
  · intro first
    have front : stripLineEnd line <+: line := by
      rw [← List.reverse_suffix, stripLineEnd, dropEndWhile, List.reverse_reverse]
      exact List.dropWhile_suffix _
    obtain ⟨rest, whole⟩ := front
    rw [← whole, List.head?_append, first]
    rfl
  · intro first
    obtain ⟨rest, stripped⟩ := number_sign_stays first
    rw [stripped]
    rfl

theorem classify_inline {line : Text} (inline : '\n' ∉ line) :
    classify line = if line.head? = some '#' then (readDirective line).getD .unrecognized
      else readClause line := by
  simp only [classify, number_sign_first_iff, read_directive_strip inline,
    read_clause_strip inline]

/-! ## The first character that is no blank -/

theorem first_behind_blanks {blank text : Text} {first : Char} {rest : Text}
    (blanks : ∀ character ∈ blank, isBlank character = true) (unblank : isBlank first = false)
    (begins : text = first :: rest) : (trimStart (blank ++ text)).head? = some first := by
  rw [trimStart, List.dropWhile_append_of_pos blanks, begins,
    List.dropWhile_cons_of_neg (by simp [unblank])]
  rfl

theorem matches_blanks_iff {text : Text} :
    Matches blanks text ↔ ∀ character ∈ text, isBlank character = true :=
  matches_star_one_iff

theorem integrity_begins {text : Text} (here : Matches integrityShape text) :
    (trimStart text).head? = some ':' := by
  obtain ⟨blank, _, rfl, blanks, rest⟩ := matches_seq_iff.1 here
  obtain ⟨_, behind, rfl, necked, -⟩ := matches_seq_iff.1 rest
  obtain ⟨_, _, rfl, colon, -⟩ := matches_seq_iff.1 necked
  obtain rfl := matches_exactly_iff.1 colon
  exact first_behind_blanks (matches_blanks_iff.1 blanks) (by decide) rfl

def BeginsAtom (character : Char) : Prop :=
  character = '-' ∨ CharClass.isNameStart character = true

theorem begins_atom_unblank {character : Char} (begins : BeginsAtom character) :
    isBlank character = false := by
  rcases begins with rfl | start
  · decide
  · exact unblank_of_name_part (by simp [CharClass.isNamePart, start])

theorem atom_begins {text : Text} (here : Matches atom text) :
    ∃ first rest, text = first :: rest ∧ BeginsAtom first := by
  obtain ⟨sign, _, rfl, signed, rest⟩ := matches_seq_iff.1 here
  obtain ⟨_, _, rfl, named, -⟩ := matches_seq_iff.1 rest
  obtain ⟨_, _, rfl, letter, -⟩ := matches_seq_iff.1 named
  obtain ⟨first, start, rfl⟩ := matches_one_iff.1 letter
  rcases matches_opt_iff.1 signed with dash | rfl
  · obtain rfl := matches_exactly_iff.1 dash
    exact ⟨'-', _, rfl, .inl rfl⟩
  · exact ⟨first, _, rfl, .inr start⟩

theorem rule_begins {text : Text} (here : Matches ruleShape text) :
    ∃ first, (trimStart text).head? = some first ∧ BeginsAtom first := by
  obtain ⟨blank, _, rfl, blanks, rest⟩ := matches_seq_iff.1 here
  obtain ⟨_, _, rfl, head, -⟩ := matches_seq_iff.1 rest
  obtain ⟨first, _, rfl, begins⟩ := atom_begins head
  exact ⟨first, first_behind_blanks (matches_blanks_iff.1 blanks) (begins_atom_unblank begins) rfl,
    begins⟩

theorem fact_begins {text : Text} (here : Matches factShape text) :
    ∃ first, (trimStart text).head? = some first ∧ BeginsAtom first := by
  obtain ⟨_, _, rfl, head, -⟩ := matches_seq_iff.1 here
  obtain ⟨first, _, rfl, begins⟩ := atom_begins head
  refine ⟨first, ?_, begins⟩
  rw [List.cons_append, trimStart,
    List.dropWhile_cons_of_neg (by simp [begins_atom_unblank begins])]
  rfl

theorem tail_begins {text : Text} (ended : IsTail text) :
    (trimStart text).head? = none ∨ (trimStart text).head? = some '%' := by
  obtain ⟨blank, _, rfl, blanks, rfl | ⟨words, rfl, -⟩⟩ := ended
  · rw [List.append_nil, trimStart, List.dropWhile_eq_nil_iff.2 blanks]
    exact .inl rfl
  · exact .inr (first_behind_blanks blanks (by decide) rfl)

theorem colon_begins_no_atom : ¬ BeginsAtom ':' := by
  unfold BeginsAtom
  decide

theorem percent_begins_no_atom : ¬ BeginsAtom '%' := by
  unfold BeginsAtom
  decide

theorem integrity_alone {text : Text} (here : integrityShape.accepts text = true) :
    ruleShape.accepts text = false ∧ factShape.accepts text = false ∧
      tail.accepts text = false := by
  have colon := integrity_begins ((accepts_iff _ _).1 here)
  have noAtom {first : Char} (seen : (trimStart text).head? = some first) :
      ¬ BeginsAtom first := by
    obtain rfl : ':' = first := Option.some.inj (colon.symm.trans seen)
    exact colon_begins_no_atom
  refine ⟨?_, ?_, ?_⟩ <;> rw [← Bool.not_eq_true] <;> intro there
  · obtain ⟨first, seen, begins⟩ := rule_begins ((accepts_iff _ _).1 there)
    exact noAtom seen begins
  · obtain ⟨first, seen, begins⟩ := fact_begins ((accepts_iff _ _).1 there)
    exact noAtom seen begins
  · rcases tail_begins (is_tail_iff.1 there) with seen | seen <;> rw [colon] at seen <;> cases seen

theorem tail_alone {text : Text} (here : tail.accepts text = true) :
    integrityShape.accepts text = false ∧ ruleShape.accepts text = false ∧
      factShape.accepts text = false := by
  have noAtom {first : Char} (seen : (trimStart text).head? = some first) :
      ¬ BeginsAtom first := by
    rcases tail_begins (is_tail_iff.1 here) with nothing | percent
    · cases nothing.symm.trans seen
    · obtain rfl : '%' = first := Option.some.inj (percent.symm.trans seen)
      exact percent_begins_no_atom
  refine ⟨?_, ?_, ?_⟩ <;> rw [← Bool.not_eq_true] <;> intro there
  · rw [(integrity_alone there).2.2] at here
    cases here
  · obtain ⟨first, seen, begins⟩ := rule_begins ((accepts_iff _ _).1 there)
    exact noAtom seen begins
  · obtain ⟨first, seen, begins⟩ := fact_begins ((accepts_iff _ _).1 there)
    exact noAtom seen begins

theorem read_clause_unrecognized_iff {text : Text} :
    readClause text = .unrecognized ↔
      ¬ integrityShape.accepts text = true ∧ ¬ ruleShape.accepts text = true ∧
        ¬ factShape.accepts text = true ∧ ¬ tail.accepts text = true := by
  unfold readClause
  split
  · simp [*]
  · split
    · simp [*]
    · split
      · simp [*]
      · split <;> simp [*]

/-! ## When a comment decides the kind -/

section Comment

variable {front comment : Text} (inline : '\n' ∉ front) (oneLine : '\n' ∉ comment)

include inline oneLine

theorem integrity_before_comment :
    integrityShape.accepts (front ++ '%' :: comment) = true ↔
      integrityShape.accepts front = true ∨ FinishesClause integrityStatement front comment := by
  rw [accepts_iff, accepts_iff]
  exact clause_before_comment [blanks, neck, body] (by simp) (by decide) inline oneLine

theorem rule_before_comment :
    ruleShape.accepts (front ++ '%' :: comment) = true ↔
      ruleShape.accepts front = true ∨ FinishesClause ruleStatement front comment := by
  rw [accepts_iff, accepts_iff]
  exact clause_before_comment [blanks, atom, blanks, neck, body] (by simp) (by decide) inline
    oneLine

theorem fact_before_comment :
    factShape.accepts (front ++ '%' :: comment) = true ↔
      factShape.accepts front = true ∨ FinishesClause atom front comment := by
  rw [accepts_iff, accepts_iff]
  exact clause_before_comment [atom] (by simp) (by decide) inline oneLine

theorem read_clause_before_comment :
    readClause (front ++ '%' :: comment) = readClause front ↔
      ¬ ((readClause front = .unrecognized ∧ (FinishesClause integrityStatement front comment ∨
            FinishesClause ruleStatement front comment ∨ FinishesClause atom front comment)) ∨
          (readClause front = .fact ∧ FinishesClause ruleStatement front comment)) := by
  have constraints := integrity_before_comment inline oneLine
  have rules := rule_before_comment inline oneLine
  have facts := fact_before_comment inline oneLine
  have tails : tail.accepts (front ++ '%' :: comment) = tail.accepts front := by
    rw [Bool.eq_iff_iff, is_tail_iff, is_tail_iff, is_tail_before_comment oneLine]
  -- Every shape of `front` stays a shape of the line, so only an earlier shape can take over.
  by_cases constrains : integrityShape.accepts front = true
  · have stays := constraints.2 (.inl constrains)
    simp [readClause, constrains, stays]
  by_cases ruled : ruleShape.accepts front = true
  · have stays := rules.2 (.inl ruled)
    have noConstraint : integrityShape.accepts (front ++ '%' :: comment) = false := by
      rw [← Bool.not_eq_true]
      intro there
      rw [(integrity_alone there).1] at stays
      cases stays
    simp [readClause, constrains, ruled, stays, noConstraint]
  by_cases states : factShape.accepts front = true
  · have stays := facts.2 (.inl states)
    have noConstraint : integrityShape.accepts (front ++ '%' :: comment) = false := by
      rw [← Bool.not_eq_true]
      intro there
      rw [(integrity_alone there).2.1] at stays
      cases stays
    by_cases turned : FinishesClause ruleStatement front comment
    · have takesOver := rules.2 (.inr turned)
      simp [readClause, constrains, ruled, states, noConstraint, takesOver, turned]
    · have noRule : ruleShape.accepts (front ++ '%' :: comment) = false := by
        rw [← Bool.not_eq_true, rules]
        exact not_or.2 ⟨ruled, turned⟩
      simp [readClause, constrains, ruled, states, stays, noConstraint, noRule, turned]
  by_cases blank : tail.accepts front = true
  · obtain ⟨noConstraint, noRule, noFact⟩ := tail_alone (tails.trans blank)
    simp [readClause, constrains, ruled, states, blank, tails, noConstraint, noRule, noFact]
  · have before : readClause front = .unrecognized := by
      simp [readClause, constrains, ruled, states, blank]
    rw [before, read_clause_unrecognized_iff, constraints, rules, facts, tails]
    simp [constrains, ruled, states, blank]

theorem read_directive_before_comment :
    (readDirective (front ++ '%' :: comment)).getD .unrecognized =
        (readDirective front).getD .unrecognized ↔
      ¬ ((readDirective front).getD .unrecognized = .unrecognized ∧ FinishesTerm front comment) := by
  have some_kind := directive_before_comment inline oneLine
  simp only [← read_directive_iff, ← Option.isSome_iff_exists] at some_kind
  cases before : readDirective front with
  | some kind =>
      have directive := read_directive_iff.1 before
      have stays : readDirective (front ++ '%' :: comment) = some kind :=
        read_directive_iff.2 ((terminated_before_comment oneLine).2 (.inl directive))
      rw [stays]
      refine iff_of_true rfl ?_
      rintro ⟨unrecognized, -⟩
      obtain rfl : kind = .unrecognized := unrecognized
      cases directive_kind directive
  | none =>
      cases behind : readDirective (front ++ '%' :: comment) with
      | none => simpa [before, behind] using some_kind
      | some kind =>
          have finished : FinishesTerm front comment := by simpa [before, behind] using some_kind
          refine iff_of_false ?_ (not_not_intro ⟨rfl, finished⟩)
          intro unrecognized
          obtain rfl : kind = .unrecognized := unrecognized
          cases directive_kind (read_directive_iff.1 behind)

theorem no_clause_finished_behind_number_sign (first : front.head? = some '#') :
    ¬ FinishesClause integrityStatement front comment ∧
      ¬ FinishesClause ruleStatement front comment ∧ ¬ FinishesClause atom front comment := by
  have shapes : ∃ rest, front ++ '%' :: comment = '#' :: rest := by
    cases front with
    | nil => cases first
    | cons sign rest =>
        obtain rfl : sign = '#' := Option.some.inj first
        exact ⟨_, rfl⟩
  obtain ⟨rest, whole⟩ := shapes
  obtain ⟨noConstraint, noRule, noFact, -⟩ := refused_behind_number_sign rest
  refine ⟨fun finished => ?_, fun finished => ?_, fun finished => ?_⟩
  · have fits := (integrity_before_comment inline oneLine).2 (.inr finished)
    rw [whole, noConstraint] at fits
    cases fits
  · have fits := (rule_before_comment inline oneLine).2 (.inr finished)
    rw [whole, noRule] at fits
    cases fits
  · have fits := (fact_before_comment inline oneLine).2 (.inr finished)
    rw [whole, noFact] at fits
    cases fits

end Comment

/-- The comment completes what `front` begins: a directive or clause out of a text that is
neither, or a rule out of a fact. -/
def CommentDecides (front comment : Text) : Prop :=
  (classify front = .unrecognized ∧ (FinishesTerm front comment ∨
    FinishesClause integrityStatement front comment ∨ FinishesClause ruleStatement front comment ∨
    FinishesClause atom front comment)) ∨
  (classify front = .fact ∧ FinishesClause ruleStatement front comment)

theorem open_term_begins {front : Text} (opens : OpensTerm front) : front.head? = some '#' := by
  obtain ⟨keyword, known, before, term, -, rfl⟩ := opens
  rcases List.mem_cons.1 known with rfl | known
  · rfl
  · obtain rfl := List.mem_singleton.1 known
    rfl

/-- A comment changes the kind of the text in front of it exactly if it completes what that
text begins. -/
theorem kind_before_comment_iff {front comment : Text} (inline : '\n' ∉ front)
    (oneLine : '\n' ∉ comment) :
    classify (front ++ '%' :: comment) = classify front ↔ ¬ CommentDecides front comment := by
  have whole : '\n' ∉ front ++ '%' :: comment := by simp [inline, oneLine]
  rw [CommentDecides, classify_inline inline, classify_inline whole]
  by_cases sign : front.head? = some '#'
  · obtain ⟨noConstraint, noRule, noFact⟩ :=
      no_clause_finished_behind_number_sign inline oneLine sign
    have signed : (front ++ '%' :: comment).head? = some '#' := by
      rw [List.head?_append, sign]
      rfl
    rw [if_pos sign, if_pos signed, read_directive_before_comment inline oneLine]
    simp [noConstraint, noRule, noFact]
  · have unsigned : (front ++ '%' :: comment).head? ≠ some '#' := by
      cases front with
      | nil => simp
      | cons first rest => exact sign
    have noTerm : ¬ FinishesTerm front comment := fun finished => sign (open_term_begins finished.1)
    rw [if_neg sign, if_neg unsigned, read_clause_before_comment inline oneLine]
    simp [noTerm]

/-- The argument list that `p(a` opens is closed in the comment, so a fact is read. -/
theorem open_list_completed_in_comment : CommentDecides "p(a".toList ").".toList := by
  by_contra undecided
  have same := (kind_before_comment_iff (by decide) (by decide)).2 undecided
  exact absurd same (by decide)

/-- A fact becomes a rule when the rule that it replaces stands in its comment. -/
theorem comment_turns_fact_into_rule :
    ¬ ∀ front comment : Text, '%' ∉ front → '\n' ∉ front → '\n' ∉ comment →
      classify (front ++ '%' :: comment) = classify front := by
  intro ignored
  have same := ignored "at(robot). ".toList " at(robot) :- moved.".toList (by decide) (by decide)
    (by decide)
  exact absurd same (by decide)

end StepStream.Line
