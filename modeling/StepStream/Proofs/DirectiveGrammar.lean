import Mathlib.Data.List.Basic
import Mathlib.Data.List.TakeDrop
import Mathlib.Data.List.TakeWhile
import StepStream.Line.Classify
import StepStream.Pattern.Lemmas
import StepStream.Proofs.Lines

/-!
The directives of a stream as a grammar, and the readers as its decision. A directive is a
command, a period and a tail; a command is a keyword with numerals or a term. The grammar
says nothing of how a line is read: each reader is shown to find the readings of its own
command and no others, and the keywords tell the commands apart. So a line is classified
as a directive exactly when the grammar derives it, and a line that begins with `#` is
otherwise nothing at all.
-/

namespace StepStream.Line

set_option autoImplicit false

open Text Pattern

/-! ## Grammar -/

/-- ASCII digits whose value, leading zeros allowed, is below two to the sixty-fourth power. -/
structure IsNumeral (number : Nat) (digits : Text) : Prop where
  nonempty : digits ≠ []
  ascii : ∀ digit ∈ digits, '0' ≤ digit ∧ digit ≤ '9'
  value : valueOfDigits digits = number
  small : number < Nat.pow 2 64

def IsSpaces (text : Text) : Prop := ∀ character ∈ text, character = ' '

def IsTail (text : Text) : Prop :=
  ∃ blank comment, text = blank ++ comment ∧ (∀ character ∈ blank, isBlank character = true) ∧
    (comment = [] ∨ ∃ words, comment = '%' :: words ∧ '\n' ∉ words)

/-- What may stand before the period of a directive. -/
inductive Command : LineKind → Text → Prop where
  | step {number : Nat} {digits : Text} (counted : IsNumeral number digits) :
      Command (.step number none) ("#step ".toList ++ digits)
  | stepWindow {number size : Nat} {digits before after width last : Text}
      (counted : IsNumeral number digits) (spacesBefore : IsSpaces before)
      (spacesAfter : IsSpaces after) (sized : IsNumeral size width) (spacesLast : IsSpaces last) :
      Command (.step number (some size))
        ("#step ".toList ++ (digits ++ (before ++ ':' :: (after ++ (width ++ last)))))
  | endStep : Command .endStep "#endstep".toList
  | cumulative : Command .cumulative "#cumulative".toList
  | volatile : Command (.volatile none) "#volatile".toList
  | volatileWindow {size : Nat} {before after width : Text} (spacesBefore : IsSpaces before)
      (spacesAfter : IsSpaces after) (sized : IsNumeral size width) :
      Command (.volatile (some size))
        ("#volatile".toList ++ (before ++ ':' :: (after ++ width)))
  | forget {first : Nat} {digits : Text} (counted : IsNumeral first digits) :
      Command (.forget first none) ("#forget ".toList ++ digits)
  | forgetRange {first last : Nat} {digits others : Text} (counted : IsNumeral first digits)
      (ended : IsNumeral last others) :
      Command (.forget first (some last)) ("#forget ".toList ++ (digits ++ ("..".toList ++ others)))
  | assert {before term : Text} (spacesBefore : IsSpaces before) (nonempty : term ≠ [])
      (inline : '\n' ∉ term) : Command .assert ("#assert".toList ++ (before ++ ':' :: term))
  | retract {before term : Text} (spacesBefore : IsSpaces before) (nonempty : term ≠ [])
      (inline : '\n' ∉ term) : Command .retract ("#retract".toList ++ (before ++ ':' :: term))
  | stop : Command .stop "#stop".toList
  | incrementStep : Command (.incrementStep none) "#istep".toList
  | incrementStepTo {target : Nat} {digits : Text} (counted : IsNumeral target digits) :
      Command (.incrementStep (some target)) ("#istep".toList ++ ' ' :: digits)

/-- A text of the given form, the period that ends it, and a tail. -/
def Terminated (statement : Text → Prop) (text : Text) : Prop :=
  ∃ front rest, statement front ∧ IsTail rest ∧ text = front ++ '.' :: rest

def IsDirective (kind : LineKind) (text : Text) : Prop := Terminated (Command kind) text

/-! ## The parts of a directive -/

theorem after_lead_iff {lead text rest : Text} :
    afterLead lead text = some rest ↔ text = lead ++ rest := by
  rw [afterLead, List.isPrefixOf?_eq_some_iff_append_eq]
  exact eq_comm

theorem after_lead_append (lead rest : Text) : afterLead lead (lead ++ rest) = some rest :=
  after_lead_iff.2 rfl

theorem is_tail_iff {text : Text} : tail.accepts text = true ↔ IsTail text := by
  simp only [accepts_iff, tail, blanks, char, IsTail, matches_seq_iff, matches_opt_iff,
    matches_star_one_iff, matches_exactly_iff, all_inline_iff]
  constructor
  · rintro ⟨blank, comment, rfl, blanks, ⟨_, words, rfl, rfl, inline⟩ | rfl⟩
    · exact ⟨blank, _, rfl, blanks, .inr ⟨words, rfl, inline⟩⟩
    · exact ⟨blank, [], rfl, blanks, .inl rfl⟩
  · rintro ⟨blank, comment, rfl, blanks, rfl | ⟨words, rfl, inline⟩⟩
    · exact ⟨blank, [], rfl, blanks, .inr rfl⟩
    · exact ⟨blank, _, rfl, blanks, .inl ⟨['%'], words, rfl, rfl, inline⟩⟩

theorem matches_tail_iff {text : Text} : Matches tail text ↔ IsTail text := by
  rw [← accepts_iff, is_tail_iff]

theorem no_period_in_tail {rest : Text} : ¬ IsTail ('.' :: rest) := by
  rintro ⟨blank, comment, whole, blanks, commented⟩
  cases blank with
  | nil => rcases commented with rfl | ⟨words, rfl, -⟩ <;> cases whole
  | cons first others =>
      cases whole
      exact absurd (blanks '.' List.mem_cons_self) (by decide)

theorem at_end_iff {kind found : LineKind} {text : Text} :
    atEnd kind text = some found ↔ found = kind ∧ ∃ rest, IsTail rest ∧ text = '.' :: rest := by
  rw [atEnd, Option.bind_eq_bind, Option.bind_eq_some_iff]
  constructor
  · rintro ⟨rest, period, ended⟩
    split at ended
    · next accepted =>
        cases ended
        exact ⟨rfl, rest, is_tail_iff.1 accepted, after_lead_iff.1 period⟩
    · cases ended
  · rintro ⟨rfl, rest, ended, rfl⟩
    exact ⟨rest, after_lead_append ['.'] rest, if_pos (is_tail_iff.2 ended)⟩

theorem is_digit_iff {character : Char} :
    isDigit character = true ↔ '0' ≤ character ∧ character ≤ '9' := by
  rw [isDigit, Bool.and_eq_true, decide_eq_true_eq, decide_eq_true_eq]

theorem read_numeral_iff {digits : Text} {number : Nat} :
    readNumeral digits = some number ↔ IsNumeral number digits := by
  rw [readNumeral]
  constructor
  · intro found
    split at found
    · next numeral =>
        cases found
        obtain ⟨nonempty, ascii, small⟩ := numeral
        rw [List.all_eq_true] at ascii
        exact ⟨nonempty, fun digit member => is_digit_iff.1 (ascii digit member), rfl,
          Nat.lt_of_le_pred (by decide) small⟩
    · cases found
  · rintro ⟨nonempty, ascii, rfl, small⟩
    have digits : digits.all isDigit = true :=
      List.all_eq_true.2 fun digit member => is_digit_iff.2 (ascii digit member)
    exact if_pos ⟨nonempty, digits, Nat.le_pred_of_lt small⟩

def NoDigitAhead (text : Text) : Prop := ∀ character ∈ text.head?, isDigit character = false

theorem span_digits_eq (text : Text) :
    spanDigits text = (text.takeWhile isDigit, text.dropWhile isDigit) :=
  List.span_eq_takeWhile_dropWhile isDigit text

theorem numeral_iff {text rest : Text} {number : Nat} :
    numeral text = some (number, rest) ↔
      ∃ digits, IsNumeral number digits ∧ NoDigitAhead rest ∧ text = digits ++ rest := by
  rw [numeral, span_digits_eq, Option.map_eq_some_iff]
  constructor
  · rintro ⟨value, found, same⟩
    obtain ⟨rfl, rfl⟩ := Prod.mk.inj same
    refine ⟨_, read_numeral_iff.1 found, ?_, (List.takeWhile_append_dropWhile).symm⟩
    intro character here
    have stopped := List.head?_dropWhile_not isDigit text
    rw [Option.mem_def.1 here] at stopped
    simpa using stopped
  · rintro ⟨digits, counted, stopped, rfl⟩
    have allDigits : ∀ digit ∈ digits, isDigit digit = true :=
      fun digit member => is_digit_iff.2 (counted.ascii digit member)
    have none_ahead : rest.takeWhile isDigit = [] ∧ rest.dropWhile isDigit = rest := by
      cases rest with
      | nil => exact ⟨rfl, rfl⟩
      | cons next later =>
          have other := stopped next rfl
          exact ⟨List.takeWhile_cons_of_neg (by simp [other]),
            List.dropWhile_cons_of_neg (by simp [other])⟩
    refine ⟨number, ?_, ?_⟩
    · rw [List.takeWhile_append_of_pos allDigits, none_ahead.1, List.append_nil]
      exact read_numeral_iff.2 counted
    · rw [List.dropWhile_append_of_pos allDigits, none_ahead.2]

theorem is_spaces_front (text : Text) : IsSpaces (text.takeWhile (· == ' ')) := by
  intro character member
  simpa using List.mem_takeWhile_imp member

theorem spaces_front (text : Text) : ∃ spaces, IsSpaces spaces ∧ text = spaces ++ dropSpaces text :=
  ⟨_, is_spaces_front text, List.takeWhile_append_dropWhile.symm⟩

theorem drop_spaces_append {spaces rest : Text} (all : IsSpaces spaces)
    (other : rest.head? ≠ some ' ') : dropSpaces (spaces ++ rest) = rest := by
  have dropped : ∀ character ∈ spaces, (character == ' ') = true :=
    fun character member => beq_iff_eq.2 (all character member)
  rw [dropSpaces, List.dropWhile_append_of_pos dropped]
  cases rest with
  | nil => rfl
  | cons next later => exact List.dropWhile_cons_of_neg (by simpa using other)

theorem digit_is_no_space {digits : Text} {number : Nat} (counted : IsNumeral number digits)
    (rest : Text) : (digits ++ rest).head? ≠ some ' ' := by
  obtain ⟨digit, others, rfl⟩ := List.exists_cons_of_ne_nil counted.nonempty
  intro space
  obtain rfl : digit = ' ' := Option.some.inj space
  exact absurd (counted.ascii ' ' List.mem_cons_self).1 (by decide)

theorem window_iff {text rest : Text} {size : Nat} :
    window text = some (size, rest) ↔
      ∃ before after width, IsSpaces before ∧ IsSpaces after ∧ IsNumeral size width ∧
        NoDigitAhead rest ∧ text = before ++ ':' :: (after ++ (width ++ rest)) := by
  rw [window, Option.bind_eq_bind, Option.bind_eq_some_iff]
  constructor
  · rintro ⟨behind, colon, found⟩
    obtain ⟨before, spacesBefore, first⟩ := spaces_front text
    obtain ⟨after, spacesAfter, second⟩ := spaces_front behind
    obtain ⟨width, sized, stopped, third⟩ := numeral_iff.1 found
    rw [after_lead_iff.1 colon, List.singleton_append, second, third] at first
    exact ⟨before, after, width, spacesBefore, spacesAfter, sized, stopped, first⟩
  · rintro ⟨before, after, width, spacesBefore, spacesAfter, sized, stopped, rfl⟩
    refine ⟨after ++ (width ++ rest), ?_, ?_⟩
    · rw [drop_spaces_append spacesBefore (by simp)]
      exact after_lead_append [':'] _
    · rw [drop_spaces_append spacesAfter (digit_is_no_space sized rest)]
      exact numeral_iff.2 ⟨width, sized, stopped, rfl⟩

theorem no_window_at_period (rest : Text) : window ('.' :: rest) = none := rfl

theorem no_digit_in_period (rest : Text) : NoDigitAhead ('.' :: rest) := by
  intro character here
  cases here
  rfl

theorem no_digit_behind_spaces {spaces rest : Text} (all : IsSpaces spaces)
    (ahead : NoDigitAhead rest) : NoDigitAhead (spaces ++ rest) := by
  cases spaces with
  | nil => exact ahead
  | cons first others =>
      intro character here
      obtain rfl : first = character := Option.some.inj here
      rw [all first List.mem_cons_self]
      rfl

theorem accepts_term_iff {text : Text} :
    termShape.accepts text = true ↔
      ∃ before term rest, IsSpaces before ∧ term ≠ [] ∧ '\n' ∉ term ∧ IsTail rest ∧
        text = before ++ ':' :: (term ++ '.' :: rest) := by
  have spaces (before : Text) :
      (∀ character ∈ before, (CharClass.exactly ' ').holds character = true) ↔ IsSpaces before := by
    simp only [CharClass.holds, decide_eq_true_eq, IsSpaces]
  simp only [accepts_iff, termShape, Pattern.sequence, char, period, matches_seq_iff,
    matches_tail_iff, matches_star_one_iff, matches_plus_one_iff, matches_exactly_iff,
    all_inline_iff, spaces]
  constructor
  · rintro ⟨before, _, rfl, spaces, _, _, rfl, rfl, term, _, rfl, ⟨nonempty, inline⟩, _, rest, rfl,
      rfl, ended⟩
    exact ⟨before, term, rest, spaces, nonempty, inline, ended, rfl⟩
  · rintro ⟨before, term, rest, spaces, nonempty, inline, ended, rfl⟩
    exact ⟨before, _, rfl, spaces, [':'], _, rfl, rfl, term, _, rfl, ⟨nonempty, inline⟩, ['.'],
      rest, rfl, rfl, ended⟩

/-! ## Each reader finds the directives of its keyword -/

theorem read_step_sound {text : Text} {kind : LineKind} (found : readStep text = some kind) :
    IsDirective kind text := by
  simp only [readStep, Option.bind_eq_bind, Option.bind_eq_some_iff] at found
  obtain ⟨behind, lead, ⟨number, rest⟩, read, found⟩ := found
  obtain ⟨digits, counted, -, rfl⟩ := numeral_iff.1 read
  obtain rfl := after_lead_iff.1 lead
  split at found
  · next size later read =>
      obtain ⟨before, after, width, spacesBefore, spacesAfter, sized, -, rfl⟩ := window_iff.1 read
      obtain ⟨rfl, final, ended, period⟩ := at_end_iff.1 found
      obtain ⟨last, spacesLast, whole⟩ := spaces_front later
      rw [period] at whole
      refine ⟨_, final, .stepWindow counted spacesBefore spacesAfter sized spacesLast, ended, ?_⟩
      simp [whole]
  · obtain ⟨rfl, final, ended, rfl⟩ := at_end_iff.1 found
    exact ⟨_, final, .step counted, ended, by simp⟩

theorem read_step_complete {text : Text} {number : Nat} {size : Option Nat}
    (directive : IsDirective (.step number size) text) :
    readStep text = some (.step number size) := by
  obtain ⟨command, final, derived, ended, rfl⟩ := directive
  simp only [readStep, Option.bind_eq_bind, Option.bind_eq_some_iff]
  cases derived with
  | @step _ digits counted =>
      refine ⟨digits ++ '.' :: final, after_lead_iff.2 (by simp), (number, '.' :: final), ?_, ?_⟩
      · exact numeral_iff.2 ⟨digits, counted, no_digit_in_period final, rfl⟩
      · rw [no_window_at_period]
        exact at_end_iff.2 ⟨rfl, final, ended, rfl⟩
  | @stepWindow _ size digits before after width last counted spacesBefore spacesAfter sized
      spacesLast =>
      have colon : NoDigitAhead (':' :: (after ++ (width ++ (last ++ '.' :: final)))) := by
        intro character here
        cases here
        rfl
      have first := numeral_iff.2
        ⟨digits, counted, no_digit_behind_spaces spacesBefore colon, rfl⟩
      have second : window (before ++ ':' :: (after ++ (width ++ (last ++ '.' :: final)))) =
          some (size, last ++ '.' :: final) :=
        window_iff.2 ⟨before, after, width, spacesBefore, spacesAfter, sized,
          no_digit_behind_spaces spacesLast (no_digit_in_period final), rfl⟩
      refine ⟨_, after_lead_iff.2 (by simp), _, first, ?_⟩
      rw [second]
      refine at_end_iff.2 ⟨rfl, final, ended, ?_⟩
      exact drop_spaces_append spacesLast (by simp)

theorem read_volatile_sound {text : Text} {kind : LineKind}
    (found : readVolatile text = some kind) : IsDirective kind text := by
  simp only [readVolatile, Option.bind_eq_bind, Option.bind_eq_some_iff] at found
  obtain ⟨behind, lead, found⟩ := found
  obtain rfl := after_lead_iff.1 lead
  split at found
  · next size later read =>
      obtain ⟨before, after, width, spacesBefore, spacesAfter, sized, -, rfl⟩ := window_iff.1 read
      obtain ⟨rfl, final, ended, rfl⟩ := at_end_iff.1 found
      exact ⟨_, final, .volatileWindow spacesBefore spacesAfter sized, ended, by simp⟩
  · obtain ⟨rfl, final, ended, rfl⟩ := at_end_iff.1 found
    exact ⟨_, final, .volatile, ended, rfl⟩

theorem read_volatile_complete {text : Text} {size : Option Nat}
    (directive : IsDirective (.volatile size) text) :
    readVolatile text = some (.volatile size) := by
  obtain ⟨command, final, derived, ended, rfl⟩ := directive
  simp only [readVolatile, Option.bind_eq_bind, Option.bind_eq_some_iff]
  cases derived with
  | volatile =>
      refine ⟨'.' :: final, after_lead_append _ _, ?_⟩
      rw [no_window_at_period]
      exact at_end_iff.2 ⟨rfl, final, ended, rfl⟩
  | @volatileWindow size before after width spacesBefore spacesAfter sized =>
      have read : window (before ++ ':' :: (after ++ (width ++ '.' :: final))) =
          some (size, '.' :: final) :=
        window_iff.2 ⟨before, after, width, spacesBefore, spacesAfter, sized,
          no_digit_in_period final, rfl⟩
      refine ⟨before ++ ':' :: (after ++ (width ++ '.' :: final)), after_lead_iff.2 (by simp), ?_⟩
      rw [read]
      exact at_end_iff.2 ⟨rfl, final, ended, rfl⟩

theorem read_forget_sound {text : Text} {kind : LineKind}
    (found : readForget text = some kind) : IsDirective kind text := by
  simp only [readForget, Option.bind_eq_bind, Option.bind_eq_some_iff] at found
  obtain ⟨behind, lead, ⟨first, rest⟩, read, found⟩ := found
  obtain ⟨digits, counted, -, rfl⟩ := numeral_iff.1 read
  obtain rfl := after_lead_iff.1 lead
  split at found
  · next dots =>
      obtain ⟨⟨last, later⟩, readLast, readFinal⟩ := Option.bind_eq_some_iff.1 found
      obtain ⟨rfl, final, ended, rfl⟩ := at_end_iff.1 readFinal
      obtain ⟨others, numbered, -, rfl⟩ := numeral_iff.1 readLast
      obtain rfl := after_lead_iff.1 dots
      exact ⟨_, final, .forgetRange counted numbered, ended, by simp⟩
  · obtain ⟨rfl, final, ended, rfl⟩ := at_end_iff.1 found
    exact ⟨_, final, .forget counted, ended, by simp⟩

theorem read_forget_complete {text : Text} {first : Nat} {last : Option Nat}
    (directive : IsDirective (.forget first last) text) :
    readForget text = some (.forget first last) := by
  obtain ⟨command, final, derived, ended, rfl⟩ := directive
  simp only [readForget, Option.bind_eq_bind, Option.bind_eq_some_iff]
  have period := no_digit_in_period final
  cases derived with
  | @forget _ digits counted =>
      have read := numeral_iff.2 ⟨digits, counted, period, rfl⟩
      have noDots : afterLead "..".toList ('.' :: final) = none := by
        rw [Option.eq_none_iff_forall_ne_some]
        intro rest dots
        obtain ⟨-, rfl⟩ := List.cons.inj (after_lead_iff.1 dots)
        exact no_period_in_tail ended
      refine ⟨_, after_lead_iff.2 (by simp), _, read, ?_⟩
      rw [noDots]
      exact at_end_iff.2 ⟨rfl, final, ended, rfl⟩
  | @forgetRange _ last digits others counted numbered =>
      have dots : NoDigitAhead ("..".toList ++ (others ++ '.' :: final)) := by
        intro character here
        cases here
        rfl
      have read := numeral_iff.2 ⟨digits, counted, dots, rfl⟩
      have readLast := numeral_iff.2 ⟨others, numbered, period, rfl⟩
      refine ⟨_, after_lead_iff.2 (by simp), _, read, ?_⟩
      rw [after_lead_append]
      refine Option.bind_eq_some_iff.2 ⟨_, readLast, ?_⟩
      exact at_end_iff.2 ⟨rfl, final, ended, rfl⟩

theorem read_plain_iff {keyword text : Text} {kind found : LineKind} :
    readPlain keyword kind text = some found ↔
      found = kind ∧ ∃ rest, IsTail rest ∧ text = keyword ++ '.' :: rest := by
  rw [readPlain, Option.bind_eq_bind, Option.bind_eq_some_iff]
  constructor
  · rintro ⟨behind, lead, read⟩
    obtain ⟨rfl, rest, ended, rfl⟩ := at_end_iff.1 read
    exact ⟨rfl, rest, ended, after_lead_iff.1 lead⟩
  · rintro ⟨rfl, rest, ended, rfl⟩
    exact ⟨'.' :: rest, after_lead_append _ _, at_end_iff.2 ⟨rfl, rest, ended, rfl⟩⟩

theorem read_term_iff {keyword text : Text} {kind found : LineKind} :
    readTerm keyword kind text = some found ↔
      found = kind ∧ ∃ before term rest, IsSpaces before ∧ term ≠ [] ∧ '\n' ∉ term ∧ IsTail rest ∧
        text = keyword ++ (before ++ ':' :: (term ++ '.' :: rest)) := by
  rw [readTerm, Option.bind_eq_bind, Option.bind_eq_some_iff]
  constructor
  · rintro ⟨behind, lead, read⟩
    split at read
    · next accepted =>
        cases read
        obtain ⟨before, term, rest, spaces, nonempty, inline, ended, rfl⟩ :=
          accepts_term_iff.1 accepted
        exact ⟨rfl, before, term, rest, spaces, nonempty, inline, ended, after_lead_iff.1 lead⟩
    · cases read
  · rintro ⟨rfl, before, term, rest, spaces, nonempty, inline, ended, rfl⟩
    refine ⟨_, after_lead_append _ _, if_pos ?_⟩
    exact accepts_term_iff.2 ⟨before, term, rest, spaces, nonempty, inline, ended, rfl⟩

theorem read_increment_sound {text : Text} {kind : LineKind}
    (found : readIncrement text = some kind) : IsDirective kind text := by
  simp only [readIncrement, Option.bind_eq_bind, Option.bind_eq_some_iff] at found
  obtain ⟨behind, lead, found⟩ := found
  obtain rfl := after_lead_iff.1 lead
  split at found
  · next space =>
      obtain ⟨⟨target, later⟩, read, readFinal⟩ := Option.bind_eq_some_iff.1 found
      obtain ⟨rfl, final, ended, rfl⟩ := at_end_iff.1 readFinal
      obtain ⟨digits, counted, -, rfl⟩ := numeral_iff.1 read
      obtain rfl := after_lead_iff.1 space
      exact ⟨_, final, .incrementStepTo counted, ended, by simp⟩
  · obtain ⟨rfl, final, ended, rfl⟩ := at_end_iff.1 found
    exact ⟨_, final, .incrementStep, ended, rfl⟩

theorem read_increment_complete {text : Text} {target : Option Nat}
    (directive : IsDirective (.incrementStep target) text) :
    readIncrement text = some (.incrementStep target) := by
  obtain ⟨command, final, derived, ended, rfl⟩ := directive
  simp only [readIncrement, Option.bind_eq_bind, Option.bind_eq_some_iff]
  cases derived with
  | incrementStep =>
      exact ⟨_, after_lead_append _ _, at_end_iff.2 ⟨rfl, final, ended, rfl⟩⟩
  | @incrementStepTo target digits counted =>
      have read := numeral_iff.2 ⟨digits, counted, no_digit_in_period final, rfl⟩
      refine ⟨[' '] ++ (digits ++ '.' :: final), after_lead_iff.2 (by simp), ?_⟩
      rw [after_lead_append]
      refine Option.bind_eq_some_iff.2 ⟨_, read, ?_⟩
      exact at_end_iff.2 ⟨rfl, final, ended, rfl⟩

/-! ## The keywords tell the readers apart -/

theorem read_directive_sound {text : Text} {kind : LineKind}
    (found : readDirective text = some kind) : IsDirective kind text := by
  have plain {keyword : Text} {plainKind : LineKind} (command : Command plainKind keyword)
      (read : readPlain keyword plainKind text = some kind) : IsDirective kind text := by
    obtain ⟨rfl, rest, ended, rfl⟩ := read_plain_iff.1 read
    exact ⟨keyword, rest, command, ended, rfl⟩
  simp only [readDirective, Option.orElse_eq_orElse, Option.orElse_eq_or, Option.or_eq_some_iff]
    at found
  rcases found with read | ⟨-, read | ⟨-, read | ⟨-, read | ⟨-, read | ⟨-, read | ⟨-, read |
    ⟨-, read | ⟨-, read⟩⟩⟩⟩⟩⟩⟩⟩
  · exact read_step_sound read
  · exact plain .endStep read
  · exact plain .cumulative read
  · exact read_volatile_sound read
  · exact read_forget_sound read
  · obtain ⟨rfl, before, term, rest, spaces, nonempty, inline, ended, rfl⟩ := read_term_iff.1 read
    exact ⟨_, rest, .assert spaces nonempty inline, ended, by simp⟩
  · obtain ⟨rfl, before, term, rest, spaces, nonempty, inline, ended, rfl⟩ := read_term_iff.1 read
    exact ⟨_, rest, .retract spaces nonempty inline, ended, by simp⟩
  · exact plain .stop read
  · exact read_increment_sound read

/-- The keyword that a directive of this kind begins with, and the reader of that keyword. -/
def readerOf : LineKind → Option (Text × (Text → Option LineKind))
  | .step _ _ => some ("#step ".toList, readStep)
  | .endStep => some ("#endstep".toList, readPlain "#endstep".toList .endStep)
  | .cumulative => some ("#cumulative".toList, readPlain "#cumulative".toList .cumulative)
  | .volatile _ => some ("#volatile".toList, readVolatile)
  | .forget _ _ => some ("#forget ".toList, readForget)
  | .assert => some ("#assert".toList, readTerm "#assert".toList .assert)
  | .retract => some ("#retract".toList, readTerm "#retract".toList .retract)
  | .stop => some ("#stop".toList, readPlain "#stop".toList .stop)
  | .incrementStep _ => some ("#istep".toList, readIncrement)
  | .fact | .integrity | .rule | .commentOrBlank | .unrecognized => none

theorem read_directive_of_keyword {kind : LineKind} {keyword : Text}
    {reader : Text → Option LineKind} (known : readerOf kind = some (keyword, reader))
    (rest : Text) : readDirective (keyword ++ rest) = reader (keyword ++ rest) := by
  cases kind <;> cases known <;>
    simp [readDirective, readStep, readVolatile, readForget, readTerm, readPlain, readIncrement,
      afterLead, List.isPrefixOf?]

theorem reader_complete {kind : LineKind} {text : Text} (directive : IsDirective kind text) :
    ∃ keyword reader rest, readerOf kind = some (keyword, reader) ∧ text = keyword ++ rest ∧
      reader text = some kind := by
  have whole := directive
  obtain ⟨command, final, derived, ended, rfl⟩ := directive
  cases derived with
  | step _ | stepWindow _ _ _ _ _ =>
      exact ⟨_, _, _, rfl, List.append_assoc _ _ _, read_step_complete whole⟩
  | endStep | cumulative | stop =>
      exact ⟨_, _, _, rfl, rfl, read_plain_iff.2 ⟨rfl, final, ended, rfl⟩⟩
  | volatile => exact ⟨_, _, _, rfl, rfl, read_volatile_complete whole⟩
  | volatileWindow _ _ _ =>
      exact ⟨_, _, _, rfl, List.append_assoc _ _ _, read_volatile_complete whole⟩
  | forget _ | forgetRange _ _ =>
      exact ⟨_, _, _, rfl, List.append_assoc _ _ _, read_forget_complete whole⟩
  | assert spaces nonempty inline | retract spaces nonempty inline =>
      refine ⟨_, _, _, rfl, List.append_assoc _ _ _, read_term_iff.2 ?_⟩
      exact ⟨rfl, _, _, final, spaces, nonempty, inline, ended, by simp⟩
  | incrementStep => exact ⟨_, _, _, rfl, rfl, read_increment_complete whole⟩
  | incrementStepTo _ =>
      exact ⟨_, _, _, rfl, List.append_assoc _ _ _, read_increment_complete whole⟩

theorem read_directive_iff {text : Text} {kind : LineKind} :
    readDirective text = some kind ↔ IsDirective kind text := by
  refine ⟨read_directive_sound, fun directive => ?_⟩
  obtain ⟨keyword, reader, rest, known, rfl, read⟩ := reader_complete directive
  rw [read_directive_of_keyword known, read]

/-! ## Lines that begin with a number sign -/

theorem dead_stays_dead (text : Text) : text.foldl advance [] = [] := by
  induction text with
  | nil => rfl
  | cons _ _ induction => exact induction

/-- No shape of a clause, a comment or a blank line admits `#` as its first character. -/
theorem refused_behind_number_sign (rest : Text) :
    integrityShape.accepts ('#' :: rest) = false ∧ ruleShape.accepts ('#' :: rest) = false ∧
      factShape.accepts ('#' :: rest) = false ∧ tail.accepts ('#' :: rest) = false := by
  have refused (shape : Pattern) (dead : advance [shape] '#' = []) :
      shape.accepts ('#' :: rest) = false := by
    rw [accepts, List.foldl_cons, dead, dead_stays_dead]
    rfl
  exact ⟨refused integrityShape rfl, refused ruleShape rfl, refused factShape rfl,
    refused tail rfl⟩

theorem no_clause_behind_number_sign (rest : Text) : readClause ('#' :: rest) = .unrecognized := by
  obtain ⟨noConstraint, noRule, noFact, noTail⟩ := refused_behind_number_sign rest
  rw [readClause, noConstraint, noRule, noFact, noTail]
  rfl

theorem command_begins {kind : LineKind} {command : Text} (derived : Command kind command) :
    ∃ rest, command = '#' :: rest := by
  cases derived <;> exact ⟨_, rfl⟩

def isDirectiveKind : LineKind → Bool
  | .fact | .integrity | .rule | .commentOrBlank | .unrecognized => false
  | _ => true

theorem directive_kind {kind : LineKind} {text : Text} (directive : IsDirective kind text) :
    isDirectiveKind kind = true := by
  obtain ⟨command, rest, derived, -, -⟩ := directive
  cases derived <;> rfl

theorem clause_kind (text : Text) : isDirectiveKind (readClause text) = false := by
  unfold readClause
  repeat' split
  all_goals rfl

theorem directive_begins {kind : LineKind} {text : Text} (directive : IsDirective kind text) :
    text.head? = some '#' := by
  obtain ⟨command, rest, derived, -, rfl⟩ := directive
  obtain ⟨more, rfl⟩ := command_begins derived
  rfl

theorem number_sign_stays {line : Text} (first : line.head? = some '#') :
    ∃ rest, stripLineEnd line = '#' :: rest := by
  cases line with
  | nil => cases first
  | cons character rest =>
      obtain rfl : character = '#' := Option.some.inj first
      exact ⟨_, strip_line_end_append [] rest (by decide) (by decide)⟩

theorem classify_behind_number_sign {line : Text} (first : line.head? = some '#') :
    classify line = (readDirective (stripLineEnd line)).getD .unrecognized := by
  obtain ⟨rest, stripped⟩ := number_sign_stays first
  rw [classify, stripped]
  rfl

theorem no_clause_of_directive_kind {kind : LineKind} (known : isDirectiveKind kind = true) :
    kind.isClause = false ∧ kind ≠ .commentOrBlank := by
  cases kind <;> cases known <;> exact ⟨rfl, nofun⟩

theorem classify_iff_read {line : Text} {kind : LineKind} (known : isDirectiveKind kind = true) :
    classify line = kind ↔ readDirective (stripLineEnd line) = some kind := by
  rw [classify]
  split
  · cases read : readDirective (stripLineEnd line) with
    | none =>
        refine iff_of_false ?_ nofun
        rintro rfl
        cases known
    | some found => rw [Option.getD_some, Option.some_inj]
  · next other =>
      refine iff_of_false ?_ ?_
      · rintro rfl
        rw [clause_kind] at known
        cases known
      · intro read
        exact other (directive_begins (read_directive_iff.1 read))

/-- A line is a directive of some kind exactly if the grammar derives it as one. Every other
line that begins with `#` is unrecognized, as no line that begins with `#` has the shape of
a clause, a comment or a blank line. -/
theorem classify_exact_on_directives (line : Text) :
    (∀ kind, isDirectiveKind kind = true →
      (classify line = kind ↔ IsDirective kind (stripLineEnd line))) ∧
    (line.head? = some '#' → (∀ kind, ¬ IsDirective kind (stripLineEnd line)) →
      classify line = .unrecognized) ∧
    (line.head? = some '#' → (classify line).isClause = false ∧ classify line ≠ .commentOrBlank ∧
      readClause (stripLineEnd line) = .unrecognized) := by
  refine ⟨fun kind known => (classify_iff_read known).trans read_directive_iff, ?_, ?_⟩
  · intro first underived
    have unread : readDirective (stripLineEnd line) = none :=
      Option.eq_none_iff_forall_ne_some.2 fun kind read =>
        underived kind (read_directive_iff.1 read)
    rw [classify_behind_number_sign first, unread]
    rfl
  · intro first
    obtain ⟨rest, stripped⟩ := number_sign_stays first
    rw [← and_assoc]
    refine ⟨?_, stripped ▸ no_clause_behind_number_sign rest⟩
    rw [classify_behind_number_sign first]
    cases read : readDirective (stripLineEnd line) with
    | none => exact ⟨rfl, nofun⟩
    | some kind => exact no_clause_of_directive_kind (directive_kind (read_directive_iff.1 read))

-- A number that is no step, a digit of another script, a capital letter, a missing period.
example : ["#step 18446744073709551616.", "#step ٣.", "#Stop.", "#stop"].map
    (fun line => classify line.toList) = List.replicate 4 .unrecognized := by decide

end StepStream.Line
