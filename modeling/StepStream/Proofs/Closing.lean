import StepStream.Proofs.DirectiveGrammar
import StepStream.Proofs.TermGrammar

/-!
Where a final argument is looked for in a line, and what counts as one: digits, a parenthesis, a
period and a tail. The search knows nothing of strings and comments, so such a closing can stand in
the clause, at its end, or in the comment behind it.
-/

namespace StepStream.QueryClause

set_option autoImplicit false

open Text Pattern

theorem ends_clause_iff {text : Text} : endsClause text = true ↔ Line.IsTail text := by
  rw [endsClause]
  constructor
  · intro ended
    obtain ⟨blank, blanks, whole⟩ := trim_start_eq text
    split at ended
    · next empty => exact ⟨blank, [], by rw [whole, empty], blanks, .inl rfl⟩
    · next comment begins =>
        exact ⟨blank, '%' :: comment, by rw [whole, begins], blanks,
          .inr ⟨comment, rfl, all_inline_iff.1 (List.all_eq_true.1 ended)⟩⟩
    · cases ended
  · rintro ⟨blank, comment, rfl, blanks, rfl | ⟨words, rfl, inline⟩⟩
    · rw [trimStart, drop_while_append blanks (by simp)]
    · rw [trimStart, drop_while_append blanks (by simp; decide)]
      exact List.all_eq_true.2 (all_inline_iff.2 inline)

/-- Digits that an argument and an atom end behind. -/
def Ending (digits text : Text) : Prop :=
  ∃ blank between gap, text = blank ++ (digits ++ (between ++ ')' :: gap)) ∧
    (∀ character ∈ blank, isBlank character = true) ∧
    (∀ character ∈ between, isBlank character = true) ∧
    (∀ character ∈ gap, isBlank character = true) ∧
    digits ≠ [] ∧ ∀ digit ∈ digits, isDecimalDigit digit = true

/-- Digits that a clause ends behind as well. -/
def Closing (digits : Text) : Text → Prop := Line.Terminated (Ending digits)

theorem final_digits_of_closing {digits text : Text} (closing : Closing digits text) :
    finalDigits text = some digits := by
  obtain ⟨_, rest, ending, ended, rfl⟩ := closing
  obtain ⟨blank, between, gap, rfl, blanks, betweens, gaps, nonempty, decimal⟩ := ending
  obtain ⟨digit, others, rfl⟩ := List.exists_cons_of_ne_nil nonempty
  have parenthesis : isDecimalDigit ')' = false ∧ isBlank ')' = false ∧ isBlank '.' = false := by
    decide
  have behind : ∀ first ∈ (between ++ ')' :: (gap ++ '.' :: rest)).head?,
      isDecimalDigit first = false := by
    cases between with
    | nil => simp [parenthesis]
    | cons first between => simp [blank_is_no_digit (betweens first List.mem_cons_self)]
  have unblank := unblank_of_decimal (decimal digit List.mem_cons_self)
  have closed : afterLead [')'] (')' :: (gap ++ '.' :: rest)) = some (gap ++ '.' :: rest) :=
    Line.after_lead_append [')'] _
  have period : afterLead ['.'] ('.' :: rest) = some rest := Line.after_lead_append ['.'] rest
  have regrouped : (blank ++ (digit :: others ++ (between ++ ')' :: gap))) ++ '.' :: rest =
      blank ++ (digit :: others ++ (between ++ ')' :: (gap ++ '.' :: rest))) := by simp
  rw [regrouped, finalDigits, trimStart, drop_while_append blanks (by simp [unblank]),
    List.span_eq_takeWhile_dropWhile, take_while_append decimal behind,
    drop_while_append decimal behind]
  dsimp only
  rw [trimStart, drop_while_append betweens (by simp [parenthesis]), closed, Option.bind_eq_bind,
    Option.bind_some, trimStart, drop_while_append gaps (by simp [parenthesis]), period]
  simp [ends_clause_iff.2 ended]

theorem closing_of_final_digits {digits text : Text} (found : finalDigits text = some digits) :
    Closing digits text := by
  obtain ⟨blank, blanks, whole⟩ := trim_start_eq text
  rw [finalDigits, List.span_eq_takeWhile_dropWhile] at found
  dsimp only at found
  split at found
  · cases found
  · next some =>
      simp only [Option.bind_eq_bind, Option.bind_eq_some_iff, Line.after_lead_iff] at found
      obtain ⟨closed, parenthesis, ended, period, found⟩ := found
      split at found
      · next tail =>
          cases found
          obtain ⟨between, betweens, middle⟩ :=
            trim_start_eq ((trimStart text).dropWhile isDecimalDigit)
          obtain ⟨gap, gaps, last⟩ := trim_start_eq closed
          refine ⟨_, ended, ⟨blank, between, gap, rfl, blanks, betweens, gaps, ?_, ?_⟩,
            ends_clause_iff.1 tail, ?_⟩
          · simpa using some
          · exact fun digit member => List.mem_takeWhile_imp member
          · rw [parenthesis, List.singleton_append] at middle
            rw [period, List.singleton_append] at last
            calc
              text = blank ++ trimStart text := whole
              _ = blank ++ ((trimStart text).takeWhile isDecimalDigit ++
                    (between ++ ')' :: (gap ++ '.' :: ended))) := by
                rw [← last, ← middle, List.takeWhile_append_dropWhile]
              _ = _ := by simp
      · cases found

theorem final_digits_iff {digits text : Text} :
    finalDigits text = some digits ↔ Closing digits text :=
  ⟨closing_of_final_digits, final_digits_of_closing⟩

theorem mark_cons_iff {first : Char} {text rest : Text} :
    (∃ front mark, IsMark mark ∧ first :: text = front ++ mark :: rest) ↔
      (IsMark first ∧ rest = text) ∨ ∃ front mark, IsMark mark ∧ text = front ++ mark :: rest := by
  constructor
  · rintro ⟨front, mark, marks, whole⟩
    cases front with
    | nil =>
        obtain ⟨rfl, rfl⟩ := List.cons.inj whole
        exact .inl ⟨marks, rfl⟩
    | cons other front =>
        obtain ⟨rfl, rfl⟩ := List.cons.inj whole
        exact .inr ⟨front, mark, marks, rfl⟩
  · rintro (⟨marks, rfl⟩ | ⟨front, mark, marks, rfl⟩)
    · exact ⟨[], first, marks, rfl⟩
    · exact ⟨first :: front, mark, marks, rfl⟩

theorem argument_starts_iff {rest text : Text} :
    rest ∈ argumentStarts text ↔ ∃ front mark, IsMark mark ∧ text = front ++ mark :: rest := by
  induction text with
  | nil => simp [argumentStarts]
  | cons first text induction =>
      rw [mark_cons_iff, ← induction, argumentStarts]
      by_cases marks : IsMark first
      · have begins : (decide (first = '(') || decide (first = ',')) = true := by
          simpa [IsMark] using marks
        simp [begins, marks]
      · have other : (decide (first = '(') || decide (first = ',')) = false := by
          simpa [IsMark, not_or] using marks
        simp [other, marks]

theorem argument_starts_append (front back : Text) :
    argumentStarts (front ++ back) =
      (argumentStarts front).map (· ++ back) ++ argumentStarts back := by
  induction front with
  | nil => rfl
  | cons first front induction =>
      rw [List.cons_append, argumentStarts, argumentStarts, induction]
      split <;> rfl

/-! ## Where the search begins -/

theorem behind_first_name_sound {named : Bool} {text rest : Text}
    (found : behindFirstName named text = some rest) : ∃ front, text = front ++ '(' :: rest := by
  induction text generalizing named with
  | nil => cases found
  | cons first text induction =>
      rw [behindFirstName] at found
      split at found
      · next opens =>
          cases found
          obtain ⟨rfl, -⟩ := Bool.and_eq_true_iff.1 opens |>.imp_left of_decide_eq_true
          exact ⟨[], rfl⟩
      · have later : ∃ state, behindFirstName state text = some rest := by
          split at found
          · exact ⟨true, found⟩
          · split at found
            · exact ⟨named, found⟩
            · exact ⟨false, found⟩
        obtain ⟨state, found⟩ := later
        obtain ⟨front, rfl⟩ := induction found
        exact ⟨first :: front, rfl⟩

theorem behind_first_name_letters {letters : Text} (rest : Text)
    (parts : ∀ letter ∈ letters, CharClass.isNamePart letter = true) :
    behindFirstName true (letters ++ '(' :: rest) = some rest := by
  induction letters with
  | nil => rfl
  | cons letter letters induction =>
      obtain ⟨part, others⟩ := List.forall_mem_cons.1 parts
      have other : letter ≠ '(' := by
        rintro rfl
        exact absurd part (by decide)
      rw [List.cons_append, behindFirstName, if_neg (by simp [other])]
      split
      · exact induction others
      · exact induction others

theorem behind_first_name_of_name (named : Bool) {front : Text} (name : Ground.Name) (rest : Text)
    (free : '(' ∉ front) :
    behindFirstName named (front ++ (name.text ++ '(' :: rest)) = some rest := by
  induction front generalizing named with
  | nil =>
      obtain ⟨first, others, letters, start, parts⟩ := CarryOver.is_predicate_iff.1 name.valid
      have other : first ≠ '(' := by
        rintro rfl
        exact absurd start (by decide)
      rw [letters, List.nil_append, List.cons_append, behindFirstName, if_neg (by simp [other]),
        if_pos start]
      exact behind_first_name_letters rest parts
  | cons first front induction =>
      rw [List.mem_cons, not_or] at free
      rw [List.cons_append, behindFirstName, if_neg (by simp [Ne.symm free.1])]
      split
      · exact induction _ free.2
      · split <;> exact induction _ free.2

/-! ## Where closings stand -/

/-- Whether the text, up to its end, has a closing behind a parenthesis or a comma. -/
def HoldsClosing (text : Text) : Prop :=
  ∃ front mark rest digits, IsMark mark ∧ text = front ++ mark :: rest ∧ Closing digits rest

theorem no_closing_without_period {text : Text} (free : '.' ∉ text) : ¬ HoldsClosing text := by
  rintro ⟨front, mark, _, digits, -, rfl, ending, rest, -, -, rfl⟩
  simp at free

theorem is_tail_drop_end {test : Char → Bool} {tail : Text} (fails : test '%' = false)
    (ended : Line.IsTail tail) : Line.IsTail (dropEndWhile test tail) := by
  obtain ⟨blank, comment, rfl, blanks, shape⟩ := ended
  rcases shape with rfl | ⟨words, rfl, inline⟩
  · rw [List.append_nil]
    exact Line.is_tail_of_blanks fun character member =>
      blanks character (mem_of_drop_end_while member)
  · rw [drop_end_while_cons blank words fails]
    have oneLine : '\n' ∉ dropEndWhile test words :=
      fun member => inline (mem_of_drop_end_while member)
    exact ⟨blank, _, rfl, blanks, .inr ⟨_, rfl, oneLine⟩⟩

theorem HoldsClosing.append_blanks {text run : Text} (holds : HoldsClosing text)
    (blanks : ∀ character ∈ run, isBlank character = true) (inline : '\n' ∉ run) :
    HoldsClosing (text ++ run) := by
  obtain ⟨front, mark, _, digits, marks, rfl, ending, rest, ends, ended, rfl⟩ := holds
  have tail := Line.is_tail_append ended (Line.is_tail_of_blanks blanks) inline
  exact ⟨front, mark, ending ++ '.' :: (rest ++ run), digits, marks, by simp,
    ending, rest ++ run, ends, tail, rfl⟩

theorem tail_of_append {front rest : Text} (ended : Line.IsTail (front ++ '.' :: rest)) :
    '%' ∈ front ∧ Line.IsTail front := by
  obtain ⟨blank, comment, whole, blanks, shape⟩ := ended
  have unblank : '.' ∉ blank := not_mem_of_all blanks (by decide)
  rcases shape with rfl | ⟨words, rfl, inline⟩
  · rw [List.append_nil] at whole
    exact absurd (whole ▸ List.mem_append_right _ List.mem_cons_self) unblank
  · rcases append_around whole with ⟨closed, rfl, rfl⟩ | ⟨opened, rfl, period⟩
    · rw [List.mem_append, not_or] at inline
      exact ⟨by simp, blank, '%' :: closed, rfl, blanks, .inr ⟨closed, rfl, inline.1⟩⟩
    · cases opened with
      | nil => cases period
      | cons first opened =>
          obtain ⟨rfl, -⟩ := List.cons.inj period
          simp at unblank

theorem no_period_in_ending {digits text : Text} (ending : Ending digits text) : '.' ∉ text := by
  obtain ⟨blank, between, gap, rfl, blanks, betweens, gaps, -, decimal⟩ := ending
  have noBlank {text : Text} (all : ∀ character ∈ text, isBlank character = true) : '.' ∉ text :=
    not_mem_of_all all (by decide)
  have noDigit : '.' ∉ digits := not_mem_of_all decimal (by decide)
  simp [noBlank blanks, noBlank betweens, noBlank gaps, noDigit]

/-- A closing in a clause with its period and a tail stands in the clause, which then has a comment
within its strings, or at its end, or in the tail. -/
theorem closing_cases {clause tail front rest digits : Text} {mark : Char} (marks : IsMark mark)
    (closing : Closing digits rest) (whole : clause ++ '.' :: tail = front ++ mark :: rest) :
    ('%' ∈ clause ∧ HoldsClosing clause) ∨
    (∃ ending, Ending digits ending ∧ clause = front ++ mark :: ending) ∨
    ∃ opened, tail = opened ++ mark :: rest := by
  obtain ⟨ending, behind, ends, ended, rfl⟩ := closing
  have free := no_period_in_ending ends
  have cut : clause ++ '.' :: tail = (front ++ mark :: ending) ++ '.' :: behind := by simp [whole]
  -- The period of the closing stands before, at or behind the period of the clause.
  rcases append_around cut with ⟨closed, rfl, rfl⟩ | ⟨opened, ahead, period⟩
  · obtain ⟨comment, tail⟩ := tail_of_append ended
    exact .inl ⟨by simp [comment], front, mark, ending ++ '.' :: closed, digits, marks, by simp,
      ending, closed, ends, tail, rfl⟩
  · cases opened with
    | nil =>
        rw [List.append_nil] at ahead
        exact .inr (.inl ⟨ending, ends, ahead.symm⟩)
    | cons first opened =>
        obtain ⟨rfl, rfl⟩ := List.cons.inj period
        refine .inr (.inr ?_)
        rcases append_around ahead with ⟨closed, rfl, rfl⟩ | ⟨others, rfl, inside⟩
        · exact ⟨closed, by simp⟩
        · cases others with
          | nil =>
              obtain ⟨rfl, -⟩ := List.cons.inj inside
              rcases marks with dot | dot <;> cases dot
          | cons second others =>
              obtain ⟨-, rfl⟩ := List.cons.inj inside
              simp at free

theorem ending_of_inner {clause tail front inner digits : Text} {mark : Char} (marks : IsMark mark)
    (quiet : '%' ∈ clause → ¬ HoldsClosing clause) (closing : Closing digits (inner ++ '.' :: tail))
    (whole : clause = front ++ mark :: inner) : Ending digits inner := by
  have line : clause ++ '.' :: tail = front ++ mark :: (inner ++ '.' :: tail) := by simp [whole]
  rcases closing_cases marks closing line with
    ⟨comment, holds⟩ | ⟨ending, ends, cut⟩ | ⟨opened, cut⟩
  · exact absurd holds (quiet comment)
  · obtain ⟨-, rfl⟩ := List.cons.inj (List.append_cancel_left (whole.symm.trans cut))
    exact ends
  · have size := congrArg List.length cut
    simp only [List.length_append, List.length_cons] at size
    omega

theorem candidate_of_place {ahead rest place ending : Text} {mark : Char} (marks : IsMark mark)
    (free : '(' ∉ ahead) (first : mark = '(' ∨ '(' ∈ place)
    (whole : ahead ++ '(' :: rest = place ++ mark :: ending) :
    ('(' ∉ place ∧ ending = rest) ∨ ('(' ∈ place ∧ ending ∈ argumentStarts rest) := by
  rcases append_around whole with ⟨closed, rfl, -⟩ | ⟨opened, rfl, behind⟩
  · rw [List.mem_append, List.mem_cons, not_or, not_or] at free
    rcases first with rfl | opens
    · exact absurd rfl free.2.1
    · exact absurd opens free.1
  · cases opened with
    | nil =>
        obtain ⟨-, rfl⟩ := List.cons.inj behind
        exact .inl ⟨by simpa using free, rfl⟩
    | cons second opened =>
        obtain ⟨rfl, rfl⟩ := List.cons.inj behind
        exact .inr ⟨by simp, argument_starts_iff.2 ⟨opened, mark, marks, rfl⟩⟩

theorem find_some_of_unique {Item Result : Type} {search : Item → Option Result} {items : List Item}
    {item : Item} {result : Result} (member : item ∈ items) (found : search item = some result)
    (unique : ∀ other ∈ items, ∀ value, search other = some value → value = result) :
    items.findSome? search = some result := by
  cases finds : items.findSome? search with
  | none =>
      rw [List.findSome?_eq_none_iff.1 finds item member] at found
      cases found
  | some value =>
      obtain ⟨other, here, same⟩ := List.exists_of_findSome?_eq_some finds
      rw [unique other here value same]

end StepStream.QueryClause
