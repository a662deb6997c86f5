import StepStream.Proofs.Lines
import StepStream.Source.QueryClause

/-!
What the step argument does to the text of a query. The statement is a front of the line, and
the argument is added behind a front of the line as well. Digits of all scripts count when an
argument is looked for, but no blank is one, and of ASCII only the ten digits are.
-/

namespace StepStream

set_option autoImplicit false

namespace Text

theorem digit_of_ascii {character : Char} (ascii : character.toNat < 128)
    (decimal : isDecimalDigit character = true) : isDigit character = true := by
  have first : ∀ range ∈ decimalDigitRanges, range = (0x30, 0x39) ∨ 128 ≤ range.1 := by decide
  obtain ⟨range, member, within⟩ := List.any_eq_true.1 decimal
  rw [Bool.and_eq_true, decide_eq_true_eq, decide_eq_true_eq] at within
  rcases first range member with rfl | beyond
  · rw [isDigit, Bool.and_eq_true, decide_eq_true_eq, decide_eq_true_eq]
    exact within
  · omega

theorem blank_is_no_digit {character : Char} (blank : isBlank character = true) :
    isDecimalDigit character = false := by
  have apart : ∀ range ∈ decimalDigitRanges, (0x20 < range.1 ∧ range.2 < 0x85) ∨
      (0xA0 < range.1 ∧ range.2 < 0x1680) ∨ (0x1680 < range.1 ∧ range.2 < 0x2000) ∨
      0x3000 < range.1 := by decide
  rw [isDecimalDigit, inRanges, List.any_eq_false]
  intro range member within
  rw [Bool.and_eq_true, decide_eq_true_eq, decide_eq_true_eq] at within
  have place := apart range member
  simp only [isBlank, Bool.or_eq_true, Bool.and_eq_true, decide_eq_true_eq] at blank
  omega

theorem unblank_of_decimal {character : Char} (decimal : isDecimalDigit character = true) :
    isBlank character = false := by
  rw [← Bool.not_eq_true]
  intro blank
  rw [blank_is_no_digit blank] at decimal
  cases decimal

end Text

namespace QueryClause

open Text

/-- What an argument begins behind. -/
def IsMark (character : Char) : Prop := character = '(' ∨ character = ','

instance (character : Char) : Decidable (IsMark character) :=
  inferInstanceAs (Decidable (_ ∨ _))

theorem unblank_of_mark {mark : Char} (marks : IsMark mark) : isBlank mark = false := by
  rcases marks with rfl | rfl <;> decide

theorem statement_front (line : Text) : statement line <+: line.takeWhile (· ≠ '%') := by
  have uncommented : trimEnd (line.takeWhile (· ≠ '%')) <+: line.takeWhile (· ≠ '%') :=
    drop_end_while_front _ _
  rw [statement]
  refine (drop_end_while_front _ _).trans ?_
  split
  · exact (List.dropLast_prefix _).trans uncommented
  · exact uncommented

theorem append_step_front (line : Text) (step : Nat) :
    ∃ front mark, front <+: line.takeWhile (· ≠ '%') ∧ (mark = ',' ∨ mark = '(') ∧
      appendStep line step = front ++ mark :: (showNumeral step ++ ").\n".toList) := by
  rw [appendStep]
  split
  · exact ⟨_, ',', (List.dropLast_prefix _).trans (statement_front line), .inl rfl, by simp⟩
  · exact ⟨_, '(', statement_front line, .inr rfl, by simp⟩

end QueryClause

end StepStream
