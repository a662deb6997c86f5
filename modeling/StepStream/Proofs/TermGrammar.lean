import StepStream.Proofs.ClauseGrammar
import StepStream.Proofs.QueryText

/-!
Terms as they are written, with every blank between the arguments. What ends an argument list
tells whether its last term is an unsigned numeral: a run of digits in front of the end that a
comma or a parenthesis stands before can be nothing else.
-/

namespace StepStream.Clause

set_option autoImplicit false

open Text Pattern QueryClause

def Gap.none : Gap := ⟨[], nofun, nofun⟩

structure Digits where
  text : Text
  nonempty : text ≠ []
  ascii : ∀ digit ∈ text, isDigit digit = true

structure Variable where
  first : Char
  rest : Text
  capital : 'A' ≤ first ∧ first ≤ 'Z'
  letters : ∀ letter ∈ rest, CharClass.isNamePart letter = true

/-- A character between the quotes of a string, or a backslash and the character behind it. -/
inductive Glyph where
  | plain (character : Char) (bare : character ≠ '"' ∧ character ≠ '\\')
  | escaped (character : Char)

def Glyph.text : Glyph → Text
  | plain character _ => [character]
  | escaped character => ['\\', character]

mutual

inductive Term where
  | integer (isNegative : Bool) (digits : Digits)
  | constant (name : Ground.Name)
  | var (name : Variable)
  | string (glyphs : List Glyph)
  | function (name : Ground.Name) (arguments : Terms)

/-- One or more terms with commas between them, each with the blanks beside it. -/
inductive Terms where
  | last (before : Gap) (term : Term) (after : Gap)
  | more (before : Gap) (term : Term) (after : Gap) (others : Terms)

end

mutual

def Term.text : Term → Text
  | .integer isNegative digits => (if isNegative then ['-'] else []) ++ digits.text
  | .constant name => name.text
  | .var name => name.first :: name.rest
  | .string glyphs => '"' :: (glyphs.flatMap Glyph.text ++ ['"'])
  | .function name arguments => name.text ++ '(' :: (arguments.text ++ [')'])

def Terms.text : Terms → Text
  | .last before term after => before.text ++ (term.text ++ after.text)
  | .more before term after others =>
      before.text ++ (term.text ++ (after.text ++ ',' :: others.text))

end

namespace Terms

def final : Terms → Term
  | last _ term _ => term
  | more _ _ _ others => others.final

def isMany : Terms → Bool
  | last _ _ _ => false
  | more _ _ _ _ => true

def snoc (term : Term) : Terms → Terms
  | last before first after => more before first after (last Gap.none term Gap.none)
  | more before first after others => more before first after (others.snoc term)

theorem snoc_text (term : Term) : (terms : Terms) →
    (terms.snoc term).text = terms.text ++ ',' :: term.text
  | last before first after => by simp [snoc, text, Gap.none]
  | more before first after others => by simp [snoc, text, others.snoc_text term]

theorem snoc_final (term : Term) : (terms : Terms) → (terms.snoc term).final = term
  | last _ _ _ => rfl
  | more _ _ _ others => others.snoc_final term

/-- What stands in front of the last term ends with a comma, if there are more. -/
theorem text_eq : (terms : Terms) → ∃ (front : Text) (before after : Gap),
    terms.text = front ++ (before.text ++ (terms.final.text ++ after.text)) ∧
      if terms.isMany then ∃ ahead, front = ahead ++ [','] else front = []
  | last before term after => ⟨[], before, after, rfl, rfl⟩
  | more before term after others => by
      obtain ⟨front, gap, behind, whole, shape⟩ := others.text_eq
      refine ⟨before.text ++ (term.text ++ (after.text ++ ',' :: front)), gap, behind, ?_, ?_⟩
      · simp [text, whole, final]
      · cases many : others.isMany with
        | true =>
            rw [many] at shape
            obtain ⟨ahead, rfl⟩ := shape
            exact ⟨before.text ++ (term.text ++ (after.text ++ ',' :: ahead)), by simp⟩
        | false =>
            rw [many] at shape
            obtain rfl : front = [] := shape
            exact ⟨before.text ++ (term.text ++ after.text), by simp⟩

end Terms

/-! ## The end of an argument list -/

def isSolid (character : Char) : Bool := !isBlank character && !decide (IsMark character)

theorem solid_of_name_part {character : Char} (part : CharClass.isNamePart character = true) :
    isSolid character = true := by
  have other : ¬ IsMark character := by
    rintro (rfl | rfl) <;> exact absurd part (by decide)
  simp [isSolid, unblank_of_name_part part, other]

theorem solid_of_decimal {character : Char} (decimal : isDecimalDigit character = true) :
    isSolid character = true := by
  have other : ¬ IsMark character := by
    rintro (rfl | rfl) <;> exact absurd decimal (by decide)
  simp [isSolid, unblank_of_decimal decimal, other]

theorem decimal_of_digit {character : Char} (digit : isDigit character = true) :
    isDecimalDigit character = true := by
  rw [isDigit, Bool.and_eq_true, decide_eq_true_eq, decide_eq_true_eq] at digit
  rw [isDecimalDigit, inRanges, decimalDigitRanges, List.any_cons, Bool.or_eq_true,
    Bool.and_eq_true, decide_eq_true_eq, decide_eq_true_eq]
  exact .inl digit

theorem letter_is_no_digit {character : Char} (above : 65 ≤ character.toNat)
    (below : character.toNat ≤ 122) : isDecimalDigit character = false := by
  rw [← Bool.not_eq_true]
  intro decimal
  have digit := digit_of_ascii (by omega) decimal
  rw [isDigit, Bool.and_eq_true, decide_eq_true_eq, decide_eq_true_eq] at digit
  have most : character.toNat ≤ 57 := digit.2
  omega

theorem name_begins (name : Ground.Name) :
    ∃ first rest, name.text = first :: rest ∧ isDecimalDigit first = false := by
  obtain ⟨first, rest, letters, start, -⟩ := CarryOver.is_predicate_iff.1 name.valid
  refine ⟨first, rest, letters, ?_⟩
  simp only [CharClass.isNameStart, Bool.or_eq_true, Bool.and_eq_true, decide_eq_true_eq] at start
  rcases start with ⟨above, below⟩ | rfl
  · exact letter_is_no_digit (le_trans (by decide : 65 ≤ 97) above) below
  · decide

theorem solid_of_name (name : Ground.Name) :
    ∀ character ∈ name.text, isSolid character = true :=
  fun character member =>
    solid_of_name_part (CarryOver.name_part_of_predicate name.valid character member)

theorem Digits.solid (digits : Digits) : ∀ digit ∈ digits.text, isSolid digit = true :=
  fun digit member => solid_of_decimal (decimal_of_digit (digits.ascii digit member))

/-- The text of a term ends with another mark, or it is an unsigned numeral or a word that does not
begin with a digit. -/
theorem Term.text_cases (term : Term) :
    (∃ front last, term.text = front ++ [last] ∧ (last = '"' ∨ last = ')')) ∨
    (∀ character ∈ term.text, isSolid character = true) ∧
      ((∃ digits, term = .integer false digits) ∨
        ∃ first rest, term.text = first :: rest ∧ isDecimalDigit first = false) := by
  cases term with
  | integer isNegative digits =>
      cases isNegative with
      | false => exact .inr ⟨digits.solid, .inl ⟨digits, rfl⟩⟩
      | true =>
          have signed : (Term.integer true digits).text = '-' :: digits.text := rfl
          rw [signed]
          exact .inr ⟨List.forall_mem_cons.2 ⟨by decide, digits.solid⟩,
            .inr ⟨'-', digits.text, rfl, by decide⟩⟩
  | constant name => exact .inr ⟨solid_of_name name, .inr (name_begins name)⟩
  | var name =>
      have other :=
        letter_is_no_digit name.capital.1 (le_trans name.capital.2 (by decide : 90 ≤ 122))
      have part : CharClass.isNamePart name.first = true := by
        simp [CharClass.isNamePart, name.capital]
      exact .inr ⟨List.forall_mem_cons.2 ⟨solid_of_name_part part,
        fun letter member => solid_of_name_part (name.letters letter member)⟩,
        .inr ⟨name.first, name.rest, rfl, other⟩⟩
  | string glyphs =>
      exact .inl ⟨'"' :: glyphs.flatMap Glyph.text, '"', by simp [text], .inl rfl⟩
  | function name arguments =>
      exact .inl ⟨name.text ++ '(' :: arguments.text, ')', by simp [text], .inr rfl⟩

theorem Term.text_nonempty (term : Term) : term.text ≠ [] := by
  rcases term.text_cases with ⟨front, last, whole, -⟩ | ⟨-, ⟨digits, rfl⟩ | ⟨first, rest, whole, -⟩⟩
  · simp [whole]
  · exact digits.nonempty
  · simp [whole]

theorem Term.solid_last (term : Term) (front : Text) :
    ∀ last ∈ (front ++ term.text).getLast?, isSolid last = true := by
  rw [List.getLast?_append_of_ne_nil _ term.text_nonempty]
  intro last final
  rcases term.text_cases with ⟨front, other, whole, kind⟩ | ⟨solid, -⟩
  · rw [whole, List.getLast?_concat, Option.mem_some_iff] at final
    subst final
    rcases kind with rfl | rfl <;> decide
  · exact solid last (List.mem_of_getLast? final)

theorem unblank_of_solid {character : Char} (solid : isSolid character = true) :
    isBlank character = false := by
  rw [isSolid, Bool.and_eq_true, Bool.not_eq_true'] at solid
  exact solid.1

theorem Terms.text_last (terms : Terms) :
    terms.text ≠ [] ∧ ∀ last ∈ terms.text.getLast?, ¬ IsMark last := by
  obtain ⟨front, before, after, whole, -⟩ := terms.text_eq
  have nonempty := terms.final.text_nonempty
  rw [whole]
  refine ⟨by simp [nonempty], fun last final marks => ?_⟩
  rw [← List.append_assoc, ← List.append_assoc] at final
  cases trailing : after.text with
  | nil =>
      rw [trailing, List.append_nil] at final
      have solid := terms.final.solid_last _ last final
      simp [isSolid, marks] at solid
  | cons first rest =>
      have blank := after.blank
      rw [List.getLast?_append_of_ne_nil _ (by simp [trailing])] at final
      have unblank := unblank_of_mark marks
      rw [blank last (List.mem_of_getLast? final)] at unblank
      cases unblank

theorem not_solid_before {front blank : Text} {mark : Char} (marks : IsMark mark)
    (blanks : ∀ character ∈ blank, isBlank character = true) :
    ∀ last ∈ (front ++ mark :: blank).getLast?, isSolid last = false := by
  rw [List.getLast?_append_of_ne_nil _ (List.cons_ne_nil mark blank)]
  intro last final
  rcases List.mem_cons.1 (List.mem_of_getLast? final) with rfl | member
  · simp [isSolid, marks]
  · simp [isSolid, blanks last member]

/-- A run of digits at the end of a list of arguments is the last argument. -/
theorem numeral_at_end {front back digits blank blanks : Text} {mark other : Char}
    {before after : Gap} {term : Term} (marks : IsMark mark) (marked : IsMark other)
    (nonempty : digits ≠ []) (decimal : ∀ digit ∈ digits, isDecimalDigit digit = true)
    (ahead : ∀ character ∈ blank, isBlank character = true)
    (behind : ∀ character ∈ blanks, isBlank character = true)
    (same : front ++ mark :: (before.text ++ (term.text ++ after.text)) =
      back ++ other :: (blank ++ (digits ++ blanks))) :
    front = back ∧ mark = other ∧
      ∃ numeral : Digits, term = .integer false numeral ∧ numeral.text = digits := by
  have solid : ∀ digit ∈ digits, isSolid digit = true :=
    fun digit member => solid_of_decimal (decimal digit member)
  have ends : ∀ last ∈ ((back ++ other :: blank) ++ digits).getLast?, isSolid last = true := by
    rw [List.getLast?_append_of_ne_nil _ nonempty]
    exact fun last final => solid last (List.mem_of_getLast? final)
  have stops := term.solid_last (front ++ mark :: before.text)
  have regrouped : ((front ++ mark :: before.text) ++ term.text) ++ after.text =
      ((back ++ other :: blank) ++ digits) ++ blanks := by simpa using same
  obtain ⟨cut, -⟩ := run_inj (fun last final => unblank_of_solid (stops last final))
    (fun last final => unblank_of_solid (ends last final)) after.blank behind regrouped
  rcases term.text_cases with ⟨text, last, whole, kind⟩ | ⟨word, kind⟩
  · obtain ⟨others, digit, rfl⟩ := List.eq_nil_or_concat' digits |>.resolve_left nonempty
    rw [whole, ← List.append_assoc, ← List.append_assoc] at cut
    obtain ⟨-, same⟩ := List.append_inj' cut rfl
    obtain rfl := List.singleton_inj.1 same
    have found := decimal last (by simp)
    rcases kind with rfl | rfl <;> exact absurd found (by decide)
  · obtain ⟨begins, spelled⟩ := run_inj (not_solid_before marks before.blank)
      (not_solid_before marked ahead) word solid cut
    rcases kind with ⟨numeral, rfl⟩ | ⟨first, rest, letters, noDigit⟩
    · have opened : (front ++ [mark]) ++ before.text = (back ++ [other]) ++ blank := by
        simpa using begins
      obtain ⟨fronts, -⟩ := run_inj (by simp [unblank_of_mark marks])
        (by simp [unblank_of_mark marked]) before.blank ahead opened
      obtain ⟨rfl, sameMark⟩ := List.append_inj' fronts rfl
      exact ⟨rfl, List.singleton_inj.1 sameMark, numeral, rfl, spelled⟩
    · rw [letters] at spelled
      rw [decimal first (by simp [← spelled])] at noDigit
      cases noDigit

end StepStream.Clause
