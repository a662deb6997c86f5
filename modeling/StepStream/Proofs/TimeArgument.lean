import StepStream.Answer.Atom
import StepStream.Proofs.DirectiveGrammar
import StepStream.Proofs.TermGrammar

/-!
The time argument of an atom that a server prints. The search for it cuts the arguments at the last
comma without regard to quotes and parentheses. What stands behind that comma is then the last
argument or the end of it, and the end of a string or of a function term is never a numeral.
-/

namespace StepStream

set_option autoImplicit false

namespace Text

variable {mark : Char} {text : Text}

theorem inline_iff : text.all isInline = true ↔ '\n' ∉ text :=
  List.all_eq_true.trans Pattern.all_inline_iff

theorem unmarked_of_absent (absent : mark ∉ text) :
    ∀ character ∈ text, (character != mark) = true := by
  intro character member
  rw [bne_iff_ne]
  rintro rfl
  exact absent member

theorem split_first_append {front : Text} (absent : mark ∉ front) (back : Text) :
    splitFirst mark (front ++ mark :: back) = some (front, back) := by
  have passed := unmarked_of_absent absent
  rw [splitFirst, List.span_eq_takeWhile_dropWhile, take_while_append passed (by simp),
    drop_while_append passed (by simp)]

theorem split_last_append (front : Text) {back : Text} (absent : mark ∉ back) :
    splitLast mark (front ++ mark :: back) = some (front, back) := by
  have turned : (front ++ mark :: back).reverse = back.reverse ++ mark :: front.reverse := by simp
  rw [splitLast, turned, split_first_append (by simpa using absent)]
  simp

theorem split_last_absent (absent : mark ∉ text) : splitLast mark text = none := by
  have passed := unmarked_of_absent (mt List.mem_reverse.1 absent)
  rw [splitLast, splitFirst, List.span_eq_takeWhile_dropWhile, List.dropWhile_eq_nil_iff.2 passed]
  rfl

theorem cut_at_last (present : mark ∈ text) :
    ∃ front back, text = front ++ mark :: back ∧ mark ∉ back := by
  obtain ⟨back, front, turned, absent⟩ := List.eq_append_cons_of_mem (List.mem_reverse.2 present)
  refine ⟨front.reverse, back.reverse, ?_, by simpa using absent⟩
  have whole := congrArg List.reverse turned
  simpa using whole

theorem mem_trim_start {character : Char} (unblank : isBlank character = false)
    (member : character ∈ text) : character ∈ trimStart text := by
  obtain ⟨blank, blanks, whole⟩ := trim_start_eq text
  rw [whole, List.mem_append] at member
  exact member.resolve_left (not_mem_of_all blanks unblank)

theorem mem_trim {character : Char} (unblank : isBlank character = false)
    (member : character ∈ text) : character ∈ trim text := by
  have turned := mem_trim_start unblank (List.mem_reverse.2 (mem_trim_start unblank member))
  exact List.mem_reverse.2 turned

theorem trim_of_unblank (unblank : ∀ character ∈ text, isBlank character = false) :
    trimStart text = text ∧ trim text = text := by
  have first := fun character here => unblank character (List.mem_of_mem_head? here)
  have last := fun character here => unblank character (List.mem_of_getLast? here)
  have start : ([] ++ text).dropWhile isBlank = text := drop_while_append (by simp) first
  have ends : dropEndWhile isBlank (text ++ []) = text := drop_end_while_append last (by simp)
  rw [List.nil_append, ← trimStart] at start
  rw [List.append_nil, ← trimEnd] at ends
  refine ⟨start, ?_⟩
  rw [trim, start, ends]

end Text

open Text

/-- An atom with commas and no blanks between its arguments. -/
structure PrintedAtom where
  isNegated : Bool
  name : Ground.Name
  arguments : List Clause.Term

def Clause.Term.numeral : Clause.Term → Option Clause.Digits
  | .integer false digits => some digits
  | _ => none

theorem Clause.text_of_numeral {term : Clause.Term} {digits : Clause.Digits}
    (kind : term.numeral = some digits) : term.text = digits.text := by
  cases term with
  | integer isNegative =>
      cases isNegative with
      | false =>
          cases kind
          rfl
      | true => cases kind
  | _ => cases kind

namespace PrintedAtom

open Clause

def listed (terms : List Term) : Text := [','].intercalate (terms.map Term.text)

def sign (atom : PrintedAtom) : Text := if atom.isNegated then ['-'] else []

def text (atom : PrintedAtom) : Text :=
  atom.sign ++ Line.atomText atom.name.text (listed atom.arguments)

/-- The last argument, if it is an unsigned numeral. -/
def timeArgument (atom : PrintedAtom) : Option Digits := atom.arguments.getLast?.bind Term.numeral

/-! ## What stands behind the last comma -/

theorem listed_cons (first second : Term) (others : List Term) :
    listed (first :: second :: others) = first.text ++ ',' :: listed (second :: others) := by
  simp [listed, List.intercalate_cons_cons]

theorem listed_last (front : List Term) (last : Term) :
    listed (front ++ [last]) =
      if front = [] then last.text else listed front ++ ',' :: last.text := by
  induction front with
  | nil => simp [listed]
  | cons first front induction =>
      cases front with
      | nil => simp [listed]
      | cons second front =>
          rw [if_neg (List.cons_ne_nil _ _)] at induction ⊢
          rw [List.cons_append, List.cons_append, listed_cons, ← List.cons_append, induction,
            listed_cons]
          simp

theorem listed_eq_nil_iff {terms : List Term} : listed terms = [] ↔ terms = [] := by
  rcases List.eq_nil_or_concat' terms with rfl | ⟨front, last, rfl⟩
  · exact iff_of_true rfl rfl
  · have nonempty := last.text_nonempty
    refine iff_of_false ?_ (by simp)
    rw [listed_last]
    split <;> simp [nonempty]

def cut (arguments : Text) : Text × Text := (splitLast ',' arguments).getD ([], arguments)

theorem comma_of_solid {text : Text} (solid : ∀ character ∈ text, isSolid character = true) :
    ',' ∉ text :=
  not_mem_of_all solid (by decide)

theorem split_of_solid (front : List Term) {last : Term}
    (solid : ∀ character ∈ last.text, isSolid character = true) :
    splitLast ',' (listed (front ++ [last])) =
      if front = [] then none else some (listed front, last.text) := by
  rw [listed_last]
  split
  · exact split_last_absent (comma_of_solid solid)
  · exact split_last_append _ (comma_of_solid solid)

theorem cut_of_solid (front : List Term) {last : Term}
    (solid : ∀ character ∈ last.text, isSolid character = true) :
    cut (listed (front ++ [last])) = (listed front, last.text) := by
  rw [cut, split_of_solid front solid, listed_last]
  split
  · next none =>
      rw [none]
      rfl
  · rfl

theorem last_in_cut (front : Text) {last : Char} (other : last ≠ ',') :
    last ∈ (cut (front ++ [last])).2 := by
  by_cases present : ',' ∈ front
  · obtain ⟨before, after, rfl, absent⟩ := cut_at_last present
    have whole : (before ++ ',' :: after) ++ [last] = before ++ ',' :: (after ++ [last]) := by simp
    rw [cut, whole, split_last_append before (by simp [absent, Ne.symm other])]
    simp
  · rw [cut, split_last_absent (by simp [present, Ne.symm other])]
    simp

/-- Behind the last comma there is more than digits and blanks, unless the last argument is a
numeral. -/
theorem word_in_cut (front : List Term) {last : Term} (other : last.numeral = none) :
    ∃ character ∈ (cut (listed (front ++ [last]))).2,
      isBlank character = false ∧ isDigit character = false := by
  rcases last.text_cases with ⟨inner, mark, whole, kind⟩ | ⟨solid, ⟨digits, rfl⟩ | begins⟩
  · have apart : mark ≠ ',' ∧ isBlank mark = false ∧ isDigit mark = false := by
      rcases kind with rfl | rfl <;> decide
    have ends : ∃ ahead, listed (front ++ [last]) = ahead ++ [mark] := by
      rw [listed_last, whole]
      split
      · exact ⟨inner, rfl⟩
      · exact ⟨listed front ++ ',' :: inner, by simp⟩
    obtain ⟨ahead, ends⟩ := ends
    rw [ends]
    exact ⟨mark, last_in_cut ahead apart.1, apart.2⟩
  · cases other
  · obtain ⟨first, rest, whole, noDigit⟩ := begins
    have here : first ∈ last.text := by simp [whole]
    rw [cut_of_solid front solid]
    refine ⟨first, here, unblank_of_solid (solid first here), ?_⟩
    rw [← Bool.not_eq_true]
    intro digit
    rw [decimal_of_digit digit] at noDigit
    cases noDigit

/-! ## The step of an atom -/

def rest (atom : PrintedAtom) : Text :=
  if atom.arguments = [] then [] else '(' :: (listed atom.arguments ++ [')'])

theorem text_eq (atom : PrintedAtom) : atom.text = atom.sign ++ (atom.name.text ++ atom.rest) := by
  rw [text, Line.atomText, rest]
  simp only [listed_eq_nil_iff]
  split <;> simp

def EndsName (rest : Text) : Prop := ∀ first ∈ rest.head?, CharClass.isNamePart first = false

theorem ends_name_nil : EndsName [] := nofun

theorem ends_name_opened (opened : Text) : EndsName ('(' :: opened) := by
  intro first here
  rw [← Option.mem_some_iff.1 here]
  decide

theorem rest_ends_name (atom : PrintedAtom) : EndsName atom.rest := by
  rw [rest]
  split
  · exact ends_name_nil
  · exact ends_name_opened _

theorem after_name (atom : PrintedAtom) {rest : Text} (ends : EndsName rest) :
    Atom.afterName (atom.sign ++ (atom.name.text ++ rest)) = some rest := by
  obtain ⟨first, letters, named, start, parts⟩ := CarryOver.is_predicate_iff.1 atom.name.valid
  have unsigned : (afterLead ['-'] (atom.sign ++ (atom.name.text ++ rest))).getD
      (atom.sign ++ (atom.name.text ++ rest)) = first :: (letters ++ rest) := by
    rw [named, sign]
    split
    · rw [Line.after_lead_append]
      rfl
    · have other : first ≠ '-' := by
        rintro rfl
        exact absurd start (by decide)
      simp [afterLead, List.isPrefixOf?, Ne.symm other]
  rw [Atom.afterName, unsigned]
  dsimp only
  rw [if_pos start, drop_while_append parts ends]

theorem argument_text (atom : PrintedAtom) :
    Atom.argumentText atom.text =
      if atom.arguments = [] then none else some (listed atom.arguments) := by
  rw [Atom.argumentText, text_eq, after_name atom atom.rest_ends_name, rest]
  split
  · rfl
  · have opened : afterLead ['('] ('(' :: (listed atom.arguments ++ [')'])) =
        some (listed atom.arguments ++ [')']) := Line.after_lead_append ['('] _
    simp only [Option.bind_eq_bind, Option.bind_some, opened]
    rw [List.getLast?_concat, if_pos rfl, List.dropLast_concat]

theorem newline_iff (atom : PrintedAtom) : '\n' ∈ atom.text ↔ '\n' ∈ listed atom.arguments := by
  have noSign : '\n' ∉ atom.sign := by
    rw [sign]
    split <;> decide
  have noName : '\n' ∉ atom.name.text := CarryOver.newline_of_predicate atom.name.valid
  rw [text_eq, rest]
  split
  · next none => simp [noSign, noName, listed_eq_nil_iff.2 none]
  · simp [noSign, noName]

theorem trim_digits (digits : Digits) :
    trimStart digits.text = digits.text ∧ trim digits.text = digits.text :=
  trim_of_unblank fun digit member => unblank_of_solid (digits.solid digit member)

theorem read_numeral_of_digits (digits : Digits) :
    readNumeral digits.text =
      if valueOfDigits digits.text ≤ greatestStep then some (valueOfDigits digits.text)
      else none := by
  simp [readNumeral, digits.nonempty, List.all_eq_true.2 digits.ascii]

theorem no_numeral_of_word {text : Text}
    (word : ∃ character ∈ text, isBlank character = false ∧ isDigit character = false) :
    readNumeral (trimStart text) = none := by
  obtain ⟨character, member, unblank, noDigit⟩ := word
  rw [readNumeral, if_neg]
  rintro ⟨-, digits, -⟩
  rw [List.all_eq_true.1 digits character (mem_trim_start unblank member)] at noDigit
  cases noDigit

theorem last_argument_cut {arguments part : Text} (found : Atom.lastArgument arguments = some part) :
    part = (cut arguments).2 := by
  rw [Atom.lastArgument] at found
  rw [cut]
  cases parts : splitLast ',' arguments with
  | none =>
      rw [parts] at found
      cases found
      rfl
  | some pair =>
      rw [parts] at found
      dsimp only at found
      split at found
      · cases found
        rfl
      · cases found

theorem last_argument_word (front : List Term) {last : Term} (other : last.numeral = none) :
    ((Atom.lastArgument (listed (front ++ [last]))).bind fun part =>
      readNumeral (trimStart part)) = none := by
  rw [Option.bind_eq_none_iff]
  intro part found
  have word := word_in_cut front other
  rw [← last_argument_cut found] at word
  exact no_numeral_of_word word

theorem last_argument_numeral (front : List Term) {last : Term} {digits : Digits}
    (kind : last.numeral = some digits) :
    Atom.lastArgument (listed (front ++ [last])) =
      if '\n' ∈ listed (front ++ [last]) then none else some digits.text := by
  have spelled := text_of_numeral kind
  have solid := digits.solid
  have noNewline : '\n' ∉ digits.text := not_mem_of_all solid (by decide)
  rw [← spelled] at solid noNewline
  rw [Atom.lastArgument, split_of_solid front solid, ← spelled]
  by_cases none : front = []
  · rw [if_pos none, listed_last, if_pos none, if_neg noNewline]
  · have newline : '\n' ∈ listed (front ++ [last]) ↔ '\n' ∈ listed front := by
      simp [listed_last, none, noNewline]
    simp only [if_neg none, inline_iff, ite_not, newline]

/-- An atom has its last argument as its step exactly if that is an unsigned numeral, the step is
small enough, and all of the atom is one line. -/
theorem trailing_step_eq (atom : PrintedAtom) :
    Atom.trailingStep atom.text =
      if '\n' ∈ atom.text then none
      else atom.timeArgument.bind fun digits => readNumeral digits.text := by
  rw [Atom.trailingStep, argument_text, timeArgument]
  simp only [newline_iff, Option.bind_eq_bind]
  rcases List.eq_nil_or_concat' atom.arguments with none | ⟨front, last, some⟩
  · simp [none]
  · rw [some, if_neg (by simp), Option.bind_some, List.getLast?_concat, Option.bind_some]
    cases kind : last.numeral with
    | none => rw [last_argument_word front kind, Option.bind_none, ite_self]
    | some digits =>
        rw [last_argument_numeral front kind]
        split
        · rfl
        · rw [Option.bind_some, Option.bind_some, (trim_digits digits).1]

end PrintedAtom

end StepStream
