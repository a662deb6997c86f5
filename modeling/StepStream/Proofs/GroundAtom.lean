import Mathlib.Data.List.Basic
import StepStream.Proofs.CarriedConstraint
import StepStream.Text.Numeral

/-!
Ground atoms and the texts they are printed as. The arguments of an atom are integers,
constants, quoted strings and function terms, with commas and no blanks between them. All
blanks of a printed atom therefore stand inside its strings.
-/

namespace StepStream.Ground

set_option autoImplicit false

open Text Pattern

structure Name where
  text : Text
  valid : CarryOver.isPredicate text = true

inductive Term where
  | integer (value : Int)
  | constant (name : Name)
  /-- A string is one line of any characters. -/
  | string (content : Text) (inline : '\n' ∉ content)
  | function (name : Name) (first : Term) (others : List Term)

def showInteger : Int → Text
  | .ofNat number => showNumeral number
  | .negSucc number => '-' :: showNumeral (number + 1)

def escape (character : Char) : Text :=
  if character = '"' then ['\\', '"']
  else if character = '\\' then ['\\', '\\']
  else [character]

def quote (content : Text) : Text := '"' :: (content.flatMap escape ++ ['"'])

def applied (name : Name) (arguments : List Text) : Text :=
  name.text ++ ['('] ++ [','].intercalate arguments ++ [')']

namespace Term

mutual

def text : Term → Text
  | integer value => showInteger value
  | constant name => name.text
  | string content _ => quote content
  | function name first others => applied name (first.text :: texts others)

def texts : List Term → List Text
  | [] => []
  | term :: terms => term.text :: texts terms

end

mutual

def strings : Term → List Text
  | integer _ => []
  | constant _ => []
  | string content _ => [content]
  | function _ first others => first.strings ++ stringsOf others

def stringsOf : List Term → List Text
  | [] => []
  | term :: terms => term.strings ++ stringsOf terms

end

end Term

/-- A predicate with its arguments, which can be none, and perhaps the sign of classical
negation before it. -/
structure Atom where
  negated : Bool
  name : Name
  arguments : List Term

namespace Atom

def sign (atom : Atom) : Text := if atom.negated then ['-'] else []

def text (atom : Atom) : Text :=
  match atom.arguments with
  | [] => atom.sign ++ atom.name.text
  | first :: others => atom.sign ++ applied atom.name (Term.texts (first :: others))

def strings (atom : Atom) : List Text := Term.stringsOf atom.arguments

end Atom

section Blanks

def blanksOf (text : Text) : Text := text.filter isBlank

@[simp] theorem blanks_of_nil : blanksOf [] = [] := rfl

@[simp] theorem blanks_of_append (front back : Text) :
    blanksOf (front ++ back) = blanksOf front ++ blanksOf back :=
  List.filter_append ..

theorem blanks_of_intercalate (pieces : List Text) :
    blanksOf ([','].intercalate pieces) = pieces.flatMap blanksOf := by
  have comma : blanksOf [','] = [] := by decide
  induction pieces with
  | nil => rfl
  | cons piece pieces induction =>
      cases pieces with
      | nil => simp
      | cons next others =>
          rw [List.intercalate_cons_cons, blanks_of_append, blanks_of_append, comma, induction]
          simp

theorem blanks_of_eq_nil_iff (text : Text) :
    blanksOf text = [] ↔ ∀ character ∈ text, isBlank character = false := by
  rw [blanksOf, List.filter_eq_nil_iff]
  simp

theorem blanks_of_name (name : Name) : blanksOf name.text = [] := by
  rw [blanks_of_eq_nil_iff]
  intro character member
  apply unblank_of_name_part
  exact CarryOver.name_part_of_predicate name.valid character member

theorem blanks_of_numeral (number : Nat) : blanksOf (showNumeral number) = [] := by
  rw [blanks_of_eq_nil_iff]
  intro character member
  have digit := digit_of_numeral member
  apply unblank_of_name_part
  simp only [isDigit, Bool.and_eq_true, decide_eq_true_eq] at digit
  simp only [CharClass.isNamePart, Bool.or_eq_true, Bool.and_eq_true, decide_eq_true_eq]
  exact .inr digit

theorem blanks_of_integer (value : Int) : blanksOf (showInteger value) = [] := by
  cases value with
  | ofNat number => exact blanks_of_numeral number
  | negSucc number =>
      have sign : blanksOf ['-'] = [] := by decide
      have parts : showInteger (.negSucc number) = ['-'] ++ showNumeral (number + 1) := rfl
      rw [parts, blanks_of_append, sign, blanks_of_numeral]
      rfl

theorem blanks_of_escape (character : Char) :
    blanksOf (escape character) = blanksOf [character] := by
  unfold escape
  split
  · next quotes =>
      subst quotes
      decide
  · split
    · next backslash =>
        subst backslash
        decide
    · rfl

theorem blanks_of_quote (content : Text) : blanksOf (quote content) = blanksOf content := by
  have mark : blanksOf ['"'] = [] := by decide
  have escaped : blanksOf (content.flatMap escape) = blanksOf content := by
    induction content with
    | nil => rfl
    | cons character content induction =>
        rw [List.flatMap_cons, blanks_of_append, blanks_of_escape, induction, ← blanks_of_append,
          List.singleton_append]
  have parts : quote content = ['"'] ++ content.flatMap escape ++ ['"'] := rfl
  rw [parts, blanks_of_append, blanks_of_append, mark, escaped]
  simp

theorem blanks_of_applied (name : Name) (arguments : List Text) :
    blanksOf (applied name arguments) = arguments.flatMap blanksOf := by
  have opened : blanksOf ['('] = [] := by decide
  have closed : blanksOf [')'] = [] := by decide
  simp only [applied, blanks_of_append, blanks_of_name, opened, closed, blanks_of_intercalate,
    List.nil_append, List.append_nil]

mutual

theorem blanks_of_term : (term : Term) → blanksOf term.text = term.strings.flatMap blanksOf
  | .integer value => blanks_of_integer value
  | .constant name => blanks_of_name name
  | .string content _ => by
      rw [Term.text, Term.strings, blanks_of_quote]
      simp
  | .function name first others => by
      rw [Term.text, Term.strings, blanks_of_applied, List.flatMap_cons, List.flatMap_append,
        blanks_of_term first, blanks_of_terms others]

theorem blanks_of_terms : (terms : List Term) →
    (Term.texts terms).flatMap blanksOf = (Term.stringsOf terms).flatMap blanksOf
  | [] => rfl
  | term :: terms => by
      rw [Term.texts, Term.stringsOf, List.flatMap_cons, List.flatMap_append,
        blanks_of_term term, blanks_of_terms terms]

end

theorem blanks_of_atom (atom : Atom) : blanksOf atom.text = atom.strings.flatMap blanksOf := by
  have signed : blanksOf atom.sign = [] := by
    unfold Atom.sign
    split <;> decide
  rw [Atom.text, Atom.strings]
  split
  · next none => rw [blanks_of_append, signed, blanks_of_name, none]; rfl
  · next first others some =>
      rw [blanks_of_append, signed, blanks_of_applied, blanks_of_terms, some, List.nil_append]

end Blanks

namespace Atom

def IsUnblank (atom : Atom) : Prop :=
  ∀ content ∈ atom.strings, ∀ character ∈ content, isBlank character = false

theorem unblank_iff (atom : Atom) :
    atom.IsUnblank ↔ ∀ character ∈ atom.text, isBlank character = false := by
  rw [← blanks_of_eq_nil_iff, blanks_of_atom, List.flatMap_eq_nil_iff]
  simp only [IsUnblank, blanks_of_eq_nil_iff]

end Atom

section Shape

mutual

theorem inline_of_strings : (term : Term) → ∀ content ∈ term.strings, '\n' ∉ content
  | .integer _, _, member => by cases member
  | .constant _, _, member => by cases member
  | .string content inline, other, member => by
      rw [Term.strings, List.mem_singleton] at member
      exact member ▸ inline
  | .function _ first others, content, member => by
      rw [Term.strings, List.mem_append] at member
      rcases member with here | later
      · exact inline_of_strings first content here
      · exact inline_of_strings_of others content later

theorem inline_of_strings_of : (terms : List Term) →
    ∀ content ∈ Term.stringsOf terms, '\n' ∉ content
  | [], _, member => by cases member
  | term :: terms, content, member => by
      rw [Term.stringsOf, List.mem_append] at member
      rcases member with here | later
      · exact inline_of_strings term content here
      · exact inline_of_strings_of terms content later

end

theorem newline_of_blanks {text : Text} : '\n' ∈ text ↔ '\n' ∈ blanksOf text := by
  rw [blanksOf, List.mem_filter]
  simp [isBlank]

theorem inline_of_terms (terms : List Term) :
    ∀ character ∈ [','].intercalate (Term.texts terms), isInline character = true := by
  have free : '\n' ∉ [','].intercalate (Term.texts terms) := by
    rw [newline_of_blanks, blanks_of_intercalate, blanks_of_terms, List.mem_flatMap]
    rintro ⟨content, member, here⟩
    exact inline_of_strings_of terms content member (newline_of_blanks.2 here)
  intro character member
  simp only [isInline, bne_iff_ne]
  rintro rfl
  exact free member

theorem name_ne_nil (name : Name) : name.text ≠ [] := by
  obtain ⟨first, rest, whole, -⟩ := CarryOver.is_predicate_iff.1 name.valid
  simp [whole]

theorem term_ne_nil (term : Term) : term.text ≠ [] := by
  cases term with
  | integer value =>
      cases value with
      | ofNat number => exact Nat.toDigits_ne_nil
      | negSucc number => exact List.cons_ne_nil _ _
  | constant name => exact name_ne_nil name
  | string content inline => exact List.cons_ne_nil _ _
  | function name first others => simp [Term.text, applied]

theorem arguments_ne_nil (first : Term) (others : List Term) :
    [','].intercalate (Term.texts (first :: others)) ≠ [] := by
  have here := term_ne_nil first
  cases others with
  | nil => simpa [Term.texts] using here
  | cons next others => simp [Term.texts]

namespace Atom

theorem text_eq (atom : Atom) : atom.text =
    atom.sign ++ Line.atomText atom.name.text ([','].intercalate (Term.texts atom.arguments)) := by
  rw [Atom.text, Line.atomText]
  split
  · next none => simp [none, Term.texts]
  · next first others some => rw [some, if_neg (arguments_ne_nil first others), applied]

theorem matches_text (atom : Atom) : Matches Line.atom atom.text := by
  have signed : Matches (opt (Line.char '-')) atom.sign := by
    unfold Atom.sign
    split
    · exact .altLeft (Line.matches_char '-')
    · exact matches_opt_nil _
  rw [text_eq]
  exact Line.matches_signed_atom signed atom.name.valid (inline_of_terms atom.arguments)

theorem head_of_text (atom : Atom) : ∃ first rest, atom.text = first :: rest ∧
    (first = '-' ∨ CharClass.isNameStart first = true) := by
  obtain ⟨first, rest, named, start, -⟩ := CarryOver.is_predicate_iff.1 atom.name.valid
  rw [text_eq, Atom.sign, Line.atomText, named]
  split
  · exact ⟨_, _, rfl, .inl rfl⟩
  · split
    · exact ⟨_, _, rfl, .inr start⟩
    · exact ⟨_, _, rfl, .inr start⟩

end Atom

end Shape

end StepStream.Ground
