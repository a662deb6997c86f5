import StepStream.Proofs.GroundAtom
import StepStream.Proofs.TrailingComment

/-!
Clauses as they are written, with every blank and every comma. The shapes of a line look for
a text with a certain form; here the form is a tree, and a line has a shape exactly if it is
the text of such a tree, a period and a tail. The grammar is ambiguous, since commas and blanks
can be left out and an argument list is any text.
-/

namespace StepStream

set_option autoImplicit false

open Text Pattern

namespace Clause

structure Gap where
  text : Text
  blank : ∀ character ∈ text, isBlank character = true
  inline : '\n' ∉ text

/-- A name with an optional sign and optional arguments, of which nothing is said but that they
are one line. Where there are none their parentheses are left out. -/
structure Atom where
  isNegated : Bool
  name : Ground.Name
  arguments : Text
  inline : '\n' ∉ arguments

namespace Atom

def sign (atom : Atom) : Text := if atom.isNegated then ['-'] else []

def text (atom : Atom) : Text := atom.sign ++ Line.atomText atom.name.text atom.arguments

theorem not_mem_sign {character : Char} (other : character ≠ '-') (atom : Atom) :
    character ∉ atom.sign := by
  unfold sign
  split <;> simp [other]

theorem not_mem_name {character : Char} (other : CharClass.isNamePart character = false)
    (atom : Atom) : character ∉ atom.name.text :=
  not_mem_of_all (CarryOver.name_part_of_predicate atom.name.valid) other

end Atom

/-- An atom, possibly under negation by failure, which needs a blank. -/
inductive Literal where
  | positive (atom : Atom)
  | negative (gap : Gap) (nonempty : gap.text ≠ []) (atom : Atom)

namespace Literal

def atom : Literal → Atom
  | positive atom => atom
  | negative _ _ atom => atom

def negation : Literal → Text
  | positive _ => []
  | negative gap _ _ => "not".toList ++ gap.text

def text (literal : Literal) : Text := literal.negation ++ literal.atom.text

end Literal

structure Conjunct where
  before : Gap
  literal : Literal
  after : Gap
  hasComma : Bool
  behind : Gap

namespace Conjunct

def comma (conjunct : Conjunct) : Text := if conjunct.hasComma then [','] else []

def rest (conjunct : Conjunct) : Text :=
  conjunct.after.text ++ (conjunct.comma ++ conjunct.behind.text)

def text (conjunct : Conjunct) : Text :=
  conjunct.before.text ++ (conjunct.literal.text ++ conjunct.rest)

end Conjunct

structure Body where
  front : List Conjunct
  last : Conjunct

def Body.text (body : Body) : Text := body.front.flatMap Conjunct.text ++ body.last.text

end Clause

/-- A clause without the period that ends it. -/
inductive Clause where
  | constraint (before : Clause.Gap) (body : Clause.Body)
  | rule (before : Clause.Gap) (head : Clause.Atom) (behind : Clause.Gap) (body : Clause.Body)
  | fact (head : Clause.Atom)

namespace Clause

def lead : Clause → Text
  | constraint before _ => before.text ++ ":-".toList
  | rule before head behind _ => before.text ++ (head.text ++ (behind.text ++ ":-".toList))
  | fact _ => []

def text : Clause → Text
  | constraint before body => (constraint before body).lead ++ body.text
  | rule before head behind body => (rule before head behind body).lead ++ body.text
  | fact head => head.text

def kind : Clause → LineKind
  | constraint _ _ => .integrity
  | rule _ _ _ _ => .rule
  | fact _ => .fact

/-! ## A text of each pattern is the text of a tree -/

section Trees

variable {text : Text}

theorem matches_gap (gap : Gap) : Matches Line.blanks gap.text :=
  Line.matches_blanks_iff.2 gap.blank

theorem gap_of_matches (here : Matches Line.blanks text) (inline : '\n' ∉ text) :
    ∃ gap : Gap, text = gap.text :=
  ⟨⟨text, Line.matches_blanks_iff.1 here, inline⟩, rfl⟩

theorem name_of_matches (here : Matches Line.name text) :
    ∃ name : Ground.Name, text = name.text := by
  obtain ⟨_, rest, rfl, letter, letters⟩ := matches_seq_iff.1 here
  obtain ⟨first, start, rfl⟩ := matches_one_iff.1 letter
  have valid : CarryOver.isPredicate (first :: rest) = true :=
    CarryOver.is_predicate_iff.2 ⟨first, rest, rfl, start, matches_star_one_iff.1 letters⟩
  exact ⟨⟨first :: rest, valid⟩, rfl⟩

theorem matches_sign (atom : Atom) : Matches (opt (Line.char '-')) atom.sign := by
  unfold Atom.sign
  split
  · exact .altLeft (Line.matches_char '-')
  · exact matches_opt_nil _

theorem matches_atom_text (atom : Atom) : Matches Line.atom atom.text :=
  Line.matches_signed_atom (matches_sign atom) atom.name.valid (all_inline_iff.2 atom.inline)

theorem atom_of_matches (here : Matches Line.atom text) (inline : '\n' ∉ text) :
    ∃ atom : Atom, text = atom.text := by
  obtain ⟨sign, _, rfl, signed, rest⟩ := matches_seq_iff.1 here
  obtain ⟨_, list, rfl, named, listed⟩ := matches_seq_iff.1 rest
  obtain ⟨name, rfl⟩ := name_of_matches named
  have dash : ∃ isNegated : Bool, sign = if isNegated then ['-'] else [] := by
    rcases matches_opt_iff.1 signed with dash | rfl
    · exact ⟨true, matches_exactly_iff.1 dash⟩
    · exact ⟨false, rfl⟩
  obtain ⟨isNegated, rfl⟩ := dash
  rcases matches_opt_iff.1 listed with list | rfl
  · obtain ⟨arguments, nonempty, oneLine, rfl⟩ := Line.matches_arguments_iff.1 list
    refine ⟨⟨isNegated, name, arguments, oneLine⟩, ?_⟩
    rw [Atom.text, Line.atomText, if_neg nonempty, Atom.sign]
    simp
  · refine ⟨⟨isNegated, name, [], List.not_mem_nil⟩, ?_⟩
    rw [Atom.text, Line.atomText, if_pos rfl, Atom.sign, List.append_nil]

theorem matches_literal_text (literal : Literal) : Matches Line.bodyLiteral literal.text := by
  cases literal with
  | positive atom => exact .seq (matches_opt_nil _) (matches_atom_text atom)
  | negative gap nonempty atom =>
      have blanks : Matches (plus (.one .blank)) gap.text := matches_plus nonempty gap.blank
      exact .seq (.altLeft (.seq (matches_literal _) blanks)) (matches_atom_text atom)

theorem literal_of_matches (here : Matches Line.bodyLiteral text) (inline : '\n' ∉ text) :
    ∃ literal : Literal, text = literal.text := by
  obtain ⟨negation, _, rfl, negated, rest⟩ := matches_seq_iff.1 here
  rw [List.mem_append, not_or] at inline
  obtain ⟨atom, rfl⟩ := atom_of_matches rest inline.2
  rcases matches_opt_iff.1 negated with negated | rfl
  · obtain ⟨word, blank, rfl, spelled, blanks⟩ := matches_seq_iff.1 negated
    obtain ⟨nonempty, blanks⟩ := matches_plus_one_iff.1 blanks
    obtain rfl := eq_of_matches_literal spelled
    have oneLine : '\n' ∉ blank := fun member => inline.1 (List.mem_append_right _ member)
    exact ⟨.negative ⟨blank, blanks, oneLine⟩ nonempty atom, rfl⟩
  · exact ⟨.positive atom, rfl⟩

def conjunctShape : Pattern :=
  sequence [Line.blanks, Line.bodyLiteral, Line.blanks, opt (Line.char ','), Line.blanks]

theorem matches_rest (conjunct : Conjunct) :
    Matches (sequence [Line.blanks, opt (Line.char ','), Line.blanks]) conjunct.rest := by
  have comma : Matches (opt (Line.char ',')) conjunct.comma := by
    unfold Conjunct.comma
    split
    · exact .altLeft (Line.matches_char ',')
    · exact matches_opt_nil _
  exact .seq (matches_gap conjunct.after) (.seq comma (matches_gap conjunct.behind))

theorem matches_conjunct_text (conjunct : Conjunct) :
    Matches conjunctShape conjunct.text :=
  .seq (matches_gap conjunct.before)
    (.seq (matches_literal_text conjunct.literal) (matches_rest conjunct))

theorem conjunct_of_matches (here : Matches conjunctShape text) (inline : '\n' ∉ text) :
    ∃ conjunct : Conjunct, text = conjunct.text := by
  obtain ⟨blank, _, rfl, blanks, others⟩ := matches_seq_iff.1 here
  obtain ⟨_, _, rfl, spoken, others⟩ := matches_seq_iff.1 others
  obtain ⟨more, _, rfl, further, others⟩ := matches_seq_iff.1 others
  obtain ⟨mark, last, rfl, marked, final⟩ := matches_seq_iff.1 others
  simp only [List.mem_append, not_or] at inline
  obtain ⟨before, rfl⟩ := gap_of_matches blanks inline.1
  obtain ⟨literal, rfl⟩ := literal_of_matches spoken inline.2.1
  obtain ⟨after, rfl⟩ := gap_of_matches further inline.2.2.1
  obtain ⟨behind, rfl⟩ := gap_of_matches final inline.2.2.2.2
  rcases matches_opt_iff.1 marked with comma | rfl
  · obtain rfl := matches_exactly_iff.1 comma
    exact ⟨⟨before, literal, after, true, behind⟩, rfl⟩
  · exact ⟨⟨before, literal, after, false, behind⟩, rfl⟩

theorem matches_conjuncts (conjuncts : List Conjunct) :
    Matches (.star conjunctShape) (conjuncts.flatMap Conjunct.text) := by
  induction conjuncts with
  | nil => exact .starNil
  | cons conjunct conjuncts induction =>
      exact .starCons (matches_conjunct_text conjunct) induction

theorem conjuncts_of_matches (here : Matches (.star conjunctShape) text) (inline : '\n' ∉ text) :
    ∃ conjuncts : List Conjunct, text = conjuncts.flatMap Conjunct.text := by
  generalize repeated : Pattern.star conjunctShape = pattern at here
  induction here with
  | empty | one _ | altLeft _ _ | altRight _ _ | seq _ _ _ _ => cases repeated
  | starNil => exact ⟨[], rfl⟩
  | starCons first _ _ more_ih =>
      cases repeated
      rw [List.mem_append, not_or] at inline
      obtain ⟨conjunct, rfl⟩ := conjunct_of_matches first inline.1
      obtain ⟨conjuncts, rfl⟩ := more_ih inline.2 rfl
      exact ⟨conjunct :: conjuncts, rfl⟩

theorem matches_body_text (body : Body) : Matches Line.body body.text := by
  have conjuncts := matches_conjuncts (body.front ++ [body.last])
  obtain ⟨first, others, whole⟩ : ∃ first others, body.front ++ [body.last] = first :: others :=
    List.exists_cons_of_ne_nil (by simp)
  have text : body.text = first.text ++ others.flatMap Conjunct.text := by
    rw [← List.flatMap_cons, ← whole, List.flatMap_append, Body.text]
    simp
  rw [text]
  exact .seq (matches_conjunct_text first) (matches_conjuncts others)

theorem body_of_matches (here : Matches Line.body text) (inline : '\n' ∉ text) :
    ∃ body : Body, text = body.text := by
  obtain ⟨_, _, rfl, first, more⟩ := matches_seq_iff.1 here
  rw [List.mem_append, not_or] at inline
  obtain ⟨conjunct, rfl⟩ := conjunct_of_matches first inline.1
  obtain ⟨conjuncts, rfl⟩ := conjuncts_of_matches more inline.2
  obtain ⟨front, last, whole⟩ := List.eq_nil_or_concat' (conjunct :: conjuncts)
    |>.resolve_left (List.cons_ne_nil _ _)
  refine ⟨⟨front, last⟩, ?_⟩
  rw [← List.flatMap_cons, whole, List.flatMap_append, Body.text]
  simp

def statement : Clause → Pattern
  | constraint _ _ => Line.integrityStatement
  | rule _ _ _ _ => Line.ruleStatement
  | fact _ => Line.atom

theorem matches_text (clause : Clause) : Matches clause.statement clause.text := by
  cases clause with
  | constraint before body =>
      have whole : Matches Line.integrityStatement _ :=
        .seq (matches_gap before) (.seq (matches_literal _) (matches_body_text body))
      simpa [Clause.text, lead, statement] using whole
  | rule before head behind body =>
      have whole : Matches Line.ruleStatement _ :=
        .seq (matches_gap before) (.seq (matches_atom_text head) (.seq (matches_gap behind)
          (.seq (matches_literal _) (matches_body_text body))))
      simpa [Clause.text, lead, statement] using whole
  | fact head => exact matches_atom_text head

theorem constraint_of_matches (here : Matches Line.integrityStatement text)
    (inline : '\n' ∉ text) : ∃ clause : Clause, clause.kind = .integrity ∧ text = clause.text := by
  obtain ⟨_, _, rfl, blanks, rest⟩ := matches_seq_iff.1 here
  obtain ⟨_, _, rfl, necked, said⟩ := matches_seq_iff.1 rest
  simp only [List.mem_append, not_or] at inline
  obtain ⟨before, rfl⟩ := gap_of_matches blanks inline.1
  obtain ⟨body, rfl⟩ := body_of_matches said inline.2.2
  obtain rfl := eq_of_matches_literal necked
  exact ⟨.constraint before body, rfl, by simp [Clause.text, lead]⟩

theorem rule_of_matches (here : Matches Line.ruleStatement text) (inline : '\n' ∉ text) :
    ∃ clause : Clause, clause.kind = .rule ∧ text = clause.text := by
  obtain ⟨_, _, rfl, blanks, rest⟩ := matches_seq_iff.1 here
  obtain ⟨_, _, rfl, headed, rest⟩ := matches_seq_iff.1 rest
  obtain ⟨_, _, rfl, others, rest⟩ := matches_seq_iff.1 rest
  obtain ⟨_, _, rfl, necked, said⟩ := matches_seq_iff.1 rest
  simp only [List.mem_append, not_or] at inline
  obtain ⟨before, rfl⟩ := gap_of_matches blanks inline.1
  obtain ⟨head, rfl⟩ := atom_of_matches headed inline.2.1
  obtain ⟨behind, rfl⟩ := gap_of_matches others inline.2.2.1
  obtain ⟨body, rfl⟩ := body_of_matches said inline.2.2.2.2
  obtain rfl := eq_of_matches_literal necked
  exact ⟨.rule before head behind body, rfl, by simp [Clause.text, lead]⟩

theorem fact_of_matches (here : Matches Line.atom text) (inline : '\n' ∉ text) :
    ∃ clause : Clause, clause.kind = .fact ∧ text = clause.text := by
  obtain ⟨head, rfl⟩ := atom_of_matches here inline
  exact ⟨.fact head, rfl, rfl⟩

end Trees

end Clause

end StepStream
