import StepStream.Proofs.ClauseKind
import StepStream.Proofs.TermGrammar

/-!
The final atom of a clause, and the clause with another one in its place. A further argument of
the final atom is added behind its last term.
-/

namespace StepStream.Clause

set_option autoImplicit false

open Text Pattern

namespace Atom

def IsTermed (atom : Atom) : Prop :=
  atom.arguments = [] ∨ ∃ terms : Terms, atom.arguments = terms.text

def lead (atom : Atom) : Text := atom.sign ++ atom.name.text

theorem not_mem_lead {character : Char} (unsigned : character ≠ '-')
    (other : CharClass.isNamePart character = false) (atom : Atom) : character ∉ atom.lead := by
  simp [lead, atom.not_mem_sign unsigned, atom.not_mem_name other]

theorem text_of_arguments {atom : Atom} (nonempty : atom.arguments ≠ []) :
    atom.text = atom.lead ++ '(' :: (atom.arguments ++ [')']) := by
  rw [text, Line.atomText, if_neg nonempty, lead]
  simp

theorem text_of_no_arguments {atom : Atom} (none : atom.arguments = []) :
    atom.text = atom.lead := by
  rw [text, Line.atomText, if_pos none, lead]

theorem text_inline (atom : Atom) : '\n' ∉ atom.text := by
  have signed : '\n' ∉ atom.sign := atom.not_mem_sign (by decide)
  have applied := CarryOver.newline_of_atom_text atom.name.valid (all_inline_iff.2 atom.inline)
  simp [text, signed, applied]

def withStep (step : Nat) (atom : Atom) : Atom where
  isNegated := atom.isNegated
  name := atom.name
  arguments :=
    if atom.arguments = [] then showNumeral step else atom.arguments ++ ',' :: showNumeral step
  inline := by
    have numeral : '\n' ∉ showNumeral step := not_mem_numeral (by decide) step
    split <;> simp [atom.inline, numeral]

theorem text_last (atom : Atom) : ∃ front last, atom.text = front ++ [last] ∧
    if atom.arguments = [] then CharClass.isNamePart last = true else last = ')' := by
  by_cases none : atom.arguments = []
  · obtain ⟨front, last, whole⟩ :=
      List.eq_nil_or_concat' atom.name.text |>.resolve_left (Ground.name_ne_nil atom.name)
    refine ⟨atom.sign ++ front, last, ?_, ?_⟩
    · rw [text_of_no_arguments none, lead, whole, List.append_assoc]
    · rw [if_pos none]
      exact CarryOver.name_part_of_predicate atom.name.valid last (by simp [whole])
  · refine ⟨atom.lead ++ '(' :: atom.arguments, ')', ?_, if_neg none ▸ rfl⟩
    simp [text_of_arguments none]

end Atom

namespace Body

def ahead (body : Body) : Text :=
  body.front.flatMap Conjunct.text ++ (body.last.before.text ++ body.last.literal.negation)

def finalAtom (body : Body) : Atom := body.last.literal.atom

theorem text_eq (body : Body) :
    body.text = body.ahead ++ (body.finalAtom.text ++ body.last.rest) := by
  simp [text, ahead, finalAtom, Conjunct.text, Literal.text]

end Body

namespace Literal

def withAtom (atom : Atom) : Literal → Literal
  | positive _ => positive atom
  | negative gap nonempty _ => negative gap nonempty atom

theorem with_atom_text (atom : Atom) (literal : Literal) :
    (literal.withAtom atom).text = literal.negation ++ atom.text := by
  cases literal <;> rfl

theorem with_atom_atom (atom : Atom) (literal : Literal) :
    (literal.withAtom atom).atom = atom := by
  cases literal <;> rfl

end Literal

namespace Body

/-- The body with another final atom and no blanks behind it. -/
def withFinal (atom : Atom) (body : Body) : Body where
  front := body.front
  last :=
    ⟨body.last.before, body.last.literal.withAtom atom, Gap.none, body.last.hasComma, Gap.none⟩

theorem with_final_text (atom : Atom) (body : Body) :
    (body.withFinal atom).text = body.ahead ++ (atom.text ++ body.last.comma) := by
  have comma : (body.withFinal atom).last.rest = body.last.comma := List.append_nil _
  rw [text, Conjunct.text, comma, withFinal, Literal.with_atom_text, ahead]
  simp

end Body

def finalAtom : Clause → Atom
  | constraint _ body => body.finalAtom
  | rule _ _ _ body => body.finalAtom
  | fact head => head

def ahead : Clause → Text
  | constraint before body => (constraint before body).lead ++ body.ahead
  | rule before head behind body => (rule before head behind body).lead ++ body.ahead
  | fact _ => []

def behind : Clause → Text
  | constraint _ body => body.last.rest
  | rule _ _ _ body => body.last.rest
  | fact _ => []

def hasComma : Clause → Bool
  | constraint _ body => body.last.hasComma
  | rule _ _ _ body => body.last.hasComma
  | fact _ => false

def comma (clause : Clause) : Text := if clause.hasComma then [','] else []

theorem comma_eq_nil {clause : Clause} (none : clause.hasComma = false) : clause.comma = [] := by
  rw [comma, none]
  rfl

/-- The clause with another final atom. The blanks behind that atom are left out. -/
def withFinal (atom : Atom) : Clause → Clause
  | constraint before body => constraint before (body.withFinal atom)
  | rule before head behind body => rule before head behind (body.withFinal atom)
  | fact _ => fact atom

def withStep (step : Nat) (clause : Clause) : Clause :=
  clause.withFinal (clause.finalAtom.withStep step)

theorem text_eq (clause : Clause) :
    clause.text = clause.ahead ++ (clause.finalAtom.text ++ clause.behind) := by
  cases clause with
  | constraint before body => simp [text, ahead, finalAtom, behind, body.text_eq]
  | rule before head behind body => simp [text, ahead, finalAtom, Clause.behind, body.text_eq]
  | fact head => simp [text, ahead, finalAtom, behind]

theorem with_final_text (atom : Atom) (clause : Clause) :
    (clause.withFinal atom).text = clause.ahead ++ (atom.text ++ clause.comma) := by
  cases clause with
  | constraint before body =>
      rw [withFinal, text, body.with_final_text, ahead, List.append_assoc]
      rfl
  | rule before head gap body =>
      rw [withFinal, text, body.with_final_text, ahead, List.append_assoc]
      rfl
  | fact head => exact (List.append_nil _).symm

@[simp] theorem with_final_kind (atom : Atom) (clause : Clause) :
    (clause.withFinal atom).kind = clause.kind := by
  cases clause <;> rfl

@[simp] theorem with_final_comma (atom : Atom) (clause : Clause) :
    (clause.withFinal atom).hasComma = clause.hasComma := by
  cases clause <;> rfl

@[simp] theorem with_final_atom (atom : Atom) (clause : Clause) :
    (clause.withFinal atom).finalAtom = atom := by
  cases clause with
  | constraint before body => exact Literal.with_atom_atom atom _
  | rule before head gap body => exact Literal.with_atom_atom atom _
  | fact head => rfl

/-- Behind the final atom stand blanks, and among them perhaps a comma. -/
theorem behind_eq (clause : Clause) : ∃ after gap : Text,
    (∀ character ∈ after, isBlank character = true) ∧
    (∀ character ∈ gap, isBlank character = true) ∧
      clause.behind = after ++ (clause.comma ++ gap) := by
  cases clause with
  | constraint before body =>
      exact ⟨body.last.after.text, body.last.behind.text, body.last.after.blank,
        body.last.behind.blank, rfl⟩
  | rule before head gap body =>
      exact ⟨body.last.after.text, body.last.behind.text, body.last.after.blank,
        body.last.behind.blank, rfl⟩
  | fact head => exact ⟨[], [], List.forall_mem_nil _, List.forall_mem_nil _, rfl⟩

theorem trim_text (clause : Clause) :
    if clause.hasComma then ∃ front, trimEnd clause.text = front ++ [',']
    else trimEnd clause.text = clause.ahead ++ clause.finalAtom.text := by
  obtain ⟨after, gap, blanks, others, behind⟩ := clause.behind_eq
  rw [clause.text_eq, behind, comma]
  split
  · refine ⟨clause.ahead ++ (clause.finalAtom.text ++ after), ?_⟩
    have regrouped : clause.ahead ++ (clause.finalAtom.text ++ (after ++ ([','] ++ gap))) =
        (clause.ahead ++ (clause.finalAtom.text ++ after) ++ [',']) ++ gap := by simp
    rw [regrouped]
    exact drop_end_while_last _ (by decide) others
  · obtain ⟨front, last, whole, kind⟩ := clause.finalAtom.text_last
    have unblank : isBlank last = false := by
      split at kind
      · exact unblank_of_name_part kind
      · rw [kind]
        decide
    have regrouped : clause.ahead ++ ((front ++ [last]) ++ (after ++ ([] ++ gap))) =
        ((clause.ahead ++ front) ++ [last]) ++ (after ++ gap) := by simp
    rw [whole, regrouped, ← List.append_assoc clause.ahead front [last]]
    exact drop_end_while_last _ unblank (List.forall_mem_append.2 ⟨blanks, others⟩)

/-- A clause that ends with a parenthesis ends with the arguments of its final atom. -/
theorem closes_of_trim {clause : Clause} {front : Text}
    (trimmed : trimEnd clause.text = front ++ [')']) :
    clause.hasComma = false ∧ clause.finalAtom.arguments ≠ [] ∧
      clause.ahead ++ clause.finalAtom.text = front ++ [')'] := by
  have ends := clause.trim_text
  cases comma : clause.hasComma with
  | true =>
      rw [comma, if_pos rfl] at ends
      obtain ⟨others, ends⟩ := ends
      obtain ⟨-, same⟩ := List.append_inj' (trimmed.symm.trans ends) rfl
      cases same
  | false =>
      rw [comma, if_neg Bool.false_ne_true, trimmed] at ends
      refine ⟨rfl, fun none => ?_, ends.symm⟩
      obtain ⟨others, last, atom, part⟩ := clause.finalAtom.text_last
      have regrouped : clause.ahead ++ (others ++ [last]) = (clause.ahead ++ others) ++ [last] :=
        (List.append_assoc _ _ _).symm
      rw [if_pos none] at part
      rw [atom, regrouped] at ends
      obtain ⟨-, same⟩ := List.append_inj' ends rfl
      obtain rfl := List.singleton_inj.1 same
      exact absurd part (by decide)

theorem arguments_of_text {clause : Clause} {front : Text} (whole : clause.text = front ++ [')']) :
    clause.hasComma = false ∧ clause.finalAtom.arguments ≠ [] ∧
      (clause.ahead ++ clause.finalAtom.lead) ++ '(' :: clause.finalAtom.arguments = front := by
  have kept : dropEndWhile isBlank ((front ++ [')']) ++ []) = front ++ [')'] :=
    drop_end_while_last front (by decide) (List.forall_mem_nil _)
  have trimmed : trimEnd clause.text = front ++ [')'] := by
    rw [List.append_nil] at kept
    rw [whole]
    exact kept
  obtain ⟨comma, nonempty, closed⟩ := closes_of_trim trimmed
  rw [Atom.text_of_arguments nonempty] at closed
  have regrouped :
      ((clause.ahead ++ clause.finalAtom.lead) ++ '(' :: clause.finalAtom.arguments) ++ [')'] =
        front ++ [')'] := by simpa using closed
  exact ⟨comma, nonempty, (List.append_inj' regrouped rfl).1⟩

theorem with_shorter_arguments {clause : Clause} {front rest : Text}
    (comma : clause.hasComma = false) (nonempty : front ≠ [])
    (arguments : clause.finalAtom.arguments = front ++ rest) :
    ∃ other : Clause, other.kind = clause.kind ∧
      other.text = ((clause.ahead ++ clause.finalAtom.lead) ++ '(' :: front) ++ [')'] := by
  have inline := clause.finalAtom.inline
  rw [arguments, List.mem_append, not_or] at inline
  let shorter : Atom := ⟨clause.finalAtom.isNegated, clause.finalAtom.name, front, inline.1⟩
  have lead : shorter.lead = clause.finalAtom.lead := rfl
  have kept : shorter.arguments ≠ [] := nonempty
  refine ⟨clause.withFinal shorter, with_final_kind _ _, ?_⟩
  rw [with_final_text, Atom.text_of_arguments kept, lead, comma_eq_nil comma]
  simp [shorter]

end StepStream.Clause
