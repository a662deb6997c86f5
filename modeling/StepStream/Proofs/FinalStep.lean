import StepStream.Proofs.Closing
import StepStream.Proofs.FinalAtom

/-!
The step that a clause names: an unsigned numeral as the last argument of its final atom. The
search for it takes the first closing behind the first parenthesis that follows a name, and what
begins at that parenthesis last. So it finds the step of the clause if nothing else closes, and
against a closing in the comment only if the parenthesis of another argument comes first.
-/

namespace StepStream.Clause

set_option autoImplicit false

open Text Pattern QueryClause

/-! ## The first parenthesis -/

def OpensBehindName (text : Text) : Prop :=
  ∀ front rest, text = front ++ '(' :: rest → '(' ∉ front →
    ∃ (ahead : Text) (name : Ground.Name), front = ahead ++ name.text

theorem OpensBehindName.of_none {text : Text} (none : '(' ∉ text) : OpensBehindName text := by
  rintro front rest rfl
  simp at none

theorem OpensBehindName.append {text others : Text} (left : OpensBehindName text)
    (right : OpensBehindName others) : OpensBehindName (text ++ others) := by
  intro front rest whole free
  rcases append_around whole with ⟨closed, rfl, -⟩ | ⟨opened, rfl, here⟩
  · exact left front closed rfl free
  · rw [List.mem_append, not_or] at free
    obtain ⟨ahead, name, rfl⟩ := right opened rest here free.2
    exact ⟨text ++ ahead, name, (List.append_assoc _ _ _).symm⟩

theorem opens_gap (gap : Gap) : OpensBehindName gap.text :=
  .of_none (not_mem_of_all gap.blank (by decide))

theorem opens_atom (atom : Atom) : OpensBehindName atom.text := by
  have free : '(' ∉ atom.lead := atom.not_mem_lead (by decide) (by decide)
  by_cases none : atom.arguments = []
  · rw [Atom.text_of_no_arguments none]
    exact .of_none free
  · rw [Atom.text_of_arguments none]
    intro front rest whole other
    have lead : front = atom.lead := by
      rcases append_around whole with ⟨closed, ahead, -⟩ | ⟨opened, rfl, here⟩
      · simp [ahead] at free
      · cases opened with
        | nil => exact List.append_nil _
        | cons first opened =>
            obtain ⟨rfl, -⟩ := List.cons.inj here
            simp at other
    exact ⟨atom.sign, atom.name, lead⟩

theorem opens_literal (literal : Literal) : OpensBehindName literal.text := by
  refine OpensBehindName.append ?_ (opens_atom _)
  cases literal with
  | positive atom => exact .of_none List.not_mem_nil
  | negative gap nonempty atom => exact (OpensBehindName.of_none (by decide)).append (opens_gap gap)

theorem opens_conjunct (conjunct : Conjunct) : OpensBehindName conjunct.text := by
  have comma : '(' ∉ conjunct.comma := by
    unfold Conjunct.comma
    split <;> decide
  exact (opens_gap _).append ((opens_literal _).append
    ((opens_gap _).append ((OpensBehindName.of_none comma).append (opens_gap _))))

theorem opens_body (body : Body) : OpensBehindName body.text := by
  have conjuncts (list : List Conjunct) : OpensBehindName (list.flatMap Conjunct.text) := by
    induction list with
    | nil => exact .of_none List.not_mem_nil
    | cons conjunct list induction => exact (opens_conjunct conjunct).append induction
  exact (conjuncts body.front).append (opens_conjunct body.last)

theorem opens_clause (clause : Clause) : OpensBehindName clause.text := by
  have neck : OpensBehindName ":-".toList := .of_none (by decide)
  cases clause with
  | constraint before body => exact ((opens_gap before).append neck).append (opens_body body)
  | rule before head gap body =>
      have headed := (opens_atom head).append ((opens_gap gap).append neck)
      exact ((opens_gap before).append headed).append (opens_body body)
  | fact head => exact opens_atom head

theorem search_begins {clause : Clause} (opens : '(' ∈ clause.text) :
    ∃ front rest, clause.text = front ++ '(' :: rest ∧ '(' ∉ front ∧
      ∀ tail, behindFirstName false (clause.text ++ '.' :: tail) = some (rest ++ '.' :: tail) := by
  obtain ⟨front, rest, whole, free⟩ := List.eq_append_cons_of_mem opens
  obtain ⟨ahead, name, rfl⟩ := opens_clause clause front rest whole free
  refine ⟨ahead ++ name.text, rest, whole, free, fun tail => ?_⟩
  rw [List.mem_append, not_or] at free
  have found := behind_first_name_of_name false name (rest ++ '.' :: tail) free.1
  rw [whole]
  simpa using found

/-! ## The last argument of the final atom -/

/-- The last argument of the final atom is the unsigned numeral with these digits. -/
def EndsWith (clause : Clause) (digits : Text) : Prop :=
  ∃ (terms : Terms) (numeral : Digits), clause.finalAtom.arguments = terms.text ∧
    terms.final = .integer false numeral ∧ numeral.text = digits

/-- The last argument of the final atom is an unsigned numeral of this step. -/
def Names (clause : Clause) (step : Nat) : Prop :=
  ∃ digits, clause.EndsWith digits ∧ Line.IsNumeral step digits

/-- The last argument of the final atom is an unsigned numeral and another argument stands before
it, there or in an earlier atom. -/
def IsSettled (clause : Clause) : Prop :=
  clause.hasComma = false ∧ ∃ (terms : Terms) (numeral : Digits),
    clause.finalAtom.arguments = terms.text ∧ terms.final = .integer false numeral ∧
      (terms.isMany = true ∨ '(' ∈ clause.ahead)

theorem final_place {clause : Clause} {terms : Terms}
    (here : clause.finalAtom.arguments = terms.text) :
    ∃ (place : Text) (mark : Char) (before after : Gap), IsMark mark ∧
      clause.ahead ++ clause.finalAtom.text =
        (place ++ mark :: (before.text ++ (terms.final.text ++ after.text))) ++ [')'] ∧
      ('(' ∈ place ↔ terms.isMany = true ∨ '(' ∈ clause.ahead) ∧ (mark = '(' ∨ '(' ∈ place) := by
  have nonempty : clause.finalAtom.arguments ≠ [] := here ▸ terms.text_last.1
  have free : '(' ∉ clause.finalAtom.lead := Atom.not_mem_lead (by decide) (by decide) _
  obtain ⟨front, before, after, whole, shape⟩ := terms.text_eq
  rw [Atom.text_of_arguments nonempty, here, whole]
  cases many : terms.isMany with
  | true =>
      rw [many] at shape
      obtain ⟨others, rfl⟩ := shape
      exact ⟨clause.ahead ++ (clause.finalAtom.lead ++ '(' :: others), ',', before, after, .inr rfl,
        by simp, by simp, by simp⟩
  | false =>
      rw [many] at shape
      obtain rfl : front = [] := shape
      exact ⟨clause.ahead ++ clause.finalAtom.lead, '(', before, after, .inl rfl, by simp,
        by simp [free], .inl rfl⟩

/-- What stands at the end of a clause and can be taken for its last argument is that argument. -/
theorem ends_with_of_ending {clause : Clause} (termed : clause.finalAtom.IsTermed)
    {front ending digits : Text} {mark : Char} (marks : IsMark mark) (ends : Ending digits ending)
    (whole : clause.text = front ++ mark :: ending) :
    clause.hasComma = false ∧ ∃ (terms : Terms) (numeral : Digits),
      clause.finalAtom.arguments = terms.text ∧ terms.final = .integer false numeral ∧
        numeral.text = digits ∧ ('(' ∈ front ↔ terms.isMany = true ∨ '(' ∈ clause.ahead) := by
  obtain ⟨blank, between, gap, rfl, blanks, betweens, gaps, digital, decimal⟩ := ends
  have trimmed :
      trimEnd clause.text = (front ++ mark :: (blank ++ (digits ++ between))) ++ [')'] := by
    have regrouped : clause.text =
        ((front ++ mark :: (blank ++ (digits ++ between))) ++ [')']) ++ gap := by simp [whole]
    rw [regrouped]
    exact drop_end_while_last _ (by decide) gaps
  obtain ⟨comma, nonempty, atom⟩ := closes_of_trim trimmed
  obtain ⟨terms, here⟩ := termed.resolve_left nonempty
  obtain ⟨place, other, before, after, marked, whole, opens, -⟩ := final_place here
  obtain ⟨rfl, -, numeral, final, spelled⟩ := numeral_at_end marked marks digital decimal
    blanks betweens (List.append_inj' (whole.symm.trans atom) rfl).1
  exact ⟨comma, terms, numeral, here, final, spelled, opens⟩

theorem ends_with_unique {clause : Clause} {digits others : Text} (first : clause.EndsWith digits)
    (second : clause.EndsWith others) : digits = others := by
  obtain ⟨terms, numeral, here, final, rfl⟩ := first
  obtain ⟨more, another, there, last, rfl⟩ := second
  obtain ⟨place, mark, before, after, marks, whole, -⟩ := final_place here
  obtain ⟨front, other, blank, gap, marked, same, -⟩ := final_place there
  rw [whole, last] at same
  have decimal : ∀ digit ∈ another.text, isDecimalDigit digit = true :=
    fun digit member => decimal_of_digit (another.ascii digit member)
  obtain ⟨-, -, found, term, spelled⟩ := numeral_at_end marks marked another.nonempty decimal
    blank.blank gap.blank (List.append_inj' same rfl).1
  rw [final] at term
  injection term with _ same
  rw [same, spelled]

theorem ending_of_final {clause : Clause} {terms : Terms} {numeral : Digits}
    (comma : clause.hasComma = false) (here : clause.finalAtom.arguments = terms.text)
    (final : terms.final = .integer false numeral) :
    ∃ (place : Text) (mark : Char) (ending : Text), IsMark mark ∧
      clause.text = place ++ mark :: ending ∧ Ending numeral.text ending ∧
      ('(' ∈ place ↔ terms.isMany = true ∨ '(' ∈ clause.ahead) ∧ (mark = '(' ∨ '(' ∈ place) := by
  obtain ⟨place, mark, before, after, marks, whole, opens, first⟩ := final_place here
  obtain ⟨gap, blank, gaps, blanks, behind⟩ := clause.behind_eq
  rw [final] at whole
  refine ⟨place, mark, before.text ++ (numeral.text ++ (after.text ++ ')' :: (gap ++ blank))),
    marks, ?_, ?_, opens, first⟩
  · have numeralText : (Term.integer false numeral).text = numeral.text := rfl
    rw [clause.text_eq, behind, comma_eq_nil comma, ← List.append_assoc, whole, numeralText]
    simp
  · exact ⟨before.text, after.text, gap ++ blank, rfl, before.blank, after.blank,
      List.forall_mem_append.2 ⟨gaps, blanks⟩, numeral.nonempty,
      fun digit member => decimal_of_digit (numeral.ascii digit member)⟩

/-! ## What the search finds -/

/-- The digits that the search finds in a line without the blanks at its end. -/
def found (line : Text) : Option Text := do
  let arguments ← behindFirstName false line
  (argumentStarts arguments ++ [arguments]).findSome? finalDigits

theorem last_step_iff {line : Text} {step : Nat} :
    lastStep line = some step ↔ ∃ digits, found (trimEnd line) = some digits ∧
      Line.IsNumeral step digits := by
  simp only [lastStep, found, Option.bind_eq_bind, Option.bind_eq_some_iff, Line.read_numeral_iff]
  constructor
  · rintro ⟨arguments, begins, digits, finds, numeral⟩
    exact ⟨digits, ⟨arguments, begins, finds⟩, numeral⟩
  · rintro ⟨digits, ⟨arguments, begins, finds⟩, numeral⟩
    exact ⟨arguments, begins, digits, finds, numeral⟩

section Search

variable {clause : Clause} {tail : Text}

/-- Without a closing in the strings of the clause and in its comment only the last argument
closes. -/
theorem ends_with_of_closing (termed : clause.finalAtom.IsTermed)
    (quiet : '%' ∈ clause.text → ¬ HoldsClosing clause.text) (silent : ¬ HoldsClosing tail)
    {front rest digits : Text} {mark : Char} (marks : IsMark mark) (closing : Closing digits rest)
    (whole : clause.text ++ '.' :: tail = front ++ mark :: rest) :
    clause.hasComma = false ∧ clause.EndsWith digits := by
  rcases closing_cases marks closing whole with
    ⟨comment, holds⟩ | ⟨ending, ends, text⟩ | ⟨opened, rfl⟩
  · exact absurd holds (quiet comment)
  · obtain ⟨comma, terms, numeral, here, final, spelled, -⟩ :=
      ends_with_of_ending termed marks ends text
    exact ⟨comma, terms, numeral, here, final, spelled⟩
  · exact absurd ⟨opened, mark, rest, digits, marks, rfl, closing⟩ silent

theorem place_of_candidate {line arguments rest : Text} {named : Bool}
    (begins : behindFirstName named line = some arguments)
    (member : rest ∈ argumentStarts arguments ++ [arguments]) :
    ∃ front mark, IsMark mark ∧ line = front ++ mark :: rest := by
  obtain ⟨ahead, rfl⟩ := behind_first_name_sound begins
  rcases List.mem_append.1 member with later | same
  · obtain ⟨front, mark, marks, rfl⟩ := argument_starts_iff.1 later
    exact ⟨ahead ++ '(' :: front, mark, marks, by simp⟩
  · obtain rfl := List.mem_singleton.1 same
    exact ⟨ahead, '(', .inl rfl, rfl⟩

theorem found_iff (termed : clause.finalAtom.IsTermed)
    (quiet : '%' ∈ clause.text → ¬ HoldsClosing clause.text) (ended : Line.IsTail tail)
    (silent : ¬ HoldsClosing tail) (digits : Text) :
    found (clause.text ++ '.' :: tail) = some digits ↔
      clause.hasComma = false ∧ clause.EndsWith digits := by
  have only {named : Bool} {arguments rest others : Text}
      (begins : behindFirstName named (clause.text ++ '.' :: tail) = some arguments)
      (member : rest ∈ argumentStarts arguments ++ [arguments])
      (finds : finalDigits rest = some others) :
      clause.hasComma = false ∧ clause.EndsWith others := by
    obtain ⟨front, mark, marks, whole⟩ := place_of_candidate begins member
    exact ends_with_of_closing termed quiet silent marks (final_digits_iff.1 finds) whole
  constructor
  · intro finds
    obtain ⟨arguments, begins, finds⟩ := Option.bind_eq_some_iff.1 finds
    obtain ⟨rest, member, finds⟩ := List.exists_of_findSome?_eq_some finds
    exact only begins member finds
  · rintro ⟨comma, ends⟩
    obtain ⟨terms, numeral, here, final, rfl⟩ := ends
    obtain ⟨place, mark, ending, marks, text, closes, -, first⟩ := ending_of_final comma here final
    have opens : '(' ∈ clause.text := by
      rw [text, List.mem_append, List.mem_cons]
      exact first.elim (fun same => .inr (.inl same.symm)) .inl
    obtain ⟨ahead, rest, opened, free, begins⟩ := search_begins opens
    have member : ending ++ '.' :: tail ∈
        argumentStarts (rest ++ '.' :: tail) ++ [rest ++ '.' :: tail] := by
      rw [argument_starts_append, List.mem_append, List.mem_append, List.mem_map]
      rcases candidate_of_place marks free first (opened.symm.trans text) with ⟨-, rfl⟩ | ⟨-, later⟩
      · exact .inr List.mem_cons_self
      · exact .inl (.inl ⟨ending, later, rfl⟩)
    rw [found, begins, Option.bind_eq_bind, Option.bind_some]
    refine find_some_of_unique member
      (final_digits_of_closing ⟨ending, tail, closes, ended, rfl⟩) ?_
    intro other candidate value finds
    exact ends_with_unique (only (begins tail) candidate finds).2 ⟨terms, numeral, here, final, rfl⟩

theorem inner_is_final (termed : clause.finalAtom.IsTermed)
    (quiet : '%' ∈ clause.text → ¬ HoldsClosing clause.text) {ahead rest inner digits : Text}
    (opened : clause.text = ahead ++ '(' :: rest) (member : inner ∈ argumentStarts rest)
    (finds : finalDigits (inner ++ '.' :: tail) = some digits) :
    clause.IsSettled ∧ clause.EndsWith digits := by
  obtain ⟨front, mark, marks, rfl⟩ := argument_starts_iff.1 member
  have whole : clause.text = (ahead ++ '(' :: front) ++ mark :: inner := by simp [opened]
  have ending := ending_of_inner marks quiet (final_digits_iff.1 finds) whole
  obtain ⟨comma, terms, numeral, here, final, spelled, opens⟩ :=
    ends_with_of_ending termed marks ending whole
  exact ⟨⟨comma, terms, numeral, here, final, opens.1 (by simp)⟩,
    terms, numeral, here, final, spelled⟩

/-- With another argument in front of it the last argument is found whatever the comment says. -/
theorem found_of_settled (termed : clause.finalAtom.IsTermed)
    (quiet : '%' ∈ clause.text → ¬ HoldsClosing clause.text) (ended : Line.IsTail tail)
    (settled : clause.IsSettled) :
    ∃ digits, clause.EndsWith digits ∧ found (clause.text ++ '.' :: tail) = some digits := by
  obtain ⟨comma, terms, numeral, here, final, others⟩ := settled
  have ends : clause.EndsWith numeral.text := ⟨terms, numeral, here, final, rfl⟩
  obtain ⟨place, mark, ending, marks, text, closes, opens, first⟩ :=
    ending_of_final comma here final
  have inside : '(' ∈ clause.text := by
    rw [text, List.mem_append]
    exact .inl (opens.2 others)
  obtain ⟨ahead, rest, opened, free, begins⟩ := search_begins inside
  have later : ending ∈ argumentStarts rest := by
    rcases candidate_of_place marks free first (opened.symm.trans text) with ⟨none, -⟩ | ⟨-, later⟩
    · exact absurd (opens.2 others) none
    · exact later
  refine ⟨numeral.text, ends, ?_⟩
  rw [found, begins, Option.bind_eq_bind, Option.bind_some, argument_starts_append,
    List.append_assoc, List.findSome?_append, find_some_of_unique (List.mem_map_of_mem later)
      (final_digits_of_closing ⟨ending, tail, closes, ended, rfl⟩)]
  · rfl
  · intro other member value finds
    obtain ⟨inner, here, rfl⟩ := List.mem_map.1 member
    exact ends_with_unique (inner_is_final termed quiet opened here finds).2 ends

def misleading (digit : Char) : Text := "% q(".toList ++ [digit, ')', '.']

theorem found_of_unsettled (termed : clause.finalAtom.IsTermed)
    (quiet : '%' ∈ clause.text → ¬ HoldsClosing clause.text) (unsettled : ¬ clause.IsSettled)
    {digit : Char} (ascii : isDigit digit = true) :
    found (clause.text ++ '.' :: misleading digit) = some [digit] := by
  have decimal := decimal_of_digit ascii
  have other : digit ≠ '(' ∧ digit ≠ ',' := by
    constructor <;> rintro rfl <;> exact absurd ascii (by decide)
  have starts : argumentStarts [digit, ')', '.'] = [] := by simp [argumentStarts, other]
  have ending : Ending [digit] [digit, ')'] :=
    ⟨[], [], [], rfl, List.forall_mem_nil _, List.forall_mem_nil _, List.forall_mem_nil _,
      List.cons_ne_nil _ _, by simpa using decimal⟩
  have closing : finalDigits [digit, ')', '.'] = some [digit] :=
    final_digits_of_closing ⟨_, [], ending, Line.is_tail_iff.1 (by decide), rfl⟩
  by_cases opens : '(' ∈ clause.text
  · obtain ⟨ahead, rest, opened, free, begins⟩ := search_begins opens
    have within : ((argumentStarts rest).map (· ++ '.' :: misleading digit)).findSome? finalDigits =
        none := by
      rw [List.findSome?_eq_none_iff]
      intro inner member
      obtain ⟨front, here, rfl⟩ := List.mem_map.1 member
      refine Option.eq_none_iff_forall_ne_some.2 fun value finds => unsettled ?_
      exact (inner_is_final termed quiet opened here finds).1
    have behind : argumentStarts ('.' :: misleading digit) = [[digit, ')', '.']] := by
      simp [misleading, argumentStarts, other]
    rw [found, begins, Option.bind_eq_bind, Option.bind_some, argument_starts_append, behind,
      List.append_assoc, List.findSome?_append, within]
    simp [closing]
  · have free : '(' ∉ clause.text ++ ".% ".toList := by
      rw [List.mem_append, not_or]
      exact ⟨opens, by decide⟩
    have begins := behind_first_name_of_name false ⟨['q'], rfl⟩ [digit, ')', '.'] free
    have regrouped : clause.text ++ '.' :: misleading digit =
        (clause.text ++ ".% ".toList) ++ (['q'] ++ '(' :: [digit, ')', '.']) := by
      simp [misleading]
    rw [found, regrouped, begins, Option.bind_eq_bind, Option.bind_some, starts]
    simp [closing]

end Search

/-! ## Lines -/

/-- The lines that a clause is written on: a period behind the clause, a tail without a newline, and
the end of the line. -/
def IsLine (clause : Clause) (tail line : Text) : Prop :=
  Line.IsTail tail ∧ '\n' ∉ tail ∧ ∃ ending,
    (∀ character ∈ ending, character = '\n' ∨ character = '\r') ∧
      line = clause.text ++ '.' :: (tail ++ ending)

theorem is_line_of_ending (clause : Clause) (ending : Text)
    (ends : ∀ character ∈ ending, character = '\n' ∨ character = '\r') :
    clause.IsLine [] (clause.text ++ '.' :: ending) :=
  ⟨Line.is_tail_of_blanks (List.forall_mem_nil _), List.not_mem_nil, ending, ends, rfl⟩

/-- On these lines the step that is found is the step that the clause names. -/
def ExactBehind (clause : Clause) (allowed : Text → Prop) : Prop :=
  ∀ tail line, clause.IsLine tail line → allowed tail →
    ∀ step, lastStep line = some step ↔ clause.Names step

theorem trim_line {clause : Clause} {tail line : Text} (written : clause.IsLine tail line) :
    trimEnd line = clause.text ++ '.' :: trimEnd tail ∧ Line.IsTail (trimEnd tail) ∧
      (HoldsClosing (trimEnd tail) → HoldsClosing tail) := by
  obtain ⟨ended, inline, ending, ends, rfl⟩ := written
  have blanks : ∀ character ∈ ending, isBlank character = true := by
    intro character member
    rcases ends character member with rfl | rfl <;> decide
  refine ⟨?_, is_tail_drop_end (by decide) ended, fun holds => ?_⟩
  · rw [trimEnd, drop_end_while_cons _ _ (by decide), drop_end_while_run tail blanks, trimEnd]
  · obtain ⟨run, others, whole⟩ := drop_end_while_eq isBlank tail
    rw [whole, List.mem_append, not_or] at inline
    rw [whole]
    exact holds.append_blanks others inline.2

theorem last_step_of_written {clause : Clause} (termed : clause.finalAtom.IsTermed)
    (quiet : '%' ∈ clause.text → ¬ HoldsClosing clause.text) {tail line : Text}
    (written : clause.IsLine tail line) (silent : ¬ HoldsClosing tail) (step : Nat) :
    lastStep line = some step ↔ clause.hasComma = false ∧ clause.Names step := by
  obtain ⟨trimmed, ended, holds⟩ := trim_line written
  have finds (digits : Text) :=
    found_iff termed quiet ended (fun holding => silent (holds holding)) digits
  simp only [last_step_iff, trimmed, finds, Names]
  exact ⟨fun ⟨digits, ⟨comma, ends⟩, numeral⟩ => ⟨comma, digits, ends, numeral⟩,
    fun ⟨comma, digits, ends, numeral⟩ => ⟨digits, ⟨comma, ends⟩, numeral⟩⟩

/-- A clause that is not settled names two steps, if the search is always right. -/
theorem names_of_misled {clause : Clause} (termed : clause.finalAtom.IsTermed)
    (quiet : '%' ∈ clause.text → ¬ HoldsClosing clause.text)
    (exact : clause.ExactBehind fun _ => True) (unsettled : ¬ clause.IsSettled) {digit : Char}
    (known : digit = '7' ∨ digit = '8') : clause.Names (valueOfDigits [digit]) := by
  obtain ⟨ascii, ended, inline, trimmed, numeral⟩ : isDigit digit = true ∧
      Line.tail.accepts (misleading digit) = true ∧ '\n' ∉ misleading digit ∧
      trimEnd (misleading digit) = misleading digit ∧
      readNumeral [digit] = some (valueOfDigits [digit]) := by
    rcases known with rfl | rfl <;> decide
  have written :
      clause.IsLine (misleading digit) (clause.text ++ '.' :: (misleading digit ++ [])) :=
    ⟨Line.is_tail_iff.1 ended, inline, [], List.forall_mem_nil _, rfl⟩
  have misled := found_of_unsettled termed quiet unsettled ascii
  rw [← trimmed, ← (trim_line written).1] at misled
  exact (exact _ _ written trivial _).1
    (last_step_iff.2 ⟨[digit], misled, Line.read_numeral_iff.1 numeral⟩)

/-- If neither the clause nor the comment holds another closing, the step that is found is the one
that the clause names, unless a comma stands behind it. Whatever the comment says, it is that one
exactly if another argument stands before it. -/
theorem last_step_exact_iff {clause : Clause} (termed : clause.finalAtom.IsTermed)
    (quiet : ¬ HoldsClosing clause.text) :
    (clause.ExactBehind (fun tail => ¬ HoldsClosing tail) ↔
      (clause.hasComma = true → ∀ step, ¬ clause.Names step)) ∧
    (clause.ExactBehind (fun _ => True) ↔ clause.IsSettled) := by
  have hidden : '%' ∈ clause.text → ¬ HoldsClosing clause.text := fun _ => quiet
  constructor
  · constructor
    · intro exact comma step names
      have written : clause.IsLine [] (clause.text ++ ['.']) :=
        clause.is_line_of_ending [] (List.forall_mem_nil _)
      have silent : ¬ HoldsClosing [] := no_closing_without_period List.not_mem_nil
      have found := (exact [] _ written silent step).2 names
      rw [((last_step_of_written termed hidden written silent step).1 found).1] at comma
      cases comma
    · intro plain tail line written silent step
      rw [last_step_of_written termed hidden written silent]
      refine ⟨And.right, fun names => ⟨?_, names⟩⟩
      rw [← Bool.not_eq_true]
      exact fun comma => plain comma step names
  · constructor
    · intro exact
      by_contra unsettled
      obtain ⟨first, ends, seven⟩ := names_of_misled termed hidden exact unsettled (.inl rfl)
      obtain ⟨second, same, eight⟩ := names_of_misled termed hidden exact unsettled (.inr rfl)
      obtain rfl := ends_with_unique ends same
      exact absurd (seven.value.symm.trans eight.value) (by decide)
    · intro settled tail line written _ step
      obtain ⟨trimmed, ended, -⟩ := trim_line written
      obtain ⟨digits, ends, found⟩ := found_of_settled termed hidden ended settled
      rw [last_step_iff, trimmed, found, Names]
      constructor
      · rintro ⟨others, same, numeral⟩
        cases same
        exact ⟨digits, ends, numeral⟩
      · rintro ⟨others, same, numeral⟩
        rw [ends_with_unique ends same]
        exact ⟨others, rfl, numeral⟩

/-- With another argument in front of it the last one is found beside a comment with an atom. -/
theorem settled_step_found :
    let clause : Clause := .fact ⟨false, ⟨"at".toList, rfl⟩, "a, 5".toList, by decide⟩
    clause.ExactBehind (fun _ => True) ∧
      lastStep "at(a, 5). % was at(a, 4).\n".toList = some 5 := by
  intro clause
  let numeral : Digits := ⟨['5'], by decide, List.all_eq_true.1 rfl⟩
  let terms : Terms :=
    .more Gap.none (.constant ⟨['a'], rfl⟩) Gap.none
      (.last ⟨[' '], List.all_eq_true.1 rfl, by decide⟩ (.integer false numeral) Gap.none)
  have ends : clause.EndsWith ['5'] := ⟨terms, numeral, rfl, rfl, rfl⟩
  have quiet : ¬ HoldsClosing clause.text := no_closing_without_period (by decide)
  have exact := (last_step_exact_iff (.inr ⟨terms, rfl⟩) quiet).2.2
    ⟨rfl, terms, numeral, rfl, rfl, .inl rfl⟩
  have written : clause.IsLine " % was at(a, 4).".toList "at(a, 5). % was at(a, 4).\n".toList :=
    ⟨Line.is_tail_iff.1 (by decide), by decide, ['\n'], by simp, rfl⟩
  refine ⟨exact, (exact _ _ written trivial 5).2 ?_⟩
  exact ⟨['5'], ends, Line.read_numeral_iff.1 (by decide)⟩

/-- The only argument of a clause is passed over for one in the comment. -/
theorem comment_read_as_step :
    let clause : Clause := .fact ⟨false, ⟨"at".toList, rfl⟩, "3".toList, by decide⟩
    let line := "at(3). % was at(7).\n".toList
    clause.finalAtom.IsTermed ∧ clause.IsLine " % was at(7).".toList line ∧ clause.Names 3 ∧
      lastStep line = some 7 := by
  intro clause line
  let numeral : Digits := ⟨['3'], by decide, List.all_eq_true.1 rfl⟩
  let terms : Terms := .last Gap.none (.integer false numeral) Gap.none
  refine ⟨.inr ⟨terms, rfl⟩, ⟨Line.is_tail_iff.1 (by decide), by decide, ['\n'], by simp, rfl⟩, ?_,
    by decide⟩
  exact ⟨['3'], ⟨terms, numeral, rfl, rfl, rfl⟩, Line.read_numeral_iff.1 (by decide)⟩

end StepStream.Clause
