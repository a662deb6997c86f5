import StepStream.Proofs.FinalStep

/-!
The step that a query gets as a further argument. The text is cut at its first `%` and the argument
is put in front of what is then its end, so this makes the same clause with one argument more
exactly if no string has a `%` and no comma stands behind the final atom.
-/

namespace StepStream.Clause

set_option autoImplicit false

open Text Pattern QueryClause

/-! ## The clause with a step -/

theorem with_step_first {atom : Atom} (none : atom.arguments = []) (step : Nat) :
    (atom.withStep step).arguments = showNumeral step :=
  if_pos none

theorem with_step_further {atom : Atom} (nonempty : atom.arguments ≠ []) (step : Nat) :
    (atom.withStep step).arguments = atom.arguments ++ ',' :: showNumeral step :=
  if_neg nonempty

theorem with_step_nonempty (step : Nat) (atom : Atom) : (atom.withStep step).arguments ≠ [] := by
  by_cases none : atom.arguments = []
  · rw [with_step_first none]
    exact Nat.toDigits_ne_nil
  · simp [with_step_further none]

theorem with_step_atom_text (step : Nat) (atom : Atom) :
    (atom.withStep step).text = atom.lead ++ '(' :: ((atom.withStep step).arguments ++ [')']) :=
  Atom.text_of_arguments (with_step_nonempty step atom)

theorem with_step_text (step : Nat) (clause : Clause) :
    (clause.withStep step).text =
      clause.ahead ++ ((clause.finalAtom.withStep step).text ++ clause.comma) :=
  with_final_text _ clause

theorem with_step_ends {clause : Clause} (termed : clause.finalAtom.IsTermed) (step : Nat) :
    (clause.withStep step).finalAtom.IsTermed ∧
      (clause.withStep step).EndsWith (showNumeral step) := by
  have numeral : ∀ digit ∈ showNumeral step, isDigit digit = true :=
    fun digit member => digit_of_numeral member
  let last : Term := .integer false ⟨showNumeral step, Nat.toDigits_ne_nil, numeral⟩
  have arguments : ∃ terms : Terms, (clause.finalAtom.withStep step).arguments = terms.text ∧
      terms.final = last := by
    rcases termed with none | ⟨terms, here⟩
    · refine ⟨.last Gap.none last Gap.none, ?_, rfl⟩
      rw [with_step_first none]
      simp [Terms.text, Gap.none, last, Term.text]
    · refine ⟨terms.snoc last, ?_, terms.snoc_final last⟩
      rw [with_step_further (here ▸ terms.text_last.1), terms.snoc_text, here]
      rfl
  obtain ⟨terms, here, final⟩ := arguments
  have atom : (clause.withStep step).finalAtom = clause.finalAtom.withStep step :=
    with_final_atom _ clause
  rw [EndsWith, atom]
  exact ⟨.inr ⟨terms, here⟩, terms, _, here, final, rfl⟩

/-! ## The text -/

section Line

variable {clause : Clause} {tail line : Text}

theorem blank_before_comment (ended : Line.IsTail tail) {ending : Text}
    (ends : ∀ character ∈ ending, character = '\n' ∨ character = '\r') :
    ∀ character ∈ (tail ++ ending).takeWhile (· ≠ '%'), isBlank character = true := by
  obtain ⟨blank, comment, rfl, blanks, shape⟩ := ended
  rcases shape with rfl | ⟨words, rfl, -⟩
  · intro character member
    have here := (List.takeWhile_prefix _).subset member
    rw [List.append_nil, List.mem_append] at here
    rcases here with here | here
    · exact blanks character here
    · rcases ends character here with rfl | rfl <;> decide
  · have other : ∀ character ∈ blank, decide (character ≠ '%') = true := by
      intro character member
      rw [decide_eq_true_eq]
      rintro rfl
      exact absurd (blanks '%' member) (by decide)
    rw [List.append_assoc, List.cons_append, take_while_append other (by simp)]
    exact blanks

theorem statement_of_line (written : clause.IsLine tail line) (plain : '%' ∉ clause.text) :
    QueryClause.statement line = trimEnd clause.text := by
  obtain ⟨ended, -, ending, ends, rfl⟩ := written
  have blanks := blank_before_comment ended ends
  have kept : ∀ character ∈ clause.text ++ ['.'], decide (character ≠ '%') = true := by
    intro character member
    rw [decide_eq_true_eq]
    rintro rfl
    simp [plain] at member
  have regrouped :
      clause.text ++ '.' :: (tail ++ ending) = (clause.text ++ ['.']) ++ (tail ++ ending) := by
    simp
  rw [QueryClause.statement, regrouped, List.takeWhile_append_of_pos kept]
  have trimmed : trimEnd ((clause.text ++ ['.']) ++ (tail ++ ending).takeWhile (· ≠ '%')) =
      clause.text ++ ['.'] := drop_end_while_last _ (by decide) blanks
  rw [trimmed, List.getLast?_concat, if_pos rfl, List.dropLast_concat]

theorem append_step_of_line (written : clause.IsLine tail line) (plain : '%' ∉ clause.text)
    (comma : clause.hasComma = false) (step : Nat) :
    appendStep line step = (clause.withStep step).text ++ ".\n".toList := by
  have trimmed := clause.trim_text
  rw [comma, if_neg Bool.false_ne_true] at trimmed
  rw [appendStep, statement_of_line written plain, trimmed, with_step_text, comma_eq_nil comma,
    with_step_atom_text]
  by_cases none : clause.finalAtom.arguments = []
  · obtain ⟨front, last, atom, part⟩ := clause.finalAtom.text_last
    rw [if_pos none] at part
    have other : last ≠ ')' := by
      rintro rfl
      exact absurd part (by decide)
    rw [with_step_first none, ← Atom.text_of_no_arguments none, atom]
    rw [← List.append_assoc, List.getLast?_concat, if_neg (by simpa using other)]
    simp
  · have regrouped : clause.ahead ++ clause.finalAtom.text =
        (clause.ahead ++ (clause.finalAtom.lead ++ '(' :: clause.finalAtom.arguments)) ++
          [')'] := by
      rw [Atom.text_of_arguments none]
      simp
    rw [with_step_further none, regrouped]
    rw [List.getLast?_concat, if_pos rfl, List.dropLast_concat]
    simp

theorem append_step_of_comma (written : clause.IsLine tail line) (plain : '%' ∉ clause.text)
    (comma : clause.hasComma = true) (step : Nat) :
    appendStep line step ≠ (clause.withStep step).text ++ ".\n".toList := by
  have trimmed := clause.trim_text
  rw [comma, if_pos rfl] at trimmed
  obtain ⟨front, trimmed⟩ := trimmed
  have aComma : clause.comma = [','] := by rw [Clause.comma, comma]; rfl
  rw [appendStep, statement_of_line written plain, trimmed, with_step_text, aComma]
  rw [List.getLast?_concat, if_neg (by decide)]
  intro same
  have regrouped : (front ++ [','] ++ ['('] ++ showNumeral step) ++ ").\n".toList =
      (clause.ahead ++ (clause.finalAtom.withStep step).text) ++ ",.\n".toList := by
    simpa using same
  obtain ⟨-, ends⟩ := List.append_inj' regrouped rfl
  cases ends

theorem percent_with_step (clause : Clause) (step : Nat) :
    '%' ∈ (clause.withStep step).text ↔ '%' ∈ clause.text := by
  obtain ⟨after, gap, blanks, others, behind⟩ := clause.behind_eq
  have noBlank {text : Text} (all : ∀ character ∈ text, isBlank character = true) : '%' ∉ text :=
    not_mem_of_all all (by decide)
  have noComma : '%' ∉ clause.comma := by
    unfold Clause.comma
    split <;> decide
  have numeral : '%' ∉ showNumeral step := not_mem_numeral (by decide) step
  have atom : '%' ∈ (clause.finalAtom.withStep step).text ↔ '%' ∈ clause.finalAtom.text := by
    rw [with_step_atom_text]
    by_cases none : clause.finalAtom.arguments = []
    · simp [Atom.text_of_no_arguments none, with_step_first none, numeral]
    · simp [Atom.text_of_arguments none, with_step_further none, numeral]
  rw [with_step_text, clause.text_eq, behind]
  simp [atom, noBlank blanks, noBlank others, noComma]

/-- Nothing is left of a string from its first `%` on. -/
theorem append_step_of_percent (percent : '%' ∈ clause.text) (step : Nat) :
    appendStep line step ≠ (clause.withStep step).text ++ ".\n".toList := by
  intro same
  have kept : '%' ∈ appendStep line step := by
    rw [same]
    exact List.mem_append_left _ ((percent_with_step clause step).2 percent)
  obtain ⟨front, mark, within, marks, appended⟩ := append_step_front line step
  have cut : '%' ∉ front := fun member => by
    have other := List.mem_takeWhile_imp (within.subset member)
    exact absurd other (by decide)
  have numeral : '%' ∉ showNumeral step := not_mem_numeral (by decide) step
  rw [appended] at kept
  rcases marks with rfl | rfl <;> simp [cut, numeral] at kept

end Line

/-! ## The kind -/

/-- With a step as a further argument a fact is a rule only if it is one without it. -/
theorem rule_of_with_step {head : Atom} (termed : head.IsTermed) {step : Nat} {rule : Clause}
    (kind : rule.kind = .rule) (same : rule.text = (head.withStep step).text) :
    ∃ other : Clause, other.kind = .rule ∧ other.text = head.text := by
  have closed : rule.text = (head.lead ++ '(' :: (head.withStep step).arguments) ++ [')'] := by
    simp [same, with_step_atom_text]
  obtain ⟨comma, -, opened⟩ := arguments_of_text closed
  rcases termed with none | ⟨terms, here⟩
  · have colon : ':' ∈ rule.ahead := by
      cases rule with
      | rule before head gap body => simp [ahead, Clause.lead]
      | constraint | fact => cases kind
    have member : ':' ∈ head.lead ++ '(' :: (head.withStep step).arguments := by
      rw [← opened]
      simp [colon]
    have numeral : ':' ∉ showNumeral step := not_mem_numeral (by decide) step
    have lead : ':' ∉ head.lead := head.not_mem_lead (by decide) (by decide)
    rw [with_step_first none] at member
    simp [lead, numeral] at member
  · have nonempty : head.arguments ≠ [] := here ▸ terms.text_last.1
    have numeral : '(' ∉ showNumeral step := not_mem_numeral (by decide) step
    have cut : (rule.ahead ++ rule.finalAtom.lead) ++ '(' :: rule.finalAtom.arguments =
        (head.lead ++ '(' :: head.arguments) ++ ',' :: showNumeral step := by
      rw [opened, with_step_further nonempty]
      simp
    -- The comma in front of the step stands within the arguments of the rule, so they can lose it.
    rcases append_around cut with ⟨closed, -, digits⟩ | ⟨front, before, arguments⟩
    · simp [digits] at numeral
    · cases front with
      | nil => cases arguments
      | cons first front =>
          obtain ⟨rfl, shorter⟩ := List.cons.inj arguments
          have kept : front ≠ [] := by
            rintro rfl
            have final : (head.lead ++ '(' :: head.arguments).getLast? = some '(' := by
              simp [before]
            rw [List.getLast?_append_of_ne_nil _ (List.cons_ne_nil _ _),
              List.getLast?_cons_of_ne_nil nonempty, here] at final
            exact terms.text_last.2 '(' final (.inl rfl)
          obtain ⟨other, sameKind, text⟩ := with_shorter_arguments comma kept shorter
          refine ⟨other, sameKind.trans kind, ?_⟩
          rw [text, Atom.text_of_arguments nonempty, ← before]
          simp

theorem rule_of_shape {text : Text} (percent : '%' ∉ text) (inline : '\n' ∉ text)
    (ruled : Line.ruleShape.accepts (text ++ ['.']) = true) :
    ∃ rule : Clause, rule.kind = .rule ∧ rule.text = text := by
  obtain ⟨_, rest, ⟨rule, kind, rfl⟩, ended, whole⟩ :=
    (rule_shape_reads (by simp [inline])).1 ruled
  rcases List.eq_nil_or_concat' rest with rfl | ⟨front, last, rfl⟩
  · exact ⟨rule, kind, (List.append_inj' whole rfl).1.symm⟩
  · -- A second period could stand only in a comment.
    have regrouped : text ++ ['.'] = (rule.text ++ '.' :: front) ++ [last] := by simp [whole]
    obtain ⟨rfl, same⟩ := List.append_inj' regrouped rfl
    obtain rfl := List.singleton_inj.1 same
    have comment := (tail_of_append ended).1
    simp [comment] at percent

theorem accepts_rule {rule : Clause} {rest : Text} (kind : rule.kind = .rule)
    (ended : Line.IsTail rest) : Line.ruleShape.accepts (rule.text ++ '.' :: rest) = true := by
  have accepted := rule.accepts_text ended
  cases rule with
  | rule before head gap body => exact accepted
  | constraint | fact => cases kind

theorem classify_written {clause : Clause} {tail line : Text} (written : clause.IsLine tail line) :
    Line.classify line = Line.readClause (clause.text ++ '.' :: stripLineEnd tail) ∧
      Line.IsTail (stripLineEnd tail) := by
  obtain ⟨ended, -, ending, ends, rfl⟩ := written
  have kept : Line.IsTail (stripLineEnd tail) := is_tail_drop_end (by decide) ended
  have stripped : stripLineEnd (clause.text ++ '.' :: (tail ++ ending)) =
      clause.text ++ '.' :: stripLineEnd tail := by
    rw [strip_line_end_append clause.text _ (by decide) (by decide), stripLineEnd,
      drop_end_while_run tail, stripLineEnd]
    intro character member
    rcases ends character member with rfl | rfl <;> rfl
  refine ⟨?_, kept⟩
  have unsigned : (clause.text ++ '.' :: (tail ++ ending)).head? ≠ some '#' := by
    rw [ne_eq, ← Line.number_sign_first_iff, stripped]
    exact clause.unsigned_text kept
  rw [classify_unsigned unsigned, stripped]

theorem kind_with_step {clause : Clause} (termed : clause.finalAtom.IsTermed)
    {tail line : Text} (written : clause.IsLine tail line) (plain : '%' ∉ clause.text)
    (kind : Line.classify line = .fact ∨ Line.classify line = .integrity) (step : Nat) :
    Line.classify ((clause.withStep step).text ++ ".\n".toList) = Line.classify line := by
  have lines : (clause.withStep step).IsLine [] ((clause.withStep step).text ++ ".\n".toList) :=
    is_line_of_ending _ ['\n'] (by simp)
  obtain ⟨spoken, ended⟩ := classify_written written
  obtain ⟨said, none⟩ := classify_written lines
  have sameKind : (clause.withStep step).kind = clause.kind := with_final_kind _ clause
  rw [spoken, clause.read_clause_eq ended] at kind
  rw [said, spoken, read_clause_eq _ none, clause.read_clause_eq ended, sameKind]
  split at kind
  · rcases kind with rule | rule <;> cases rule
  · next other =>
      rw [if_neg other, if_neg]
      rintro ⟨fact, ruled⟩
      cases clause with
      | constraint | rule => cases fact
      | fact head =>
          have percent := mt (percent_with_step (.fact head) step).1 plain
          have inline := (head.withStep step).text_inline
          obtain ⟨result, kind, same⟩ := rule_of_shape percent inline ruled
          obtain ⟨rule, sameKind, text⟩ := rule_of_with_step termed kind same
          refine other ⟨rfl, ?_⟩
          have accepted := accepts_rule sameKind ended
          rwa [text] at accepted

/-- On a line that is a fact or a constraint the result is the clause with the step as a further
argument exactly if no string of the clause has a `%` and no comma stands behind the final atom.
It is then a line of the same kind that names the step. -/
theorem append_step_iff {clause : Clause} (termed : clause.finalAtom.IsTermed) {tail line : Text}
    (written : clause.IsLine tail line)
    (kind : Line.classify line = .fact ∨ Line.classify line = .integrity) {step : Nat}
    (small : step ≤ greatestStep) :
    (appendStep line step = (clause.withStep step).text ++ ".\n".toList ↔
      '%' ∉ clause.text ∧ clause.hasComma = false) ∧
    ('%' ∉ clause.text → clause.hasComma = false →
      Line.classify (appendStep line step) = Line.classify line ∧
        lastStep (appendStep line step) = some step) := by
  constructor
  · constructor
    · intro same
      have plain : '%' ∉ clause.text := fun percent => append_step_of_percent percent step same
      refine ⟨plain, ?_⟩
      rw [← Bool.not_eq_true]
      exact fun comma => append_step_of_comma written plain comma step same
    · rintro ⟨plain, comma⟩
      exact append_step_of_line written plain comma step
  · intro plain comma
    rw [append_step_of_line written plain comma]
    refine ⟨kind_with_step termed written plain kind step, ?_⟩
    obtain ⟨stillTermed, ends⟩ := with_step_ends termed step
    have kept := mt (percent_with_step clause step).1 plain
    have lines : (clause.withStep step).IsLine [] ((clause.withStep step).text ++ ".\n".toList) :=
      is_line_of_ending _ ['\n'] (by simp)
    refine (last_step_of_written stillTermed (fun percent => absurd percent kept) lines
      (no_closing_without_period List.not_mem_nil) step).2 ⟨?_, showNumeral step, ends, ?_⟩
    · rw [withStep, with_final_comma]
      exact comma
    · exact Line.read_numeral_iff.1 (read_show_numeral small)

/-- Blanks and a comment behind the final atom, and a line end of two characters. -/
theorem step_added_to_constraint :
    let line := ":- q(a) . % now\r\n".toList
    appendStep line 7 = ":- q(a,7).\n".toList ∧ Line.classify (appendStep line 7) = .integrity ∧
      lastStep (appendStep line 7) = some 7 := by
  let blank : Gap := ⟨[' '], List.all_eq_true.1 rfl, by decide⟩
  let atom : Atom := ⟨false, ⟨['q'], rfl⟩, ['a'], by decide⟩
  let clause : Clause := .constraint Gap.none ⟨[], ⟨blank, .positive atom, blank, false, Gap.none⟩⟩
  have termed : clause.finalAtom.IsTermed :=
    .inr ⟨.last Gap.none (.constant ⟨['a'], rfl⟩) Gap.none, rfl⟩
  have written : clause.IsLine " % now".toList ":- q(a) . % now\r\n".toList :=
    ⟨Line.is_tail_iff.1 (by decide), by decide, ['\r', '\n'], by simp, rfl⟩
  obtain ⟨same, kept⟩ := append_step_iff termed written (.inr (by decide))
    (by decide : 7 ≤ greatestStep)
  obtain ⟨kind, named⟩ := kept (by decide) rfl
  exact ⟨same.2 ⟨by decide, rfl⟩, kind.trans (by decide), named⟩

/-- The step replaces the end of a string that has a `%`. -/
theorem string_cut_at_percent :
    let clause : Clause := .fact ⟨false, ⟨['p'], rfl⟩, "\"50%\"".toList, by decide⟩
    let line := "p(\"50%\").\n".toList
    clause.finalAtom.IsTermed ∧ clause.IsLine [] line ∧ Line.classify line = .fact ∧
      (clause.withStep 1).text ++ ".\n".toList = "p(\"50%\",1).\n".toList ∧
      appendStep line 1 = "p(\"50(1).\n".toList := by
  intro clause line
  let glyphs : List Glyph :=
    [.plain '5' (by decide), .plain '0' (by decide), .plain '%' (by decide)]
  have termed : clause.finalAtom.IsTermed :=
    .inr ⟨.last Gap.none (.string glyphs) Gap.none, rfl⟩
  exact ⟨termed, clause.is_line_of_ending ['\n'] (by simp), by decide, by decide, by decide⟩

end StepStream.Clause
