import StepStream.Proofs.ClauseGrammar

/-!
The kinds of clauses. A line that does not begin with `#` is of the first kind, of integrity
constraint, rule, fact and comment, that the grammar derives it as. A clause that has been
written gets its own kind, but for a fact with the neck of a rule in its arguments.
-/

namespace StepStream.Clause

set_option autoImplicit false

open Text Pattern

/-- A line without its end that is a clause of this kind, its period and a tail. -/
def Reads (kind : LineKind) (text : Text) : Prop :=
  Line.Terminated (fun front => ∃ clause : Clause, clause.kind = kind ∧ front = clause.text) text

section Lines

variable {text rest : Text}

theorem integrity_shape_reads (inline : '\n' ∉ text) :
    Line.integrityShape.accepts text = true ↔ Reads .integrity text := by
  rw [Line.integrity_shape_iff]
  refine Line.terminated_congr inline fun front kept => ⟨(constraint_of_matches · kept), ?_⟩
  rintro ⟨clause, known, rfl⟩
  cases clause with
  | constraint before body => exact matches_text (.constraint before body)
  | rule | fact => cases known

theorem rule_shape_reads (inline : '\n' ∉ text) :
    Line.ruleShape.accepts text = true ↔ Reads .rule text := by
  rw [Line.rule_shape_iff]
  refine Line.terminated_congr inline fun front kept => ⟨(rule_of_matches · kept), ?_⟩
  rintro ⟨clause, known, rfl⟩
  cases clause with
  | rule before head behind body => exact matches_text (.rule before head behind body)
  | constraint | fact => cases known

theorem fact_shape_reads (inline : '\n' ∉ text) :
    Line.factShape.accepts text = true ↔ Reads .fact text := by
  rw [Line.fact_shape_iff]
  refine Line.terminated_congr inline fun front kept => ⟨(fact_of_matches · kept), ?_⟩
  rintro ⟨clause, known, rfl⟩
  cases clause with
  | fact head => exact matches_text (.fact head)
  | constraint | rule => cases known

theorem read_clause_iff (inline : '\n' ∉ text) :
    (Line.readClause text = .integrity ↔ Reads .integrity text) ∧
    (Line.readClause text = .rule ↔ ¬ Reads .integrity text ∧ Reads .rule text) ∧
    (Line.readClause text = .fact ↔
      ¬ Reads .integrity text ∧ ¬ Reads .rule text ∧ Reads .fact text) ∧
    (Line.readClause text = .commentOrBlank ↔
      ¬ Reads .integrity text ∧ ¬ Reads .rule text ∧ ¬ Reads .fact text ∧ Line.IsTail text) ∧
    (Line.readClause text = .unrecognized ↔
      ¬ Reads .integrity text ∧ ¬ Reads .rule text ∧ ¬ Reads .fact text ∧ ¬ Line.IsTail text) := by
  rw [← integrity_shape_reads inline, ← rule_shape_reads inline, ← fact_shape_reads inline,
    ← Line.is_tail_iff, Line.readClause]
  by_cases constrains : Line.integrityShape.accepts text = true
  · simp [constrains]
  by_cases rules : Line.ruleShape.accepts text = true
  · simp [constrains, rules]
  by_cases states : Line.factShape.accepts text = true
  · simp [constrains, rules, states]
  by_cases ends : Line.tail.accepts text = true
  · simp [constrains, rules, states, ends]
  · simp [constrains, rules, states, ends]

/-! ## Clauses get their own kind -/

def shape : Clause → Pattern
  | constraint _ _ => Line.integrityShape
  | rule _ _ _ _ => Line.ruleShape
  | fact _ => Line.factShape

theorem accepts_text (clause : Clause) (ended : Line.IsTail rest) :
    clause.shape.accepts (clause.text ++ '.' :: rest) = true := by
  have stated : Line.Terminated (Matches clause.statement) (clause.text ++ '.' :: rest) :=
    ⟨_, rest, matches_text clause, ended, rfl⟩
  cases clause with
  | constraint before body => exact Line.integrity_shape_iff.2 stated
  | rule before head behind body => exact Line.rule_shape_iff.2 stated
  | fact head => exact Line.fact_shape_iff.2 stated

/-- A clause has its own kind, except that a fact can also have the shape of a rule. -/
theorem read_clause_eq (clause : Clause) (ended : Line.IsTail rest) :
    Line.readClause (clause.text ++ '.' :: rest) =
      if clause.kind = .fact ∧ Line.ruleShape.accepts (clause.text ++ '.' :: rest) = true then .rule
      else clause.kind := by
  have accepted := clause.accepts_text ended
  have unconstrained (other : clause.kind ≠ .integrity) :
      Line.integrityShape.accepts (clause.text ++ '.' :: rest) = false := by
    rw [← Bool.not_eq_true]
    intro there
    obtain ⟨noRule, noFact, -⟩ := Line.integrity_alone there
    cases clause with
    | constraint before body => exact other rfl
    | rule before head behind body => exact Bool.false_ne_true (noRule.symm.trans accepted)
    | fact head => exact Bool.false_ne_true (noFact.symm.trans accepted)
  cases clause with
  | constraint before body => exact if_pos accepted
  | rule before head behind body =>
      rw [Line.readClause, unconstrained (by simp [kind])]
      exact if_pos accepted
  | fact head =>
      rw [Line.readClause, unconstrained (by simp [kind])]
      cases ruled : Line.ruleShape.accepts ((fact head).text ++ '.' :: rest) with
      | true => rfl
      | false => exact if_pos accepted

theorem read_clause_text (clause : Clause) (ended : Line.IsTail rest)
    (plain : clause.kind = .fact → Line.ruleShape.accepts (clause.text ++ '.' :: rest) = false) :
    Line.readClause (clause.text ++ '.' :: rest) = clause.kind := by
  rw [clause.read_clause_eq ended, if_neg]
  rintro ⟨fact, ruled⟩
  exact Bool.false_ne_true ((plain fact).symm.trans ruled)

theorem unsigned_text (clause : Clause) (ended : Line.IsTail rest) :
    (clause.text ++ '.' :: rest).head? ≠ some '#' := by
  have accepted := clause.accepts_text ended
  intro signed
  obtain ⟨more, whole⟩ := List.head?_eq_some_iff.1 signed
  obtain ⟨noConstraint, noRule, noFact, -⟩ := Line.refused_behind_number_sign more
  rw [whole] at accepted
  cases clause with
  | constraint before body => exact Bool.false_ne_true (noConstraint.symm.trans accepted)
  | rule before head behind body => exact Bool.false_ne_true (noRule.symm.trans accepted)
  | fact head => exact Bool.false_ne_true (noFact.symm.trans accepted)

theorem classify_unsigned {line : Text} (unsigned : line.head? ≠ some '#') :
    Line.classify line = Line.readClause (stripLineEnd line) := by
  rw [Line.classify]
  exact if_neg fun signed => unsigned ((Line.number_sign_first_iff line).1 signed)

end Lines

/-! ## Necks in arguments -/

theorem neck_of_rule {text : Text} (ruled : Line.ruleShape.accepts text = true) :
    ":-".toList <:+: text := by
  obtain ⟨_, rest, here, -, rfl⟩ := Line.rule_shape_iff.1 ruled
  obtain ⟨blank, _, rfl, -, here⟩ := matches_seq_iff.1 here
  obtain ⟨head, _, rfl, -, here⟩ := matches_seq_iff.1 here
  obtain ⟨blanks, _, rfl, -, here⟩ := matches_seq_iff.1 here
  obtain ⟨_, body, rfl, necked, -⟩ := matches_seq_iff.1 here
  obtain rfl := eq_of_matches_literal necked
  exact ⟨blank ++ (head ++ blanks), body ++ '.' :: rest, by simp⟩

theorem neck_between (front : Text) {middle : Text} (back : Text) (before : ':' ∉ front)
    (behind : ':' ∉ back) (stops : back.head? ≠ some '-')
    (here : ":-".toList <:+: front ++ (middle ++ back)) :
    ":-".toList <:+: middle := by
  obtain ⟨ahead, more, whole⟩ := here
  have colon : front ++ (middle ++ back) = ahead ++ ':' :: '-' :: more := by simp [← whole]
  rcases append_around colon with ⟨closed, rfl, -⟩ | ⟨opened, rfl, inside⟩
  · simp at before
  rcases append_around inside with ⟨closed, rfl, dash⟩ | ⟨later, rfl, rfl⟩
  · cases closed with
    | nil =>
        rw [List.nil_append] at dash
        simp [← dash] at stops
    | cons second closed =>
        obtain ⟨rfl, -⟩ := List.cons.inj dash
        exact ⟨opened, closed, by simp⟩
  · simp at behind

/-- In front of a tail of blanks an atom has the necks of its arguments only. -/
theorem neck_of_atom {atom : Atom} {blank : Text}
    (blanks : ∀ character ∈ blank, isBlank character = true)
    (here : ":-".toList <:+: atom.text ++ '.' :: blank) : ":-".toList <:+: atom.arguments := by
  have behind : ':' ∉ blank := not_mem_of_all blanks (by decide)
  have signed : ':' ∉ atom.sign := atom.not_mem_sign (by decide)
  have named : ':' ∉ atom.name.text := atom.not_mem_name (by decide)
  rw [Atom.text, Line.atomText] at here
  split at here
  · next none =>
      rw [none]
      refine neck_between (atom.sign ++ atom.name.text) ('.' :: blank) ?_ ?_ ?_ here
      · simp [signed, named]
      · simp [behind]
      · simp
  · refine neck_between (atom.sign ++ (atom.name.text ++ ['('])) (')' :: '.' :: blank)
      ?_ ?_ ?_ (by simpa using here)
    · simp [signed, named]
    · simp [behind]
    · simp

/-! ## The kind of a line -/

/-- A line that does not begin with `#` is of the first kind that the grammar derives it as. Every
clause gets its own kind, a fact if its arguments hold no neck, whatever blanks and end of line
stand behind its period. -/
theorem classify_exact_on_clauses :
    (∀ line : Text, '\n' ∉ stripLineEnd line → line.head? ≠ some '#' →
      let text := stripLineEnd line
      (Line.classify line = .integrity ↔ Reads .integrity text) ∧
      (Line.classify line = .rule ↔ ¬ Reads .integrity text ∧ Reads .rule text) ∧
      (Line.classify line = .fact ↔
        ¬ Reads .integrity text ∧ ¬ Reads .rule text ∧ Reads .fact text) ∧
      (Line.classify line = .commentOrBlank ↔
        ¬ Reads .integrity text ∧ ¬ Reads .rule text ∧ ¬ Reads .fact text ∧ Line.IsTail text) ∧
      (Line.classify line = .unrecognized ↔
        ¬ Reads .integrity text ∧ ¬ Reads .rule text ∧ ¬ Reads .fact text ∧
          ¬ Line.IsTail text)) ∧
    (∀ (clause : Clause) (behind : Text), (∀ character ∈ behind, isBlank character = true) →
      (∀ head, clause = .fact head → ¬ ":-".toList <:+: head.arguments) →
      Line.classify (clause.text ++ '.' :: behind) = clause.kind) := by
  constructor
  · intro line inline unsigned
    rw [classify_unsigned unsigned]
    exact read_clause_iff inline
  · intro clause behind blanks neckless
    have kept : ∀ character ∈ stripLineEnd behind, isBlank character = true :=
      fun character member => blanks character (mem_of_drop_end_while member)
    have ended := Line.is_tail_of_blanks kept
    rw [classify_unsigned (clause.unsigned_text (Line.is_tail_of_blanks blanks)),
      strip_line_end_append clause.text behind (by decide) (by decide)]
    refine clause.read_clause_text ended ?_
    intro fact
    cases clause with
    | constraint | rule => cases fact
    | fact head =>
        rw [← Bool.not_eq_true]
        intro ruled
        exact neckless head rfl (neck_of_atom kept (neck_of_rule ruled))

/-- A parenthesis in front of the neck makes no rule of a fact, and a colon alone is no neck. -/
theorem neck_without_head_is_fact :
    (Line.classify "p(a) :- b).\r\n".toList = .fact ∧ ¬ Reads .rule "p(a) :- b).".toList ∧
      Reads .fact "p(a) :- b).".toList) ∧
    Line.classify "-q(a:b). \r\n".toList = .fact := by
  have read := (classify_exact_on_clauses.1 "p(a) :- b).\r\n".toList (by decide) (by decide)).2.2.1
  have kind : Line.classify "p(a) :- b).\r\n".toList = .fact := by decide
  have reads := read.1 kind
  have blanks : ∀ character ∈ " \r\n".toList, isBlank character = true := List.all_eq_true.1 rfl
  have written := classify_exact_on_clauses.2
    (.fact ⟨true, ⟨['q'], rfl⟩, "a:b".toList, by decide⟩) " \r\n".toList blanks (by
      rintro head ⟨⟩
      decide)
  exact ⟨⟨kind, reads.2.1, reads.2.2⟩, written⟩

end StepStream.Clause
