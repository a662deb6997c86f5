import StepStream.Pattern.Lemmas

/-!
Where a part of a pattern reads a character. If only one part of a pattern can read a
character, then a text of the pattern around that character is a text of the part around it,
between a text of what may come before the part and a text of what may come behind.
-/

namespace StepStream.Pattern

set_option autoImplicit false

/-- An occurrence of a part in a pattern, with what may come before and behind it there. -/
inductive Context (part : Pattern) : Pattern → Pattern → Pattern → Prop where
  | here : Context part part .empty .empty
  | seqLeft {first before behind : Pattern} (second : Pattern)
      (inner : Context part first before behind) :
      Context part (.seq first second) before (.seq behind second)
  | seqRight {second before behind : Pattern} (first : Pattern)
      (inner : Context part second before behind) :
      Context part (.seq first second) (.seq first before) behind
  | altLeft {left before behind : Pattern} (right : Pattern)
      (inner : Context part left before behind) : Context part (.alt left right) before behind
  | altRight {right before behind : Pattern} (left : Pattern)
      (inner : Context part right before behind) : Context part (.alt left right) before behind
  | star {body before behind : Pattern} (inner : Context part body before behind) :
      Context part (.star body) (.seq (.star body) before) (.seq behind (.star body))

def confined (part : Pattern) (character : Char) : Pattern → Bool
  | never => true
  | empty => true
  | one charClass => one charClass = part || !charClass.holds character
  | seq first second =>
      seq first second = part || (confined part character first && confined part character second)
  | alt left right =>
      alt left right = part || (confined part character left && confined part character right)
  | star body => star body = part || confined part character body

/-- Some occurrence of the part reads across the character between `front` and `back`. -/
def ReadsAcross (part pattern : Pattern) (front : Text) (character : Char) (back : Text) : Prop :=
  ∃ before behind, Context part pattern before behind ∧
    ∃ ahead opened closed after, front = ahead ++ opened ∧ back = closed ++ after ∧
      Matches before ahead ∧ Matches part (opened ++ character :: closed) ∧ Matches behind after

section Across

variable {character : Char} {front back : Text}

theorem append_around {left right : Text} (whole : left ++ right = front ++ character :: back) :
    (∃ closed, left = front ++ character :: closed ∧ back = closed ++ right) ∨
      ∃ opened, front = left ++ opened ∧ right = opened ++ character :: back := by
  rcases List.append_eq_append_iff.1 whole with ⟨opened, rfl, rfl⟩ | ⟨closed, rfl, rest⟩
  · exact .inr ⟨opened, rfl, rfl⟩
  · cases closed with
    | nil => exact .inr ⟨[], by simp, rest.symm⟩
    | cons head closed =>
        obtain ⟨rfl, rfl⟩ := List.cons.inj rest
        exact .inl ⟨closed, rfl, rfl⟩

theorem matches_star_across {body : Pattern}
    (here : Matches (.star body) (front ++ character :: back)) :
    ∃ before opened closed after, front = before ++ opened ∧ back = closed ++ after ∧
      Matches (.star body) before ∧ Matches body (opened ++ character :: closed) ∧
      Matches (.star body) after := by
  generalize repeated : Pattern.star body = pattern at here
  generalize whole : front ++ character :: back = text at here
  induction here generalizing front with
  | empty | one _ | altLeft _ _ | altRight _ _ | seq _ _ _ _ => cases repeated
  | starNil => simp at whole
  | starCons first more _ more_ih =>
      cases repeated
      rcases append_around whole.symm with ⟨closed, rfl, rfl⟩ | ⟨later, rfl, rfl⟩
      · exact ⟨[], front, closed, _, rfl, rfl, .starNil, first, more⟩
      · obtain ⟨before, opened, closed, after, rfl, rfl, rounds, around, others⟩ := more_ih rfl rfl
        exact ⟨_, opened, closed, after, by simp, rfl, .starCons first rounds, around, others⟩

theorem matches_star_append {body : Pattern} {first second : Text}
    (left : Matches (.star body) first) (right : Matches (.star body) second) :
    Matches (.star body) (first ++ second) := by
  generalize repeated : Pattern.star body = pattern at left
  induction left with
  | empty | one _ | altLeft _ _ | altRight _ _ | seq _ _ _ _ => cases repeated
  | starNil =>
      cases repeated
      exact right
  | starCons here _ _ more_ih =>
      cases repeated
      rw [List.append_assoc]
      exact .starCons here (more_ih rfl)

theorem matches_plugged {part pattern before behind : Pattern} {ahead middle after : Text}
    (occurrence : Context part pattern before behind) (left : Matches before ahead)
    (inside : Matches part middle) (right : Matches behind after) :
    Matches pattern (ahead ++ (middle ++ after)) := by
  induction occurrence generalizing ahead after with
  | here =>
      obtain rfl := matches_empty_iff.1 left
      obtain rfl := matches_empty_iff.1 right
      simpa using inside
  | seqLeft second _ inner_ih =>
      obtain ⟨rest, others, rfl, ends, there⟩ := matches_seq_iff.1 right
      have whole := Matches.seq (inner_ih left ends) there
      simpa using whole
  | seqRight first _ inner_ih =>
      obtain ⟨others, start, rfl, there, begins⟩ := matches_seq_iff.1 left
      have whole := Matches.seq there (inner_ih begins right)
      simpa using whole
  | altLeft _ _ inner_ih => exact .altLeft (inner_ih left right)
  | altRight _ _ inner_ih => exact .altRight (inner_ih left right)
  | star _ inner_ih =>
      obtain ⟨rounds, start, rfl, earlier, begins⟩ := matches_seq_iff.1 left
      obtain ⟨rest, others, rfl, ends, later⟩ := matches_seq_iff.1 right
      have whole := matches_star_append earlier (.starCons (inner_ih begins ends) later)
      simpa using whole

theorem reads_across_of_eq {part pattern : Pattern}
    (whole : Matches pattern (front ++ character :: back)) (same : pattern = part) :
    ReadsAcross part pattern front character back := by
  subst same
  exact ⟨_, _, .here, [], front, back, [], rfl, by simp, .empty, whole, .empty⟩

theorem reads_across_of_matches {part pattern : Pattern}
    (only : confined part character pattern = true)
    (whole : Matches pattern (front ++ character :: back)) :
    ReadsAcross part pattern front character back := by
  induction pattern generalizing front back with
  | never => cases whole
  | empty =>
      have nothing := matches_empty_iff.1 whole
      simp at nothing
  | one charClass =>
      simp only [confined, Bool.or_eq_true, decide_eq_true_eq] at only
      refine only.elim (reads_across_of_eq whole) fun fails => ?_
      obtain ⟨found, holds, same⟩ := matches_one_iff.1 whole
      obtain rfl : character = found := List.mem_singleton.1 (same ▸ List.mem_append_right _
        List.mem_cons_self)
      rw [holds] at fails
      cases fails
  | seq first second first_ih second_ih =>
      simp only [confined, Bool.or_eq_true, decide_eq_true_eq, Bool.and_eq_true] at only
      refine only.elim (reads_across_of_eq whole) fun ⟨inFirst, inSecond⟩ => ?_
      obtain ⟨left, right, cut, here, there⟩ := matches_seq_iff.1 whole
      rcases append_around cut.symm with ⟨closed, rfl, rfl⟩ | ⟨opened, rfl, rfl⟩
      · obtain ⟨before, behind, occurrence, ahead, opened, ending, after, rfl, rfl, begins, inside,
          ends⟩ := first_ih inFirst here
        exact ⟨before, _, .seqLeft second occurrence, ahead, opened, ending, after ++ right, rfl,
          by simp, begins, inside, .seq ends there⟩
      · obtain ⟨before, behind, occurrence, ahead, start, closed, after, rfl, rfl, begins, inside,
          ends⟩ := second_ih inSecond there
        exact ⟨_, behind, .seqRight first occurrence, left ++ ahead, start, closed, after,
          by simp, rfl, .seq here begins, inside, ends⟩
  | alt left right left_ih right_ih =>
      simp only [confined, Bool.or_eq_true, decide_eq_true_eq, Bool.and_eq_true] at only
      refine only.elim (reads_across_of_eq whole) fun ⟨inLeft, inRight⟩ => ?_
      rcases matches_alt_iff.1 whole with here | here
      · obtain ⟨before, behind, occurrence, texts⟩ := left_ih inLeft here
        exact ⟨before, behind, .altLeft right occurrence, texts⟩
      · obtain ⟨before, behind, occurrence, texts⟩ := right_ih inRight here
        exact ⟨before, behind, .altRight left occurrence, texts⟩
  | star body body_ih =>
      simp only [confined, Bool.or_eq_true, decide_eq_true_eq] at only
      refine only.elim (reads_across_of_eq whole) fun inBody => ?_
      obtain ⟨earlier, front, back, later, rfl, rfl, rounds, here, others⟩ :=
        matches_star_across whole
      obtain ⟨before, behind, occurrence, ahead, opened, closed, after, rfl, rfl, begins, inside,
        ends⟩ := body_ih inBody here
      exact ⟨_, _, .star occurrence, earlier ++ ahead, opened, closed, after ++ later, by simp,
        by simp, .seq rounds begins, inside, .seq ends others⟩

theorem matches_across_iff {part pattern : Pattern}
    (only : confined part character pattern = true) :
    Matches pattern (front ++ character :: back) ↔
      ReadsAcross part pattern front character back := by
  refine ⟨reads_across_of_matches only, ?_⟩
  rintro ⟨before, behind, occurrence, ahead, opened, closed, after, rfl, rfl, left, inside, right⟩
  have whole := matches_plugged occurrence left inside right
  simpa using whole

end Across

end StepStream.Pattern
