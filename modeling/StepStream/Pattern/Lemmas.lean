import StepStream.Pattern.Basic

/-!
The texts of each kind of pattern. The one-pass decision agrees with the relation: a text is
accepted if and only if it belongs to the pattern.
-/

namespace StepStream.Pattern

set_option autoImplicit false

section Constructors

variable {charClass : CharClass} {text : Text}

theorem matches_one_iff :
    Matches (.one charClass) text ↔ ∃ character, charClass.holds character = true ∧
      text = [character] := by
  constructor
  · intro here
    cases here with
    | one holds => exact ⟨_, holds, rfl⟩
  · rintro ⟨character, holds, rfl⟩
    exact .one holds

theorem matches_seq_iff {first second : Pattern} :
    Matches (.seq first second) text ↔
      ∃ front back, text = front ++ back ∧ Matches first front ∧ Matches second back := by
  constructor
  · intro here
    cases here with
    | seq left right => exact ⟨_, _, rfl, left, right⟩
  · rintro ⟨front, back, rfl, left, right⟩
    exact .seq left right

theorem matches_alt_iff {left right : Pattern} :
    Matches (.alt left right) text ↔ Matches left text ∨ Matches right text := by
  constructor
  · intro here
    cases here with
    | altLeft here => exact .inl here
    | altRight here => exact .inr here
  · rintro (here | here)
    · exact .altLeft here
    · exact .altRight here

theorem matches_empty_iff : Matches .empty text ↔ text = [] := by
  constructor
  · intro here
    cases here
    rfl
  · rintro rfl
    exact .empty

end Constructors

def SomeMatches (patterns : List Pattern) (text : Text) : Prop :=
  ∃ pattern ∈ patterns, Matches pattern text

theorem nullable_iff (pattern : Pattern) : pattern.nullable = true ↔ Matches pattern [] := by
  induction pattern with
  | never => exact ⟨nofun, nofun⟩
  | empty => exact ⟨fun _ => .empty, fun _ => rfl⟩
  | one charClass => exact ⟨nofun, nofun⟩
  | seq first second first_ih second_ih =>
      simp only [nullable, Bool.and_eq_true, first_ih, second_ih]
      constructor
      · intro ⟨left, right⟩
        exact .seq left right
      · intro here
        obtain ⟨front, back, whole, left, right⟩ := matches_seq_iff.1 here
        obtain ⟨rfl, rfl⟩ := List.append_eq_nil_iff.1 whole.symm
        exact ⟨left, right⟩
  | alt left right left_ih right_ih =>
      simp only [nullable, Bool.or_eq_true, left_ih, right_ih, matches_alt_iff]
  | star body _ => exact ⟨fun _ => .starNil, fun _ => rfl⟩

theorem matches_and_then (first second : Pattern) (text : Text) :
    Matches (andThen first second) text ↔ Matches (.seq first second) text := by
  cases first with
  | empty =>
      constructor
      · intro here
        exact .seq .empty here
      · intro here
        cases here with
        | seq left right =>
            cases left
            exact right
  | never | one _ | seq _ _ | alt _ _ | star _ => exact Iff.rfl

/-- A repetition that has a first character also has a nonempty first round. -/
theorem matches_star_cons {body : Pattern} {character : Char} {rest : Text}
    (here : Matches (.star body) (character :: rest)) :
    ∃ front back, rest = front ++ back ∧ Matches body (character :: front) ∧
      Matches (.star body) back := by
  generalize repeated : Pattern.star body = pattern at here
  generalize whole : character :: rest = text at here
  induction here with
  | empty | one _ | altLeft _ _ | altRight _ _ | seq _ _ _ _ => cases repeated
  | starNil => cases whole
  | @starCons inner front back first more _ more_ih =>
      cases repeated
      cases front with
      | nil => exact more_ih rfl whole
      | cons head tail =>
          cases whole
          exact ⟨tail, back, rfl, first, more⟩

theorem after_iff (character : Char) (pattern : Pattern) (rest : Text) :
    SomeMatches (pattern.after character) rest ↔ Matches pattern (character :: rest) := by
  induction pattern generalizing rest with
  | never | empty => exact ⟨nofun, nofun⟩
  | one charClass =>
      unfold after
      split
      · next holds =>
          constructor
          · rintro ⟨pattern, member, here⟩
            obtain rfl := List.mem_singleton.1 member
            cases here
            exact .one holds
          · intro here
            cases here
            exact ⟨.empty, List.mem_singleton.2 rfl, .empty⟩
      · next fails =>
          constructor
          · rintro ⟨_, member, _⟩
            cases member
          · intro here
            cases here with
            | one holds => exact absurd holds fails
  | seq first second first_ih second_ih =>
      have goes_on : SomeMatches ((first.after character).map fun later => andThen later second) rest ↔
          ∃ front back, rest = front ++ back ∧ Matches first (character :: front) ∧
            Matches second back := by
        constructor
        · rintro ⟨_, member, here⟩
          obtain ⟨later, laterMember, rfl⟩ := List.mem_map.1 member
          cases (matches_and_then _ _ _).1 here with
          | @seq _ _ front back left right =>
              exact ⟨front, back, rfl, (first_ih front).1 ⟨later, laterMember, left⟩, right⟩
        · rintro ⟨front, back, rfl, left, right⟩
          obtain ⟨later, member, here⟩ := (first_ih front).2 left
          exact ⟨_, List.mem_map_of_mem member, (matches_and_then _ _ _).2 (.seq here right)⟩
      have split_iff : Matches (.seq first second) (character :: rest) ↔
          (∃ front back, rest = front ++ back ∧ Matches first (character :: front) ∧
            Matches second back) ∨
          (first.nullable = true ∧ Matches second (character :: rest)) := by
        constructor
        · intro here
          obtain ⟨front, back, whole, left, right⟩ := matches_seq_iff.1 here
          cases front with
          | nil =>
              cases whole
              exact .inr ⟨(nullable_iff first).2 left, right⟩
          | cons head tail =>
              cases whole
              exact .inl ⟨tail, back, rfl, left, right⟩
        · rintro (⟨front, back, rfl, left, right⟩ | ⟨vanishes, here⟩)
          · exact .seq left right
          · exact .seq ((nullable_iff first).1 vanishes) here
      rw [split_iff, ← goes_on, ← second_ih]
      simp only [after]
      split
      · next vanishes =>
          simp only [SomeMatches, List.mem_append, vanishes, true_and]
          constructor
          · rintro ⟨pattern, member | member, here⟩
            · exact .inl ⟨pattern, member, here⟩
            · exact .inr ⟨pattern, member, here⟩
          · rintro (⟨pattern, member, here⟩ | ⟨pattern, member, here⟩)
            · exact ⟨pattern, .inl member, here⟩
            · exact ⟨pattern, .inr member, here⟩
      · next stays => simp only [stays, Bool.false_eq_true, false_and, or_false]
  | alt left right left_ih right_ih =>
      rw [matches_alt_iff, ← left_ih, ← right_ih]
      simp only [SomeMatches, after, List.mem_append]
      constructor
      · rintro ⟨pattern, member | member, here⟩
        · exact .inl ⟨pattern, member, here⟩
        · exact .inr ⟨pattern, member, here⟩
      · rintro (⟨pattern, member, here⟩ | ⟨pattern, member, here⟩)
        · exact ⟨pattern, .inl member, here⟩
        · exact ⟨pattern, .inr member, here⟩
  | star body body_ih =>
      constructor
      · rintro ⟨_, member, here⟩
        obtain ⟨later, laterMember, rfl⟩ := List.mem_map.1 member
        cases (matches_and_then _ _ _).1 here with
        | @seq _ _ front back left right =>
            exact .starCons ((body_ih front).1 ⟨later, laterMember, left⟩) right
      · intro here
        obtain ⟨front, back, rfl, first, more⟩ := matches_star_cons here
        obtain ⟨later, member, left⟩ := (body_ih front).2 first
        exact ⟨_, List.mem_map_of_mem member, (matches_and_then _ _ _).2 (.seq left more)⟩

theorem mem_foldl_insert (patterns kept : List Pattern) (pattern : Pattern) :
    pattern ∈ patterns.foldl (fun kept pattern => kept.insert pattern) kept ↔
      pattern ∈ patterns ∨ pattern ∈ kept := by
  induction patterns generalizing kept with
  | nil => simp
  | cons first patterns induction =>
      rw [List.foldl_cons, induction]
      simp only [List.mem_insert_iff, List.mem_cons]
      constructor
      · rintro (member | rfl | member)
        · exact .inl (.inr member)
        · exact .inl (.inl rfl)
        · exact .inr member
      · rintro ((rfl | member) | member)
        · exact .inr (.inl rfl)
        · exact .inl member
        · exact .inr (.inr member)

theorem advance_iff (pending : List Pattern) (character : Char) (rest : Text) :
    SomeMatches (advance pending character) rest ↔ SomeMatches pending (character :: rest) := by
  unfold advance
  constructor
  · rintro ⟨pattern, member, here⟩
    rw [mem_foldl_insert] at member
    rcases member with member | member
    · obtain ⟨source, sourceMember, afterMember⟩ := List.mem_flatMap.1 member
      exact ⟨source, sourceMember, (after_iff _ _ _).1 ⟨pattern, afterMember, here⟩⟩
    · cases member
  · rintro ⟨source, sourceMember, here⟩
    obtain ⟨pattern, member, later⟩ := (after_iff _ _ _).2 here
    exact ⟨pattern, (mem_foldl_insert _ _ _).2 (.inl (List.mem_flatMap.2 ⟨source, sourceMember, member⟩)),
      later⟩

/-- The decision is exact. -/
theorem accepts_iff (pattern : Pattern) (text : Text) :
    pattern.accepts text = true ↔ Matches pattern text := by
  have general : ∀ (text : Text) (pending : List Pattern),
      (text.foldl advance pending).any nullable = true ↔ SomeMatches pending text := by
    intro text
    induction text with
    | nil =>
        intro pending
        simp only [List.foldl_nil, List.any_eq_true, SomeMatches]
        constructor
        · rintro ⟨found, member, vanishes⟩
          exact ⟨found, member, (nullable_iff found).1 vanishes⟩
        · rintro ⟨found, member, here⟩
          exact ⟨found, member, (nullable_iff found).2 here⟩
    | cons character rest induction =>
        intro pending
        rw [List.foldl_cons, induction, advance_iff]
  unfold accepts
  rw [general]
  constructor
  · rintro ⟨_, member, here⟩
    rw [List.mem_singleton] at member
    exact member ▸ here
  · intro here
    exact ⟨pattern, List.mem_singleton.2 rfl, here⟩

section Texts

variable {charClass : CharClass} {text : Text}

theorem matches_literal (text : Text) : Matches (literal text) text := by
  induction text with
  | nil => exact .empty
  | cons character rest induction =>
      have first : Matches (.one (.exactly character)) [character] := .one (by simp [CharClass.holds])
      exact .seq first induction

theorem eq_of_matches_literal {expected : Text} (here : Matches (literal expected) text) :
    text = expected := by
  induction expected generalizing text with
  | nil => exact matches_empty_iff.1 here
  | cons character rest induction =>
      obtain ⟨_, _, rfl, first, more⟩ := matches_seq_iff.1 here
      obtain ⟨found, holds, rfl⟩ := matches_one_iff.1 first
      have same : found = character := by simpa [CharClass.holds] using holds
      rw [same, induction more, List.singleton_append]

theorem matches_star (holds : ∀ character ∈ text, charClass.holds character = true) :
    Matches (.star (.one charClass)) text := by
  induction text with
  | nil => exact .starNil
  | cons character rest induction =>
      have first : Matches (.one charClass) [character] := .one (holds character (by simp))
      exact .starCons first (induction (by intro later member; exact holds later (by simp [member])))

theorem matches_plus (nonempty : text ≠ [])
    (holds : ∀ character ∈ text, charClass.holds character = true) :
    Matches (plus (.one charClass)) text := by
  cases text with
  | nil => exact absurd rfl nonempty
  | cons character rest =>
      have first : Matches (.one charClass) [character] := .one (holds character (by simp))
      exact .seq first (matches_star (by intro later member; exact holds later (by simp [member])))

theorem matches_opt_nil (pattern : Pattern) : Matches (opt pattern) [] := .altRight .empty

theorem matches_opt_iff {pattern : Pattern} :
    Matches (opt pattern) text ↔ Matches pattern text ∨ text = [] := by
  rw [opt, matches_alt_iff, matches_empty_iff]

theorem matches_star_one_iff :
    Matches (.star (.one charClass)) text ↔
      ∀ character ∈ text, charClass.holds character = true := by
  refine ⟨fun here => ?_, matches_star⟩
  induction text with
  | nil => simp
  | cons character rest induction =>
      obtain ⟨front, back, rfl, first, more⟩ := matches_star_cons here
      obtain ⟨found, holds, whole⟩ := matches_one_iff.1 first
      obtain ⟨rfl, rfl⟩ := List.cons.inj whole
      exact List.forall_mem_cons.2 ⟨holds, induction more⟩

theorem matches_plus_one_iff :
    Matches (plus (.one charClass)) text ↔
      text ≠ [] ∧ ∀ character ∈ text, charClass.holds character = true := by
  constructor
  · intro here
    obtain ⟨front, back, rfl, first, more⟩ := matches_seq_iff.1 here
    obtain ⟨character, holds, rfl⟩ := matches_one_iff.1 first
    exact ⟨List.cons_ne_nil _ _,
      List.forall_mem_cons.2 ⟨holds, matches_star_one_iff.1 more⟩⟩
  · rintro ⟨nonempty, holds⟩
    exact matches_plus nonempty holds

theorem matches_seq_assoc {first second third : Pattern} :
    Matches (.seq (.seq first second) third) text ↔ Matches (.seq first (.seq second third)) text := by
  constructor
  · intro here
    obtain ⟨_, back, rfl, left, right⟩ := matches_seq_iff.1 here
    obtain ⟨front, middle, rfl, start, inside⟩ := matches_seq_iff.1 left
    rw [List.append_assoc]
    exact .seq start (.seq inside right)
  · intro here
    obtain ⟨front, _, rfl, start, rest⟩ := matches_seq_iff.1 here
    obtain ⟨middle, back, rfl, inside, right⟩ := matches_seq_iff.1 rest
    rw [← List.append_assoc]
    exact .seq (.seq start inside) right

theorem sequence_cons (part : Pattern) {parts : List Pattern} (nonempty : parts ≠ []) :
    sequence (part :: parts) = .seq part (sequence parts) := by
  obtain ⟨next, others, rfl⟩ := List.exists_cons_of_ne_nil nonempty
  rfl

theorem matches_sequence_append {parts more : List Pattern} (before : parts ≠ [])
    (behind : more ≠ []) :
    Matches (sequence (parts ++ more)) text ↔
      Matches (.seq (sequence parts) (sequence more)) text := by
  induction parts generalizing text with
  | nil => exact absurd rfl before
  | cons part parts induction =>
      have more_parts : parts ++ more ≠ [] := by simp [behind]
      rw [List.cons_append, sequence_cons part more_parts]
      cases parts with
      | nil => exact Iff.rfl
      | cons next others =>
          rw [sequence_cons part (List.cons_ne_nil next others), matches_seq_assoc,
            matches_seq_iff, matches_seq_iff]
          simp only [induction (List.cons_ne_nil next others)]

theorem matches_exactly_iff {character : Char} :
    Matches (.one (.exactly character)) text ↔ text = [character] := by
  simp [matches_one_iff, CharClass.holds]

end Texts

section Characters

theorem all_inline_iff {text : Text} :
    (∀ character ∈ text, CharClass.inline.holds character = true) ↔ '\n' ∉ text := by
  simp only [CharClass.holds, Text.isInline, bne_iff_ne]
  constructor
  · intro all member
    exact all '\n' member rfl
  · rintro absent character member rfl
    exact absent member

theorem unblank_of_graphic {character : Char} (above : 33 ≤ character.toNat)
    (below : character.toNat ≤ 126) : Text.isBlank character = false := by
  simp only [Text.isBlank, Bool.or_eq_false_iff, Bool.and_eq_false_iff, decide_eq_false_iff_not]
  omega

theorem graphic_of_name_part {character : Char} (part : CharClass.isNamePart character = true) :
    33 ≤ character.toNat ∧ character.toNat ≤ 126 := by
  simp only [CharClass.isNamePart, CharClass.isNameStart, Bool.or_eq_true, Bool.and_eq_true,
    decide_eq_true_eq, Char.le_def, UInt32.le_iff_toNat_le] at part
  rcases part with ((⟨above, below⟩ | rfl) | ⟨above, below⟩) | ⟨above, below⟩
  · change 97 ≤ character.toNat at above
    change character.toNat ≤ 122 at below
    omega
  · decide
  · change 65 ≤ character.toNat at above
    change character.toNat ≤ 90 at below
    omega
  · change 48 ≤ character.toNat at above
    change character.toNat ≤ 57 at below
    omega

theorem unblank_of_name_part {character : Char} (part : CharClass.isNamePart character = true) :
    Text.isBlank character = false :=
  unblank_of_graphic (graphic_of_name_part part).1 (graphic_of_name_part part).2

end Characters

end StepStream.Pattern
