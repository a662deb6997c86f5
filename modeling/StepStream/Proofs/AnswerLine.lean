import Mathlib.Data.List.Basic
import StepStream.Proofs.GroundAtom
import StepStream.Proofs.Lines
import StepStream.Response.Line

/-!
Answer lines. Any list of ground atoms with single spaces between them is accepted as an
answer, since the shape of an atom lets an argument list hold anything but newlines. The
atoms are then taken to be the words of the line, so an atom comes back as it was printed
exactly if none of its strings holds a blank.
-/

namespace StepStream

set_option autoImplicit false

namespace Text

theorem words_append_blank {blank : Char} (separates : isBlank blank = true) (front back : Text) :
    words (front ++ blank :: back) = words front ++ words back :=
  pieces_append separates front back

theorem words_of_unblank {text : Text} (nonempty : text ≠ [])
    (unblank : ∀ character ∈ text, isBlank character = false) : words text = [text] :=
  pieces_of_unseparated nonempty unblank

theorem unblank_of_word {text word : Text} (member : word ∈ words text) :
    ∀ character ∈ word, isBlank character = false := by
  intro character here
  exact (item_of_piece (List.mem_of_mem_filter member) character here).2

theorem words_of_joined (texts : List Text) (nonempty : texts ≠ []) :
    words ([' '].intercalate texts) = texts.flatMap words := by
  induction texts with
  | nil => exact absurd rfl nonempty
  | cons text texts induction =>
      cases texts with
      | nil => simp
      | cons next others =>
          rw [List.intercalate_cons_cons, List.append_assoc, List.singleton_append,
            words_append_blank (by decide), induction (List.cons_ne_nil next others)]
          rfl

end Text

namespace Response

open Pattern Text

def answerLine (atoms : List Ground.Atom) : Text :=
  [' '].intercalate (atoms.map Ground.Atom.text)

theorem matches_star_of_plus {body : Pattern} {text : Text} (here : Matches (plus body) text) :
    Matches (.star body) text := by
  cases here with
  | seq first more => exact .starCons first more

theorem matches_answer_line (atoms : List Ground.Atom) (nonempty : atoms ≠ []) :
    Matches answerShape (answerLine atoms) := by
  induction atoms with
  | nil => exact absurd rfl nonempty
  | cons atom atoms induction =>
      have here := atom.matches_text
      cases atoms with
      | nil =>
          have whole : Matches answerShape _ := .seq (.seq here .starNil) .starNil
          simpa [answerLine] using whole
      | cons next others =>
          have space : Matches (.star (Line.char ' ')) ([' '] ++ []) :=
            .starCons (Line.matches_char ' ') .starNil
          have later := induction (List.cons_ne_nil next others)
          have whole : Matches answerShape _ :=
            .seq (.seq here space) (matches_star_of_plus later)
          simpa [answerLine] using whole

/-- The line of a step begins with a letter that begins no atom. -/
theorem number_after_answer_line (atoms : List Ground.Atom) (nonempty : atoms ≠ []) :
    numberAfter "Step: ".toList (answerLine atoms) = none := by
  obtain ⟨atom, others, rfl⟩ := List.exists_cons_of_ne_nil nonempty
  obtain ⟨first, rest, begins, start⟩ := atom.head_of_text
  have different : 'S' ≠ first := by
    rintro rfl
    revert start
    decide
  have line : ∃ more, answerLine (atom :: others) = first :: more := by
    cases others with
    | nil => exact ⟨rest, by simp [answerLine, begins]⟩
    | cons next others => exact ⟨_, by simp [answerLine, begins]; rfl⟩
  obtain ⟨more, line⟩ := line
  rw [line, numberAfter]
  simp [afterLead, List.isPrefixOf?, different]

theorem read_answer_line (atoms : List Ground.Atom) (nonempty : atoms ≠ []) :
    read (answerLine atoms) = .ok (.answer (atoms.flatMap fun atom => words atom.text)) := by
  have accepted := (accepts_iff _ _).2 (matches_answer_line atoms nonempty)
  have separated := words_of_joined (atoms.map Ground.Atom.text) (by simpa using nonempty)
  rw [read, read?, number_after_answer_line atoms nonempty, if_pos accepted, answerLine, separated,
    List.flatMap_map]
  rfl

theorem words_of_atom_iff (atoms : List Ground.Atom) :
    (atoms.flatMap fun atom => words atom.text) = atoms.map Ground.Atom.text ↔
      ∀ atom ∈ atoms, atom.IsUnblank := by
  constructor
  · -- Each printed atom is then a word of the line, and no word holds a blank.
    intro same atom member
    have printed : atom.text ∈ atoms.map Ground.Atom.text := List.mem_map_of_mem member
    rw [← same, List.mem_flatMap] at printed
    obtain ⟨_, -, word⟩ := printed
    rw [Ground.Atom.unblank_iff]
    exact unblank_of_word word
  · intro unblank
    induction atoms with
    | nil => rfl
    | cons atom atoms induction =>
        obtain ⟨here, later⟩ := List.forall_mem_cons.1 unblank
        obtain ⟨first, rest, begins, -⟩ := atom.head_of_text
        have nonempty : atom.text ≠ [] := by simp [begins]
        have single := words_of_unblank nonempty (atom.unblank_iff.1 here)
        rw [List.flatMap_cons, single, induction later]
        rfl

/-- Atoms come back as they were printed exactly if none of their strings holds a blank. -/
theorem answer_line_read_back_iff (atoms : List Ground.Atom) (nonempty : atoms ≠ []) :
    read (answerLine atoms) = .ok (.answer (atoms.flatMap fun atom => words atom.text)) ∧
      (read (answerLine atoms) = .ok (.answer (atoms.map Ground.Atom.text)) ↔
        ∀ atom ∈ atoms, atom.IsUnblank) := by
  have given := read_answer_line atoms nonempty
  constructor
  · exact given
  · rw [given, Except.ok.injEq, Line.answer.injEq, words_of_atom_iff]

/-- A signed atom with a nested term and a quote in a string, and a bare name behind it. -/
theorem nested_terms_read_back :
    ([⟨true, ⟨"on".toList, rfl⟩,
          [.function ⟨['f'], rfl⟩ (.integer (-3)) [.string ['"'] (by decide)]]⟩,
        ⟨false, ⟨['q'], rfl⟩, []⟩] : List Ground.Atom) ≠ [] ∧
      read "-on(f(-3,\"\\\"\")) q".toList =
        .ok (.answer ["-on(f(-3,\"\\\"\"))".toList, "q".toList]) := by
  have given := answer_line_read_back_iff
    [⟨true, ⟨"on".toList, rfl⟩,
        [.function ⟨['f'], rfl⟩ (.integer (-3)) [.string ['"'] (by decide)]]⟩,
      ⟨false, ⟨['q'], rfl⟩, []⟩] (by simp)
  have quote : isBlank '"' = false := by decide
  constructor
  · simp
  · apply given.2.2
    simp [Ground.Atom.IsUnblank, Ground.Atom.strings, Ground.Term.stringsOf, Ground.Term.strings,
      quote]

/-- An atom whose string holds a blank is taken to be two atoms. -/
theorem blank_in_string_splits_atom :
    answerLine [⟨false, ⟨"p".toList, rfl⟩, [.string "a b".toList (by decide)]⟩] =
        "p(\"a b\")".toList ∧
      read "p(\"a b\")".toList = .ok (.answer ["p(\"a".toList, "b\")".toList]) := by
  decide

end Response

end StepStream
