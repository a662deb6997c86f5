import Mathlib.Data.List.Flatten
import Mathlib.Data.List.Basic
import Mathlib.Data.List.TakeWhile
import StepStream.Text.Lines

/-!
Cutting a text into lines undoes joining lines. A piece of a cut ends at the first mark
behind its beginning, and only the last piece can lack its mark.
-/

namespace StepStream.Text

set_option autoImplicit false

section SplitAfter

variable {Item : Type} [DecidableEq Item] {mark : Item}

theorem split_after_of_absent {items : List Item} (absent : mark ∉ items)
    (nonempty : items ≠ []) : splitAfter mark items = [items] := by
  induction items with
  | nil => exact absurd rfl nonempty
  | cons item items induction =>
      rw [List.mem_cons, not_or] at absent
      rw [splitAfter, List.foldr_cons, ← splitAfter, if_neg (Ne.symm absent.1)]
      by_cases last : items = []
      · rw [last]
        rfl
      · rw [induction absent.2 last]

theorem split_after_append {body : List Item} (absent : mark ∉ body) (rest : List Item) :
    splitAfter mark (body ++ mark :: rest) = (body ++ [mark]) :: splitAfter mark rest := by
  induction body with
  | nil =>
      rw [List.nil_append, splitAfter, List.foldr_cons, ← splitAfter, if_pos rfl]
      rfl
  | cons item body induction =>
      rw [List.mem_cons, not_or] at absent
      rw [List.cons_append, splitAfter, List.foldr_cons, ← splitAfter, induction absent.2,
        if_neg (Ne.symm absent.1)]
      rfl

/-- Whether the mark ends these items and does not occur before. -/
def EndsOnce (mark : Item) (items : List Item) : Prop :=
  ∃ body, mark ∉ body ∧ items = body ++ [mark]

theorem split_after_flatten (pieces : List (List Item))
    (ended : ∀ piece ∈ pieces, EndsOnce mark piece) :
    splitAfter mark pieces.flatten = pieces := by
  induction pieces with
  | nil => rfl
  | cons piece pieces induction =>
      obtain ⟨⟨body, absent, rfl⟩, others⟩ := List.forall_mem_cons.1 ended
      rw [List.flatten_cons, List.append_assoc, List.singleton_append, split_after_append absent,
        induction others]

theorem piece_of_split_after {items piece : List Item} (member : piece ∈ splitAfter mark items) :
    EndsOnce mark piece ∨ mark ∉ piece ∧ piece ≠ [] := by
  induction items generalizing piece with
  | nil => cases member
  | cons item items induction =>
      rw [splitAfter, List.foldr_cons, ← splitAfter] at member
      by_cases marked : item = mark
      · rw [if_pos marked, List.mem_cons] at member
        rcases member with rfl | member
        · exact .inl ⟨[], List.not_mem_nil, by rw [marked, List.nil_append]⟩
        · exact induction member
      · rw [if_neg marked] at member
        cases pieces : splitAfter mark items with
        | nil =>
            rw [pieces, List.mem_singleton] at member
            subst member
            exact .inr ⟨by simp [Ne.symm marked], by simp⟩
        | cons first others =>
            rw [pieces] at member induction
            rcases List.mem_cons.1 member with rfl | later
            · have here : first ∈ first :: others := List.mem_cons_self
              rcases induction here with ⟨body, absent, rfl⟩ | ⟨absent, -⟩
              · exact .inl ⟨item :: body, by simp [Ne.symm marked, absent], rfl⟩
              · exact .inr ⟨by simp [Ne.symm marked, absent], by simp⟩
            · exact induction (List.mem_cons_of_mem first later)

theorem ended_but_last (items : List Item) :
    ∀ piece ∈ (splitAfter mark items).dropLast, EndsOnce mark piece := by
  generalize size : items.length = length
  induction length using Nat.strongRecOn generalizing items with
  | ind length induction =>
      by_cases present : mark ∈ items
      · obtain ⟨body, rest, rfl, absent⟩ := List.eq_append_cons_of_mem present
        rw [List.length_append, List.length_cons] at size
        have later := induction rest.length (by omega) rest rfl
        rw [split_after_append absent]
        cases pieces : splitAfter mark rest with
        | nil => nofun
        | cons piece others =>
            rw [pieces] at later
            rw [List.dropLast_cons_of_ne_nil (List.cons_ne_nil piece others)]
            exact List.forall_mem_cons.2 ⟨⟨body, absent, rfl⟩, later⟩
      · cases items with
        | nil => nofun
        | cons item items =>
            rw [split_after_of_absent present (List.cons_ne_nil item items)]
            nofun

end SplitAfter

theorem item_of_piece {Item : Type} {separates : Item → Bool} {items piece : List Item}
    (member : piece ∈ items.splitOnP separates) :
    ∀ item ∈ piece, item ∈ items ∧ separates item = false := by
  induction items generalizing piece with
  | nil =>
      rw [List.splitOnP_nil, List.mem_singleton] at member
      simp [member]
  | cons first rest induction =>
      have from_rest {later : List Item} (cut : later ∈ rest.splitOnP separates) :
          ∀ item ∈ later, item ∈ first :: rest ∧ separates item = false := by
        intro item here
        obtain ⟨inside, kept⟩ := induction cut item here
        exact ⟨List.mem_cons_of_mem first inside, kept⟩
      rw [List.splitOnP_cons_eq_if_modifyHead] at member
      split at member
      · rcases List.mem_cons.1 member with rfl | later
        · simp
        · exact from_rest later
      · next kept =>
          obtain ⟨head, others, pieces⟩ :=
            List.exists_cons_of_ne_nil (List.splitOnP_ne_nil separates rest)
          rw [pieces] at member from_rest
          rw [List.modifyHead_cons, List.mem_cons] at member
          rcases member with rfl | later
          · rw [List.forall_mem_cons]
            exact ⟨⟨List.mem_cons_self, by simpa using kept⟩, from_rest List.mem_cons_self⟩
          · exact from_rest (List.mem_cons_of_mem head later)

section Pieces

variable {separates : Char → Bool}

def pieces (separates : Char → Bool) (text : Text) : List Text :=
  (text.splitOnP separates).filter (· ≠ [])

theorem pieces_append {separator : Char} (marks : separates separator = true)
    (front back : Text) :
    pieces separates (front ++ separator :: back) =
      pieces separates front ++ pieces separates back := by
  rw [pieces, List.splitOnP_append_cons front back marks, List.filter_append]
  rfl

theorem pieces_of_unseparated {text : Text} (nonempty : text ≠ [])
    (whole : ∀ character ∈ text, separates character = false) : pieces separates text = [text] := by
  rw [pieces, List.splitOnP_eq_singleton whole]
  simp [nonempty]

theorem pieces_behind_separators {separator : Char} (marks : separates separator = true)
    (count : Nat) (rest : Text) :
    pieces separates (List.replicate count separator ++ rest) = pieces separates rest := by
  induction count with
  | zero => rfl
  | succ count induction =>
      have first := pieces_append marks [] (List.replicate count separator ++ rest)
      rw [induction] at first
      exact first

end Pieces

theorem not_mem_of_all {test : Char → Bool} {text : Text} {character : Char}
    (holds : ∀ other ∈ text, test other = true) (fails : test character = false) :
    character ∉ text := by
  intro member
  rw [holds character member] at fails
  cases fails

section Trimming

variable {test : Char → Bool} {front rest : Text}

theorem drop_while_append (holds : ∀ character ∈ front, test character = true)
    (stops : ∀ first ∈ rest.head?, test first = false) :
    (front ++ rest).dropWhile test = rest := by
  rw [List.dropWhile_append_of_pos holds]
  cases rest with
  | nil => rfl
  | cons first rest => exact List.dropWhile_cons_of_neg (by simp [stops first rfl])

theorem take_while_append (holds : ∀ character ∈ front, test character = true)
    (stops : ∀ first ∈ rest.head?, test first = false) :
    (front ++ rest).takeWhile test = front := by
  rw [List.takeWhile_append_of_pos holds]
  cases rest with
  | nil => simp
  | cons first rest => simp [stops first rfl]

end Trimming

theorem trim_start_eq (text : Text) :
    ∃ blank, (∀ character ∈ blank, isBlank character = true) ∧ text = blank ++ trimStart text :=
  ⟨text.takeWhile isBlank, fun _ member => List.mem_takeWhile_imp member,
    List.takeWhile_append_dropWhile.symm⟩

theorem drop_end_while_front (test : Char → Bool) (text : Text) :
    dropEndWhile test text <+: text := by
  rw [dropEndWhile, ← List.reverse_suffix, List.reverse_reverse]
  exact List.dropWhile_suffix test

theorem mem_of_drop_end_while {test : Char → Bool} {text : Text} {character : Char}
    (member : character ∈ dropEndWhile test text) : character ∈ text :=
  (drop_end_while_front test text).subset member

theorem drop_end_while_append {test : Char → Bool} {front run : Text}
    (stops : ∀ last ∈ front.getLast?, test last = false)
    (holds : ∀ character ∈ run, test character = true) :
    dropEndWhile test (front ++ run) = front := by
  rw [List.getLast?_eq_head?_reverse] at stops
  rw [dropEndWhile, List.reverse_append, drop_while_append (by simpa using holds) stops,
    List.reverse_reverse]

theorem drop_end_while_last {test : Char → Bool} (front : Text) {last : Char} {run : Text}
    (fails : test last = false) (holds : ∀ character ∈ run, test character = true) :
    dropEndWhile test ((front ++ [last]) ++ run) = front ++ [last] := by
  refine drop_end_while_append ?_ holds
  rw [List.getLast?_concat]
  rintro _ ⟨⟩
  exact fails

theorem drop_end_while_run {test : Char → Bool} (front : Text) {run : Text}
    (holds : ∀ character ∈ run, test character = true) :
    dropEndWhile test (front ++ run) = dropEndWhile test front := by
  rw [dropEndWhile, List.reverse_append, List.dropWhile_append_of_pos (by simpa using holds),
    dropEndWhile]

/-- A text is what is left without the run at its end, and that run. -/
theorem drop_end_while_eq (test : Char → Bool) (text : Text) :
    ∃ run, (∀ character ∈ run, test character = true) ∧ text = dropEndWhile test text ++ run := by
  refine ⟨(text.reverse.takeWhile test).reverse, fun character member => ?_, ?_⟩
  · exact List.mem_takeWhile_imp (List.mem_reverse.1 member)
  · rw [dropEndWhile, ← List.reverse_append, List.takeWhile_append_dropWhile, List.reverse_reverse]

theorem run_inj {test : Char → Bool} {front back run other : Text}
    (stops : ∀ last ∈ front.getLast?, test last = false)
    (ends : ∀ last ∈ back.getLast?, test last = false)
    (holds : ∀ character ∈ run, test character = true)
    (kept : ∀ character ∈ other, test character = true) (same : front ++ run = back ++ other) :
    front = back ∧ run = other := by
  obtain rfl : front = back := by
    rw [← drop_end_while_append stops holds, same, drop_end_while_append ends kept]
  exact ⟨rfl, List.append_cancel_left same⟩

/-- What stands before a character that fails the test is out of reach. -/
theorem drop_end_while_cons {test : Char → Bool} (front : Text) {last : Char} (rest : Text)
    (fails : test last = false) :
    dropEndWhile test (front ++ last :: rest) = front ++ last :: dropEndWhile test rest := by
  have stays : (last :: front.reverse).dropWhile test = last :: front.reverse :=
    List.dropWhile_cons_of_neg (by simp [fails])
  simp only [dropEndWhile, List.reverse_append, List.reverse_cons, List.append_assoc,
    List.singleton_append]
  rw [List.dropWhile_append]
  split
  · next vanishes =>
      rw [stays, List.isEmpty_iff.1 vanishes]
      simp
  · simp

theorem strip_line_end_append (front : Text) {last : Char} (rest : Text) (newline : last ≠ '\n')
    (carriage : last ≠ '\r') :
    stripLineEnd (front ++ last :: rest) = front ++ last :: stripLineEnd rest :=
  drop_end_while_cons front rest (by simp [newline, carriage])

theorem mem_of_drop_newline {piece : Text} {character : Char}
    (member : character ∈ dropNewline piece) : character ∈ piece := by
  rw [← List.mem_reverse]
  unfold dropNewline at member
  split at member
  · next shape => simp [shape, List.mem_reverse.1 member]
  · next shape => simp [shape, List.mem_reverse.1 member]
  · exact List.mem_reverse.2 member

theorem mem_of_line {text line : Text} (member : line ∈ lines text) :
    ∀ character ∈ line, character ∈ text := by
  intro character here
  obtain ⟨piece, cut, rfl⟩ := List.mem_map.1 member
  rw [← flatten_split_after '\n' text]
  exact List.mem_flatten.2 ⟨piece, cut, mem_of_drop_newline here⟩

/-- A line without its end, as it is neither empty nor has an end in its middle. -/
structure IsPlain (line : Text) : Prop where
  nonempty : line ≠ []
  newline : '\n' ∉ line
  carriage : '\r' ∉ line

theorem drop_newline_of_absent {piece : Text} (absent : '\n' ∉ piece) :
    dropNewline piece = piece := by
  rw [← List.mem_reverse] at absent
  unfold dropNewline
  split
  · next shape => simp [shape] at absent
  · next shape => simp [shape] at absent
  · rfl

theorem drop_newline_of_ended {body : Text} (absent : '\r' ∉ body) :
    dropNewline (body ++ ['\n']) = body := by
  have last : (body ++ ['\n']).reverse = '\n' :: body.reverse := by simp
  rw [← List.mem_reverse] at absent
  unfold dropNewline
  rw [last]
  split
  · next shape =>
      rw [List.cons.injEq] at shape
      simp [shape.2] at absent
  · next shape =>
      rw [List.cons.injEq] at shape
      rw [← shape.2, List.reverse_reverse]
  · next _ others => exact absurd rfl (others body.reverse)

theorem newline_of_lines {text line : Text} (member : line ∈ lines text) : '\n' ∉ line := by
  obtain ⟨piece, here, rfl⟩ := List.mem_map.1 member
  rcases piece_of_split_after here with ⟨body, absent, rfl⟩ | ⟨absent, -⟩
  · have last : (body ++ ['\n']).reverse = '\n' :: body.reverse := by simp
    rw [← List.mem_reverse] at absent
    unfold dropNewline
    rw [last]
    split
    · next shape =>
        rw [List.cons.injEq] at shape
        rw [shape.2] at absent
        simpa using absent
    · next shape =>
        rw [List.cons.injEq] at shape
        rw [← shape.2]
        simpa using absent
    · next _ others => exact absurd rfl (others body.reverse)
  · rw [drop_newline_of_absent absent]
    exact absent

theorem lines_of_absent {line : Text} (absent : '\n' ∉ line) (nonempty : line ≠ []) :
    lines line = [line] := by
  rw [lines, split_after_of_absent absent nonempty, List.map_singleton,
    drop_newline_of_absent absent]

theorem lines_append {line : Text} (plain : IsPlain line) (rest : Text) :
    lines (line ++ '\n' :: rest) = line :: lines rest := by
  rw [lines, split_after_append plain.newline, List.map_cons,
    drop_newline_of_ended plain.carriage, lines]

/-- Lines that are joined by newlines, with or without a newline at the end, come back. -/
theorem lines_of_joined (joined : List Text) (plain : ∀ line ∈ joined, IsPlain line)
    (tail : Text) (ends : tail = [] ∨ tail = ['\n']) (nonempty : joined ≠ []) :
    lines (['\n'].intercalate joined ++ tail) = joined := by
  induction joined with
  | nil => exact absurd rfl nonempty
  | cons line joined induction =>
      obtain ⟨first, further⟩ := List.forall_mem_cons.1 plain
      cases joined with
      | nil =>
          rw [List.intercalate_singleton]
          rcases ends with rfl | rfl
          · rw [List.append_nil, lines_of_absent first.newline first.nonempty]
          · rw [lines_append first, lines, splitAfter]
            rfl
      | cons next others =>
          have rest := induction further (List.cons_ne_nil next others)
          rw [List.intercalate_cons_cons, List.append_assoc, List.append_assoc,
            List.singleton_append, lines_append first, rest]

end StepStream.Text
