import Mathlib.Data.List.Basic
import StepStream.Answer.Table
import StepStream.Proofs.Grouping
import StepStream.Proofs.Lines

/-!
Answer tables read back. Every atom of a row is followed by at least one space, whatever its
clusters are, so the spaces of a row tell its key and its atoms apart, and a table tells the
groups that it shows. Two answer sets have the same table exactly if they have the same atoms,
each as often.
-/

namespace StepStream.Table

set_option autoImplicit false

open Text

def parts (mark : Char) (text : Text) : List Text := pieces (· == mark) text

theorem parts_append (mark : Char) (front back : Text) :
    parts mark (front ++ mark :: back) = parts mark front ++ parts mark back :=
  pieces_append (by simp) front back

theorem parts_behind_marks (mark : Char) (count : Nat) (rest : Text) :
    parts mark (List.replicate count mark ++ rest) = parts mark rest :=
  pieces_behind_separators (by simp) count rest

theorem parts_of_absent {mark : Char} {text : Text} (nonempty : text ≠ []) (absent : mark ∉ text) :
    parts mark text = [text] := by
  apply pieces_of_unseparated nonempty
  intro character member
  rw [beq_eq_false_iff_ne]
  rintro rfl
  exact absent member

def keyOfLabel (label : Text) : Option TimeKey :=
  if label = TimeKey.base.label then some .base else (readNumeral label).map .step

/-- The key and the atoms of a row, which is cut at its spaces. A period ends the label. -/
def readRow (row : Text) : Option (TimeKey × List Text) :=
  match parts ' ' row with
  | [] => none
  | label :: atoms =>
      if label.getLast? = some '.' then (keyOfLabel label.dropLast).map fun key => (key, atoms)
      else none

def read (table : Text) : Option Grouping := (parts '\n' table).mapM readRow

/-- An atom that can be told apart from what stands beside it. -/
structure IsPlain (atom : Text) : Prop where
  nonempty : atom ≠ []
  space : ' ' ∉ atom
  newline : '\n' ∉ atom

instance (atom : Text) : Decidable (IsPlain atom) :=
  decidable_of_iff (atom ≠ [] ∧ ' ' ∉ atom ∧ '\n' ∉ atom)
    ⟨fun ⟨nonempty, space, newline⟩ => ⟨nonempty, space, newline⟩,
      fun ⟨nonempty, space, newline⟩ => ⟨nonempty, space, newline⟩⟩

section Columns

def Fits : List Nat → List Nat → Prop
  | [], _ => True
  | _ :: _, [] => False
  | width :: widths, column :: columns => width ≤ column ∧ Fits widths columns

theorem fits_self (widths : List Nat) : Fits widths widths := by
  induction widths with
  | nil => exact trivial
  | cons width widths induction => exact ⟨Nat.le_refl width, induction⟩

theorem fits_widen {widths columns others : List Nat}
    (fits : Fits widths columns ∨ Fits widths others) : Fits widths (widen columns others) := by
  induction widths generalizing columns others with
  | nil => exact trivial
  | cons width widths induction =>
      cases columns with
      | nil =>
          rcases fits with fails | fits
          · cases fails
          · exact fits
      | cons column columns =>
          cases others with
          | nil =>
              rcases fits with fits | fails
              · exact fits
              · cases fails
          | cons other others =>
              rcases fits with ⟨narrow, fits⟩ | ⟨narrow, fits⟩
              · exact ⟨Nat.le_trans narrow (Nat.le_max_left ..), induction (.inl fits)⟩
              · exact ⟨Nat.le_trans narrow (Nat.le_max_right ..), induction (.inr fits)⟩

theorem fits_column_widths {groups : Grouping} {group : TimeKey × List Text}
    (member : group ∈ groups) : Fits (group.2.map clusterCount) (columnWidths groups) := by
  have general (groups : Grouping) (widths : List Nat)
      (found : group ∈ groups ∨ Fits (group.2.map clusterCount) widths) :
      Fits (group.2.map clusterCount)
        (groups.foldl (fun widths group => widen widths (group.2.map clusterCount)) widths) := by
    induction groups generalizing widths with
    | nil => exact found.resolve_left List.not_mem_nil
    | cons first groups induction =>
        apply induction
        rcases found with found | fits
        · rcases List.mem_cons.1 found with rfl | later
          · exact .inr (fits_widen (.inr (fits_self _)))
          · exact .inl later
        · exact .inr (fits_widen (.inl fits))
  exact general groups [] (.inl member)

end Columns

def rowText (width : Nat) (columns : List Nat) (group : TimeKey × List Text) : Text :=
  "  ".toList ++ padLeft width group.1.label ++ ". ".toList ++
    (group.2.zip columns).flatMap fun (atom, column) => padRight (column + 1) atom

theorem row_eq (width : Nat) (columns : List Nat) (group : TimeKey × List Text) :
    row width columns group = rowText width columns group ++ ['\n'] := rfl

/-- A space follows the atom even if it is the widest of its column. -/
theorem pad_right_of_narrow {atom : Text} {column : Nat} (narrow : clusterCount atom ≤ column) :
    padRight (column + 1) atom =
      atom ++ ' ' :: List.replicate (column - clusterCount atom) ' ' := by
  have spaces : column + 1 - clusterCount atom = (column - clusterCount atom) + 1 := by omega
  rw [padRight, padding, spaces, List.replicate_succ]

theorem parts_of_cells {atoms : List Text} {columns : List Nat}
    (plain : ∀ atom ∈ atoms, IsPlain atom) (fits : Fits (atoms.map clusterCount) columns) :
    parts ' ' ((atoms.zip columns).flatMap fun (atom, column) => padRight (column + 1) atom) = atoms := by
  induction atoms generalizing columns with
  | nil => rfl
  | cons atom atoms induction =>
      cases columns with
      | nil => cases fits
      | cons column columns =>
          obtain ⟨first, others⟩ := List.forall_mem_cons.1 plain
          obtain ⟨narrow, fits⟩ := fits
          have cell := parts_of_absent first.nonempty first.space
          rw [List.zip_cons_cons, List.flatMap_cons]
          dsimp only
          rw [pad_right_of_narrow narrow, List.append_assoc, List.cons_append,
            parts_append, parts_behind_marks,
            cell, induction others fits, List.singleton_append]

theorem key_of_label {key : TimeKey} (small : ∀ number, key = .step number → number ≤ greatestStep) :
    keyOfLabel key.label = some key := by
  cases key with
  | base => rfl
  | step number =>
      have numeral := read_show_numeral (small number rfl)
      have different : showNumeral number ≠ ['B'] := by
        intro same
        rw [same] at numeral
        cases numeral
      rw [keyOfLabel, TimeKey.label, TimeKey.label, if_neg different, numeral]
      rfl

theorem space_of_label (key : TimeKey) : ' ' ∉ key.label ∧ '\n' ∉ key.label := by
  cases key with
  | base => decide
  | step number =>
      exact ⟨not_mem_numeral (by decide) number, not_mem_numeral (by decide) number⟩

theorem read_row {width : Nat} {columns : List Nat} {group : TimeKey × List Text}
    (small : ∀ number, group.1 = .step number → number ≤ greatestStep)
    (plain : ∀ atom ∈ group.2, IsPlain atom) (fits : Fits (group.2.map clusterCount) columns) :
    readRow (rowText width columns group) = some group := by
  have label : parts ' ' (group.1.label ++ ['.']) = [group.1.label ++ ['.']] := by
    apply parts_of_absent (by simp)
    simp [(space_of_label group.1).1]
  have cells : parts ' ' (rowText width columns group) =
      (group.1.label ++ ['.']) :: group.2 := by
    have parts : rowText width columns group =
        List.replicate 2 ' ' ++ (List.replicate (width - clusterCount group.1.label) ' ' ++
          ((group.1.label ++ ['.']) ++ ' ' ::
            (group.2.zip columns).flatMap fun (atom, column) => padRight (column + 1) atom)) := by
      simp [rowText, padLeft, padding]
    rw [parts, parts_behind_marks,
      parts_behind_marks, parts_append, label,
      parts_of_cells plain fits, List.singleton_append]
  rw [readRow, cells]
  simp [key_of_label small]

theorem newline_of_row {width : Nat} {columns : List Nat} {group : TimeKey × List Text}
    (plain : ∀ atom ∈ group.2, IsPlain atom) : '\n' ∉ rowText width columns group := by
  have padded (count : Nat) : '\n' ∉ List.replicate count ' ' := by simp
  have cells : '\n' ∉ (group.2.zip columns).flatMap fun (atom, column) =>
      padRight (column + 1) atom := by
    rw [List.mem_flatMap]
    rintro ⟨⟨atom, column⟩, member, here⟩
    have absent := (plain atom (List.of_mem_zip member).1).newline
    change '\n' ∈ atom ++ padding (column + 1) atom at here
    rw [padding, List.mem_append] at here
    exact here.elim absent (padded _)
  simp [rowText, padLeft, padding, cells, (space_of_label group.1).2]

theorem parts_of_rows {width : Nat} {columns : List Nat} (groups : Grouping)
    (plain : ∀ group ∈ groups, ∀ atom ∈ group.2, IsPlain atom) :
    parts '\n' (groups.flatMap (row width columns)) = groups.map (rowText width columns) := by
  induction groups with
  | nil => rfl
  | cons group groups induction =>
      obtain ⟨first, others⟩ := List.forall_mem_cons.1 plain
      have whole : parts '\n' (rowText width columns group) = [rowText width columns group] :=
        parts_of_absent (by simp [rowText]) (newline_of_row first)
      rw [List.flatMap_cons, row_eq, List.append_assoc, List.singleton_append, parts_append, whole,
        List.singleton_append, List.map_cons, induction others]

theorem read_rows {width : Nat} {columns : List Nat} (groups : Grouping)
    (small : ∀ group ∈ groups, ∀ number, group.1 = .step number → number ≤ greatestStep)
    (plain : ∀ group ∈ groups, ∀ atom ∈ group.2, IsPlain atom)
    (fits : ∀ group ∈ groups, Fits (group.2.map clusterCount) columns) :
    read (groups.flatMap (row width columns)) = some groups := by
  rw [read, parts_of_rows groups plain]
  induction groups with
  | nil => rfl
  | cons group groups induction =>
      rw [List.forall_mem_cons] at small plain fits
      rw [List.map_cons, List.mapM_cons, read_row small.1 plain.1 fits.1,
        induction small.2 plain.2 fits.2]
      rfl

theorem small_of_key {atom : Text} {number : Nat} (timed : TimeKey.ofAtom atom = .step number) :
    number ≤ greatestStep := by
  unfold TimeKey.ofAtom at timed
  split at timed
  · next found =>
      cases timed
      obtain ⟨_, _, numeral⟩ := Option.bind_eq_some_iff.1 found
      obtain ⟨_, _, numeral⟩ := Option.bind_eq_some_iff.1 numeral
      exact small_of_read_numeral numeral
  · cases timed

theorem read_table {answerSet : AnswerSet} (plain : ∀ atom ∈ answerSet.atoms, IsPlain atom) :
    read (ofAnswerSet answerSet) = some answerSet.groupByStep := by
  have groups := is_grouping_by_step answerSet
  apply read_rows
  · intro group member number step
    obtain ⟨atom, -, same⟩ := (groups.keys group.1).1 (List.mem_map_of_mem member)
    exact small_of_key (same.trans step)
  · intro group member atom here
    exact plain atom (List.mem_of_mem_filter ((groups.whole group member).mem_iff.1 here))
  · exact fun group member => fits_column_widths member

/-- Two answer sets have the same table exactly if one has the atoms of the other in some order,
and the groups that are read from a table are those of the atoms that it was made for. -/
theorem same_table_iff_same_atoms {left right : AnswerSet}
    (leftPlain : ∀ atom ∈ left.atoms, IsPlain atom)
    (rightPlain : ∀ atom ∈ right.atoms, IsPlain atom) :
    (ofAnswerSet left = ofAnswerSet right ↔ left.atoms.Perm right.atoms) ∧
      ∃ groups, read (ofAnswerSet left) = some groups ∧ IsGrouping left.atoms groups := by
  have groups := is_grouping_by_step left
  refine ⟨⟨fun same => ?_, fun same => ?_⟩, left.groupByStep, read_table leftPlain, groups⟩
  · have shown := read_table leftPlain
    rw [same, read_table rightPlain, Option.some.injEq] at shown
    have others := is_grouping_by_step right
    rw [shown] at others
    exact perm_of_groupings groups others
  · rw [ofAnswerSet, ofAnswerSet, group_by_step_of_perm same]

/-- Rows of different lengths, an atom that occurs twice, and steps with more and fewer digits. -/
theorem reordered_atoms_share_table :
    let left : AnswerSet :=
      ⟨none, ["p(10)".toList, "r".toList, "long(a,9)".toList, "r".toList, "p(9)".toList]⟩
    let right : AnswerSet :=
      ⟨some 3, ["r".toList, "p(9)".toList, "r".toList, "p(10)".toList, "long(a,9)".toList]⟩
    (∀ atom ∈ left.atoms, IsPlain atom) ∧ (∀ atom ∈ right.atoms, IsPlain atom) ∧
      ofAnswerSet left = ofAnswerSet right ∧
      ∃ groups, read (ofAnswerSet left) = some groups ∧ IsGrouping left.atoms groups := by
  intro left right
  have leftPlain : ∀ atom ∈ left.atoms, IsPlain atom := by decide
  have rightPlain : ∀ atom ∈ right.atoms, IsPlain atom := by decide
  have identified := same_table_iff_same_atoms leftPlain rightPlain
  have reordered : left.atoms.Perm right.atoms := by decide
  exact ⟨leftPlain, rightPlain, identified.1.2 reordered, identified.2⟩

end StepStream.Table
