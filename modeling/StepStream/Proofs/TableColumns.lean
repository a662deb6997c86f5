import StepStream.Proofs.AnswerTable

/-!
The columns of an answer table. An atom stands as far from the beginning of its row as the field of
the key and the columns before it are wide. The columns are shared by all rows, but the field of a
key is as wide as the number of rows is long, or as the key if that is longer: the columns of two
rows stand under each other exactly if their keys have fields of the same width.
-/

namespace StepStream

set_option autoImplicit false

open Text

namespace Text

/-! ## The width of ASCII text -/

def IsPrintable (character : Char) : Prop := 0x20 ≤ character.toNat ∧ character.toNat < 0x7F

instance (character : Char) : Decidable (IsPrintable character) :=
  inferInstanceAs (Decidable (0x20 ≤ character.toNat ∧ character.toNat < 0x7F))

theorem role_of_printable {character : Char} (printable : IsPrintable character) :
    clusterRole character = .other := by
  obtain ⟨above, below⟩ := printable
  unfold clusterRole
  rw [if_neg (by omega), if_neg (by omega), if_neg (by omega), if_pos below]

/-- Behind a control, which the beginning of a text counts as, and behind a printable character
every printable character begins a cluster. -/
theorem clusters_of_printable {text : Text} (printable : ∀ character ∈ text, IsPrintable character)
    {state : ClusterState} (apart : state.role = .control ∨ state.role = .other) (count : Nat) :
    clustersFrom state text count = count + text.length := by
  induction text generalizing state count with
  | nil => rfl
  | cons character text induction =>
      obtain ⟨first, others⟩ := List.forall_mem_cons.1 printable
      have role := role_of_printable first
      have begins : state.continues .other = false := by
        rcases apart with here | here <;> simp [ClusterState.continues, here]
      have next : (state.advance character).role = .control ∨
          (state.advance character).role = .other := .inr role
      rw [clustersFrom, role, begins, induction others next]
      simp only [Bool.false_eq_true, if_false, List.length_cons]
      omega

theorem cluster_count_of_printable {text : Text}
    (printable : ∀ character ∈ text, IsPrintable character) : clusterCount text = text.length := by
  rw [clusterCount, clusters_of_printable printable (.inl rfl), Nat.zero_add]

/-! ## Words and their places -/

/-- The words between the spaces of a line, each with the place where it begins, if the first
character of the line stands at `place`. -/
def placedWords (place : Nat) : Text → List (Nat × Text)
  | [] => []
  | first :: rest =>
      let others := placedWords (place + 1) rest
      if first = ' ' then others
      else match others with
        | [] => [(place, [first])]
        | (next, word) :: later =>
            if next = place + 1 then (place, first :: word) :: later
            else (place, [first]) :: others

theorem place_of_word {place : Nat} {text : Text} :
    ∀ entry ∈ placedWords place text, place ≤ entry.1 := by
  induction text generalizing place with
  | nil => nofun
  | cons first rest induction =>
      have later : ∀ entry ∈ placedWords (place + 1) rest, place ≤ entry.1 :=
        fun entry member => Nat.le_of_succ_le (induction entry member)
      rw [placedWords]
      split
      · exact later
      · split
        · simp
        · next next word behind words =>
            rw [words, List.forall_mem_cons] at later
            split
            · exact List.forall_mem_cons.2 ⟨Nat.le_refl place, later.2⟩
            · rw [words]
              exact List.forall_mem_cons.2 ⟨Nat.le_refl place, List.forall_mem_cons.2 later⟩

theorem placed_behind_spaces (place count : Nat) (rest : Text) :
    placedWords place (List.replicate count ' ' ++ rest) = placedWords (place + count) rest := by
  induction count generalizing place with
  | zero => rfl
  | succ count induction =>
      rw [List.replicate_succ, List.cons_append, placedWords, if_pos rfl, induction]
      congr 1
      omega

theorem placed_word (place : Nat) {word : Text} (nonempty : word ≠ []) (solid : ' ' ∉ word)
    (rest : Text) : placedWords place (word ++ ' ' :: rest) =
      (place, word) :: placedWords (place + word.length + 1) rest := by
  induction word generalizing place with
  | nil => exact absurd rfl nonempty
  | cons first word induction =>
      rw [List.mem_cons, not_or] at solid
      obtain ⟨other, solid⟩ := solid
      rw [List.cons_append, placedWords, if_neg (Ne.symm other)]
      by_cases last : word = []
      · -- The next word begins behind the space.
        have behind : placedWords (place + 1) (word ++ ' ' :: rest) =
            placedWords (place + 1 + 1) rest := by
          rw [last, List.nil_append, placedWords, if_pos rfl]
        rw [behind, last]
        split
        · next none => rw [List.length_singleton, none]
        · next next found later words =>
            have place := place_of_word (next, found) (by rw [words]; exact List.mem_cons_self)
            rw [if_neg (by omega), List.length_singleton]
      · have reach : place + 1 + word.length = place + (word.length + 1) := by omega
        rw [induction (place + 1) last solid, reach]
        simp only [if_true, List.length_cons]

end Text

namespace Table

structure IsVisible (atom : Text) : Prop where
  nonempty : atom ≠ []
  printable : ∀ character ∈ atom, IsPrintable character
  solid : ' ' ∉ atom

instance (atom : Text) : Decidable (IsVisible atom) :=
  decidable_of_iff (atom ≠ [] ∧ atom.all (decide <| IsPrintable ·) = true ∧ ' ' ∉ atom)
    ⟨fun ⟨nonempty, printable, solid⟩ => ⟨nonempty, by simpa using printable, solid⟩,
      fun ⟨nonempty, printable, solid⟩ => ⟨nonempty, by simpa using printable, solid⟩⟩

theorem IsVisible.plain {atom : Text} (visible : IsVisible atom) : IsPlain atom where
  nonempty := visible.nonempty
  space := visible.solid
  newline := fun member => absurd (visible.printable _ member).1 (by decide)

def columnStart : List Nat → Nat → Nat
  | width :: columns, column + 1 => width + 1 + columnStart columns column
  | _, _ => 0

def keyField (groups : Grouping) (key : TimeKey) : Nat := max (keyWidth groups) key.label.length

def cells (atoms : List Text) (columns : List Nat) : Text :=
  (atoms.zip columns).flatMap fun (atom, column) => padRight (column + 1) atom

theorem cells_cons (atom : Text) (column : Nat) (atoms : List Text) (columns : List Nat) :
    cells (atom :: atoms) (column :: columns) =
      padRight (column + 1) atom ++ cells atoms columns := rfl

theorem cell_of_visible {atom : Text} (visible : IsVisible atom) {column : Nat}
    (narrow : clusterCount atom ≤ column) :
    padRight (column + 1) atom = atom ++ ' ' :: List.replicate (column - atom.length) ' ' ∧
      (padRight (column + 1) atom).length = column + 1 := by
  rw [pad_right_of_narrow narrow]
  rw [cluster_count_of_printable visible.printable] at narrow ⊢
  refine ⟨rfl, ?_⟩
  rw [List.length_append, List.length_cons, List.length_replicate]
  omega

/-- The atoms of a row are its words behind the key, and each stands where its column begins. -/
theorem placed_cells (place : Nat) {atoms : List Text} {columns : List Nat}
    (visible : ∀ atom ∈ atoms, IsVisible atom) (fits : Fits (atoms.map clusterCount) columns)
    (column : Nat) :
    (placedWords place (cells atoms columns))[column]? =
      atoms[column]?.map fun atom => (place + columnStart columns column, atom) := by
  induction atoms generalizing columns place column with
  | nil => rfl
  | cons atom atoms induction =>
      cases columns with
      | nil => cases fits
      | cons width columns =>
          obtain ⟨first, others⟩ := List.forall_mem_cons.1 visible
          obtain ⟨narrow, fits⟩ := fits
          obtain ⟨cell, size⟩ := cell_of_visible first narrow
          rw [cell, List.length_append, List.length_cons, List.length_replicate] at size
          have reach : place + atom.length + 1 + (width - atom.length) = place + (width + 1) := by
            omega
          rw [cells_cons, cell, List.append_assoc, List.cons_append,
            placed_word place first.nonempty first.solid, placed_behind_spaces, reach]
          cases column with
          | zero => rfl
          | succ column =>
              rw [List.getElem?_cons_succ, List.getElem?_cons_succ,
                induction (place + (width + 1)) others fits]
              simp [columnStart, Nat.add_assoc]

theorem cell_at_column {atoms : List Text} {columns : List Nat}
    (visible : ∀ atom ∈ atoms, IsVisible atom) (fits : Fits (atoms.map clusterCount) columns)
    {column : Nat} {atom : Text} (here : atoms[column]? = some atom) :
    atom ++ [' '] <+: (cells atoms columns).drop (columnStart columns column) := by
  induction atoms generalizing columns column with
  | nil => cases here
  | cons first atoms induction =>
      cases columns with
      | nil => cases fits
      | cons width columns =>
          obtain ⟨visible, others⟩ := List.forall_mem_cons.1 visible
          obtain ⟨narrow, fits⟩ := fits
          obtain ⟨cell, size⟩ := cell_of_visible visible narrow
          rw [cells_cons]
          cases column with
          | zero =>
              obtain rfl := Option.some.inj here
              rw [cell]
              exact ⟨List.replicate (width - first.length) ' ' ++ cells atoms columns,
                by simp [columnStart]⟩
          | succ column =>
              rw [List.getElem?_cons_succ] at here
              have start : columnStart (width :: columns) (column + 1) =
                  (padRight (width + 1) first).length + columnStart columns column := by
                simp [columnStart, size]
              rw [start, List.drop_length_add_append]
              exact induction others fits here

theorem printable_of_label (key : TimeKey) : ∀ character ∈ key.label, IsPrintable character := by
  cases key with
  | base => exact List.forall_mem_singleton.2 (by decide)
  | step number =>
      intro character member
      have digit := digit_of_numeral member
      rw [isDigit, Bool.and_eq_true, decide_eq_true_eq, decide_eq_true_eq] at digit
      have least : 48 ≤ character.toNat := digit.1
      have most : character.toNat ≤ 57 := digit.2
      exact ⟨by omega, by omega⟩

def front (groups : Grouping) (key : TimeKey) : Text :=
  "  ".toList ++ padLeft (keyWidth groups) key.label ++ ". ".toList

theorem row_text_eq (groups : Grouping) (group : TimeKey × List Text) :
    rowText (keyWidth groups) (columnWidths groups) group =
      front groups group.1 ++ cells group.2 (columnWidths groups) := rfl

theorem front_length (groups : Grouping) (key : TimeKey) :
    (front groups key).length = 4 + keyField groups key := by
  have width := cluster_count_of_printable (printable_of_label key)
  simp [front, padLeft, padding, width, keyField]
  omega

theorem row_behind_front (groups : Grouping) (group : TimeKey × List Text) (count : Nat) :
    (rowText (keyWidth groups) (columnWidths groups) group).drop
      (4 + keyField groups group.1 + count) = (cells group.2 (columnWidths groups)).drop count := by
  rw [row_text_eq, ← front_length, List.drop_length_add_append]

theorem placed_row (groups : Grouping) (group : TimeKey × List Text) :
    placedWords 0 (rowText (keyWidth groups) (columnWidths groups) group) =
      (2 + (keyWidth groups - group.1.label.length), group.1.label ++ ['.']) ::
        placedWords (4 + keyField groups group.1) (cells group.2 (columnWidths groups)) := by
  have width := cluster_count_of_printable (printable_of_label group.1)
  have solid : ' ' ∉ group.1.label ++ ['.'] := by simp [(space_of_label group.1).1]
  have parts : rowText (keyWidth groups) (columnWidths groups) group =
      List.replicate (2 + (keyWidth groups - group.1.label.length)) ' ' ++
        ((group.1.label ++ ['.']) ++ ' ' :: cells group.2 (columnWidths groups)) := by
    simp [row_text_eq, front, padLeft, padding, width, List.replicate_add]
  have reach : 0 + (2 + (keyWidth groups - group.1.label.length)) +
      (group.1.label ++ ['.']).length + 1 = 4 + keyField groups group.1 := by
    simp only [keyField, List.length_append, List.length_singleton]
    omega
  rw [parts, placed_behind_spaces, placed_word _ (by simp) solid, reach, Nat.zero_add]

/-- Whether the atoms of two rows stand under each other, column by column. The first word of a row
is its key. -/
def LinesUp (row other : Text) : Prop :=
  ∀ column entry opposite, (placedWords 0 row)[column + 1]? = some entry →
    (placedWords 0 other)[column + 1]? = some opposite → entry.1 = opposite.1

/-- The rows of a table, which are its lines, have the atoms of their groups as the words behind the
key. An atom stands behind the field of the key and the columns before its own, and a space follows
it. So the atoms of two rows stand under each other exactly if the fields of their keys have the
same width, and a field is wider than the number of rows is long exactly if the key is. -/
theorem columns_line_up_iff {answerSet : AnswerSet}
    (visible : ∀ atom ∈ answerSet.atoms, IsVisible atom) :
    let groups := answerSet.groupByStep
    let rowOf := rowText (keyWidth groups) (columnWidths groups)
    let start := fun (key : TimeKey) column =>
      4 + keyField groups key + columnStart (columnWidths groups) column
    parts '\n' (ofAnswerSet answerSet) = groups.map rowOf ∧
    (∀ group ∈ groups, ∀ column,
      (placedWords 0 (rowOf group))[column + 1]? =
        group.2[column]?.map (fun atom => (start group.1 column, atom)) ∧
      ∀ atom ∈ group.2[column]?, atom ++ [' '] <+: (rowOf group).drop (start group.1 column)) ∧
    ∀ group ∈ groups, ∀ other ∈ groups,
      LinesUp (rowOf group) (rowOf other) ↔ keyField groups group.1 = keyField groups other.1 := by
  intro groups rowOf start
  have grouping : IsGrouping answerSet.atoms groups := is_grouping_by_step answerSet
  have inGroup {group : TimeKey × List Text} (member : group ∈ groups) :
      ∀ atom ∈ group.2, IsVisible atom := fun atom here =>
    visible atom (List.mem_of_mem_filter ((grouping.whole group member).mem_iff.1 here))
  have placed {group : TimeKey × List Text} (member : group ∈ groups) (column : Nat) :
      (placedWords 0 (rowOf group))[column + 1]? =
        group.2[column]?.map fun atom => (start group.1 column, atom) := by
    rw [placed_row, List.getElem?_cons_succ,
      placed_cells _ (inGroup member) (fits_column_widths member)]
  refine ⟨parts_of_rows groups fun group member atom here => (inGroup member atom here).plain,
    fun group member column => ⟨placed member column, fun atom here => ?_⟩,
    fun group member other opposite => ⟨fun aligned => ?_, fun same => ?_⟩⟩
  · rw [row_behind_front]
    exact cell_at_column (inGroup member) (fits_column_widths member) here
  · -- Every row has a first atom.
    obtain ⟨first, others, here⟩ := List.exists_cons_of_ne_nil (grouping.nonempty member)
    obtain ⟨second, more, there⟩ := List.exists_cons_of_ne_nil (grouping.nonempty opposite)
    have places := aligned 0 (start group.1 0, first) (start other.1 0, second)
      (by rw [placed member, here]; rfl) (by rw [placed opposite, there]; rfl)
    exact Nat.add_left_cancel (Nat.add_right_cancel places)
  · intro column entry beside here there
    rw [placed member, Option.map_eq_some_iff] at here
    rw [placed opposite, Option.map_eq_some_iff] at there
    obtain ⟨_, _, rfl⟩ := here
    obtain ⟨_, _, rfl⟩ := there
    change 4 + keyField groups group.1 + _ = 4 + keyField groups other.1 + _
    rw [same]

/-- No key is longer than the number of rows, and the rows have one, two and three atoms. -/
theorem short_keys_line_up :
    let answerSet : AnswerSet := ⟨some 9, ["p(9)".toList, "r".toList, "long(a,9)".toList,
      "q(2)".toList, "s".toList, "-t".toList]⟩
    let groups := answerSet.groupByStep
    let rowOf := rowText (keyWidth groups) (columnWidths groups)
    (∀ atom ∈ answerSet.atoms, IsVisible atom) ∧
      ∀ group ∈ groups, ∀ other ∈ groups, LinesUp (rowOf group) (rowOf other) := by
  intro answerSet groups rowOf
  have visible : ∀ atom ∈ answerSet.atoms, IsVisible atom := by decide
  have keys : ∀ atom ∈ answerSet.atoms, (TimeKey.ofAtom atom).label.length = 1 := by decide
  have field : ∀ group ∈ groups, keyField groups group.1 = keyWidth groups := by
    intro group member
    obtain ⟨atom, here, timed⟩ :=
      ((is_grouping_by_step answerSet).keys group.1).1 (List.mem_map_of_mem member)
    rw [keyField, ← timed, keys atom here]
    exact Nat.max_eq_left (List.length_pos_iff.2 Nat.toDigits_ne_nil)
  refine ⟨visible, fun group member other opposite => ?_⟩
  rw [(columns_line_up_iff visible).2.2 group member other opposite, field group member,
    field other opposite]

/-- The only two rows of a table are a step with three digits and the base. -/
theorem long_key_moves_row :
    let answerSet : AnswerSet := ⟨none, ["q".toList, "p(100)".toList]⟩
    let base := "  B. q      ".toList
    let step := "  100. p(100) ".toList
    ofAnswerSet answerSet = base ++ '\n' :: (step ++ ['\n']) ∧
      placedWords 0 base = [(2, "B.".toList), (5, "q".toList)] ∧
      placedWords 0 step = [(2, "100.".toList), (7, "p(100)".toList)] ∧ ¬ LinesUp base step := by
  intro answerSet base step
  have keys : keysOf answerSet.atoms = [.base, .step 100] := by
    have distinct : (answerSet.atoms.map TimeKey.ofAtom).eraseDups = [.base, .step 100] := by decide
    rw [keysOf, distinct]
    exact List.mergeSort_of_pairwise (by decide)
  have untimed : atomsAt .base answerSet.atoms = ["q".toList] := by decide
  have timed : atomsAt (.step 100) answerSet.atoms = ["p(100)".toList] := by decide
  have groups : answerSet.groupByStep =
      [(.base, ["q".toList]), (.step 100, ["p(100)".toList])] := by
    rw [group_by_step_eq, keys, List.map_cons, List.map_singleton, untimed, timed,
      List.mergeSort_singleton, List.mergeSort_singleton]
  have places : placedWords 0 base = [(2, "B.".toList), (5, "q".toList)] := by decide
  have others : placedWords 0 step = [(2, "100.".toList), (7, "p(100)".toList)] := by decide
  refine ⟨by rw [ofAnswerSet, groups]; decide, places, others, fun aligned => ?_⟩
  have same := aligned 0 (5, "q".toList) (7, "p(100)".toList) (by rw [places]; rfl)
    (by rw [others]; rfl)
  exact absurd same (by decide)

end Table

end StepStream
