import StepStream.Proofs.ClusterRules

/-!
Padding. A text that is filled with spaces has the width that was asked for, unless a cluster
goes on across the border between the text and the spaces: behind a sign that is prepended to
what follows it, or in front of a mark. Then the padded text is one cluster short.
-/

namespace StepStream.Text

set_option autoImplicit false

variable {front text : Text} {next : Char} {width : Nat}

def ClusterRole.isMark : ClusterRole → Bool
  | .extend | .joiner | .spacingMark => true
  | _ => false

def BeginsWithMark (text : Text) : Prop :=
  ∃ first rest, text = first :: rest ∧ (clusterRole first).isMark = true

theorem role_of_space : clusterRole ' ' = .other := by decide

theorem joins_space_iff : Joins front ' ' ↔ EndsIn .prepend front := by
  constructor
  · intro joins
    cases joins with
    | prepended ends => exact ends
    | lineEnd _ here | leading _ here | vowel _ here | trailing _ here | mark _ _ here
    | conjunct _ here | pictographs _ here | flag _ here => simp [role_of_space] at here
  · intro ends
    exact .prepended ends (by rw [role_of_space]; rfl)

theorem ends_in_space_iff {role : ClusterRole} :
    EndsIn role (front ++ [' ']) ↔ role = .other := by
  rw [ends_in_concat_iff, role_of_space, eq_comm]

theorem joins_behind_space_iff :
    Joins (front ++ [' ']) next ↔ (clusterRole next).isMark = true := by
  constructor
  · intro joins
    cases joins with
    | mark _ _ here =>
        simp only [List.mem_cons, List.not_mem_nil, or_false] at here
        rcases here with here | here | here <;> rw [here] <;> rfl
    | lineEnd ends | leading ends | prepended ends => cases ends_in_space_iff.1 ends
    | vowel ends | trailing ends => rcases ends with ends | ends <;> cases ends_in_space_iff.1 ends
    | conjunct linked =>
        rcases mark_of_linked linked with ends | ends <;> cases ends_in_space_iff.1 ends
    | pictographs joined => cases ends_in_space_iff.1 (joiner_of_joined joined)
    | flag odd => cases ends_in_space_iff.1 (regional_of_odd odd)
  · intro mark
    refine .mark (ends_in_space_iff.2 rfl) rfl ?_
    cases here : clusterRole next <;> simp_all [ClusterRole.isMark]

/-- Only the first space can join the text in front of it. -/
theorem cluster_count_spaces_behind (front : Text) (spaces : Nat) :
    clusterCount (front ++ List.replicate (spaces + 1) ' ') =
      clusterCount front + spaces + if Joins front ' ' then 0 else 1 := by
  induction spaces with
  | zero => exact cluster_count_concat front ' '
  | succ spaces induction =>
      have apart : ¬ Joins (front ++ List.replicate (spaces + 1) ' ') ' ' := by
        rw [List.replicate_succ', ← List.append_assoc, joins_behind_space_iff, role_of_space]
        simp [ClusterRole.isMark]
      rw [List.replicate_succ', ← List.append_assoc, cluster_count_concat, if_neg apart, induction]
      omega

theorem after_spaces (spaces : Nat) :
    ClusterState.after (List.replicate (spaces + 1) ' ') =
      { ClusterState.start with role := .other } := by
  induction spaces with
  | zero => decide
  | succ spaces induction =>
      rw [List.replicate_succ', ClusterState.after, List.foldl_append, ← ClusterState.after,
        induction]
      decide

theorem after_spaces_and_more (spaces : Nat) (first : Char) (rest : Text) :
    ClusterState.after (List.replicate (spaces + 1) ' ' ++ first :: rest) =
      ClusterState.after (first :: rest) := by
  rw [ClusterState.after, List.foldl_append, ← ClusterState.after, after_spaces]
  rfl

/-- Only the last space can be joined by the text behind it. -/
theorem cluster_count_spaces_before (spaces : Nat) (first : Char) (rest : Text) :
    clusterCount (List.replicate (spaces + 1) ' ' ++ first :: rest) =
      spaces + clusterCount (first :: rest) +
        if (clusterRole first).isMark = true then 0 else 1 := by
  induction rest using List.reverseRecOn with
  | nil =>
      have alone : clusterCount [first] = 1 := rfl
      have blank : clusterCount (List.replicate (spaces + 1) ' ') = spaces + 1 := by
        have counted := cluster_count_spaces_behind [] spaces
        rw [List.nil_append, if_neg (by decide)] at counted
        rw [counted]
        exact congrArg (· + 1) (Nat.zero_add spaces)
      have border : Joins (List.replicate (spaces + 1) ' ') first ↔
          (clusterRole first).isMark = true := by
        rw [List.replicate_succ', joins_behind_space_iff]
      rw [cluster_count_concat, blank, alone]
      simp only [border]
  | append_singleton rest next induction =>
      have same : Joins (List.replicate (spaces + 1) ' ' ++ first :: rest) next ↔
          Joins (first :: rest) next := by
        rw [← continues_iff_joins, ← continues_iff_joins, after_spaces_and_more]
      rw [← List.cons_append, ← List.append_assoc, cluster_count_concat, cluster_count_concat,
        induction]
      simp only [same]
      omega

theorem cluster_count_pad_right (narrow : clusterCount text < width) :
    clusterCount (padRight width text) + (if Joins text ' ' then 1 else 0) = width := by
  obtain ⟨spaces, room⟩ : ∃ spaces, width - clusterCount text = spaces + 1 :=
    ⟨width - clusterCount text - 1, by omega⟩
  rw [padRight, padding, room, cluster_count_spaces_behind]
  split <;> omega

theorem cluster_count_pad_left {first : Char} {rest : Text}
    (narrow : clusterCount (first :: rest) < width) :
    clusterCount (padLeft width (first :: rest)) +
      (if (clusterRole first).isMark = true then 1 else 0) = width := by
  obtain ⟨spaces, room⟩ : ∃ spaces, width - clusterCount (first :: rest) = spaces + 1 :=
    ⟨width - clusterCount (first :: rest) - 1, by omega⟩
  rw [padLeft, padding, room, cluster_count_spaces_before]
  split <;> omega

theorem padding_of_wide (wide : width ≤ clusterCount text) : padding width text = [] := by
  rw [padding, Nat.sub_eq_zero_of_le wide, List.replicate_zero]

theorem pad_right_reaches_iff (width : Nat) (text : Text) :
    clusterCount (padRight width text) = max (clusterCount text) width ↔
      ¬ (clusterCount text < width ∧ EndsIn .prepend text) := by
  rcases Nat.lt_or_ge (clusterCount text) width with narrow | wide
  · have counted := cluster_count_pad_right narrow
    rw [Nat.max_eq_right (Nat.le_of_lt narrow), ← joins_space_iff]
    by_cases joins : Joins text ' '
    · rw [if_pos joins] at counted
      exact iff_of_false (by omega) (not_not_intro ⟨narrow, joins⟩)
    · rw [if_neg joins] at counted
      exact iff_of_true counted fun both => joins both.2
  · rw [padRight, padding_of_wide wide, List.append_nil, Nat.max_eq_left wide]
    exact iff_of_true rfl fun both => absurd both.1 (Nat.not_lt.2 wide)

theorem pad_left_reaches_iff (width : Nat) (text : Text) :
    clusterCount (padLeft width text) = max (clusterCount text) width ↔
      ¬ (clusterCount text < width ∧ BeginsWithMark text) := by
  rcases Nat.lt_or_ge (clusterCount text) width with narrow | wide
  · rw [Nat.max_eq_right (Nat.le_of_lt narrow)]
    cases text with
    | nil =>
        have same : padLeft width [] = padRight width [] := List.append_nil _
        rw [same]
        have counted := cluster_count_pad_right narrow
        rw [if_neg (by decide)] at counted
        exact iff_of_true counted fun ⟨_, first, rest, split, _⟩ => nomatch split
    | cons first rest =>
        have counted := cluster_count_pad_left narrow
        by_cases mark : (clusterRole first).isMark = true
        · rw [if_pos mark] at counted
          exact iff_of_false (by omega) (not_not_intro ⟨narrow, first, rest, rfl, mark⟩)
        · rw [if_neg mark] at counted
          refine iff_of_true counted ?_
          rintro ⟨-, _, _, split, marked⟩
          cases split
          exact mark marked
  · rw [padLeft, padding_of_wide wide, List.nil_append, Nat.max_eq_left wide]
    exact iff_of_true rfl fun both => absurd both.1 (Nat.not_lt.2 wide)

/-- Clusters are counted by the rules of text segmentation. Padding adds nothing but spaces, on
its own side, as many as the text has fewer clusters than the width. The padded text has the
larger one of the two numbers of clusters exactly unless spaces are added and the text ends in a
sign that is prepended to them, or begins with a mark. -/
theorem padding_reaches_width_iff (width : Nat) (text : Text) :
    let spaces := List.replicate (width - clusterCount text) ' '
    let widest := max (clusterCount text) width
    (clusterCount [] = 0 ∧ ∀ front next, clusterCount (front ++ [next]) =
      clusterCount front + if Joins front next then 0 else 1) ∧
      padRight width text = text ++ spaces ∧ padLeft width text = spaces ++ text ∧
      (clusterCount (padRight width text) = widest ↔
        ¬ (clusterCount text < width ∧ EndsIn .prepend text)) ∧
      (clusterCount (padLeft width text) = widest ↔
        ¬ (clusterCount text < width ∧ BeginsWithMark text)) := by
  intro spaces widest
  refine ⟨⟨rfl, cluster_count_concat⟩, rfl, rfl, ?_, ?_⟩
  · exact pad_right_reaches_iff width text
  · exact pad_left_reaches_iff width text

/-- A space joins the Arabic number sign in front of it, and an accent joins the space in front
of it. -/
theorem border_inside_cluster :
    clusterCount ['\u0600'] = 1 ∧ clusterCount (padRight 3 ['\u0600']) = 2 ∧
      clusterCount ['\u0301'] = 1 ∧ clusterCount (padLeft 3 ['\u0301']) = 2 := by
  decide +kernel

end StepStream.Text
