import StepStream.Text.Cluster
import Mathlib.Data.List.Basic
import Mathlib.Data.List.Induction

/-!
The rules of text segmentation. A cluster goes on from what has been read to the next
character by one of nine rules, which look at the end of what has been read; everywhere else a
cluster begins. What a reader remembers of a text tells for every rule whether it applies, so
the reader counts exactly the beginnings that the rules leave.
-/

namespace StepStream.Text

set_option autoImplicit false

/-- Texts of one kind with one more character behind them. -/
def Followed (stem : Text → Prop) (last : Char → Prop) (text : Text) : Prop :=
  ∃ front character, text = front ++ [character] ∧ stem front ∧ last character

/-- Texts of one kind with any number of marks behind them. -/
def Trailed (stem : Text → Prop) (mark : Char → Prop) (text : Text) : Prop :=
  ∃ front marks, text = front ++ marks ∧ stem front ∧ ∀ character ∈ marks, mark character

section Endings

variable {stem : Text → Prop} {test : Char → Prop}

theorem not_followed_nil : ¬ Followed stem test [] := by
  rintro ⟨front, character, split, -⟩
  simp at split

theorem followed_concat_iff {front : Text} {character : Char} :
    Followed stem test (front ++ [character]) ↔ stem front ∧ test character := by
  constructor
  · rintro ⟨before, last, split, stands, holds⟩
    obtain ⟨rfl, same⟩ := List.append_inj' split rfl
    cases same
    exact ⟨stands, holds⟩
  · rintro ⟨stands, holds⟩
    exact ⟨front, character, rfl, stands, holds⟩

theorem trailed_nil_iff : Trailed stem test [] ↔ stem [] := by
  constructor
  · rintro ⟨front, marks, split, stands, -⟩
    obtain ⟨rfl, -⟩ := List.append_eq_nil_iff.1 split.symm
    exact stands
  · intro stands
    exact ⟨[], [], rfl, stands, nofun⟩

theorem trailed_concat_iff {front : Text} {character : Char} :
    Trailed stem test (front ++ [character]) ↔
      stem (front ++ [character]) ∨ test character ∧ Trailed stem test front := by
  constructor
  · rintro ⟨before, marks, split, stands, all⟩
    rcases List.eq_nil_or_concat' marks with rfl | ⟨fewer, last, rfl⟩
    · rw [List.append_nil] at split
      exact .inl (split ▸ stands)
    · rw [← List.append_assoc] at split
      obtain ⟨rfl, same⟩ := List.append_inj' split rfl
      cases same
      have kept : ∀ mark ∈ fewer, test mark := fun mark member =>
        all mark (List.mem_append_left _ member)
      exact .inr ⟨all character (by simp), before, fewer, rfl, stands, kept⟩
  · rintro (stands | ⟨holds, before, marks, rfl, stands, all⟩)
    · exact ⟨front ++ [character], [], (List.append_nil _).symm, stands, nofun⟩
    · refine ⟨before, marks ++ [character], List.append_assoc .., stands, ?_⟩
      intro mark member
      rcases List.mem_append.1 member with earlier | here
      · exact all mark earlier
      · cases List.mem_singleton.1 here
        exact holds

end Endings

/-! What a text can end in. -/

def EndsIn (role : ClusterRole) : Text → Prop :=
  Followed (fun _ => True) (clusterRole · = role)

def IsLinker (character : Char) : Prop :=
  clusterRole character = .extend ∧ linksConsonants character = true

def IsConjunctMark (character : Char) : Prop :=
  clusterRole character = .joiner ∨
    clusterRole character = .extend ∧ keepsConjunct character = true

def EndsInPictograph : Text → Prop :=
  Trailed (EndsIn .pictograph) (clusterRole · = .extend)

def EndsInJoinedPictograph : Text → Prop :=
  Followed EndsInPictograph (clusterRole · = .joiner)

def EndsInConsonant : Text → Prop := Trailed (EndsIn .consonant) IsConjunctMark

def EndsInLinkedConsonant : Text → Prop :=
  Trailed (Followed EndsInConsonant IsLinker) IsConjunctMark

/-- An odd number of regional indicators, the last of which has no partner. -/
def EndsInOddRegional (text : Text) : Prop :=
  (text.reverse.takeWhile (clusterRole · = .regional)).length % 2 = 1

/-- The roles that join with nothing, a line end of two characters apart. -/
def ClusterRole.standsAlone : ClusterRole → Bool
  | .carriageReturn | .newline | .control => true
  | _ => false

/-- The rules by which the next character belongs to the cluster that ends a text. -/
inductive Joins (front : Text) (next : Char) : Prop
  | lineEnd (ends : EndsIn .carriageReturn front) (here : clusterRole next = .newline)
  | leading (ends : EndsIn .leading front)
      (here : clusterRole next ∈ [.leading, .vowel, .openSyllable, .closedSyllable])
  | vowel (ends : EndsIn .openSyllable front ∨ EndsIn .vowel front)
      (here : clusterRole next ∈ [.vowel, .trailing])
  | trailing (ends : EndsIn .closedSyllable front ∨ EndsIn .trailing front)
      (here : clusterRole next = .trailing)
  | mark {role : ClusterRole} (ends : EndsIn role front) (joinable : role.standsAlone = false)
      (here : clusterRole next ∈ [.extend, .joiner, .spacingMark])
  | prepended (ends : EndsIn .prepend front)
      (joinable : (clusterRole next).standsAlone = false)
  | conjunct (ends : EndsInLinkedConsonant front) (here : clusterRole next = .consonant)
  | pictographs (ends : EndsInJoinedPictograph front) (here : clusterRole next = .pictograph)
  | flag (ends : EndsInOddRegional front) (here : clusterRole next = .regional)

variable {front : Text} {next last : Char} {role : ClusterRole}

theorem ends_in_concat_iff : EndsIn role (front ++ [last]) ↔ clusterRole last = role := by
  rw [EndsIn, followed_concat_iff, true_and]

theorem ends_in_pictograph_concat_iff :
    EndsInPictograph (front ++ [last]) ↔
      clusterRole last = .pictograph ∨ clusterRole last = .extend ∧ EndsInPictograph front := by
  rw [EndsInPictograph, trailed_concat_iff, ends_in_concat_iff]

theorem ends_in_joined_pictograph_concat_iff :
    EndsInJoinedPictograph (front ++ [last]) ↔
      EndsInPictograph front ∧ clusterRole last = .joiner := by
  rw [EndsInJoinedPictograph, followed_concat_iff]

theorem ends_in_consonant_concat_iff :
    EndsInConsonant (front ++ [last]) ↔
      clusterRole last = .consonant ∨ IsConjunctMark last ∧ EndsInConsonant front := by
  rw [EndsInConsonant, trailed_concat_iff, ends_in_concat_iff]

theorem ends_in_linked_consonant_concat_iff :
    EndsInLinkedConsonant (front ++ [last]) ↔
      EndsInConsonant front ∧ IsLinker last ∨
        IsConjunctMark last ∧ EndsInLinkedConsonant front := by
  rw [EndsInLinkedConsonant, trailed_concat_iff, followed_concat_iff]

theorem ends_in_odd_regional_concat_iff :
    EndsInOddRegional (front ++ [last]) ↔
      clusterRole last = .regional ∧ ¬ EndsInOddRegional front := by
  rw [EndsInOddRegional, EndsInOddRegional, List.reverse_concat]
  by_cases regional : clusterRole last = .regional
  · rw [List.takeWhile_cons_of_pos (by simpa using regional), List.length_cons]
    simp only [regional, true_and]
    omega
  · rw [List.takeWhile_cons_of_neg (by simpa using regional)]
    simp [regional]

theorem keeps_conjunct_of_links (links : linksConsonants last = true) :
    keepsConjunct last = true := by
  rw [keepsConjunct, decide_eq_true_iff]
  intro nonJoiner
  rw [linksConsonants, nonJoiner] at links
  exact absurd links (by decide)

/-! What a reader remembers. -/

/-- The state of a reader tells what the text that it has read ends in. -/
structure ClusterState.Tells (state : ClusterState) (front : Text) : Prop where
  role : state.role = (front.getLast?.map clusterRole).getD .control
  pictograph : state.pictographs = .pictograph ↔ EndsInPictograph front
  joined : state.pictographs = .joined ↔ EndsInJoinedPictograph front
  consonant : state.conjunct ≠ .none ↔ EndsInConsonant front
  linked : state.conjunct = .linked ↔ EndsInLinkedConsonant front
  oddRegional : state.oddRegional = true ↔ EndsInOddRegional front

theorem tells_start : ClusterState.start.Tells [] where
  role := rfl
  pictograph := by
    simp [ClusterState.start, EndsInPictograph, trailed_nil_iff, EndsIn, not_followed_nil]
  joined := by simp [ClusterState.start, EndsInJoinedPictograph, not_followed_nil]
  consonant := by
    simp [ClusterState.start, EndsInConsonant, trailed_nil_iff, EndsIn, not_followed_nil]
  linked := by
    simp [ClusterState.start, EndsInLinkedConsonant, trailed_nil_iff, not_followed_nil]
  oddRegional := by simp [ClusterState.start, EndsInOddRegional]

variable {state : ClusterState}

theorem pictograph_advance_iff :
    (state.advance next).pictographs = .pictograph ↔
      clusterRole next = .pictograph ∨
        clusterRole next = .extend ∧ state.pictographs = .pictograph := by
  dsimp only [ClusterState.advance]
  cases clusterRole next <;> cases state.pictographs <;> simp

theorem joined_advance_iff :
    (state.advance next).pictographs = .joined ↔
      state.pictographs = .pictograph ∧ clusterRole next = .joiner := by
  dsimp only [ClusterState.advance]
  cases clusterRole next <;> cases state.pictographs <;> simp

theorem consonant_advance_iff :
    (state.advance next).conjunct ≠ .none ↔
      clusterRole next = .consonant ∨ IsConjunctMark next ∧ state.conjunct ≠ .none := by
  dsimp only [ClusterState.advance, IsConjunctMark]
  cases clusterRole next with
  | extend =>
      have keeps : linksConsonants next = true → keepsConjunct next = true :=
        keeps_conjunct_of_links
      cases links : linksConsonants next <;> cases state.conjunct <;> simp_all
  | _ => cases state.conjunct <;> simp

theorem linked_advance_iff :
    (state.advance next).conjunct = .linked ↔
      state.conjunct ≠ .none ∧ IsLinker next ∨
        IsConjunctMark next ∧ state.conjunct = .linked := by
  dsimp only [ClusterState.advance, IsConjunctMark, IsLinker]
  cases clusterRole next with
  | extend =>
      have keeps : linksConsonants next = true → keepsConjunct next = true :=
        keeps_conjunct_of_links
      cases kept : keepsConjunct next <;> cases state.conjunct <;> simp_all
  | _ => cases state.conjunct <;> simp

theorem tells_advance (tells : state.Tells front) (next : Char) :
    (state.advance next).Tells (front ++ [next]) where
  role := by simp [ClusterState.advance]
  pictograph := by
    rw [pictograph_advance_iff, ends_in_pictograph_concat_iff, tells.pictograph]
  joined := by
    rw [joined_advance_iff, ends_in_joined_pictograph_concat_iff, tells.pictograph]
  consonant := by
    rw [consonant_advance_iff, ends_in_consonant_concat_iff, tells.consonant]
  linked := by
    rw [linked_advance_iff, ends_in_linked_consonant_concat_iff, tells.consonant, tells.linked]
  oddRegional := by
    rw [ends_in_odd_regional_concat_iff, ← tells.oddRegional]
    simp [ClusterState.advance]

def ClusterState.after (front : Text) : ClusterState :=
  front.foldl ClusterState.advance .start

theorem tells_after (front : Text) : (ClusterState.after front).Tells front := by
  induction front using List.reverseRecOn with
  | nil => exact tells_start
  | append_singleton front next tells =>
      rw [ClusterState.after, List.foldl_append]
      exact tells_advance tells next

/-! Where clusters begin. -/

theorem ends_in_iff (tells : state.Tells front) (solid : role ≠ .control) :
    EndsIn role front ↔ state.role = role := by
  rcases List.eq_nil_or_concat' front with rfl | ⟨front, last, rfl⟩
  · rw [tells.role]
    exact iff_of_false not_followed_nil solid.symm
  · rw [ends_in_concat_iff, tells.role]
    simp

theorem mark_of_linked (linked : EndsInLinkedConsonant front) :
    EndsIn .extend front ∨ EndsIn .joiner front := by
  rcases List.eq_nil_or_concat' front with rfl | ⟨front, last, rfl⟩
  · exact absurd (trailed_nil_iff.1 linked) not_followed_nil
  · rw [ends_in_concat_iff, ends_in_concat_iff]
    rcases ends_in_linked_consonant_concat_iff.1 linked with ⟨-, linker⟩ | ⟨mark, -⟩
    · exact .inl linker.1
    · exact mark.symm.imp_left And.left

theorem joiner_of_joined (joined : EndsInJoinedPictograph front) : EndsIn .joiner front := by
  obtain ⟨before, last, rfl, -, joiner⟩ := joined
  exact ends_in_concat_iff.2 joiner

theorem regional_of_odd (odd : EndsInOddRegional front) : EndsIn .regional front := by
  rcases List.eq_nil_or_concat' front with rfl | ⟨front, last, rfl⟩
  · cases odd
  · exact ends_in_concat_iff.2 (ends_in_odd_regional_concat_iff.1 odd).1

theorem solid_of_joinable (joinable : role.standsAlone = false) : role ≠ .control := by
  rintro rfl
  cases joinable

theorem joins_of_continues (tells : state.Tells front)
    (goes_on : state.continues (clusterRole next) = true) : Joins front next := by
  have ends {role : ClusterRole} (stands : state.role = role) (solid : role ≠ .control) :
      EndsIn role front := (ends_in_iff tells solid).2 stands
  have marks (joinable : state.role.standsAlone = false)
      (here : clusterRole next ∈ [.extend, .joiner, .spacingMark]) : Joins front next :=
    .mark (ends rfl (solid_of_joinable joinable)) joinable here
  unfold ClusterState.continues at goes_on
  split at goes_on
  case h_1 stands here => exact .lineEnd (ends stands nofun) here
  case h_8 | h_9 | h_10 => exact marks (by grind [ClusterRole.standsAlone]) (by simp [*])
  case h_11 => exact .prepended (ends ‹_› nofun) (by grind [ClusterRole.standsAlone])
  case h_12 | h_13 | h_14 | h_15 => exact .leading (ends ‹_› nofun) (by simp [*])
  case h_16 | h_17 => exact .vowel (.inl (ends ‹_› nofun)) (by simp [*])
  case h_18 | h_19 => exact .vowel (.inr (ends ‹_› nofun)) (by simp [*])
  case h_20 stands here => exact .trailing (.inl (ends stands nofun)) here
  case h_21 stands here => exact .trailing (.inr (ends stands nofun)) here
  case h_22 here => exact .pictographs (tells.joined.1 (by simpa using goes_on)) here
  case h_23 here => exact .flag (tells.oddRegional.1 goes_on) here
  case h_24 => exact .conjunct (tells.linked.1 (by simpa using goes_on)) ‹_›
  all_goals cases goes_on

theorem continues_of_joins (tells : state.Tells front) (joins : Joins front next) :
    state.continues (clusterRole next) = true := by
  have stands {role : ClusterRole} (ends : EndsIn role front) (solid : role ≠ .control) :
      state.role = role := (ends_in_iff tells solid).1 ends
  cases joins with
  | lineEnd ends here => simp [ClusterState.continues, stands ends nofun, here]
  | leading ends here =>
      simp only [List.mem_cons, List.not_mem_nil, or_false] at here
      rcases here with here | here | here | here <;>
        simp [ClusterState.continues, stands ends nofun, here]
  | vowel ends here =>
      simp only [List.mem_cons, List.not_mem_nil, or_false] at here
      rcases ends with ends | ends <;> rcases here with here | here <;>
        simp [ClusterState.continues, stands ends nofun, here]
  | trailing ends here =>
      rcases ends with ends | ends <;> simp [ClusterState.continues, stands ends nofun, here]
  | mark ends joinable here =>
      have stands := stands ends (solid_of_joinable joinable)
      simp only [List.mem_cons, List.not_mem_nil, or_false] at here
      subst stands
      unfold ClusterState.continues
      rcases here with here | here | here <;> rw [here] <;>
        cases held : state.role <;> simp_all [ClusterRole.standsAlone]
  | prepended ends joinable =>
      unfold ClusterState.continues
      rw [stands ends nofun]
      cases here : clusterRole next <;> simp_all [ClusterRole.standsAlone]
  | conjunct linked here =>
      rcases mark_of_linked linked with ends | ends <;>
        simp [ClusterState.continues, stands ends nofun, here, tells.linked.2 linked]
  | pictographs joined here =>
      simp [ClusterState.continues, stands (joiner_of_joined joined) nofun, here,
        tells.joined.2 joined]
  | flag odd here =>
      simp [ClusterState.continues, stands (regional_of_odd odd) nofun, here,
        tells.oddRegional.2 odd]

/-- A reader goes on with a cluster exactly by the rules. -/
theorem continues_iff_joins (front : Text) (next : Char) :
    (ClusterState.after front).continues (clusterRole next) = true ↔ Joins front next :=
  ⟨joins_of_continues (tells_after front), continues_of_joins (tells_after front)⟩

instance (front : Text) (next : Char) : Decidable (Joins front next) :=
  decidable_of_iff _ (continues_iff_joins front next)

theorem clusters_concat (state : ClusterState) (front : Text) (next : Char) (count : Nat) :
    clustersFrom state (front ++ [next]) count =
      clustersFrom state front count +
        if (front.foldl ClusterState.advance state).continues (clusterRole next) then 0 else 1 := by
  induction front generalizing state count with
  | nil =>
      simp only [List.nil_append, clustersFrom, List.foldl_nil]
      split <;> simp [*]
  | cons first rest induction => exact induction _ _

/-- A further character begins a new cluster exactly if no rule joins it to what is in front of
it. -/
theorem cluster_count_concat (front : Text) (next : Char) :
    clusterCount (front ++ [next]) = clusterCount front + if Joins front next then 0 else 1 := by
  have rules := continues_iff_joins front next
  rw [clusterCount, clusters_concat, clusterCount, ← ClusterState.after]
  simp only [rules]

end StepStream.Text
