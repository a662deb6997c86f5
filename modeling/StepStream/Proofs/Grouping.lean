import Mathlib.Data.Char
import Mathlib.Data.List.Lex
import Mathlib.Data.List.Nodup
import Mathlib.Data.List.Perm.Basic
import StepStream.Answer.Grouping

/-!
The groups of an answer set. A key has a group exactly if an atom has this key, the group
holds exactly these atoms, and everything is sorted. Since both orders are linear, the groups
do not depend on the order in which the server printed the atoms.
-/

namespace StepStream

set_option autoImplicit false

section Orders

theorem atom_precedes_iff (left right : Text) : atomPrecedes left right = true ↔ left ≤ right := by
  rw [← not_lt]
  induction left generalizing right with
  | nil => simp [atomPrecedes]
  | cons first rest induction =>
      cases right with
      | nil => simp [atomPrecedes]
      | cons other others =>
          have order : first < other ↔ first.toNat < other.toNat := Iff.rfl
          have same : first.toNat = other.toNat ↔ first = other := Char.toNat_inj
          rw [List.cons_lt_cons_iff, not_or, not_and, not_lt]
          simp only [atomPrecedes, Bool.or_eq_true, Bool.and_eq_true, decide_eq_true_eq,
            beq_iff_eq, induction, ← order, same]
          grind

def TimeKey.place : TimeKey → Nat
  | base => 0
  | step number => number + 1

theorem TimeKey.precedes_iff (left right : TimeKey) :
    left.precedes right = true ↔ left.place ≤ right.place := by
  cases left <;> cases right <;> simp [precedes, place]

theorem TimeKey.eq_of_place {left right : TimeKey} (same : left.place = right.place) :
    left = right := by
  cases left <;> cases right <;> simp_all [place]

variable {Item : Type} {precedes : Item → Item → Bool}

structure IsLinear (precedes : Item → Item → Bool) : Prop where
  trans : ∀ first second third, precedes first second = true → precedes second third = true →
    precedes first third = true
  total : ∀ first second, (precedes first second || precedes second first) = true
  antisymm : ∀ first second, precedes first second = true → precedes second first = true →
    first = second

theorem linear_atoms : IsLinear atomPrecedes where
  trans := by
    simp only [atom_precedes_iff]
    exact fun _ _ _ => le_trans
  total := by
    simp only [Bool.or_eq_true, atom_precedes_iff]
    exact le_total
  antisymm := by
    simp only [atom_precedes_iff]
    exact fun _ _ => le_antisymm

theorem linear_keys : IsLinear TimeKey.precedes where
  trans := by
    simp only [TimeKey.precedes_iff]
    exact fun _ _ _ => Nat.le_trans
  total := by
    simp only [Bool.or_eq_true, TimeKey.precedes_iff]
    exact fun first second => Nat.le_total first.place second.place
  antisymm := by
    simp only [TimeKey.precedes_iff]
    exact fun _ _ before behind => TimeKey.eq_of_place (Nat.le_antisymm before behind)

theorem sort_of_perm (linear : IsLinear precedes) {left right : List Item}
    (same : left.Perm right) : left.mergeSort precedes = right.mergeSort precedes := by
  have sortedLeft := List.pairwise_mergeSort linear.trans linear.total left
  have sortedRight := List.pairwise_mergeSort linear.trans linear.total right
  have permuted : (left.mergeSort precedes).Perm (right.mergeSort precedes) :=
    ((List.mergeSort_perm left precedes).trans same).trans
      (List.mergeSort_perm right precedes).symm
  exact permuted.eq_of_pairwise (fun first second _ _ => linear.antisymm first second) sortedLeft
    sortedRight

end Orders

theorem nodup_erase_dups {Item : Type} [DecidableEq Item] : (items : List Item) →
    items.eraseDups.Nodup
  | [] => by simp
  | item :: items => by
      rw [List.eraseDups_cons, List.nodup_cons]
      exact ⟨by simp, nodup_erase_dups (items.filter fun other => !other == item)⟩
termination_by items => items.length
decreasing_by exact Nat.lt_succ_of_le (List.length_filter_le ..)

theorem TimeKey.step_of_atom_iff {atom : Text} {step : Nat} :
    ofAtom atom = .step step ↔ Atom.trailingStep atom = some step := by
  rw [ofAtom]
  cases Atom.trailingStep atom <;> simp

theorem TimeKey.base_of_atom_iff {atom : Text} :
    ofAtom atom = .base ↔ Atom.trailingStep atom = none := by
  rw [ofAtom]
  cases Atom.trailingStep atom <;> simp

def atomsAt (key : TimeKey) (atoms : List Text) : List Text :=
  atoms.filter fun atom => TimeKey.ofAtom atom = key

/-- Whether these are the groups of these atoms: a key stands there, in ascending order and
once, exactly if an atom has it, and its group is all atoms with this key, sorted. -/
structure IsGrouping (atoms : List Text) (groups : Grouping) : Prop where
  ascending : groups.Pairwise fun earlier later => earlier.1.place < later.1.place
  keys : ∀ key, key ∈ groups.map Prod.fst ↔ ∃ atom ∈ atoms, TimeKey.ofAtom atom = key
  sorted : ∀ group ∈ groups, group.2.Pairwise (· ≤ ·)
  whole : ∀ group ∈ groups, group.2.Perm (atomsAt group.1 atoms)

def keysOf (atoms : List Text) : List TimeKey :=
  ((atoms.map TimeKey.ofAtom).eraseDups).mergeSort TimeKey.precedes

theorem group_by_step_eq (answerSet : AnswerSet) :
    answerSet.groupByStep = (keysOf answerSet.atoms).map fun key =>
      (key, (atomsAt key answerSet.atoms).mergeSort atomPrecedes) := by
  have tagged (key : TimeKey) (atoms : List Text) :
      ((atoms.map fun atom => (TimeKey.ofAtom atom, atom)).filter fun entry =>
        entry.1 = key).map Prod.snd = atomsAt key atoms := by
    rw [List.filter_map, List.map_map]
    exact List.map_id _
  unfold AnswerSet.groupByStep keysOf
  simp only [List.map_map, tagged]
  rfl

theorem mem_keys_of (atoms : List Text) (key : TimeKey) :
    key ∈ keysOf atoms ↔ ∃ atom ∈ atoms, TimeKey.ofAtom atom = key := by
  rw [keysOf, List.mem_mergeSort, List.mem_eraseDups, List.mem_map]

theorem keys_ascending (atoms : List Text) :
    (keysOf atoms).Pairwise fun earlier later => earlier.place < later.place := by
  have sorted := List.pairwise_mergeSort linear_keys.trans linear_keys.total
    ((atoms.map TimeKey.ofAtom).eraseDups)
  have once : (keysOf atoms).Nodup :=
    (List.mergeSort_perm ..).nodup_iff.2 (nodup_erase_dups (atoms.map TimeKey.ofAtom))
  apply (sorted.and once).imp
  rintro earlier later ⟨precedes, different⟩
  rw [TimeKey.precedes_iff] at precedes
  exact Nat.lt_of_le_of_ne precedes fun same => different (TimeKey.eq_of_place same)

theorem keys_split {keys : List TimeKey}
    (ascending : keys.Pairwise fun earlier later => earlier.place < later.place) :
    ∃ steps : List Nat, steps.Pairwise (· < ·) ∧
      keys = (if .base ∈ keys then [.base] else []) ++ steps.map .step := by
  have timed {keys : List TimeKey} (absent : .base ∉ keys) :
      ∃ steps : List Nat, keys = steps.map .step := by
    induction keys with
    | nil => exact ⟨[], rfl⟩
    | cons key keys induction =>
        obtain ⟨differs, absent⟩ := not_or.1 (mt List.mem_cons.2 absent)
        obtain ⟨steps, rfl⟩ := induction absent
        cases key with
        | base => exact absurd rfl differs
        | step number => exact ⟨number :: steps, rfl⟩
  have sorted {steps : List Nat} (ascending : (steps.map TimeKey.step).Pairwise
      fun earlier later => earlier.place < later.place) : steps.Pairwise (· < ·) :=
    (List.pairwise_map.1 ascending).imp Nat.lt_of_succ_lt_succ
  cases keys with
  | nil => exact ⟨[], .nil, rfl⟩
  | cons key keys =>
      obtain ⟨before, behind⟩ := List.pairwise_cons.1 ascending
      cases key with
      | base =>
          obtain ⟨steps, rfl⟩ := timed fun member => absurd (before _ member) (Nat.lt_irrefl _)
          exact ⟨steps, sorted behind, by rw [if_pos List.mem_cons_self]; rfl⟩
      | step number =>
          have absent : .base ∉ TimeKey.step number :: keys := by
            intro member
            cases member with
            | tail _ member => exact absurd (before _ member) (Nat.not_lt_zero _)
          obtain ⟨steps, same⟩ := timed absent
          exact ⟨steps, sorted (same ▸ ascending), by rw [if_neg absent]; exact same⟩

theorem is_grouping_by_step (answerSet : AnswerSet) :
    IsGrouping answerSet.atoms answerSet.groupByStep := by
  rw [group_by_step_eq]
  constructor
  · rw [List.pairwise_map]
    exact keys_ascending answerSet.atoms
  · intro key
    rw [List.map_map, ← mem_keys_of]
    exact iff_of_eq (congrArg _ (List.map_id _))
  · intro group member
    obtain ⟨key, -, rfl⟩ := List.mem_map.1 member
    have sorted := List.pairwise_mergeSort linear_atoms.trans linear_atoms.total
      (atomsAt key answerSet.atoms)
    exact sorted.imp (atom_precedes_iff _ _).1
  · intro group member
    obtain ⟨key, -, rfl⟩ := List.mem_map.1 member
    exact List.mergeSort_perm ..

/-- The order in which the atoms were printed does not matter. -/
theorem group_by_step_of_perm {left right : AnswerSet} (same : left.atoms.Perm right.atoms) :
    left.groupByStep = right.groupByStep := by
  have keys : keysOf left.atoms = keysOf right.atoms := by
    apply sort_of_perm linear_keys
    rw [List.perm_ext_iff_of_nodup (nodup_erase_dups _) (nodup_erase_dups _)]
    intro key
    simp only [List.mem_eraseDups, (same.map TimeKey.ofAtom).mem_iff]
  rw [group_by_step_eq, group_by_step_eq, keys]
  apply List.map_congr_left
  intro key _
  rw [atomsAt, atomsAt, sort_of_perm linear_atoms (same.filter _)]

/-- Items that are picked out key by key are all items with one of the keys. -/
theorem picked_by_key {Item Key : Type} [DecidableEq Key] (keyOf : Item → Key) (items : List Item)
    {keys : List Key} (distinct : keys.Nodup) :
    (keys.flatMap fun key => items.filter fun item => keyOf item = key).Perm
      (items.filter fun item => keyOf item ∈ keys) := by
  induction keys with
  | nil => simp
  | cons key keys induction =>
      obtain ⟨absent, distinct⟩ := List.nodup_cons.1 distinct
      have first : (items.filter fun item => keyOf item ∈ key :: keys).filter
          (fun item => keyOf item = key) = items.filter fun item => keyOf item = key := by
        rw [List.filter_filter]
        apply List.filter_congr
        intro item _
        by_cases here : keyOf item = key <;> simp [here]
      have others : (items.filter fun item => keyOf item ∈ key :: keys).filter
          (fun item => !decide (keyOf item = key)) =
            items.filter fun item => keyOf item ∈ keys := by
        rw [List.filter_filter]
        apply List.filter_congr
        intro item _
        by_cases here : keyOf item = key <;> simp [here, absent]
      have whole := List.filter_append_perm (fun item => decide (keyOf item = key))
        (items.filter fun item => keyOf item ∈ key :: keys)
      rw [first, others] at whole
      rw [List.flatMap_cons]
      exact ((induction distinct).append_left _).trans whole

theorem IsGrouping.distinct {atoms : List Text} {groups : Grouping}
    (grouping : IsGrouping atoms groups) : (groups.map Prod.fst).Nodup := by
  rw [List.nodup_iff_pairwise_ne, List.pairwise_map]
  exact grouping.ascending.imp fun before same =>
    absurd (congrArg TimeKey.place same) (Nat.ne_of_lt before)

theorem IsGrouping.once {atoms : List Text} {groups : Grouping}
    (grouping : IsGrouping atoms groups) : (groups.flatMap Prod.snd).Perm atoms := by
  have every : (atoms.filter fun atom => TimeKey.ofAtom atom ∈ groups.map Prod.fst) = atoms := by
    rw [List.filter_eq_self]
    intro atom member
    rw [decide_eq_true_eq, grouping.keys]
    exact ⟨atom, member, rfl⟩
  have picked := picked_by_key TimeKey.ofAtom atoms grouping.distinct
  rw [List.flatMap_map, every] at picked
  exact (List.Perm.flatMap_left groups grouping.whole).trans picked

theorem IsGrouping.nonempty {atoms : List Text} {groups : Grouping}
    (grouping : IsGrouping atoms groups) {group : TimeKey × List Text} (member : group ∈ groups) :
    group.2 ≠ [] := by
  obtain ⟨atom, here, timed⟩ := (grouping.keys group.1).1 (List.mem_map_of_mem member)
  apply List.ne_nil_of_mem (a := atom)
  rw [(grouping.whole group member).mem_iff]
  exact List.mem_filter.2 ⟨here, decide_eq_true timed⟩

/-- The groups tell which atoms there are, and how often. -/
theorem perm_of_groupings {left right : List Text} {groups : Grouping}
    (first : IsGrouping left groups) (second : IsGrouping right groups) : left.Perm right :=
  first.once.symm.trans second.once

end StepStream
