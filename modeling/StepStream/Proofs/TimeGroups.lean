import StepStream.Proofs.Grouping
import StepStream.Proofs.TimeArgument

/-!
The groups of printed atoms. What tells the group of an atom is its last argument as a term: an
unsigned numeral up to the greatest step, or anything else. Digits inside a string, inside a
function term or behind a sign do not count.
-/

namespace StepStream

set_option autoImplicit false

open Text

namespace PrintedAtom

open Clause

def EndsInStep (atom : PrintedAtom) (step : Nat) : Prop :=
  ∃ digits, atom.arguments.getLast? = some (.integer false digits) ∧
    valueOfDigits digits.text = step ∧ step < Nat.pow 2 64

def timeKey (atom : PrintedAtom) : TimeKey :=
  match atom.timeArgument with
  | some digits =>
      if valueOfDigits digits.text ≤ greatestStep then .step (valueOfDigits digits.text) else .base
  | none => .base

theorem numeral_iff {term : Term} {digits : Digits} :
    term.numeral = some digits ↔ term = .integer false digits := by
  cases term with
  | integer isNegative => cases isNegative <;> simp [Term.numeral]
  | _ => simp [Term.numeral]

theorem time_argument_iff {atom : PrintedAtom} {digits : Digits} :
    atom.timeArgument = some digits ↔ atom.arguments.getLast? = some (.integer false digits) := by
  rw [timeArgument, Option.bind_eq_some_iff]
  simp [numeral_iff]

theorem trailing_step_iff {atom : PrintedAtom} (inline : '\n' ∉ atom.text) (step : Nat) :
    Atom.trailingStep atom.text = some step ↔ atom.EndsInStep step := by
  have bounded : step ≤ greatestStep ↔ step < Nat.pow 2 64 := by
    rw [greatestStep]
    exact Nat.le_sub_one_iff_lt (by decide)
  rw [trailing_step_eq, if_neg inline, Option.bind_eq_some_iff, EndsInStep]
  refine exists_congr fun digits => ?_
  rw [time_argument_iff, read_numeral_of_digits, Option.ite_none_right_eq_some, Option.some_inj,
    ← bounded]
  refine and_congr_right fun _ => ?_
  constructor
  · rintro ⟨small, rfl⟩
    exact ⟨rfl, small⟩
  · rintro ⟨rfl, small⟩
    exact ⟨small, rfl⟩

theorem key_of_atom {atom : PrintedAtom} (inline : '\n' ∉ atom.text) :
    TimeKey.ofAtom atom.text = atom.timeKey := by
  rw [TimeKey.ofAtom, trailing_step_eq, if_neg inline, timeKey]
  cases atom.timeArgument with
  | none => rfl
  | some digits =>
      rw [Option.bind_some, read_numeral_of_digits]
      by_cases small : valueOfDigits digits.text ≤ greatestStep
      · simp only [small, if_true]
      · simp only [small, if_false]

theorem atoms_at_key (key : TimeKey) {atoms : List PrintedAtom}
    (inline : ∀ atom ∈ atoms, '\n' ∉ atom.text) :
    atomsAt key (atoms.map text) = (atoms.filter fun atom => atom.timeKey = key).map text := by
  rw [atomsAt, List.filter_map]
  congr 1
  apply List.filter_congr
  intro atom member
  rw [Function.comp_apply, key_of_atom (inline atom member)]

/-- The step of a printed atom is its last argument if that is an unsigned numeral below two to the
sixty-fourth power, and otherwise it has none. Its answer set is grouped by this: the groups stand
in ascending order, none is empty, each is sorted and has just the atoms with its key, and all
groups together have every atom as often as the answer set. -/
theorem filed_by_last_argument (step : Option Nat) {atoms : List PrintedAtom}
    (inline : ∀ atom ∈ atoms, '\n' ∉ atom.text) :
    let groups := AnswerSet.groupByStep ⟨step, atoms.map text⟩
    (∀ atom ∈ atoms,
      (∀ value, Atom.trailingStep atom.text = some value ↔ atom.EndsInStep value) ∧
      (∀ value, atom.timeKey = .step value ↔ atom.EndsInStep value) ∧
      ∃ group ∈ groups, group.1 = atom.timeKey ∧ atom.text ∈ group.2) ∧
    groups.Pairwise (fun earlier later => earlier.1.place < later.1.place) ∧
    (∀ group ∈ groups, group.2 ≠ [] ∧ group.2.Pairwise (· ≤ ·) ∧
      group.2.Perm ((atoms.filter fun atom => atom.timeKey = group.1).map text)) ∧
    (groups.flatMap Prod.snd).Perm (atoms.map text) := by
  intro groups
  have grouping : IsGrouping (atoms.map text) groups :=
    is_grouping_by_step ⟨step, atoms.map text⟩
  refine ⟨fun atom member => ⟨trailing_step_iff (inline atom member), ?_, ?_⟩,
    grouping.ascending, fun group member => ⟨grouping.nonempty member, grouping.sorted group member,
      ?_⟩, grouping.once⟩
  · intro value
    rw [← key_of_atom (inline atom member), TimeKey.step_of_atom_iff,
      trailing_step_iff (inline atom member)]
  · have printed := List.mem_map_of_mem (f := text) member
    obtain ⟨group, here, same⟩ := List.mem_map.1 ((grouping.keys (TimeKey.ofAtom atom.text)).2
      ⟨atom.text, printed, rfl⟩)
    refine ⟨group, here, same.trans (key_of_atom (inline atom member)), ?_⟩
    rw [(grouping.whole group here).mem_iff, same]
    exact List.mem_filter.2 ⟨printed, decide_eq_true rfl⟩
  · rw [← atoms_at_key group.1 inline]
    exact grouping.whole group member

/-- A string with a comma, a quote, digits and a parenthesis at its end, a negative integer inside a
function term, a numeral with leading zeros and one that is no step. -/
theorem digits_in_terms_are_no_step :
    let name : Ground.Name := ⟨['p'], rfl⟩
    let numeral : Digits := ⟨"007".toList, by decide, List.all_eq_true.1 rfl⟩
    let beyond : Digits := ⟨"18446744073709551616".toList, by decide, List.all_eq_true.1 rfl⟩
    let quoted : Term := .string [.plain ',' (by decide), .escaped '"', .plain '7' (by decide),
      .plain ')' (by decide)]
    let nested : Term := .function name (.last Gap.none (.integer true numeral) Gap.none)
    let timed : PrintedAtom := ⟨true, name, [quoted, nested, .integer false numeral]⟩
    let atoms : List PrintedAtom :=
      [timed, ⟨false, name, [.integer false numeral, quoted]⟩, ⟨false, name, [nested]⟩, timed,
        ⟨false, name, [.integer false beyond]⟩, ⟨false, name, []⟩]
    atoms.map text = ["-p(\",\\\"7)\",p(-007),007)".toList, "p(007,\",\\\"7)\")".toList,
      "p(p(-007))".toList, "-p(\",\\\"7)\",p(-007),007)".toList, "p(18446744073709551616)".toList,
      ['p']] ∧
    (∀ atom ∈ atoms, '\n' ∉ atom.text) ∧
    atoms.map timeKey = [.step 7, .base, .base, .step 7, .base, .base] ∧
    (Atom.trailingStep timed.text = some 7 ↔ timed.EndsInStep 7) ∧
    ((AnswerSet.groupByStep ⟨none, atoms.map text⟩).flatMap Prod.snd).Perm (atoms.map text) := by
  intro name numeral beyond quoted nested timed atoms
  have inline : ∀ atom ∈ atoms, '\n' ∉ atom.text := by decide
  have filed := filed_by_last_argument none inline
  exact ⟨by decide, inline, by decide, (filed.1 timed (by simp [atoms])).1 7, filed.2.2.2⟩

end PrintedAtom

end StepStream
