import StepStream.Proofs.TimeArgument
import StepStream.Session.CarryOver

/-!
Carrying over and filing by time. Both look for the number at the end of an atom, and for printed
atoms they find the same one. But the table takes it for a step only if it is one, while the carried
constraint loses it however great it is.
-/

namespace StepStream

set_option autoImplicit false

open Text

namespace PrintedAtom

open Clause

def isInstance (predicate : Ground.Name) (atom : PrintedAtom) : Bool :=
  !atom.isNegated && atom.name.text = predicate.text

/-- The arguments without a last one that is an unsigned numeral. -/
def timeless (atom : PrintedAtom) : List Term :=
  if atom.timeArgument.isSome then atom.arguments.dropLast else atom.arguments

/-- The arguments without the step that the table files the atom under. -/
def stepless (atom : PrintedAtom) : List Term :=
  if (Atom.trailingStep atom.text).isSome then atom.arguments.dropLast else atom.arguments

def demand (predicate : Ground.Name) (arguments : List Term) : Text :=
  ":- not ".toList ++ Line.atomText predicate.text (listed arguments) ++ ['.']

theorem without_time_cut (arguments : Text) :
    CarryOver.withoutTime arguments =
      if (cut arguments).2 ≠ [] ∧ (trim (cut arguments).2).all isDigit then (cut arguments).1
      else arguments := rfl

theorem without_time_listed (atom : PrintedAtom) :
    CarryOver.withoutTime (listed atom.arguments) = listed atom.timeless := by
  rw [without_time_cut, timeless, timeArgument]
  rcases List.eq_nil_or_concat' atom.arguments with none | ⟨front, last, some⟩
  · rw [none]
    rfl
  · rw [some, List.getLast?_concat, Option.bind_some, List.dropLast_concat]
    cases kind : last.numeral with
    | none =>
        obtain ⟨character, member, unblank, noDigit⟩ := word_in_cut front kind
        apply if_neg
        rintro ⟨-, digits⟩
        rw [List.all_eq_true.1 digits character (mem_trim unblank member)] at noDigit
        cases noDigit
    | some digits =>
        have spelled := text_of_numeral kind
        have solid := digits.solid
        rw [← spelled] at solid
        rw [cut_of_solid front solid, spelled, (trim_digits digits).2]
        exact if_pos ⟨digits.nonempty, List.all_eq_true.2 digits.ascii⟩

/-! ## The atoms of the predicate -/

theorem name_of_front {name : Ground.Name} {rest : Text} (ends : EndsName rest) :
    (name.text ++ rest).takeWhile CharClass.isNamePart = name.text :=
  take_while_append (CarryOver.name_part_of_predicate name.valid) ends

theorem behind_of_arguments {predicate atom arguments : Text}
    (found : CarryOver.argumentsOf predicate atom = some arguments) :
    ∃ behind, atom = predicate ++ behind ∧ EndsName behind := by
  rw [CarryOver.argumentsOf, Option.bind_eq_bind, Option.bind_eq_some_iff] at found
  obtain ⟨behind, lead, found⟩ := found
  refine ⟨behind, Line.after_lead_iff.1 lead, ?_⟩
  split at found
  · next none =>
      rw [none]
      exact ends_name_nil
  · rw [Option.bind_eq_some_iff] at found
    obtain ⟨opened, parenthesis, -⟩ := found
    rw [Line.after_lead_iff.1 parenthesis]
    exact ends_name_opened opened

/-- Neither a sign in front of a name nor a longer name is taken for the predicate. -/
theorem instance_of_arguments {predicate : Ground.Name} {atom : PrintedAtom} {arguments : Text}
    (found : CarryOver.argumentsOf predicate.text atom.text = some arguments) :
    isInstance predicate atom = true := by
  obtain ⟨behind, lead, ends⟩ := behind_of_arguments found
  rw [text_eq, sign] at lead
  cases negated : atom.isNegated with
  | true =>
      obtain ⟨first, letters, named, start, -⟩ := CarryOver.is_predicate_iff.1 predicate.valid
      rw [negated, named] at lead
      obtain ⟨rfl, -⟩ := List.cons.inj lead
      exact absurd start (by decide)
  | false =>
      rw [negated] at lead
      have same := congrArg (List.takeWhile CharClass.isNamePart) lead
      change (atom.name.text ++ atom.rest).takeWhile _ = _ at same
      rw [name_of_front atom.rest_ends_name, name_of_front ends] at same
      simp [isInstance, negated, same]

theorem arguments_of_instance {predicate : Ground.Name} {atom : PrintedAtom}
    (here : isInstance predicate atom = true) :
    CarryOver.argumentsOf predicate.text atom.text =
      if '\n' ∈ atom.text then none else some (listed atom.arguments) := by
  rw [isInstance, Bool.and_eq_true, Bool.not_eq_true', decide_eq_true_eq] at here
  have lead : afterLead predicate.text atom.text = some atom.rest := by
    rw [text_eq, sign, here.1, ← here.2]
    exact Line.after_lead_append _ _
  rw [CarryOver.argumentsOf, lead, rest]
  simp only [newline_iff]
  by_cases none : atom.arguments = []
  · simp [none, listed]
  · have opened : afterLead ['('] ('(' :: (listed atom.arguments ++ [')'])) =
        some (listed atom.arguments ++ [')']) := Line.after_lead_append ['('] _
    rw [if_neg none, Option.bind_eq_bind, Option.bind_some, if_neg (List.cons_ne_nil _ _), opened,
      Option.bind_some, List.getLast?_concat, List.dropLast_concat]
    simp only [true_and, inline_iff, ite_not]

theorem constraint_of_printed (predicate : Ground.Name) (atom : PrintedAtom) :
    CarryOver.constraint predicate.text atom.text =
      if isInstance predicate atom ∧ '\n' ∉ atom.text then some (demand predicate atom.timeless)
      else none := by
  rw [CarryOver.constraint]
  cases here : isInstance predicate atom with
  | true =>
      rw [arguments_of_instance here]
      by_cases newline : '\n' ∈ atom.text
      · simp [newline]
      · rw [if_neg newline, if_pos ⟨rfl, newline⟩, Option.map_some, without_time_listed]
        rfl
  | false =>
      cases found : CarryOver.argumentsOf predicate.text atom.text with
      | none => simp
      | some arguments =>
          rw [instance_of_arguments found] at here
          cases here

/-! ## What is dropped -/

theorem listed_drop_last {terms : List Term} (nonempty : terms ≠ []) :
    listed terms ≠ listed terms.dropLast := by
  obtain ⟨front, last, rfl⟩ := (List.eq_nil_or_concat' terms).resolve_left nonempty
  rw [List.dropLast_concat, listed_last]
  split
  · next none =>
      rw [none]
      exact last.text_nonempty
  · simp

theorem atom_text_inj {predicate left right : Text} :
    Line.atomText predicate left = Line.atomText predicate right ↔ left = right := by
  refine ⟨fun same => ?_, congrArg _⟩
  rw [Line.atomText, Line.atomText] at same
  by_cases left_none : left = []
  · by_cases right_none : right = []
    · rw [left_none, right_none]
    · simp [left_none, right_none] at same
  · by_cases right_none : right = []
    · simp [left_none, right_none] at same
    · rw [if_neg left_none, if_neg right_none] at same
      exact List.append_cancel_left (List.append_cancel_right same)

theorem demand_inj (predicate : Ground.Name) {left right : List Term} :
    demand predicate left = demand predicate right ↔ listed left = listed right := by
  constructor
  · intro same
    unfold demand at same
    exact atom_text_inj.1 (List.append_cancel_left (List.append_cancel_right same))
  · intro same
    unfold demand
    rw [same]

theorem arguments_of_time {atom : PrintedAtom} {digits : Digits}
    (time : atom.timeArgument = some digits) : atom.arguments ≠ [] := by
  intro none
  rw [timeArgument, none] at time
  cases time

/-- What the table files an atom under is dropped, and nothing else, exactly if no number behind the
greatest step is dropped. -/
theorem timeless_as_stepless_iff {atom : PrintedAtom} (inline : '\n' ∉ atom.text) :
    listed atom.timeless = listed atom.stepless ↔
      ∀ digits ∈ atom.timeArgument, valueOfDigits digits.text ≤ greatestStep := by
  rw [timeless, stepless, trailing_step_eq, if_neg inline]
  cases time : atom.timeArgument with
  | none => simp
  | some digits =>
      rw [Option.isSome_some, if_pos rfl, Option.bind_some, read_numeral_of_digits]
      by_cases small : valueOfDigits digits.text ≤ greatestStep
      · simp [small]
      · have kept := Ne.symm (listed_drop_last (arguments_of_time time))
        simp [small, kept]

/-- Two selections are the same exactly if they are the same for each item, provided that one
selects no item that the other does not. -/
theorem selections_eq_iff {Item Value : Type} {left right : Item → Option Value}
    (within : ∀ item, right item = none → left item = none) (items : List Item) :
    items.filterMap left = items.filterMap right ↔ ∀ item ∈ items, left item = right item := by
  refine ⟨?_, List.filterMap_congr⟩
  induction items with
  | nil => nofun
  | cons item items induction =>
      intro same
      rw [List.forall_mem_cons]
      cases chosen : right item with
      | none =>
          have passed := within item chosen
          rw [List.filterMap_cons_none passed, List.filterMap_cons_none chosen] at same
          exact ⟨passed, induction same⟩
      | some value =>
          rw [List.filterMap_cons_some chosen] at same
          cases first : left item with
          | none =>
              -- The others would have to make up for the item, but there are not more of them.
              have fewer : (items.filterMap left).length ≤ (items.filterMap right).length := by
                rw [List.length_filterMap_eq_countP, List.length_filterMap_eq_countP]
                refine List.countP_mono_left fun other _ selected => ?_
                rw [Option.isSome_iff_ne_none] at selected ⊢
                exact mt (within other) selected
              rw [List.filterMap_cons_none first] at same
              rw [same, List.length_cons] at fewer
              exact absurd fewer (Nat.not_succ_le_self _)
          | some other =>
              rw [List.filterMap_cons_some first] at same
              obtain ⟨here, others⟩ := List.cons.inj same
              exact ⟨congrArg some here, induction others⟩

/-- Every atom of the predicate becomes one constraint, in the order of the answer set, and loses
its last argument if that is an unsigned numeral. The table files the atom under just this number,
unless the number is behind the greatest step: then the atom has no step, and loses its last
argument nevertheless. A string with a newline, which no line of a server holds, hides its atom. -/
theorem carried_as_filed_iff (predicate : Ground.Name) (earlier : List Text) (step : Option Nat)
    (atoms : List PrintedAtom) :
    let carry : CarryOver := ⟨predicate.text, earlier⟩
    let observed := (carry.observe ⟨step, atoms.map text⟩).constraints
    let instances := atoms.filter (isInstance predicate)
    CarryOver.ofPredicate predicate.text = .ok ⟨predicate.text, []⟩ ∧
    observed = (instances.filter fun atom => '\n' ∉ atom.text).map
      (fun atom => demand predicate atom.timeless) ∧
    (observed = instances.map (fun atom => demand predicate atom.stepless) ↔
      ∀ atom ∈ instances, '\n' ∉ atom.text ∧
        ∀ digits ∈ atom.timeArgument, valueOfDigits digits.text ≤ greatestStep) := by
  intro carry observed instances
  have selected : observed = instances.filterMap fun atom =>
      if '\n' ∉ atom.text then some (demand predicate atom.timeless) else none := by
    change (atoms.map text).filterMap (CarryOver.constraint predicate.text) = _
    rw [List.filterMap_map, List.filterMap_filter]
    congr 1
    funext atom
    rw [Function.comp_apply, constraint_of_printed]
    cases isInstance predicate atom <;> simp
  refine ⟨if_pos predicate.valid, ?_, ?_⟩
  · symm
    rw [selected, ← List.filterMap_eq_map, List.filterMap_filter]
    simp
  · rw [selected, ← List.filterMap_eq_map, selections_eq_iff (by simp)]
    refine forall₂_congr fun atom _ => ?_
    by_cases newline : '\n' ∈ atom.text
    · simp [newline]
    · rw [← timeless_as_stepless_iff newline, ← demand_inj predicate]
      simp [newline]

/-- The first number that is no step is dropped, and the table has the atom without a step. -/
theorem number_behind_steps_dropped :
    let predicate : Ground.Name := ⟨['p'], rfl⟩
    let number : Digits := ⟨"18446744073709551616".toList, by decide, List.all_eq_true.1 rfl⟩
    let atom : PrintedAtom := ⟨false, predicate, [.constant ⟨['a'], rfl⟩, .integer false number]⟩
    atom.text = "p(a,18446744073709551616)".toList ∧
      isInstance predicate atom = true ∧ Atom.trailingStep atom.text = none ∧
      demand predicate atom.stepless = ":- not p(a,18446744073709551616).".toList ∧
      (CarryOver.observe ⟨predicate.text, []⟩ ⟨none, [atom.text]⟩).constraints =
        [":- not p(a).".toList] := by
  intro predicate number atom
  exact ⟨by decide, by decide, by decide, by decide, by decide⟩

end PrintedAtom

end StepStream
