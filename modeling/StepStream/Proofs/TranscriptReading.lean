import StepStream.Proofs.DocumentGrammar
import StepStream.Proofs.Grouping
import StepStream.Transcript

/-!
What is read from a JSON transcript. The indented form of a document is a text of the grammar with
the value of the document, so that a reader finds this value and no other.
-/

namespace StepStream

set_option autoImplicit false

open Text

/-! ## Documents and their indented form -/

namespace Json

open Document

mutual

def document : Json → Document
  | .string text => .string text
  | .number value => .number value
  | .array items => .array (documents items)
  | .object members => .object (memberDocuments members)

def documents : List Json → List Document
  | [] => []
  | item :: items => item.document :: documents items

def memberDocuments : List (Text × Json) → List (Text × Document)
  | [] => []
  | (name, value) :: members => (name, value.document) :: memberDocuments members

end

theorem documents_eq (items : List Json) : documents items = items.map document := by
  induction items with
  | nil => rfl
  | cons item items induction => rw [documents, induction, List.map_cons]

theorem member_documents_eq (members : List (Text × Json)) :
    memberDocuments members = members.map fun member => (member.1, member.2.document) := by
  induction members with
  | nil => rfl
  | cons member members induction => rw [memberDocuments, induction, List.map_cons]

def controlDigits (code : Nat) : Text := ['0', '0', hexDigit (code / 16), hexDigit (code % 16)]

theorem hexadecimal_control {code : Nat} (control : code < 0x20) :
    ∀ digit ∈ controlDigits code, isHexDigit digit = true := by
  have every : ∀ code < 0x20, (controlDigits code).all isHexDigit = true := by decide
  exact List.all_eq_true.1 (every code control)

def controlUnit (code : Nat) (control : code < 0x20) : CodeUnit :=
  ⟨controlDigits code, rfl, hexadecimal_control control⟩

theorem control_value {code : Nat} (control : code < 0x20) :
    (controlUnit code control).value = code := by
  have every : ∀ code < 0x20,
      (controlDigits code).foldl (fun value digit => value * 16 + hexValue digit) 0 = code := by
    decide
  exact every code control

theorem escape_spelled (character : Char) :
    ∃ glyph : Glyph, glyph.text = escape character ∧ glyph.character = character := by
  have short {mark : Char} (known : (mark, character) ∈ shortEscapes) :
      ∃ glyph : Glyph, glyph.text = ['\\', mark] ∧ glyph.character = character :=
    ⟨.short (mark, character) known, rfl, rfl⟩
  have coded {code : Nat} (same : character.toNat = code) : character = Char.ofNat code := by
    rw [← same, Char.ofNat_toNat]
  unfold escape
  split_ifs with quote backslash newline carriage tab backspace feed control
  · exact short (by rw [quote]; decide)
  · exact short (by rw [backslash]; decide)
  · exact short (by rw [newline]; decide)
  · exact short (by rw [carriage]; decide)
  · exact short (by rw [tab]; decide)
  · exact short (by rw [coded backspace]; decide)
  · exact short (by rw [coded feed]; decide)
  · have value := control_value control
    refine ⟨.unit (controlUnit character.toNat control) (.inl (by omega)), rfl, ?_⟩
    rw [Glyph.character, value, Char.ofNat_toNat]
  · exact ⟨.plain character ⟨quote, backslash, Nat.not_lt.1 control⟩, rfl, rfl⟩

theorem quote_spelled (text : Text) :
    ∃ glyphs : List Glyph, quoted glyphs = quote text ∧ glyphs.map Glyph.character = text := by
  choose glyph spelled told using escape_spelled
  refine ⟨text.map glyph, ?_, ?_⟩
  · rw [quoted, quote, List.flatMap_map]
    simp only [spelled]
  · simp only [List.map_map, Function.comp_def, told, List.map_id']

theorem numeral_of_zero {number : Nat} (zero : (showNumeral number).head? = some '0') :
    number = 0 := by
  induction number using Nat.strongRecOn with
  | ind number induction =>
      by_cases small : number < 10
      · have every : ∀ number < 10, (showNumeral number).head? = some '0' → number = 0 := by decide
        exact every number small zero
      · have digits : showNumeral number = showNumeral (number / 10) ++ [(number % 10).digitChar] :=
          Nat.toDigits_of_base_le (by decide) (Nat.not_lt.1 small)
        have front : showNumeral (number / 10) ≠ [] := Nat.toDigits_ne_nil
        rw [digits, List.head?_append_of_ne_nil _ front] at zero
        have tenth := induction (number / 10) (by omega) zero
        omega

def numeral (number : Nat) : Numeral where
  isNegative := false
  whole := ⟨showNumeral number, Nat.toDigits_ne_nil, fun _ member => digit_of_numeral member⟩
  leading zero := by rw [numeral_of_zero zero]; rfl
  fraction := none
  exponent := none

theorem numeral_text (number : Nat) : (numeral number).text = showNumeral number :=
  List.append_nil _

theorem numeral_value (number : Nat) : (numeral number).value = number := by
  have mantissa : (numeral number).mantissa = number := by
    rw [Numeral.mantissa]
    exact (congrArg valueOfDigits (List.append_nil _)).trans (value_of_show_numeral number)
  have unscaled : (numeral number).scale = 0 := rfl
  rw [Numeral.value, mantissa, unscaled]
  change mkRat (number * 1 : Nat) 1 = number
  rw [Nat.mul_one, Rat.mkRat_one]
  rfl

def indentation (level : Nat) : Space :=
  ⟨lineBreak level, by
    intro character member
    obtain rfl | member := List.mem_cons.1 member
    · rfl
    · rw [List.eq_of_mem_replicate member]
      rfl⟩

def gap : Space := ⟨[' '], List.forall_mem_singleton.2 rfl⟩

mutual

/-- The indented form of a document is spelled, and its spelling has the value of the document. -/
theorem render_spelled (level : Nat) : (json : Json) → ∃ spelling : Spelling,
    spelling.text = json.renderAt level ∧ spelling.document = json.document
  | .string text => by
      obtain ⟨glyphs, spelled, told⟩ := quote_spelled text
      refine ⟨.string glyphs, ?_, ?_⟩
      · rw [Spelling.text, renderAt, spelled]
      · rw [Spelling.document, document, told]
  | .number value => by
      refine ⟨.number (numeral value), ?_, ?_⟩
      · rw [Spelling.text, renderAt, numeral_text]
      · rw [Spelling.document, document, numeral_value]
  | .array [] => ⟨.emptyArray Space.empty, rfl, rfl⟩
  | .array (item :: items) => by
      obtain ⟨first, spelled, told⟩ := render_spelled (level + 1) item
      obtain ⟨whole, text, values⟩ := items_spelled level items first
      refine ⟨.array whole, ?_, ?_⟩
      · simp [Spelling.text, renderAt, text, spelled]
      · rw [Spelling.document, document, documents, values, told]
  | .object [] => ⟨.emptyObject Space.empty, rfl, rfl⟩
  | .object ((name, value) :: members) => by
      obtain ⟨first, spelled, told⟩ := render_spelled (level + 1) value
      obtain ⟨glyphs, key, characters⟩ := quote_spelled name
      obtain ⟨whole, text, values⟩ := members_spelled level members glyphs first
      refine ⟨.object whole, ?_, ?_⟩
      · simp [Spelling.text, renderAt, text, spelled, key]
      · rw [Spelling.document, document, memberDocuments, values, characters, told]

theorem items_spelled (level : Nat) : (items : List Json) → (first : Spelling) →
    ∃ whole : Items, whole.text = lineBreak (level + 1) ++ first.text ++
      renderItems (level + 1) items ++ lineBreak level ∧
      whole.documents = first.document :: documents items
  | [], first => by
      refine ⟨.last (indentation (level + 1)) first (indentation level), ?_, rfl⟩
      simp [Items.text, renderItems, indentation]
  | item :: items, first => by
      obtain ⟨next, spelled, told⟩ := render_spelled (level + 1) item
      obtain ⟨others, text, values⟩ := items_spelled level items next
      refine ⟨.more (indentation (level + 1)) first Space.empty others, ?_, ?_⟩
      · simp [Items.text, renderItems, indentation, Space.empty, text, spelled]
      · rw [Items.documents, documents, values, told]

theorem members_spelled (level : Nat) : (members : List (Text × Json)) →
    (glyphs : List Glyph) → (first : Spelling) →
    ∃ whole : Members, whole.text = lineBreak (level + 1) ++ quoted glyphs ++ ": ".toList ++
      first.text ++ renderMembers (level + 1) members ++ lineBreak level ∧
      whole.documents = (glyphs.map Glyph.character, first.document) :: memberDocuments members
  | [], glyphs, first => by
      refine ⟨.last ⟨indentation (level + 1), glyphs, Space.empty⟩ gap first (indentation level),
        ?_, rfl⟩
      simp [Members.text, Key.text, renderMembers, indentation, Space.empty, gap]
  | (name, value) :: members, glyphs, first => by
      obtain ⟨next, spelled, told⟩ := render_spelled (level + 1) value
      obtain ⟨characters, key, named⟩ := quote_spelled name
      obtain ⟨others, text, values⟩ := members_spelled level members characters next
      refine ⟨.more ⟨indentation (level + 1), glyphs, Space.empty⟩ gap first Space.empty others,
        ?_, ?_⟩
      · simp [Members.text, Key.text, renderMembers, indentation, Space.empty, gap, text, spelled,
          key]
      · rw [Members.documents, memberDocuments, values, told, named]
        rfl

end

/-- From the indented form of a document, with blanks behind it, its value is read and no other. -/
theorem render_read_iff (json : Json) (behind : Space) (document : Document) :
    document.IsReadFrom (json.render ++ behind.text) ↔ document = json.document := by
  obtain ⟨spelling, text, told⟩ := render_spelled 0 json
  have read : json.document.IsReadFrom (json.render ++ behind.text) :=
    ⟨Space.empty, spelling, behind, told, congrArg (· ++ behind.text) text⟩
  constructor
  · exact fun other => read_unique other read
  · rintro rfl
    exact read

end Json

/-! ## Transcripts -/

namespace Transcript

theorem group_name_injective : Function.Injective groupName := by
  have differs (number : Nat) : "base".toList ≠ showNumeral number := by
    intro same
    have letter : 'b' ∉ showNumeral number := not_mem_numeral (by decide) number
    exact letter (by rw [← same]; decide)
  intro left right same
  cases left with
  | base =>
      cases right with
      | base => rfl
      | step number => exact absurd same (differs number)
  | step number =>
      cases right with
      | base => exact absurd same.symm (differs number)
      | step other =>
          have value := congrArg valueOfDigits same
          simp only [groupName, value_of_show_numeral] at value
          rw [value]

def groupMembers (answerSet : AnswerSet) : List (Text × Document) :=
  answerSet.groupByStep.map fun group => (groupName group.1, .array (group.2.map .string))

def answerValue (number : Nat) (answerSet : AnswerSet) : Document :=
  let step := match answerSet.step with
    | some step => [("step".toList, Document.number step)]
    | none => []
  .object ([("answer".toList, .number number)] ++ step ++
    [("groups".toList, .object (groupMembers answerSet))])

theorem groups_document (groups : Grouping) : (groupsDocument groups).document =
    .object (groups.map fun group => (groupName group.1, .array (group.2.map .string))) := by
  simp only [groupsDocument, Json.document, Json.member_documents_eq, Json.documents_eq,
    List.map_map, Function.comp_def]

theorem answer_document (number : Nat) (answerSet : AnswerSet) :
    (answerDocument number answerSet).document = answerValue number answerSet := by
  cases here : answerSet.step <;>
    simp only [answerDocument, answerValue, here, Json.document, Json.member_documents_eq,
      groups_document, groupMembers, List.map_append, List.map_cons, List.map_nil]

theorem answer_documents (first : Nat) (answerSets : List AnswerSet) :
    (answerDocuments first answerSets).map Json.document =
      answerSets.mapIdx fun index answerSet => answerValue (index + first) answerSet := by
  induction answerSets generalizing first with
  | nil => rfl
  | cons answerSet answerSets induction =>
      rw [answerDocuments, List.map_cons, induction, answer_document, List.mapIdx_cons,
        Nat.zero_add]
      simp only [Nat.add_assoc, Nat.add_comm 1]

/-- Whether these are the names for the groups of these atoms: `base`, if an atom has no time
argument, and then the time arguments in ascending order. -/
def NameGroups (atoms names : List Text) : Prop :=
  ∃ steps : List Nat, steps.Pairwise (· < ·) ∧
    (∀ step, step ∈ steps ↔ ∃ atom ∈ atoms, Atom.trailingStep atom = some step) ∧
    names = (if ∃ atom ∈ atoms, Atom.trailingStep atom = none then ["base".toList] else []) ++
      steps.map showNumeral

theorem group_names (answerSet : AnswerSet) :
    NameGroups answerSet.atoms ((groupMembers answerSet).map Prod.fst) := by
  obtain ⟨steps, ascending, keys⟩ := keys_split (keys_ascending answerSet.atoms)
  have base : .base ∈ keysOf answerSet.atoms ↔
      ∃ atom ∈ answerSet.atoms, Atom.trailingStep atom = none := by
    simp only [mem_keys_of, TimeKey.base_of_atom_iff]
  have names : (groupMembers answerSet).map Prod.fst = (keysOf answerSet.atoms).map groupName := by
    simp only [groupMembers, group_by_step_eq, List.map_map, Function.comp_def]
  refine ⟨steps, ascending, fun step => ?_, ?_⟩
  · have member : step ∈ steps ↔ .step step ∈ keysOf answerSet.atoms := by
      rw [keys]
      split <;> simp
    simp only [member, mem_keys_of, TimeKey.step_of_atom_iff]
  · rw [names, keys, List.map_append, List.map_map, apply_ite (List.map groupName)]
    simp only [base]
    rfl

theorem names_distinct (answerSet : AnswerSet) : ((groupMembers answerSet).map Prod.fst).Nodup := by
  have keys := (is_grouping_by_step answerSet).distinct.map group_name_injective
  rw [List.map_map] at keys
  rw [groupMembers, List.map_map]
  exact keys

def answersValue (answerSets : List AnswerSet) : Document :=
  .array (answerSets.mapIdx fun index answerSet => answerValue (index + 1) answerSet)

theorem answers_read_iff (answerSets : List AnswerSet) (document : Document) :
    document.IsReadFrom (ofAnswerSets .json answerSets) ↔ document = answersValue answerSets := by
  have read := Json.render_read_iff (.array (answerDocuments 1 answerSets))
    ⟨['\n'], List.forall_mem_singleton.2 rfl⟩ document
  rwa [Json.document, Json.documents_eq, answer_documents] at read

/-- From the transcript of answer sets an array is read and nothing else. Its elements are numbered
from one and have the step of their answer set, if it has one, and its groups. The names of the
groups differ, first comes `base` if an atom has no time argument, and then come the time arguments
in ascending order. -/
theorem transcript_reads_back (answerSets : List AnswerSet) :
    (∀ document : Document, document.IsReadFrom (ofAnswerSets .json answerSets) ↔
      document = answersValue answerSets) ∧
    ∀ answerSet : AnswerSet, ((groupMembers answerSet).map Prod.fst).Nodup ∧
      NameGroups answerSet.atoms ((groupMembers answerSet).map Prod.fst) :=
  ⟨answers_read_iff answerSets, fun answerSet => ⟨names_distinct answerSet, group_names answerSet⟩⟩

theorem strings_injective : Function.Injective fun atoms : List Text =>
    Document.array (atoms.map .string) := by
  intro left right same
  have strings : left.map Document.string = right.map Document.string := by injection same
  exact List.map_injective_iff.2 (fun _ _ same => by injection same) strings

theorem grouping_of_members {left right : AnswerSet}
    (same : groupMembers left = groupMembers right) : left.groupByStep = right.groupByStep := by
  refine List.map_injective_iff.2 ?_ same
  intro first second equal
  obtain ⟨names, atoms⟩ := Prod.mk.inj equal
  exact Prod.ext (group_name_injective names) (strings_injective atoms)

theorem answer_set_of_value {left right : AnswerSet} {number : Nat}
    (same : answerValue number left = answerValue number right) :
    left.step = right.step ∧ left.atoms.Perm right.atoms := by
  have grouped {first second : AnswerSet} (equal : groupMembers first = groupMembers second) :
      first.atoms.Perm second.atoms :=
    perm_of_groupings (is_grouping_by_step first)
      (grouping_of_members equal ▸ is_grouping_by_step second)
  obtain ⟨step, atoms⟩ := left
  obtain ⟨other, others⟩ := right
  cases step with
  | none =>
      cases other with
      | none => exact ⟨rfl, grouped (by simpa [answerValue] using same)⟩
      | some other => simp [answerValue] at same
  | some step =>
      cases other with
      | none => simp [answerValue] at same
      | some other =>
          have equal : step = other ∧
              groupMembers ⟨some step, atoms⟩ = groupMembers ⟨some other, others⟩ := by
            simpa [answerValue] using same
          exact ⟨congrArg some equal.1, grouped equal.2⟩

/-- Answer sets with the same transcript have the same steps and, up to their order, the same
atoms. -/
theorem answer_sets_of_transcript {left right : List AnswerSet}
    (same : ofAnswerSets .json left = ofAnswerSets .json right) :
    List.Forall₂ (fun first second => first.step = second.step ∧ first.atoms.Perm second.atoms)
      left right := by
  have read := (answers_read_iff left (answersValue left)).2 rfl
  rw [same, answers_read_iff] at read
  have values := Document.array.inj read
  have lengths : left.length = right.length := by
    simpa using congrArg List.length values
  refine List.forall₂_iff_get.2 ⟨lengths, fun index first second => ?_⟩
  have element := congrArg (·[index]?) values
  exact answer_set_of_value (by simpa [first, second] using element)

end Transcript

end StepStream
