import Mathlib.Data.Option.Basic
import StepStream.Proofs.CarriedConstraint
import StepStream.Proofs.Framing
import StepStream.Proofs.Lines

/-!
One message for each text. A text is encoded as it stands, so the character NUL cuts it into
several messages. What is received is free of that character, and so are the constraints that
are carried over from it.
-/

namespace StepStream

set_option autoImplicit false

open Text (Bytes)
open Response (StepResult)

namespace Message

theorem segments_encode_append (text : Text) (rest : Bytes) :
    segments (encode text ++ rest) = (text.splitOn '\x00').map Text.utf8 ++ segments rest ∧
      unfinished (encode text ++ rest) = unfinished rest := by
  generalize size : text.length = length
  induction length using Nat.strongRecOn generalizing text with
  | ind length induction =>
      by_cases present : '\x00' ∈ text
      · obtain ⟨front, back, rfl, absent⟩ := List.eq_append_cons_of_mem present
        have free : delimiter ∉ Text.utf8 front := by rwa [delimiter_mem_utf8]
        have bytes : encode (front ++ '\x00' :: back) ++ rest =
            Text.utf8 front ++ delimiter :: (encode back ++ rest) := by
          simp only [encode, Text.utf8, List.flatMap_append, List.flatMap_cons, List.append_assoc]
          rfl
        rw [List.length_append, List.length_cons] at size
        obtain ⟨pieces, left⟩ := induction back.length (by omega) back rfl
        obtain ⟨first, last⟩ := segments_cons free (encode back ++ rest)
        rw [bytes, first, last, pieces, left, List.splitOn_append_cons_self_of_not_mem absent]
        exact ⟨rfl, rfl⟩
      · have free : delimiter ∉ Text.utf8 text := by rwa [delimiter_mem_utf8]
        have bytes : encode text ++ rest = Text.utf8 text ++ delimiter :: rest := by
          rw [encode, List.append_assoc, List.singleton_append]
        obtain ⟨first, last⟩ := segments_cons free rest
        rw [bytes, first, last, List.splitOn_eq_singleton present]
        exact ⟨rfl, rfl⟩

theorem segments_of_sent (texts : List Text) :
    segments (texts.flatMap encode) = (texts.flatMap (·.splitOn '\x00')).map Text.utf8 ∧
      unfinished (texts.flatMap encode) = [] := by
  induction texts with
  | nil => exact segments_of_unfinished List.not_mem_nil
  | cons text texts induction =>
      obtain ⟨pieces, left⟩ := segments_encode_append text (texts.flatMap encode)
      rw [List.flatMap_cons, List.flatMap_cons, List.map_append, pieces, left, induction.1]
      exact ⟨rfl, induction.2⟩

/-- Whether the receiver of these texts decodes them as they are, each as one message, with
nothing left over. -/
def ArriveOneByOne (texts : List Text) : Prop :=
  (Decoder.empty.push (texts.flatMap encode)).drain = (texts.map .ok, .empty)

theorem drain_sent (texts : List Text) :
    (Decoder.empty.push (texts.flatMap encode)).drain =
      ((texts.flatMap (·.splitOn '\x00')).map .ok, .empty) := by
  obtain ⟨pieces, left⟩ := segments_of_sent texts
  have decoded : decode ∘ Text.utf8 = Except.ok := by
    funext text
    rw [Function.comp_apply, decode, Text.decode_utf8]
  have pushed : Decoder.empty.push (texts.flatMap encode) = ⟨texts.flatMap encode⟩ := rfl
  rw [pushed, Decoder.drain_eq, pieces, left, List.map_map, decoded]
  rfl

theorem pieces_eq_iff (texts : List Text) :
    texts.flatMap (·.splitOn '\x00') = texts ↔ ∀ text ∈ texts, '\x00' ∉ text := by
  constructor
  · intro whole text member present
    rw [← whole, List.mem_flatMap] at member
    obtain ⟨_, -, piece⟩ := member
    have absent := (Text.item_of_piece piece '\x00' present).2
    simp at absent
  · intro free
    induction texts with
    | nil => rfl
    | cons text texts induction =>
        obtain ⟨here, others⟩ := List.forall_mem_cons.1 free
        rw [List.flatMap_cons, List.splitOn_eq_singleton here, induction others]
        rfl

theorem arrive_one_by_one_iff (texts : List Text) :
    ArriveOneByOne texts ↔ ∀ text ∈ texts, '\x00' ∉ text := by
  have injective : Function.Injective (Except.ok : Text → Except Error Text) :=
    fun _ _ equal => Except.ok.inj equal
  rw [ArriveOneByOne, drain_sent, Prod.mk.injEq, List.map_inj_right injective, pieces_eq_iff]
  simp

theorem nul_of_decoded {segment : Bytes} {text : Text} (decoded : decode segment = .ok text)
    (absent : delimiter ∉ segment) : '\x00' ∉ text := by
  rwa [← (decode_eq_ok_iff segment text).1 decoded, delimiter_mem_utf8] at absent

end Message

/-- Whether some connection can answer with this message. -/
def Connection.CanDeliver (message : Text) : Prop :=
  ∃ connection later : Connection,
    connection.answerBuffered = (some (.ok (.message message)), later)

theorem nul_of_delivered {message : Text} (delivered : Connection.CanDeliver message) :
    '\x00' ∉ message := by
  obtain ⟨connection, later, answered⟩ := delivered
  unfold Connection.answerBuffered at answered
  split at answered
  · cases answered
  · rcases Message.unfinished_or_segment connection.decoder.pending with
      absent | ⟨segment, rest, pending, absent⟩
    · -- Only what is left after the end of the stream can be answered without a delimiter.
      have next := Message.Decoder.next_of_unfinished absent
      rw [next] at answered
      dsimp only at answered
      split at answered
      · by_cases residue : connection.decoder.hasResidue = true
        · rw [Message.Decoder.takeResidue, if_pos residue] at answered
          cases decoded : Message.decode connection.decoder.pending with
          | ok text =>
              rw [decoded] at answered
              cases answered
              exact Message.nul_of_decoded decoded absent
          | error fault =>
              rw [decoded] at answered
              cases answered
        · rw [Message.Decoder.takeResidue, if_neg residue] at answered
          cases answered
      · cases answered
    · have next : connection.decoder.next = (some (Message.decode segment), ⟨rest⟩) := by
        rw [← Message.Decoder.next_segment absent rest, ← pending]
      rw [next] at answered
      cases decoded : Message.decode segment with
      | ok text =>
          rw [decoded] at answered
          cases answered
          exact Message.nul_of_decoded decoded absent
      | error fault =>
          rw [decoded] at answered
          cases answered

namespace Response

def AreUndivided (answerSets : List AnswerSet) : Prop :=
  ∀ answerSet ∈ answerSets, ∀ atom ∈ answerSet.atoms, '\x00' ∉ atom

theorem words_of_answer {line : Text} {atoms : List Text}
    (answers : read line = .ok (.answer atoms)) : atoms = Text.words line := by
  rw [read] at answers
  split at answers
  · next kind found =>
      cases answers
      unfold read? at found
      simp only [Option.orElse_eq_some, Option.map_eq_some_iff, Option.ite_none_right_eq_some,
        Option.some.injEq, Line.answer.injEq, reduceCtorEq, and_false, exists_false, false_or,
        or_false] at found
      exact found.2.2.symm
  · cases answers

theorem undivided_of_read {line : Text} {atoms : List Text} (free : '\x00' ∉ line)
    (answers : read line = .ok (.answer atoms)) : ∀ atom ∈ atoms, '\x00' ∉ atom := by
  rw [words_of_answer answers]
  intro atom member present
  exact free (Text.item_of_piece (List.mem_of_mem_filter member) '\x00' present).1

namespace Assembly

theorem undivided_absorb {assembly : Assembly} {line : Text} (free : '\x00' ∉ line)
    (gathered : AreUndivided assembly.gathered) :
    AreUndivided (assembly.absorb line).2.gathered ∧
      ∀ result, (assembly.absorb line).1 = some (.ok result) → AreUndivided result.answerSets := by
  unfold absorb
  cases kind : read line with
  | error fault => exact ⟨gathered, nofun⟩
  | ok found =>
      cases found with
      | answer atoms =>
          refine ⟨?_, nofun⟩
          simp only [AreUndivided, List.mem_append, List.mem_singleton]
          rintro answerSet (earlier | rfl)
          · exact gathered answerSet earlier
          · exact undivided_of_read free kind
      | endOfStep | unsat =>
          refine ⟨by simp [AreUndivided, finish], ?_⟩
          rintro result ⟨⟩
          exact gathered
      | step | input | warning | error => exact ⟨gathered, nofun⟩

theorem undivided_outcomes {skips : Error → Bool} {assembly : Assembly}
    {items : List (Except Error Text)} (free : ∀ line, .ok line ∈ items → '\x00' ∉ line)
    (gathered : AreUndivided assembly.gathered) {result : StepResult}
    (member : .ok result ∈ outcomes skips assembly items) : AreUndivided result.answerSets := by
  induction items generalizing assembly with
  | nil => cases member
  | cons item items induction =>
      have others : ∀ line, .ok line ∈ items → '\x00' ∉ line := by
        intro line here
        exact free line (List.mem_cons_of_mem item here)
      cases item with
      | error fault =>
          rw [outcomes, List.mem_cons] at member
          exact induction others gathered (member.resolve_left (by simp))
      | ok line =>
          obtain ⟨later, yields⟩ := undivided_absorb (free line List.mem_cons_self) gathered
          rw [outcomes, List.mem_append] at member
          rcases member with here | further
          · -- What is kept of a line is its result, or a fault that is not passed over.
            apply yields
            unfold kept at here
            split at here
            · cases here
            · next found =>
                rw [List.mem_singleton] at here
                cases here
                exact found
            · split at here
              · cases here
              · rw [List.mem_singleton] at here
                cases here
          · exact induction others later further

end Assembly

def heardFrom (messages : List Text) : List (Except Error StepResult) :=
  Assembly.empty.ahead (messages.flatMap fun message => (Text.lines message).map .ok)

theorem undivided_of_heard {messages : List Text} (free : ∀ message ∈ messages, '\x00' ∉ message)
    {result : StepResult} (heard : .ok result ∈ heardFrom messages) :
    AreUndivided result.answerSets := by
  apply Assembly.undivided_outcomes _ _ heard
  · intro line member
    simp only [Assembly.empty, List.map_nil, List.nil_append, List.mem_flatMap, List.mem_map,
      Except.ok.injEq, exists_eq_right] at member
    obtain ⟨message, sent, here⟩ := member
    intro present
    exact free message sent (Text.mem_of_line here '\x00' present)
  · simp [AreUndivided, Assembly.empty]

end Response

namespace CarryOver

theorem mem_of_arguments {predicate atom arguments : Text}
    (found : argumentsOf predicate atom = some arguments) :
    ∀ character ∈ arguments, character ∈ atom := by
  rw [argumentsOf, Option.bind_eq_bind, Option.bind_eq_some_iff] at found
  obtain ⟨rest, behind, found⟩ := found
  have whole := List.isPrefixOf?_eq_some_iff_append_eq.1 behind
  split at found
  · cases found
    simp
  · rw [Option.bind_eq_some_iff] at found
    obtain ⟨opened, parenthesis, found⟩ := found
    have inner := List.isPrefixOf?_eq_some_iff_append_eq.1 parenthesis
    split at found
    · cases found
      intro character member
      rw [← whole, ← inner]
      simp [List.dropLast_subset _ member]
    · cases found

theorem nul_of_constraint {predicate atom line : Text} (valid : isPredicate predicate = true)
    (free : '\x00' ∉ atom) (found : constraint predicate atom = some line) : '\x00' ∉ line := by
  have named : '\x00' ∉ predicate := by
    intro member
    exact absurd (name_part_of_predicate valid '\x00' member) (by decide)
  rw [constraint, Option.map_eq_some_iff] at found
  obtain ⟨arguments, listed, rfl⟩ := found
  have kept : '\x00' ∉ withoutTime arguments := by
    intro member
    exact free (mem_of_arguments listed '\x00' (mem_of_without_time '\x00' member))
  dsimp only
  split <;> simp [named, kept]

/-- Whether these are the constraints that can be carried over from messages that a connection
has delivered, for a valid predicate or none. -/
def CarriesReceived (extra : List Text) : Prop :=
  ∃ (predicate : Option Text) (messages : List Text) (shown : List StepResult),
    (∀ name ∈ predicate, isPredicate name = true) ∧
    (∀ message ∈ messages, Connection.CanDeliver message) ∧
    shown.map .ok <+: Response.heardFrom messages ∧
    extra = carriedConstraints predicate shown

theorem nul_of_carried {extra : List Text} (carries : CarriesReceived extra) :
    ∀ line ∈ extra, '\x00' ∉ line := by
  obtain ⟨predicate, messages, shown, valid, delivered, heard, rfl⟩ := carries
  have undivided : ∀ result ∈ shown, Response.AreUndivided result.answerSets := by
    intro result member
    have free : ∀ message ∈ messages, '\x00' ∉ message := by
      intro message sent
      exact nul_of_delivered (delivered message sent)
    apply Response.undivided_of_heard free
    exact heard.subset (List.mem_map_of_mem member)
  unfold carriedConstraints
  split
  · next name answerSet last =>
      have member := List.mem_of_getLast? last
      rw [List.mem_flatMap] at member
      obtain ⟨result, here, inside⟩ := member
      intro line carried
      obtain ⟨atom, printed, found⟩ := List.mem_filterMap.1 carried
      exact nul_of_constraint (valid name rfl) (undivided result here answerSet inside atom printed)
        found
  · simp

end CarryOver

end StepStream
