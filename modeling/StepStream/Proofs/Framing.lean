import Mathlib.Data.List.Forall2
import Mathlib.Data.List.TakeDrop
import Mathlib.Data.List.TakeWhile
import StepStream.Message.Frame
import StepStream.Proofs.Utf8

/-!
Messages on a byte stream. What a decoder delivers depends on the bytes it was given and on
nothing else: neither on the portions in which they came nor on the moments at which it was
asked. Every piece of the stream in front of a delimiter is delivered by itself, and what
was encoded comes back.
-/

namespace StepStream.Message

set_option autoImplicit false

open Text (Bytes)

/-- The pieces of a stream that a delimiter ends. -/
def segments (bytes : Bytes) : List Bytes := (bytes.splitOn delimiter).dropLast

/-- What stands behind the last delimiter of a stream. -/
def unfinished (bytes : Bytes) : Bytes := (bytes.splitOn delimiter).getLastD []

/-- What a piece of the stream has to be delivered as: the text it encodes, or the length of
its longest beginning that encodes one. -/
inductive Delivers (segment : Bytes) : Except Error Text → Prop
  | text {text : Text} (encoded : Text.utf8 text = segment) : Delivers segment (.ok text)
  | invalid {offset : Nat} (no_text : ∀ text, Text.utf8 text ≠ segment)
      (longest : Text.ValidUpTo segment offset) :
      Delivers segment (.error (.protocol (.invalidUtf8 offset)))

namespace Decoder

inductive Call where
  | push (bytes : Bytes)
  | next

def pushed : List Call → Bytes
  | [] => []
  | .push bytes :: calls => bytes ++ pushed calls
  | .next :: calls => pushed calls

def serve (decoder : Decoder) : List Call → List (Except Error Text) × Decoder
  | [] => ([], decoder)
  | .push bytes :: calls => (decoder.push bytes).serve calls
  | .next :: calls =>
      let (found, decoder) := decoder.next
      let (others, decoder) := decoder.serve calls
      (found.toList ++ others, decoder)

theorem serve_next (decoder : Decoder) (calls : List Call) :
    decoder.serve (.next :: calls) =
      (decoder.next.1.toList ++ (decoder.next.2.serve calls).1,
        (decoder.next.2.serve calls).2) := rfl

end Decoder

theorem segments_of_unfinished {bytes : Bytes} (absent : delimiter ∉ bytes) :
    segments bytes = [] ∧ unfinished bytes = bytes := by
  rw [segments, unfinished, List.splitOn_eq_singleton absent]
  exact ⟨rfl, rfl⟩

theorem segments_cons {segment : Bytes} (absent : delimiter ∉ segment) (rest : Bytes) :
    segments (segment ++ delimiter :: rest) = segment :: segments rest ∧
      unfinished (segment ++ delimiter :: rest) = unfinished rest := by
  have nonempty := List.splitOn_ne_nil delimiter rest
  rw [segments, unfinished, segments, unfinished,
    List.splitOn_append_cons_self_of_not_mem absent, List.dropLast_cons_of_ne_nil nonempty]
  refine ⟨rfl, ?_⟩
  cases pieces : rest.splitOn delimiter with
  | nil => exact absurd pieces nonempty
  | cons first others => rfl

theorem unfinished_or_segment (bytes : Bytes) :
    delimiter ∉ bytes ∨
      ∃ segment rest, bytes = segment ++ delimiter :: rest ∧ delimiter ∉ segment := by
  by_cases present : delimiter ∈ bytes
  · exact .inr (List.eq_append_cons_of_mem present)
  · exact .inl present

/-- What a stream holds besides its unfinished end is not changed by the bytes that follow. -/
theorem segments_append (bytes more : Bytes) :
    segments (bytes ++ more) = segments bytes ++ segments (unfinished bytes ++ more) ∧
      unfinished (bytes ++ more) = unfinished (unfinished bytes ++ more) := by
  generalize size : bytes.length = length
  induction length using Nat.strongRecOn generalizing bytes with
  | ind length induction =>
      rcases unfinished_or_segment bytes with absent | ⟨segment, rest, rfl, absent⟩
      · obtain ⟨none, tail⟩ := segments_of_unfinished absent
        rw [none, tail]
        exact ⟨rfl, rfl⟩
      · obtain ⟨first, tail⟩ := segments_cons absent rest
        obtain ⟨whole, last⟩ := segments_cons absent (rest ++ more)
        rw [List.length_append, List.length_cons] at size
        obtain ⟨others, left⟩ := induction rest.length (by omega) rest rfl
        rw [List.append_assoc, List.cons_append, first, tail, whole, last, others, left]
        exact ⟨rfl, rfl⟩

theorem unfinished_suffix (bytes : Bytes) :
    unfinished bytes <:+ bytes ∧ delimiter ∉ unfinished bytes := by
  generalize size : bytes.length = length
  induction length using Nat.strongRecOn generalizing bytes with
  | ind length induction =>
      rcases unfinished_or_segment bytes with absent | ⟨segment, rest, rfl, absent⟩
      · rw [(segments_of_unfinished absent).2]
        exact ⟨List.suffix_rfl, absent⟩
      · rw [List.length_append, List.length_cons] at size
        obtain ⟨later, free⟩ := induction rest.length (by omega) rest rfl
        rw [(segments_cons absent rest).2]
        exact ⟨(later.trans (List.suffix_cons _ _)).trans (List.suffix_append _ _), free⟩

theorem ne_delimiter_of_absent {segment : Bytes} (absent : delimiter ∉ segment) :
    ∀ byte ∈ segment, (byte != delimiter) = true := by
  intro byte member
  rw [bne_iff_ne]
  intro same
  rw [same] at member
  exact absent member

theorem cut_of_unfinished {bytes : Bytes} (absent : delimiter ∉ bytes) : cut bytes = none := by
  have nothing : bytes.dropWhile (· != delimiter) = [] := by
    rw [List.dropWhile_eq_nil_iff]
    exact ne_delimiter_of_absent absent
  rw [cut, List.span_eq_takeWhile_dropWhile, nothing]

theorem cut_segment {segment : Bytes} (absent : delimiter ∉ segment) (rest : Bytes) :
    cut (segment ++ delimiter :: rest) = some (segment, rest) := by
  have passes := ne_delimiter_of_absent absent
  rw [cut, List.span_eq_takeWhile_dropWhile, List.takeWhile_append_of_pos passes,
    List.dropWhile_append_of_pos passes, List.takeWhile_cons_of_neg (by simp),
    List.dropWhile_cons_of_neg (by simp), List.append_nil]

namespace Decoder

theorem next_of_unfinished {bytes : Bytes} (absent : delimiter ∉ bytes) :
    next ⟨bytes⟩ = (none, ⟨bytes⟩) := by
  rw [next, cut_of_unfinished absent]

theorem next_segment {segment : Bytes} (absent : delimiter ∉ segment) (rest : Bytes) :
    next ⟨segment ++ delimiter :: rest⟩ = (some (decode segment), ⟨rest⟩) := by
  rw [next, cut_segment absent]

theorem next_shorter {decoder later : Decoder} {outcome : Except Error Text}
    (found : decoder.next = (some outcome, later)) :
    later.pending.length < decoder.pending.length := by
  obtain ⟨bytes⟩ := decoder
  rcases unfinished_or_segment bytes with absent | ⟨segment, rest, rfl, absent⟩
  · rw [next_of_unfinished absent] at found
    cases found
  · rw [next_segment absent] at found
    cases found
    simp only [List.length_append, List.length_cons]
    omega

def drain (decoder : Decoder) : List (Except Error Text) × Decoder :=
  match _found : decoder.next with
  | (none, decoder) => ([], decoder)
  | (some outcome, later) =>
      let (others, decoder) := later.drain
      (outcome :: others, decoder)
termination_by decoder.pending.length
decreasing_by exact next_shorter _found

theorem drain_of_unfinished {bytes : Bytes} (absent : delimiter ∉ bytes) :
    drain ⟨bytes⟩ = ([], ⟨bytes⟩) := by
  rw [drain, next_of_unfinished absent]

theorem drain_segment {segment : Bytes} (absent : delimiter ∉ segment) (rest : Bytes) :
    drain ⟨segment ++ delimiter :: rest⟩ =
      (decode segment :: (drain ⟨rest⟩).1, (drain ⟨rest⟩).2) := by
  rw [drain, next_segment absent]

theorem drain_eq (bytes : Bytes) :
    drain ⟨bytes⟩ = ((segments bytes).map decode, ⟨unfinished bytes⟩) := by
  generalize size : bytes.length = length
  induction length using Nat.strongRecOn generalizing bytes with
  | ind length induction =>
      rcases unfinished_or_segment bytes with absent | ⟨segment, rest, rfl, absent⟩
      · obtain ⟨none, tail⟩ := segments_of_unfinished absent
        rw [drain_of_unfinished absent, none, tail, List.map_nil]
      · obtain ⟨first, tail⟩ := segments_cons absent rest
        rw [List.length_append, List.length_cons] at size
        rw [drain_segment absent, first, tail, induction rest.length (by omega) rest rfl,
          List.map_cons]

/-- What the calls deliver and what can be delivered after them are together what the bytes
before and during the calls contain. -/
theorem serve_then_drain (calls : List Call) (decoder : Decoder) :
    (decoder.serve calls).1 ++ (drain (decoder.serve calls).2).1 =
        (segments (decoder.pending ++ pushed calls)).map decode ∧
      (drain (decoder.serve calls).2).2 = ⟨unfinished (decoder.pending ++ pushed calls)⟩ := by
  induction calls generalizing decoder with
  | nil =>
      rw [serve, pushed, List.append_nil, List.nil_append, drain_eq]
      exact ⟨rfl, rfl⟩
  | cons call calls induction =>
      cases call with
      | push bytes =>
          rw [serve, pushed, ← List.append_assoc]
          exact induction (decoder.push bytes)
      | next =>
          obtain ⟨bytes⟩ := decoder
          rw [serve_next, pushed]
          rcases unfinished_or_segment bytes with absent | ⟨segment, rest, rfl, absent⟩
          · rw [next_of_unfinished absent]
            exact induction ⟨bytes⟩
          · obtain ⟨delivered, left⟩ := induction ⟨rest⟩
            obtain ⟨first, tail⟩ := segments_cons absent (rest ++ pushed calls)
            rw [next_segment absent]
            dsimp only
            rw [List.append_assoc segment, List.cons_append, first, tail, List.map_cons]
            exact ⟨congrArg (decode segment :: ·) delivered, left⟩

end Decoder

theorem decode_eq_ok_iff (bytes : Bytes) (text : Text) :
    decode bytes = .ok text ↔ Text.utf8 text = bytes := by
  rw [← Text.decode_eq_ok_iff, decode]
  cases Text.decode bytes <;> simp

theorem delivers_decode (segment : Bytes) : Delivers segment (decode segment) := by
  rw [decode]
  cases decoded : Text.decode segment with
  | ok text => exact .text ((Text.decode_eq_ok_iff segment text).1 decoded)
  | error malformed =>
      refine .invalid ?_ (Text.valid_up_to_of_refused decoded)
      intro text encoded
      rw [(Text.decode_eq_ok_iff segment text).2 encoded] at decoded
      cases decoded

theorem delimiter_mem_utf8 (text : Text) : delimiter ∈ Text.utf8 text ↔ '\x00' ∈ text :=
  Text.byte_mem_utf8 (by decide) rfl text

theorem segments_encode (messages : List Text) (plain : ∀ text ∈ messages, '\x00' ∉ text) :
    segments (messages.flatMap encode) = messages.map Text.utf8 ∧
      unfinished (messages.flatMap encode) = [] := by
  induction messages with
  | nil => exact segments_of_unfinished List.not_mem_nil
  | cons text messages induction =>
      obtain ⟨here, further⟩ := List.forall_mem_cons.1 plain
      have absent : delimiter ∉ Text.utf8 text := by
        rw [delimiter_mem_utf8]
        exact here
      obtain ⟨others, tail⟩ := induction further
      obtain ⟨first, last⟩ := segments_cons absent (messages.flatMap encode)
      have stream : (text :: messages).flatMap encode =
          Text.utf8 text ++ delimiter :: messages.flatMap encode := by
        rw [List.flatMap_cons, encode, List.append_assoc, List.singleton_append]
      rw [stream, first, last, others, tail]
      exact ⟨rfl, rfl⟩

theorem segments_of_front (messages : List Text) (plain : ∀ text ∈ messages, '\x00' ∉ text)
    {front : Bytes} (begins : front <+: messages.flatMap encode) :
    segments front = (messages.take (front.count delimiter)).map Text.utf8 := by
  induction messages generalizing front with
  | nil =>
      rw [List.flatMap_nil, List.prefix_nil] at begins
      rw [begins, List.take_nil]
      exact (segments_of_unfinished List.not_mem_nil).1
  | cons text messages induction =>
      obtain ⟨here, others⟩ := List.forall_mem_cons.1 plain
      have absent : delimiter ∉ Text.utf8 text := by
        rw [delimiter_mem_utf8]
        exact here
      by_cases present : delimiter ∈ front
      · obtain ⟨segment, rest, rfl, first⟩ := List.eq_append_cons_of_mem present
        obtain ⟨more, whole⟩ := begins
        rw [List.flatMap_cons, encode, List.append_assoc, List.append_assoc, List.cons_append,
          List.singleton_append] at whole
        have same := congrArg cut whole
        rw [cut_segment first, cut_segment absent, Option.some.injEq, Prod.mk.injEq] at same
        obtain ⟨rfl, later⟩ := same
        rw [(segments_cons first rest).1, induction others ⟨more, later⟩, List.count_append,
          List.count_cons_self, List.count_eq_zero_of_not_mem first, Nat.zero_add,
          List.take_succ_cons, List.map_cons]
      · rw [(segments_of_unfinished present).1, List.count_eq_zero_of_not_mem present]
        rfl

/-- However a stream is cut into portions and whenever the decoder is asked, it delivers every
piece of the stream that a delimiter ends, in order and each by itself, and keeps what stands
behind the last delimiter. Texts that were encoded come back. -/
theorem decoding_ignores_portions (calls : List Decoder.Call) :
    let asked := Decoder.empty.serve calls
    let drained := asked.2.drain
    let stream := Decoder.pushed calls
    List.Forall₂ Delivers (segments stream) (asked.1 ++ drained.1) ∧
      drained.2.pending = unfinished stream ∧
      ∀ messages : List Text, (∀ text ∈ messages, '\x00' ∉ text) →
        stream = messages.flatMap encode →
          asked.1 ++ drained.1 = messages.map .ok ∧ drained.2 = .empty := by
  intro asked drained stream
  have delivered : asked.1 ++ drained.1 = (segments stream).map decode :=
    (Decoder.serve_then_drain calls .empty).1
  have left : drained.2 = ⟨unfinished stream⟩ := (Decoder.serve_then_drain calls .empty).2
  refine ⟨?_, ?_, ?_⟩
  · rw [delivered, List.forall₂_map_right_iff, List.forall₂_same]
    intro segment _
    exact delivers_decode segment
  · rw [left]
  · intro messages plain encoded
    obtain ⟨texts, nothing⟩ := segments_encode messages plain
    have decoded : decode ∘ Text.utf8 = Except.ok := by
      funext text
      rw [Function.comp_apply, decode, Text.decode_utf8]
    rw [delivered, left, encoded, texts, nothing, List.map_map, decoded]
    exact ⟨rfl, rfl⟩

/-- The letter é arrives in two portions, and the decoder is asked between them. -/
theorem divided_character_decoded :
    let calls : List Decoder.Call :=
      [.push [0xC3], .next, .push [0xA9, 0, 0x61], .next, .next, .push [0]]
    Decoder.pushed calls = [['é'], ['a']].flatMap encode ∧
      (Decoder.empty.serve calls).1 ++ (Decoder.empty.serve calls).2.drain.1 =
        [.ok ['é'], .ok ['a']] := by
  intro calls
  have encoded : Decoder.pushed calls = [['é'], ['a']].flatMap encode := by decide
  exact ⟨encoded, ((decoding_ignores_portions calls).2.2 [['é'], ['a']] (by decide) encoded).1⟩

end StepStream.Message
