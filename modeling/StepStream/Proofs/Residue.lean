import Mathlib.Data.List.Perm.Basic
import StepStream.Proofs.Framing

/-!
What is left in a decoder. The bytes of a decoder are complete messages and an unfinished end, but
they are kept as one. Taking the residue takes all of them. The two parts are therefore kept apart
as long as nothing is asked about the residue while a message waits, and a message that waits when
the residue is taken is lost in it. Every other message is delivered once and in order.
-/

namespace StepStream.Message

set_option autoImplicit false

open Text (Bytes)

namespace Decoder

inductive Request where
  | push (bytes : Bytes)
  | next
  | hasResidue
  | takeResidue
  deriving DecidableEq

inductive Reply where
  | pushed
  | message (found : Option (Except Error Text))
  | whether (left : Bool)
  | residue (taken : Option (Except Error Text))

def respond (decoder : Decoder) : Request → Reply × Decoder
  | .push bytes => (.pushed, decoder.push bytes)
  | .next => (.message decoder.next.1, decoder.next.2)
  | .hasResidue => (.whether decoder.hasResidue, decoder)
  | .takeResidue => (.residue decoder.takeResidue.1, decoder.takeResidue.2)

/-- A request and the decoder that it is made of. -/
structure Moment where
  decoder : Decoder
  request : Request

def moments (decoder : Decoder) : List Request → List Moment
  | [] => []
  | request :: requests =>
      ⟨decoder, request⟩ :: (decoder.respond request).2.moments requests

def after (decoder : Decoder) : List Request → Decoder
  | [] => decoder
  | request :: requests => (decoder.respond request).2.after requests

end Decoder

/-- Complete messages that wait, and an unfinished one behind them. -/
structure Parts where
  waiting : List Bytes
  tail : Bytes

def Decoder.parts (decoder : Decoder) : Parts :=
  ⟨segments decoder.pending, unfinished decoder.pending⟩

/-- How a request is answered if the parts are kept apart: messages are delivered from the front of
those that wait, and the residue is the unfinished one. -/
def Parts.respond (parts : Parts) : Decoder.Request → Decoder.Reply × Parts
  | .push bytes =>
      (.pushed, ⟨parts.waiting ++ segments (parts.tail ++ bytes), unfinished (parts.tail ++ bytes)⟩)
  | .next => (.message (parts.waiting.head?.map decode), ⟨parts.waiting.tail, parts.tail⟩)
  | .hasResidue => (.whether (!parts.tail.isEmpty), parts)
  | .takeResidue =>
      (.residue (if parts.tail = [] then none else some (decode parts.tail)), ⟨parts.waiting, []⟩)

namespace Decoder

namespace Moment

/-- Whether the request is answered from the parts, and leaves the parts that it should. -/
def KeepsApart (moment : Moment) : Prop :=
  ((moment.decoder.respond moment.request).1, (moment.decoder.respond moment.request).2.parts) =
    moment.decoder.parts.respond moment.request

def Settled (moment : Moment) : Prop :=
  match moment.request with
  | .push _ | .next => True
  | .hasResidue => moment.decoder.parts.waiting = [] ∨ moment.decoder.parts.tail ≠ []
  | .takeResidue => moment.decoder.parts.waiting = []

/-- The messages that are lost in a residue. -/
def lost (moment : Moment) : List Bytes :=
  if moment.request = .takeResidue then moment.decoder.parts.waiting else []

def delivered (moment : Moment) : List (Except Error Text) :=
  match (moment.decoder.respond moment.request).1 with
  | .message found => found.toList
  | _ => []

end Moment

/-- The messages that are completed by these requests behind an unfinished one. What is taken as
residue is not the beginning of a message. -/
def completed (tail : Bytes) : List Request → List Bytes
  | [] => []
  | .push bytes :: requests =>
      segments (tail ++ bytes) ++ completed (unfinished (tail ++ bytes)) requests
  | .next :: requests | .hasResidue :: requests => completed tail requests
  | .takeResidue :: requests => completed [] requests

/-! ## One request -/

theorem parts_of_unfinished {bytes : Bytes} (absent : delimiter ∉ bytes) :
    parts ⟨bytes⟩ = ⟨[], bytes⟩ := by
  obtain ⟨none, tail⟩ := segments_of_unfinished absent
  rw [parts, none, tail]

theorem parts_of_segment {segment : Bytes} (absent : delimiter ∉ segment) (rest : Bytes) :
    parts ⟨segment ++ delimiter :: rest⟩ =
      ⟨segment :: (parts ⟨rest⟩).waiting, (parts ⟨rest⟩).tail⟩ := by
  obtain ⟨first, tail⟩ := segments_cons absent rest
  rw [parts, first, tail]
  rfl

theorem pending_eq_nil_iff (decoder : Decoder) :
    decoder.pending = [] ↔ decoder.parts.waiting = [] ∧ decoder.parts.tail = [] := by
  obtain ⟨bytes⟩ := decoder
  rcases unfinished_or_segment bytes with absent | ⟨segment, rest, rfl, absent⟩
  · rw [parts_of_unfinished absent]
    exact (and_iff_right rfl).symm
  · rw [parts_of_segment absent]
    simp

theorem tail_of_settled {decoder : Decoder} (settled : decoder.parts.waiting = []) :
    decoder.parts.tail = decoder.pending := by
  obtain ⟨bytes⟩ := decoder
  rcases unfinished_or_segment bytes with absent | ⟨segment, rest, rfl, absent⟩
  · rw [parts_of_unfinished absent]
  · rw [parts_of_segment absent] at settled
    cases settled

theorem push_keeps_apart (decoder : Decoder) (bytes : Bytes) :
    (decoder.push bytes).parts = (decoder.parts.respond (.push bytes)).2 := by
  obtain ⟨messages, tail⟩ := segments_append decoder.pending bytes
  rw [parts, push, messages, tail]
  rfl

theorem next_keeps_apart (decoder : Decoder) :
    decoder.next.1 = decoder.parts.waiting.head?.map decode ∧
      decoder.next.2.parts = (decoder.parts.respond .next).2 := by
  obtain ⟨bytes⟩ := decoder
  rcases unfinished_or_segment bytes with absent | ⟨segment, rest, rfl, absent⟩
  · rw [next_of_unfinished absent, parts_of_unfinished absent]
    exact ⟨rfl, rfl⟩
  · rw [next_segment absent, parts_of_segment absent]
    exact ⟨rfl, rfl⟩

theorem take_residue_eq (decoder : Decoder) :
    decoder.respond .takeResidue =
      (.residue (if decoder.pending = [] then none else some (decode decoder.pending)), empty) := by
  obtain ⟨bytes⟩ := decoder
  cases bytes <;> rfl

theorem has_residue_iff (decoder : Decoder) :
    decoder.hasResidue = true ↔ decoder.parts.waiting ≠ [] ∨ decoder.parts.tail ≠ [] := by
  rw [hasResidue, Bool.not_eq_true', ← Bool.not_eq_true, List.isEmpty_iff, pending_eq_nil_iff,
    not_and_or]

theorem keeps_apart_iff (moment : Moment) : moment.KeepsApart ↔ moment.Settled := by
  obtain ⟨decoder, request⟩ := moment
  rw [Moment.KeepsApart, Moment.Settled]
  cases request with
  | push bytes =>
      refine iff_of_true ?_ trivial
      exact Prod.ext rfl (push_keeps_apart decoder bytes)
  | next =>
      obtain ⟨found, left⟩ := next_keeps_apart decoder
      refine iff_of_true ?_ trivial
      exact Prod.ext (congrArg Reply.message found) left
  | hasResidue =>
      have told := has_residue_iff decoder
      have apart : (!decoder.parts.tail.isEmpty) = true ↔ decoder.parts.tail ≠ [] := by
        simp
      -- The decoder stays as it is, so that only the two answers are compared.
      change (Reply.whether decoder.hasResidue, decoder.parts) =
        (Reply.whether (!decoder.parts.tail.isEmpty), decoder.parts) ↔
          decoder.parts.waiting = [] ∨ decoder.parts.tail ≠ []
      rw [Prod.mk.injEq, and_iff_left rfl, Reply.whether.injEq, Bool.eq_iff_iff, told, apart,
        or_iff_right_iff_imp]
      by_cases waiting : decoder.parts.waiting = [] <;> simp [waiting]
  | takeResidue =>
      rw [take_residue_eq]
      constructor
      · intro apart
        exact (congrArg (fun answer => answer.2.waiting) apart).symm
      · intro settled
        have whole := tail_of_settled settled
        dsimp only at settled
        rw [Parts.respond, settled, whole]
        rfl

/-! ## A course of requests -/

def messages (decoder : Decoder) (requests : List Request) : List Bytes :=
  decoder.parts.waiting ++ completed decoder.parts.tail requests

/-- What one request takes off the messages is delivered or lost. -/
theorem messages_cons (decoder : Decoder) (request : Request) (requests : List Request) :
    ∃ front, decoder.messages (request :: requests) =
        front ++ (decoder.respond request).2.messages requests ∧
      ((Moment.mk decoder request).delivered = front.map decode ∧
          (Moment.mk decoder request).lost = [] ∨
        (Moment.mk decoder request).delivered = [] ∧ (Moment.mk decoder request).lost = front) := by
  cases request with
  | push bytes =>
      refine ⟨[], ?_, .inl ⟨rfl, rfl⟩⟩
      rw [respond, messages, messages, push_keeps_apart, completed, Parts.respond]
      simp
  | next =>
      obtain ⟨found, left⟩ := next_keeps_apart decoder
      refine ⟨decoder.parts.waiting.head?.toList, ?_, .inl ⟨?_, rfl⟩⟩
      · rw [respond, messages, messages, left, completed, Parts.respond, ← List.append_assoc]
        cases decoder.parts.waiting <;> rfl
      · change decoder.next.1.toList = _
        rw [found]
        cases decoder.parts.waiting <;> rfl
  | hasResidue => exact ⟨[], rfl, .inl ⟨rfl, rfl⟩⟩
  | takeResidue =>
      refine ⟨decoder.parts.waiting, ?_, .inr ⟨rfl, if_pos rfl⟩⟩
      rw [take_residue_eq, messages, completed]
      rfl

def deliveries (decoder : Decoder) (requests : List Request) : List (Except Error Text) :=
  (decoder.moments requests).flatMap Moment.delivered ++ (decoder.after requests).drain.1

theorem delivered_or_lost (requests : List Request) (decoder : Decoder) :
    (decoder.deliveries requests ++
        ((decoder.moments requests).flatMap Moment.lost).map decode).Perm
      ((decoder.messages requests).map decode) ∧
    (decoder.deliveries requests).Sublist ((decoder.messages requests).map decode) := by
  induction requests generalizing decoder with
  | nil =>
      have drained : decoder.deliveries [] = (decoder.messages []).map decode := by
        rw [deliveries, after, drain_eq, messages, completed, List.append_nil]
        rfl
      rw [drained]
      exact ⟨by rw [moments, List.flatMap_nil, List.map_nil, List.append_nil], .refl _⟩
  | cons request requests induction =>
      obtain ⟨permuted, sublist⟩ := induction (decoder.respond request).2
      obtain ⟨front, whole, kind⟩ := messages_cons decoder request requests
      have first : decoder.deliveries (request :: requests) =
          (Moment.mk decoder request).delivered ++
            (decoder.respond request).2.deliveries requests := by
        rw [deliveries, moments, List.flatMap_cons, List.append_assoc]
        rfl
      rw [first, whole, moments, List.flatMap_cons, List.map_append, List.map_append]
      rcases kind with ⟨delivered, lost⟩ | ⟨delivered, lost⟩
      · rw [delivered, lost, List.append_assoc]
        exact ⟨permuted.append_left _, sublist.append_left _⟩
      · rw [delivered, lost, List.nil_append]
        refine ⟨?_, sublist.trans (List.sublist_append_right _ _)⟩
        exact (List.perm_append_comm_assoc _ _ _).trans (permuted.append_left _)

theorem lost_eq_nil_iff (moments : List Moment) :
    moments.flatMap Moment.lost = [] ↔
      ∀ moment ∈ moments, moment.request = .takeResidue → moment.decoder.parts.waiting = [] := by
  rw [List.flatMap_eq_nil_iff]
  refine forall₂_congr fun moment _ => ?_
  rw [Moment.lost]
  split
  · next taken => simp [taken]
  · next other => simp [other]

end Decoder

/-- Whatever is asked of a new decoder and in whatever order, each of its messages is either
delivered, in order, or lost in a residue. All are delivered exactly if none waits whenever the
residue is taken. A request is answered as if complete messages were kept apart from what is
unfinished exactly if, where the residue is taken, no message waits, and where the decoder is asked
whether there is one, no message waits without an unfinished one behind it. -/
theorem residue_apart_iff (requests : List Decoder.Request) :
    let moments := Decoder.empty.moments requests
    let messages := Decoder.completed [] requests
    let delivered := Decoder.empty.deliveries requests
    (delivered ++ (moments.flatMap Decoder.Moment.lost).map decode).Perm (messages.map decode) ∧
    delivered.Sublist (messages.map decode) ∧
    (delivered = messages.map decode ↔ ∀ moment ∈ moments, moment.request = .takeResidue →
      moment.decoder.parts.waiting = []) ∧
    ∀ moment ∈ moments, moment.KeepsApart ↔ moment.Settled := by
  intro moments messages delivered
  obtain ⟨permuted, sublist⟩ := Decoder.delivered_or_lost requests .empty
  have count : delivered.length + (moments.flatMap Decoder.Moment.lost).length =
      (messages.map decode).length := by
    have sizes := permuted.length_eq
    rw [List.length_append, List.length_map] at sizes
    exact sizes
  refine ⟨permuted, sublist, ?_, fun moment _ => Decoder.keeps_apart_iff moment⟩
  rw [← Decoder.lost_eq_nil_iff]
  constructor
  · intro every
    rw [← every] at count
    exact List.length_eq_zero_iff.1 (Nat.add_eq_left.1 count)
  · intro none
    rw [none, List.length_nil, Nat.add_zero] at count
    exact sublist.eq_of_length count

/-- The residue is taken between two messages, when the first has been delivered. -/
theorem residue_between_messages :
    let requests : List Decoder.Request := [.push [0x61, 0, 0x62], .hasResidue, .next, .takeResidue,
      .next, .push [0x63, 0], .next]
    Decoder.completed [] requests = [[0x61], [0x63]] ∧
    (∀ moment ∈ Decoder.empty.moments requests, moment.request = .takeResidue →
      moment.decoder.parts.waiting = []) ∧
    Decoder.empty.deliveries requests = [.ok ['a'], .ok ['c']] := by
  intro requests
  have settled : ∀ moment ∈ Decoder.empty.moments requests, moment.request = .takeResidue →
      moment.decoder.parts.waiting = [] := by decide
  have messages : Decoder.completed [] requests = [[0x61], [0x63]] := by decide
  refine ⟨messages, settled, ?_⟩
  rw [(residue_apart_iff requests).2.2.1.2 settled, messages]
  rfl

/-- A message waits and nothing is unfinished, but a residue is reported, the message is taken for
it, and no message is delivered. -/
theorem waiting_message_lost :
    let requests : List Decoder.Request := [.push [0x61, 0], .hasResidue, .takeResidue, .next]
    (Decoder.empty.moments requests).map (fun moment =>
        (moment.decoder.respond moment.request).1) =
      [.pushed, .whether true, .residue (some (.ok ['a', '\x00'])), .message none] ∧
    Decoder.completed [] requests = [[0x61]] ∧
    Decoder.empty.deliveries requests = [] ∧
    ¬ ∀ moment ∈ Decoder.empty.moments requests, moment.KeepsApart := by
  intro requests
  have last : (Decoder.empty.after requests).drain.1 = [] := by
    rw [Decoder.drain_eq]
    rfl
  have delivered : Decoder.empty.deliveries requests = [] := by
    rw [Decoder.deliveries, last]
    rfl
  refine ⟨rfl, rfl, delivered, fun apart => ?_⟩
  have taken := apart ⟨⟨[0x61, 0]⟩, .takeResidue⟩
    (.tail _ (.tail _ List.mem_cons_self))
  have none : (Decoder.parts ⟨[0x61, 0]⟩).waiting = [] := (Decoder.keeps_apart_iff _).1 taken
  exact absurd none (by decide)

end StepStream.Message
