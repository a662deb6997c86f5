import Mathlib.Data.List.Basic
import StepStream.Proofs.Assembly
import StepStream.Proofs.Connection
import StepStream.Session.Basic

/-!
What a session remembers and what it hears. Its constraints are those of the last answer set
among all results it has shown, and the results still to come depend on the lines it has
queued and on the bytes that have not been delivered.
-/

namespace StepStream

set_option autoImplicit false

open Text (Bytes)
open Response (StepResult)

/-- The constraints for a fragment after these results. -/
def carriedConstraints (predicate : Option Text) (shown : List StepResult) : List Text :=
  match predicate, (shown.flatMap StepResult.answerSets).getLast? with
  | some predicate, some answerSet =>
      answerSet.atoms.filterMap (CarryOver.constraint predicate)
  | _, _ => []

theorem Fragment.render_ne_stop (constraints : List Text) (fragment : Fragment) :
    fragment.render constraints ≠ Fragment.stop := by
  intro same
  have longer : 10 ≤ (fragment.render constraints).length := by
    rw [Fragment.render, List.length_append]
    exact Nat.le_add_left 10 _
  rw [same] at longer
  exact absurd longer (by decide)

def messageLines (segment : Bytes) : List (Except Error Text) :=
  match Message.decode segment with
  | .ok text => (Text.lines text).map .ok
  | .error fault => [.error fault]

def streamLines (stream : Bytes) : List (Except Error Text) :=
  (Message.segments stream).flatMap messageLines

theorem stream_lines_of_unfinished {stream : Bytes} (absent : Message.delimiter ∉ stream) :
    streamLines stream = [] := by
  rw [streamLines, (Message.segments_of_unfinished absent).1, List.flatMap_nil]

theorem stream_lines_segment {segment : Bytes} (absent : Message.delimiter ∉ segment)
    (rest : Bytes) :
    streamLines (segment ++ Message.delimiter :: rest) =
      messageLines segment ++ streamLines rest := by
  rw [streamLines, (Message.segments_cons absent rest).1, List.flatMap_cons, streamLines]

theorem split_after_length_le {Item : Type} [DecidableEq Item] (mark : Item)
    (items : List Item) : (Text.splitAfter mark items).length ≤ items.length := by
  induction items with
  | nil => exact Nat.le_refl _
  | cons item items induction =>
      rw [Text.splitAfter, List.foldr_cons, ← Text.splitAfter, List.length_cons]
      split
      · rw [List.length_cons]
        omega
      · cases pieces : Text.splitAfter mark items with
        | nil => exact Nat.succ_le_succ (Nat.zero_le _)
        | cons piece rest =>
            rw [pieces, List.length_cons] at induction
            rw [List.length_cons]
            omega

theorem decoded_lines_length_le {segment : Bytes} {text : Text}
    (decoded : Message.decode segment = .ok text) :
    (Text.lines text).length ≤ segment.length := by
  have pieces := split_after_length_le '\n' text
  have bytes := Text.length_le_utf8 text
  rw [(Message.decode_eq_ok_iff segment text).1 decoded] at bytes
  rw [Text.lines, List.length_map]
  omega

theorem observe_all (answerSets : List AnswerSet) (carry : CarryOver) :
    answerSets.foldl CarryOver.observe carry =
      match answerSets.getLast? with
      | some answerSet =>
          ⟨carry.predicate, answerSet.atoms.filterMap (CarryOver.constraint carry.predicate)⟩
      | none => carry := by
  induction answerSets generalizing carry with
  | nil => rfl
  | cons first rest induction =>
      rw [List.foldl_cons, induction, List.getLast?_cons]
      cases rest.getLast? <;> rfl

theorem carried_constraints_concat (name : Text) (shown : List StepResult) (result : StepResult) :
    (⟨name, carriedConstraints (some name) (shown ++ [result])⟩ : CarryOver) =
      result.answerSets.foldl CarryOver.observe ⟨name, carriedConstraints (some name) shown⟩ := by
  rw [observe_all]
  unfold carriedConstraints
  rw [List.flatMap_append, List.flatMap_singleton, List.getLast?_append]
  cases result.answerSets.getLast? <;> rfl

theorem carry_over_of_predicate {predicate : Text} {carry : CarryOver}
    (valid : CarryOver.ofPredicate predicate = .ok carry) : carry = ⟨predicate, []⟩ := by
  rw [CarryOver.ofPredicate] at valid
  split at valid
  · cases valid
    rfl
  · cases valid

namespace Session

/-- Whether the memory of a session is that of a session with this predicate which has shown
these results. -/
def Remembers (predicate : Option Text) (shown : List StepResult) (session : Session) : Prop :=
  session.carry = predicate.map fun name => ⟨name, carriedConstraints predicate shown⟩

theorem constraints_of_remembers {predicate : Option Text} {shown : List StepResult}
    {session : Session} (remembers : session.Remembers predicate shown) :
    session.constraints = carriedConstraints predicate shown := by
  rw [constraints, remembers]
  cases predicate <;> rfl

theorem remembers_display {predicate : Option Text} {shown : List StepResult} {session : Session}
    (remembers : session.Remembers predicate shown) (result : StepResult) :
    (session.display result).Remembers predicate (shown ++ [result]) := by
  cases predicate with
  | none => exact congrArg (Option.map _) remembers
  | some name =>
      have before : session.carry = some ⟨name, carriedConstraints (some name) shown⟩ := remembers
      change session.carry.map _ = some _
      rw [before]
      exact congrArg some (carried_constraints_concat name shown result).symm

theorem echo_changes_transcript (session : Session) (text : Text) :
    ∃ transcript, session.echo text = { session with transcript := transcript } := by
  unfold echo
  split
  · exact ⟨_, rfl⟩
  · exact ⟨session.transcript, rfl⟩

/-- Everything that the queued lines and the undelivered bytes yield, and then these bytes. -/
def ahead (session : Session) (later : Bytes) : List (Except Error StepResult) :=
  session.assembly.ahead (streamLines (session.connection.decoder.pending ++ later))

theorem closed_end_of_found {session : Session} (found : session.connection.lost = false) :
    session.closedEnd = .peerClosed := by
  rw [closedEnd, found]
  rfl

theorem ahead_segment {session : Session} {segment rest : Bytes}
    (absent : Message.delimiter ∉ segment)
    (pending : session.connection.decoder.pending = segment ++ Message.delimiter :: rest)
    (later : Bytes) :
    session.ahead later =
      session.assembly.ahead (messageLines segment ++ streamLines (rest ++ later)) := by
  rw [ahead, pending, List.append_assoc, List.cons_append, stream_lines_segment absent]

theorem ahead_drained {session : Session} {assembly : Response.Assembly}
    (queue : assembly.queue = [])
    (same : ∀ rest, session.assembly.ahead rest = assembly.ahead rest)
    (absent : Message.delimiter ∉ session.connection.decoder.pending) :
    session.ahead [] = [] := by
  rw [ahead, List.append_nil, stream_lines_of_unfinished absent, same, Response.Assembly.ahead,
    queue]
  rfl

theorem next_result_some {session after : Session} {found : Except Error StepResult}
    (next : session.nextResult = (some found, after)) :
    ∃ assembly, after = { session with assembly := assembly } ∧
      assembly.queue.length < session.assembly.queue.length ∧
      ∀ rest, session.assembly.ahead rest = found :: assembly.ahead rest := by
  unfold nextResult at next
  cases unwarned : session.assembly.nextUnwarned with
  | mk outcome assembly =>
      rw [unwarned] at next
      cases next
      have taken := Response.Assembly.next_unwarned_some unwarned
      exact ⟨assembly, rfl, (taken []).2, fun rest => (taken rest).1⟩

theorem next_result_none {session after : Session} (next : session.nextResult = (none, after)) :
    ∃ assembly, after = { session with assembly := assembly } ∧ assembly.queue = [] ∧
      ∀ rest, session.assembly.ahead rest = assembly.ahead rest := by
  unfold nextResult at next
  cases unwarned : session.assembly.nextUnwarned with
  | mk outcome assembly =>
      rw [unwarned] at next
      cases next
      have drained := Response.Assembly.next_unwarned_none unwarned
      exact ⟨assembly, rfl, (drained []).2, fun rest => (drained rest).1⟩

structure Fresh (config : Config) (format : OutputFormat) (session : Session) : Prop where
  settings : session.config = config
  shows : session.format = format
  connected : session.connection.state = .connected
  held : session.connection.socket = true
  found : session.connection.lost = false
  nothing_pending : session.connection.decoder.pending = []
  nothing_queued : session.assembly = .empty
  nothing_told : session.status = .initial
  remembers : session.Remembers config.carryOver []
  nothing_shown : session.transcript = []

theorem carry_of_create {config : Config} {format : OutputFormat} {created : Session}
    (creates : create config format = .ok created) :
    created =
      { config, format
        connection := .toAddress config.host config.port
        assembly := .empty
        status := .initial
        carry := config.carryOver.map fun name => ⟨name, []⟩
        steps := 0
        answerSets := 0
        transcript := [] } := by
  rw [create] at creates
  cases carryOver : config.carryOver with
  | none =>
      rw [carryOver] at creates
      cases creates
      rfl
  | some predicate =>
      rw [carryOver] at creates
      dsimp only at creates
      split at creates
      · next carry valid =>
          obtain rfl := carry_over_of_predicate valid
          cases creates
          rfl
      · cases creates

theorem fresh_of_create {config : Config} {format : OutputFormat} {created session : Session}
    (creates : create config format = .ok created)
    (connects : created.connect .accepted = (.ok (), session)) :
    session.Fresh config format := by
  have connected : session = (created.connect .accepted).2 := by rw [connects]
  obtain rfl := carry_of_create creates
  subst connected
  have remembers : (config.carryOver.map fun name => (⟨name, []⟩ : CarryOver)) =
      config.carryOver.map fun name => ⟨name, carriedConstraints config.carryOver []⟩ := by
    cases config.carryOver <;> rfl
  exact ⟨rfl, rfl, rfl, rfl, rfl, rfl, rfl, rfl, remembers, rfl⟩

end Session

end StepStream
