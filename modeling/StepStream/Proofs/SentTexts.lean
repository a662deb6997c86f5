import StepStream.Proofs.Forwarding
import StepStream.Proofs.MessageBoundary
import StepStream.Proofs.Undivided

/-!
The texts of a session. A fragment is sent with constraints from what the connection has
delivered, as a session recalls nothing else. Such a text holds the character NUL exactly if
the fragment does.
-/

namespace StepStream

set_option autoImplicit false

open Response (StepResult heardFrom)

def SentAs (fragment : Fragment) (text : Text) : Prop :=
  ∃ extra, CarryOver.CarriesReceived extra ∧ text = fragment.render extra

theorem sent_undivided_iff {fragment : Fragment} {text : Text} (sent : SentAs fragment text) :
    '\x00' ∉ text ↔ fragment.IsUndivided := by
  obtain ⟨extra, carries, rfl⟩ := sent
  exact render_undivided_iff (CarryOver.nul_of_carried carries) fragment

theorem all_sent_undivided_iff {fragments : List Fragment} {texts : List Text}
    (sent : List.Forall₂ SentAs fragments texts) :
    (∀ text ∈ texts, '\x00' ∉ text) ↔ ∀ fragment ∈ fragments, fragment.IsUndivided := by
  induction sent with
  | nil => simp
  | cons first _ induction =>
      rw [List.forall_mem_cons, List.forall_mem_cons, sent_undivided_iff first, induction]

def handedOut (fragments : List Fragment) : List (Except Error StepInput) :=
  fragments.map fun fragment => .ok (.fragment fragment)

theorem begins_of_handed_out {fragments : List Fragment} {answers : List (Except Error StepInput)}
    (begins : handedOut fragments <+: answers) :
    fragments <+: answers.filterMap AsyncRun.fragmentOf := by
  have kept : AsyncRun.fragmentOf ∘ (fun fragment => Except.ok (StepInput.fragment fragment)) =
      some := by
    funext fragment
    rfl
  have among := begins.filterMap AsyncRun.fragmentOf
  rwa [handedOut, List.filterMap_map, kept, List.filterMap_some] at among

/-- Whether the texts that a run has written are the first fragments of its source, and the stop
behind all of them if the run has been stopped. -/
def Writes (answers : List (Except Error StepInput)) (fragments : List Fragment)
    (written : List Text) (stopped : Prop) : Prop :=
  ∃ texts, List.Forall₂ SentAs fragments texts ∧
    (stopped ∧ answers = handedOut fragments ++ [.ok .stop] ∧ written = texts ++ [Fragment.stop] ∨
      ¬stopped ∧ fragments <+: answers.filterMap AsyncRun.fragmentOf ∧ written = texts)

theorem writes_arrive_iff {answers : List (Except Error StepInput)} {fragments : List Fragment}
    {written : List Text} {stopped : Prop} (writes : Writes answers fragments written stopped) :
    Message.ArriveOneByOne written ↔ ∀ fragment ∈ fragments, fragment.IsUndivided := by
  obtain ⟨texts, sent, ends⟩ := writes
  have stop : '\x00' ∉ Fragment.stop := by decide
  rw [Message.arrive_one_by_one_iff, ← all_sent_undivided_iff sent]
  rcases ends with ⟨-, -, rfl⟩ | ⟨-, -, rfl⟩
  · simp [or_imp, forall_and, stop]
  · exact Iff.rfl

theorem undivided_of_writes {answers : List (Except Error StepInput)} {fragments : List Fragment}
    {written : List Text} {stopped : Prop} (writes : Writes answers fragments written stopped)
    (free : ∀ fragment, .ok (.fragment fragment) ∈ answers → fragment.IsUndivided) :
    ∀ fragment ∈ fragments, fragment.IsUndivided := by
  obtain ⟨texts, -, ⟨-, rfl, -⟩ | ⟨-, begins, -⟩⟩ := writes
  · intro fragment member
    apply free
    simp [handedOut, member]
  · intro fragment member
    obtain ⟨answer, answered, found⟩ := List.mem_filterMap.1 (begins.subset member)
    unfold AsyncRun.fragmentOf at found
    split at found
    · cases found
      exact free fragment answered
    · cases found

theorem Connection.absorb_tells_nothing (connection : Connection) (outcome : ReadOutcome)
    (text : Text) : (connection.absorb outcome).1 ≠ some (.ok (.message text)) := by
  unfold Connection.absorb
  split <;> nofun

namespace Session

/-- Whether a session has shown these results of these messages, and has the rest queued. -/
structure Recalls (predicate : Option Text) (messages : List Text) (shown : List StepResult)
    (session : Session) : Prop where
  delivered : ∀ message ∈ messages, Connection.CanDeliver message
  remembers : session.Remembers predicate shown
  heard : ∀ later, Response.Assembly.empty.ahead
      ((messages.flatMap fun message => (Text.lines message).map .ok) ++ later) =
    shown.map .ok ++ session.assembly.ahead later

def IsRecalling (predicate : Option Text) (session : Session) : Prop :=
  ∃ messages shown, session.Recalls predicate messages shown

variable {predicate : Option Text} {session after : Session}

theorem recalling_of_fresh {config : Config} {format : OutputFormat}
    (fresh : session.Fresh config format) : session.IsRecalling config.carryOver := by
  refine ⟨[], [], by simp, fresh.remembers, ?_⟩
  intro later
  rw [fresh.nothing_queued]
  rfl

theorem IsRecalling.aside (recalling : session.IsRecalling predicate)
    (carry : after.carry = session.carry) (queue : after.assembly = session.assembly) :
    after.IsRecalling predicate := by
  obtain ⟨messages, shown, delivered, remembers, heard⟩ := recalling
  refine ⟨messages, shown, delivered, carry.trans remembers, ?_⟩
  rw [queue]
  exact heard

theorem IsRecalling.display (recalling : session.IsRecalling predicate) {result : StepResult}
    (next : session.nextResult = (some (.ok result), after)) :
    (after.display result).IsRecalling predicate := by
  obtain ⟨messages, shown, delivered, remembers, heard⟩ := recalling
  obtain ⟨assembly, rfl, -, ahead⟩ := next_result_some next
  have before : { session with assembly := assembly }.Remembers predicate shown := remembers
  refine ⟨messages, shown ++ [result], delivered, remembers_display before result, ?_⟩
  intro later
  rw [heard, ahead, List.map_append, List.append_assoc]
  rfl

theorem IsRecalling.drain (recalling : session.IsRecalling predicate)
    (next : session.nextResult = (none, after)) : after.IsRecalling predicate := by
  obtain ⟨messages, shown, delivered, remembers, heard⟩ := recalling
  obtain ⟨assembly, rfl, -, ahead⟩ := next_result_none next
  refine ⟨messages, shown, delivered, remembers, ?_⟩
  intro later
  rw [heard, ahead]

theorem IsRecalling.message (recalling : session.IsRecalling predicate) {text : Text}
    (delivers : Connection.CanDeliver text) :
    (session.pushMessage text).IsRecalling predicate := by
  obtain ⟨messages, shown, delivered, remembers, heard⟩ := recalling
  refine ⟨messages ++ [text], shown, ?_, remembers, ?_⟩
  · simpa [or_imp, forall_and] using ⟨delivered, delivers⟩
  · intro later
    rw [List.flatMap_append, List.flatMap_singleton, List.append_assoc, heard, pushMessage,
      Response.Assembly.ahead_push]

theorem IsRecalling.sends (recalling : session.IsRecalling predicate)
    (valid : ∀ name ∈ predicate, CarryOver.isPredicate name = true) (fragment : Fragment) :
    SentAs fragment (session.wireText (.fragment fragment)) := by
  obtain ⟨messages, shown, delivered, remembers, heard⟩ := recalling
  have begins : shown.map .ok <+: heardFrom messages := by
    have all := heard []
    rw [List.append_nil] at all
    rw [heardFrom, all]
    exact List.prefix_append _ _
  refine ⟨session.constraints, ⟨predicate, messages, shown, valid, delivered, begins, ?_⟩, rfl⟩
  exact constraints_of_remembers remembers

theorem valid_of_create {config : Config} {format : OutputFormat} {created : Session}
    (creates : create config format = .ok created) :
    ∀ name ∈ config.carryOver, CarryOver.isPredicate name = true := by
  intro name given
  rw [Option.mem_def] at given
  rw [create, given] at creates
  by_cases valid : CarryOver.isPredicate name = true
  · exact valid
  · dsimp only at creates
    rw [CarryOver.ofPredicate, if_neg valid] at creates
    cases creates

end Session

end StepStream
