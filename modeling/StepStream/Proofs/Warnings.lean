import StepStream.Proofs.Lines
import StepStream.Proofs.Session

/-!
Warnings of the server. Wherever a line with a warning is inserted, in front of a line, behind
it or as a message of its own, the other lines yield what they yielded before: a session leaves
the queue in the middle of a message and takes up the rest of it as if nothing had been there.
-/

namespace StepStream

set_option autoImplicit false

open Response (Assembly StepResult)
open Text (Bytes)

structure IsWireLine (line : Text) : Prop extends Text.IsPlain line where
  nul : '\x00' ∉ line

instance (line : Text) : Decidable (IsWireLine line) :=
  decidable_of_iff (line ≠ [] ∧ '\n' ∉ line ∧ '\r' ∉ line ∧ '\x00' ∉ line)
    ⟨fun ⟨nonempty, newline, carriage, nul⟩ => ⟨⟨nonempty, newline, carriage⟩, nul⟩,
      fun wire => ⟨wire.nonempty, wire.newline, wire.carriage, wire.nul⟩⟩

def IsWarning (line : Text) : Prop :=
  ∃ report, IsWireLine report ∧ line = "Warning: ".toList ++ report

inductive Warned : List Text → List Text → Prop
  | nil : Warned [] []
  | line {lines warned : List Text} (line : Text) (others : Warned lines warned) :
      Warned (line :: lines) (line :: warned)
  | warning {lines warned : List Text} {warning : Text} (warns : IsWarning warning)
      (others : Warned lines warned) : Warned lines (warning :: warned)

/-- Warnings are inserted into the lines of messages and between the messages. -/
inductive WarnedMessages : List (List Text) → List (List Text) → Prop
  | nil : WarnedMessages [] []
  | message {lines warned : List Text} {messages others : List (List Text)}
      (here : Warned lines warned) (rest : WarnedMessages messages others) :
      WarnedMessages (lines :: messages) (warned :: others)
  | report {warnings : List Text} {messages others : List (List Text)}
      (alone : Warned [] warnings) (rest : WarnedMessages messages others) :
      WarnedMessages messages (warnings :: others)

def messageOf (lines : List Text) : Text := ['\n'].intercalate lines

def wireOf (messages : List (List Text)) : Bytes :=
  (messages.map messageOf).flatMap Message.encode

section Lines

variable {lines warned : List Text} {messages others : List (List Text)}

theorem IsWarning.wire {line : Text} (warns : IsWarning line) : IsWireLine line := by
  obtain ⟨report, wire, rfl⟩ := warns
  have lead : '\n' ∉ "Warning: ".toList ∧ '\r' ∉ "Warning: ".toList ∧
      '\x00' ∉ "Warning: ".toList := by decide
  refine ⟨⟨by simp, ?_, ?_⟩, ?_⟩
  · exact List.not_mem_append lead.1 wire.newline
  · exact List.not_mem_append lead.2.1 wire.carriage
  · exact List.not_mem_append lead.2.2 wire.nul

theorem Warned.wire (inserted : Warned lines warned) (wire : ∀ line ∈ lines, IsWireLine line) :
    ∀ line ∈ warned, IsWireLine line := by
  induction inserted with
  | nil => exact wire
  | line first others induction =>
      rw [List.forall_mem_cons] at wire ⊢
      exact ⟨wire.1, induction wire.2⟩
  | warning warns others induction =>
      rw [List.forall_mem_cons]
      exact ⟨warns.wire, induction wire⟩

theorem Warned.append {more moreWarned : List Text} (first : Warned lines warned)
    (second : Warned more moreWarned) : Warned (lines ++ more) (warned ++ moreWarned) := by
  induction first with
  | nil => exact second
  | line first others induction => exact .line first induction
  | warning warns others induction => exact .warning warns induction

theorem WarnedMessages.flatten (inserted : WarnedMessages messages others) :
    Warned messages.flatten others.flatten := by
  induction inserted with
  | nil => exact .nil
  | message here rest induction => exact here.append induction
  | report alone rest induction => exact alone.append induction

theorem WarnedMessages.wire (inserted : WarnedMessages messages others)
    (wire : ∀ lines ∈ messages, ∀ line ∈ lines, IsWireLine line) :
    ∀ lines ∈ others, ∀ line ∈ lines, IsWireLine line := by
  induction inserted with
  | nil => exact wire
  | message here rest induction =>
      rw [List.forall_mem_cons] at wire ⊢
      exact ⟨here.wire wire.1, induction wire.2⟩
  | report alone rest induction =>
      rw [List.forall_mem_cons]
      exact ⟨alone.wire nofun, induction wire⟩

theorem lines_of_message (wire : ∀ line ∈ lines, IsWireLine line) :
    Text.lines (messageOf lines) = lines := by
  by_cases nothing : lines = []
  · subst nothing
    rfl
  · have plain : ∀ line ∈ lines, Text.IsPlain line := fun line member =>
      (wire line member).toIsPlain
    have joined := Text.lines_of_joined lines plain [] (.inl rfl) nothing
    rwa [List.append_nil] at joined

theorem nul_of_message (wire : ∀ line ∈ lines, IsWireLine line) : '\x00' ∉ messageOf lines := by
  induction lines with
  | nil => exact List.not_mem_nil
  | cons line lines induction =>
      obtain ⟨here, further⟩ := List.forall_mem_cons.1 wire
      cases lines with
      | nil => simpa [messageOf] using here.nul
      | cons next others =>
          rw [messageOf, List.intercalate_cons_cons, ← messageOf]
          simp [here.nul, induction further]

theorem lines_of_wire (wire : ∀ lines ∈ messages, ∀ line ∈ lines, IsWireLine line) :
    streamLines (wireOf messages) = messages.flatten.map .ok := by
  have plain : ∀ text ∈ messages.map messageOf, '\x00' ∉ text := by
    rw [List.forall_mem_map]
    exact fun lines member => nul_of_message (wire lines member)
  rw [streamLines, wireOf, (Message.segments_encode _ plain).1, List.flatMap_map,
    List.flatMap_map, List.map_flatten, ← List.flatMap_def]
  apply List.flatMap_congr
  intro lines member
  rw [messageLines, Message.decode, Text.decode_utf8]
  exact congrArg (List.map _) (lines_of_message (wire lines member))

end Lines

namespace Response

/-- A warning begins with a letter that begins no atom and no line of another kind. -/
theorem read_warning {line : Text} (warns : IsWarning line) :
    ∃ text, read line = .ok (.warning text) := by
  obtain ⟨report, wire, rfl⟩ := warns
  have answers : answerShape.accepts ("Warning: ".toList ++ report) = false := by
    have first : Pattern.advance [answerShape] 'W' = [] := by decide
    have stuck (text : Text) : text.foldl Pattern.advance [] = [] := by
      induction text with
      | nil => rfl
      | cons character text induction => exact induction
    have begins : "Warning: ".toList ++ report = 'W' :: ("arning: ".toList ++ report) := rfl
    rw [begins, Pattern.accepts, List.foldl_cons, first, stuck]
    rfl
  have step : numberAfter "Step: ".toList ("Warning: ".toList ++ report) = none := rfl
  have inline : report.all Text.isInline = true := by
    rw [List.all_eq_true]
    intro character member
    rw [Text.isInline, bne_iff_ne]
    rintro rfl
    exact wire.newline member
  have told : reportAfter "Warning: ".toList ("Warning: ".toList ++ report) =
      some (Text.trim report) := by
    change (if report ≠ [] ∧ report.all Text.isInline then _ else _) = _
    exact if_pos ⟨wire.nonempty, inline⟩
  refine ⟨Text.trim report, ?_⟩
  rw [read, read?, step, answers, told]
  rfl

namespace Assembly

variable {lines warned : List Text}

theorem outcomes_warning {line : Text} (warns : IsWarning line) (assembly : Assembly)
    (rest : List (Except Error Text)) :
    outcomes Error.isRecoverable assembly (.ok line :: rest) =
      outcomes Error.isRecoverable assembly rest := by
  obtain ⟨text, reads⟩ := read_warning warns
  have absorbed : assembly.absorb line = (some (.error (.server (.warning text))), assembly) := by
    rw [absorb, reads]
  rw [outcomes, absorbed]
  rfl

theorem outcomes_warned (inserted : Warned lines warned) (assembly : Assembly)
    (rest : List (Except Error Text)) :
    outcomes Error.isRecoverable assembly (warned.map .ok ++ rest) =
      outcomes Error.isRecoverable assembly (lines.map .ok ++ rest) := by
  induction inserted generalizing assembly with
  | nil => rfl
  | line line others induction =>
      rw [List.map_cons, List.map_cons, List.cons_append, List.cons_append, outcomes, outcomes,
        induction]
  | warning warns others induction =>
      rw [List.map_cons, List.cons_append, outcomes_warning warns, induction]

theorem ahead_warned (inserted : Warned lines warned) (assembly : Assembly) :
    assembly.ahead (warned.map .ok) = assembly.ahead (lines.map .ok) := by
  have queued (more : List Text) : assembly.ahead (more.map .ok) =
      outcomes Error.isRecoverable assembly ((assembly.queue ++ more).map .ok ++ []) := by
    rw [ahead, List.map_append, List.append_nil]
  have same : Warned (assembly.queue ++ lines) (assembly.queue ++ warned) := by
    induction assembly.queue with
    | nil => exact inserted
    | cons line queue induction => exact .line line induction
  rw [queued, queued, outcomes_warned same]

end Assembly

end Response

def verdict : List (Except Error StepResult) → List StepResult × Option Error
  | [] => ([], none)
  | .error fault :: _ => ([], some fault)
  | .ok result :: rest => (result :: (verdict rest).1, (verdict rest).2)

namespace Session

theorem next_result_shorter {session later : Session} {found : Except Error StepResult}
    (next : session.nextResult = (some found, later)) :
    later.assembly.queue.length < session.assembly.queue.length := by
  obtain ⟨assembly, rfl, shorter, -⟩ := next_result_some next
  exact shorter

/-- Takes results up to the first fault, or until nothing more is queued. -/
def drain (session : Session) : (List StepResult × Option Error) × Session :=
  match _found : session.nextResult with
  | (none, session) => (([], none), session)
  | (some (.error fault), session) => (([], some fault), session)
  | (some (.ok result), later) =>
      let ((results, fault), session) := later.drain
      ((result :: results, fault), session)
termination_by session.assembly.queue.length
decreasing_by exact next_result_shorter _found

/-- Takes messages up one after the other, and drains the queue after each of them. -/
def hear (session : Session) : List Text → List StepResult × Option Error
  | [] => ([], none)
  | message :: messages =>
      match (session.pushMessage message).drain with
      | ((results, some fault), _) => (results, some fault)
      | ((results, none), session) =>
          let (others, fault) := session.hear messages
          (results ++ others, fault)

/-- Draining takes the front of what is ahead: all of it up to a fault, or all that is queued. -/
theorem drain_front (session : Session) {results : List StepResult} {fault : Option Error}
    {later : Session} (drained : session.drain = ((results, fault), later)) :
    match fault with
    | some fault => ∀ rest, verdict (session.assembly.ahead rest) = (results, some fault)
    | none => later.assembly.queue = [] ∧ ∀ rest,
        verdict (session.assembly.ahead rest) =
          (results ++ (verdict (later.assembly.ahead rest)).1,
            (verdict (later.assembly.ahead rest)).2) := by
  generalize size : session.assembly.queue.length = length
  induction length using Nat.strongRecOn generalizing session results with
  | ind length induction =>
      rw [drain] at drained
      split at drained
      · next _ after asked =>
          obtain ⟨assembly, rfl, queue, ahead⟩ := next_result_none asked
          cases drained
          exact ⟨queue, fun rest => by rw [ahead, List.nil_append]⟩
      · next _ found after asked =>
          obtain ⟨assembly, rfl, -, ahead⟩ := next_result_some asked
          cases drained
          intro rest
          rw [ahead, verdict]
      · next _ result after asked =>
          have shorter := next_result_shorter asked
          obtain ⟨assembly, rfl, -, ahead⟩ := next_result_some asked
          rcases others : drain { session with assembly := assembly } with ⟨⟨more, stopped⟩, final⟩
          rw [others] at drained
          cases drained
          have rest := induction _ (by omega) _ others rfl
          cases fault with
          | none => exact ⟨rest.1, fun more => by rw [ahead, verdict, rest.2]; rfl⟩
          | some fault => exact fun more => by rw [ahead, verdict, rest]

theorem hear_eq (session : Session) (queue : session.assembly.queue = []) (messages : List Text) :
    session.hear messages =
      verdict (session.assembly.ahead ((messages.flatMap Text.lines).map .ok)) := by
  induction messages generalizing session with
  | nil =>
      rw [Response.Assembly.ahead, queue]
      rfl
  | cons message messages induction =>
      have whole : session.assembly.ahead (((message :: messages).flatMap Text.lines).map .ok) =
          (session.pushMessage message).assembly.ahead ((messages.flatMap Text.lines).map .ok) := by
        rw [pushMessage, Response.Assembly.ahead_push, List.flatMap_cons, List.map_append]
      rcases drained : (session.pushMessage message).drain with ⟨⟨results, fault⟩, later⟩
      have front := drain_front _ drained
      rw [whole, hear, drained]
      cases fault with
      | some fault => exact (front _).symm
      | none =>
          dsimp only
          rw [front.2, induction later front.1]

theorem hear_warned {messages others : List (List Text)} (inserted : WarnedMessages messages others)
    (wire : ∀ lines ∈ messages, ∀ line ∈ lines, IsWireLine line) (session : Session)
    (queue : session.assembly.queue = []) :
    session.hear (others.map messageOf) = session.hear (messages.map messageOf) := by
  have arrive {messages : List (List Text)}
      (wire : ∀ lines ∈ messages, ∀ line ∈ lines, IsWireLine line) :
      (messages.map messageOf).flatMap Text.lines = messages.flatten := by
    rw [List.flatMap_map, List.flatMap_congr fun lines member => lines_of_message (wire lines member),
      List.flatMap_id']
  rw [hear_eq session queue, hear_eq session queue, arrive wire, arrive (inserted.wire wire),
    Response.Assembly.ahead_warned inserted.flatten]

end Session

end StepStream
