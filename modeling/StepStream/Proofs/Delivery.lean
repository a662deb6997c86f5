import StepStream.Proofs.Connection

/-!
One look for a message after the other. Whatever the reads bring, the looks answer with every
complete message once and in its place, and then with what the end of the stream leaves.
-/

namespace StepStream.Connection

set_option autoImplicit false

open Message (delimiter segments unfinished)
open Text (Bytes)

def polls (connection : Connection) (reads : List ReadOutcome) :
    Nat → List (Except Error Received) × Connection
  | 0 => ([], connection)
  | count + 1 =>
      match connection.poll reads with
      | (none, later, _) => ([], later)
      | (some answer, later, rest) =>
          let (others, last) := later.polls rest count
          (answer :: others, last)

def Answers (segment : Bytes) (answer : Except Error Received) : Prop :=
  ∃ delivered, Message.Delivers segment delivered ∧ answer = delivered.map .message

def isTimeout : Except Error Received → Bool
  | .ok .timeout => true
  | _ => false

def timeouts : ReadOutcome → List (Except Error Received)
  | .timedOut => [.ok .timeout]
  | _ => []

/-- The answers while these reads go on. A message is answered before the next read. -/
def heard (pending : Bytes) : List ReadOutcome → List (Except Error Received)
  | [] => (segments pending).map answerOf
  | outcome :: reads =>
      (segments pending).map answerOf ++
        (timeouts outcome ++ heard (unfinished pending ++ outcome.bytes) reads)

structure Tells (pending : Bytes) (reads : List ReadOutcome)
    (told : List (Except Error Received)) : Prop where
  messages : List.Forall₂ Answers (segments (pending ++ reads.flatMap ReadOutcome.bytes))
    (told.filter (!isTimeout ·))
  timeouts : told.countP isTimeout = reads.countP (· = .timedOut)

theorem answers_answer_of (segment : Bytes) : Answers segment (answerOf segment) := by
  refine ⟨Message.decode segment, Message.delivers_decode segment, ?_⟩
  rw [answerOf]
  cases Message.decode segment <;> rfl

theorem answer_of_not_timeout (segment : Bytes) : isTimeout (answerOf segment) = false := by
  rw [answerOf]
  cases Message.decode segment <;> rfl

theorem filter_answers (pieces : List Bytes) :
    (pieces.map answerOf).filter (!isTimeout ·) = pieces.map answerOf := by
  rw [List.filter_eq_self]
  intro answer member
  obtain ⟨segment, _, rfl⟩ := List.mem_map.1 member
  rw [answer_of_not_timeout, Bool.not_false]

theorem count_answers (pieces : List Bytes) : (pieces.map answerOf).countP isTimeout = 0 := by
  rw [List.countP_eq_zero]
  intro answer member
  obtain ⟨segment, _, rfl⟩ := List.mem_map.1 member
  rw [answer_of_not_timeout]
  decide

theorem heard_messages (reads : List ReadOutcome) (pending : Bytes) :
    (heard pending reads).filter (!isTimeout ·) =
      (segments (pending ++ reads.flatMap ReadOutcome.bytes)).map answerOf := by
  induction reads generalizing pending with
  | nil => rw [heard, filter_answers, List.flatMap_nil, List.append_nil]
  | cons outcome reads induction =>
      have none : (timeouts outcome).filter (!isTimeout ·) = [] := by cases outcome <;> rfl
      rw [heard, List.filter_append, List.filter_append, filter_answers, none, List.nil_append,
        induction, List.flatMap_cons, List.append_assoc, (Message.segments_append pending _).1,
        List.map_append]

theorem heard_timeouts (reads : List ReadOutcome) (pending : Bytes) :
    (heard pending reads).countP isTimeout = reads.countP (· = .timedOut) := by
  induction reads generalizing pending with
  | nil => exact count_answers _
  | cons outcome reads induction =>
      rw [heard, List.countP_append, List.countP_append, count_answers, induction,
        List.countP_cons, Nat.zero_add, Nat.add_comm]
      cases outcome <;> rfl

theorem tells_heard (pending : Bytes) (reads : List ReadOutcome) :
    Tells pending reads (heard pending reads) := by
  refine ⟨?_, heard_timeouts reads pending⟩
  rw [heard_messages, List.forall₂_map_right_iff, List.forall₂_same]
  intro segment _
  exact answers_answer_of segment

theorem heard_append (before after : List ReadOutcome) (outcome : ReadOutcome) (pending : Bytes) :
    heard pending (before ++ outcome :: after) =
      heard pending before ++
        (timeouts outcome ++
          heard (unfinished (pending ++ before.flatMap ReadOutcome.bytes) ++ outcome.bytes)
            after) := by
  induction before generalizing pending with
  | nil => rw [List.nil_append, heard, heard, List.flatMap_nil, List.append_nil]
  | cons first before induction =>
      rw [List.cons_append, heard, heard, induction, List.flatMap_cons, List.append_assoc,
        List.append_assoc, List.append_assoc, (Message.segments_append pending _).2]

theorem heard_segment {segment : Bytes} (absent : delimiter ∉ segment) (rest : Bytes)
    (reads : List ReadOutcome) :
    heard (segment ++ delimiter :: rest) reads = answerOf segment :: heard rest reads := by
  obtain ⟨first, tail⟩ := Message.segments_cons absent rest
  cases reads with
  | nil => rw [heard, heard, first, List.map_cons]
  | cons outcome reads => rw [heard, heard, first, tail, List.map_cons, List.cons_append]

theorem heard_of_unfinished {pending : Bytes} (absent : delimiter ∉ pending)
    (outcome : ReadOutcome) (reads : List ReadOutcome) :
    heard pending (outcome :: reads) =
      timeouts outcome ++ heard (pending ++ outcome.bytes) reads := by
  obtain ⟨none, tail⟩ := Message.segments_of_unfinished absent
  rw [heard, none, tail, List.map_nil, List.nil_append]

/-- What a connected connection is going to answer before the stream ends, what is left then,
and the read that ends the stream. -/
structure Listens (reads : List ReadOutcome) (told : List (Except Error Received)) (tail : Bytes)
    (ending : Option ReadOutcome) (connection : Connection) : Prop where
  connected : connection.state = .connected
  hears : heard connection.decoder.pending (reads.takeWhile ReadOutcome.goesOn) = told
  leaves : unfinished (connection.decoder.pending ++
    (reads.takeWhile ReadOutcome.goesOn).flatMap ReadOutcome.bytes) = tail
  ends : reads.find? (!·.goesOn) = ending

def residue (tail : Bytes) : List (Except Error Received) :=
  if tail = [] then [] else [answerOf tail]

/-- The answers once all messages in front of the end have been answered, up to this count. -/
def epilogue (tail : Bytes) (count : Nat) : Option ReadOutcome → List (Except Error Received)
  | none => []
  | some .failed => residue tail ++ List.replicate count (.ok .closed)
  | some _ => List.replicate count (.ok .closed)

structure Spent (lost : Bool) (connection : Connection) : Prop where
  closed : connection.state = .closed
  nothing_pending : connection.decoder.pending = []
  flag : connection.lost = lost

section

variable {connection : Connection} {reads : List ReadOutcome} {told : List (Except Error Received)}
  {tail : Bytes} {ending : Option ReadOutcome}

theorem await_answered {persistent : Bool} {answer : Except Error Received} {later : Connection}
    (answered : connection.answerBuffered = (some answer, later)) :
    connection.await persistent reads = (some answer, later, reads) := by
  cases reads with
  | nil => rw [await, answered]
  | cons outcome rest => rw [await, answered]

theorem answer_at_end (closed : connection.state = .closed)
    (absent : delimiter ∉ connection.decoder.pending) :
    ∃ later, connection.answerBuffered =
        (some ((residue connection.decoder.pending).headD (.ok .closed)), later) ∧
      Spent connection.lost later := by
  rw [answer_of_closed closed absent, residue]
  by_cases nothing : connection.decoder.pending = []
  · rw [if_pos nothing, if_pos nothing]
    exact ⟨connection, rfl, closed, nothing, rfl⟩
  · rw [if_neg nothing, if_neg nothing]
    exact ⟨_, rfl, closed, rfl, rfl⟩

theorem Listens.segment (listens : Listens reads told tail ending connection)
    {segment rest : Bytes} (pending : connection.decoder.pending = segment ++ delimiter :: rest)
    (absent : delimiter ∉ segment) :
    ∃ others, told = answerOf segment :: others ∧
      connection.poll reads =
        (some (answerOf segment), { connection with decoder := ⟨rest⟩ }, reads) ∧
      Listens reads others tail ending { connection with decoder := ⟨rest⟩ } := by
  refine ⟨heard rest (reads.takeWhile ReadOutcome.goesOn), ?_,
    await_answered (answer_segment listens.connected pending absent),
    listens.connected, rfl, ?_, listens.ends⟩
  · rw [← listens.hears, pending, heard_segment absent]
  · have left := listens.leaves
    rw [pending, List.append_assoc, List.cons_append, (Message.segments_cons absent _).2] at left
    exact left

theorem Listens.silent {outcome : ReadOutcome}
    (listens : Listens (outcome :: reads) told tail ending connection)
    (absent : delimiter ∉ connection.decoder.pending) (goes_on : outcome.goesOn = true)
    (silent : timeouts outcome = []) :
    ∃ later : Connection, later.lost = connection.lost ∧
      connection.poll (outcome :: reads) = later.poll reads ∧
      Listens reads told tail ending later := by
  obtain ⟨connected, hears, leaves, ends⟩ := listens
  rw [List.takeWhile_cons_of_pos goes_on, heard_of_unfinished absent, silent,
    List.nil_append] at hears
  rw [List.takeWhile_cons_of_pos goes_on, List.flatMap_cons, ← List.append_assoc] at leaves
  rw [List.find?_cons_of_neg (by rw [goes_on]; decide)] at ends
  have quiet := answer_of_unfinished connected absent
  cases outcome with
  | received bytes =>
      cases bytes with
      | nil => cases goes_on
      | cons byte bytes =>
          refine ⟨{ connection with decoder := connection.decoder.push (byte :: bytes) }, rfl, ?_,
            connected, hears, leaves, ends⟩
          rw [poll, await, quiet]
          rfl
  | interrupted =>
      have nothing : ReadOutcome.interrupted.bytes = [] := rfl
      rw [nothing, List.append_nil] at hears leaves
      refine ⟨connection, rfl, ?_, connected, hears, leaves, ends⟩
      rw [poll, await, quiet]
      rfl
  | timedOut => cases silent
  | failed => cases goes_on
  | unlimited reason => cases goes_on

theorem Listens.timed_out (listens : Listens (.timedOut :: reads) told tail ending connection)
    (absent : delimiter ∉ connection.decoder.pending) :
    ∃ others, told = .ok .timeout :: others ∧
      connection.poll (.timedOut :: reads) = (some (.ok .timeout), connection, reads) ∧
      Listens reads others tail ending connection := by
  obtain ⟨connected, hears, leaves, ends⟩ := listens
  have goes_on : ReadOutcome.timedOut.goesOn = true := rfl
  have nothing : ReadOutcome.timedOut.bytes = [] := rfl
  rw [List.takeWhile_cons_of_pos goes_on, heard_of_unfinished absent, nothing,
    List.append_nil] at hears
  rw [List.takeWhile_cons_of_pos goes_on, List.flatMap_cons, nothing, List.nil_append] at leaves
  refine ⟨_, hears.symm, ?_, connected, rfl, leaves, ends⟩
  rw [poll, await, answer_of_unfinished connected absent]
  rfl

/-- What a look finds: the next answer before the end, or the end. -/
inductive Finds (tail : Bytes) (lost : Bool) :
    List (Except Error Received) → Option ReadOutcome →
      Option (Except Error Received) × Connection × List ReadOutcome → Prop
  | told {answer : Except Error Received} {others : List (Except Error Received)}
      {ending : Option ReadOutcome} {later : Connection} {rest : List ReadOutcome}
      (listens : Listens rest others tail ending later) (flag : later.lost = lost) :
      Finds tail lost (answer :: others) ending (some answer, later, rest)
  | blocked {later : Connection} {rest : List ReadOutcome} (flag : later.lost = lost) :
      Finds tail lost [] none (none, later, rest)
  | closed {later : Connection} {rest : List ReadOutcome} (spent : Spent lost later) :
      Finds tail lost [] (some (.received [])) (some (.ok .closed), later, rest)
  | failed {later : Connection} {rest : List ReadOutcome} (spent : Spent true later) :
      Finds tail lost [] (some .failed)
        (some ((residue tail).headD (.ok .closed)), later, rest)

theorem Listens.stops {outcome : ReadOutcome}
    (listens : Listens (outcome :: reads) told tail ending connection)
    (absent : delimiter ∉ connection.decoder.pending) (stops : ¬outcome.goesOn = true) :
    told = [] ∧ tail = connection.decoder.pending ∧ ending = some outcome := by
  obtain ⟨-, hears, leaves, ends⟩ := listens
  obtain ⟨none, whole⟩ := Message.segments_of_unfinished absent
  rw [List.takeWhile_cons_of_neg stops, heard, none, List.map_nil] at hears
  rw [List.takeWhile_cons_of_neg stops, List.flatMap_nil, List.append_nil, whole] at leaves
  rw [List.find?_cons_of_pos (by simpa using stops)] at ends
  exact ⟨hears.symm, leaves.symm, ends.symm⟩

theorem Listens.fails (listens : Listens (.failed :: reads) told tail ending connection)
    (absent : delimiter ∉ connection.decoder.pending) :
    Finds tail connection.lost told ending (connection.poll (.failed :: reads)) := by
  obtain ⟨rfl, rfl, rfl⟩ := listens.stops absent (by decide)
  let broken := { connection with lost := true }.markClosed
  have closed : broken.state = .closed := rfl
  obtain ⟨later, answered, spent⟩ := answer_at_end closed absent
  rw [poll, await, answer_of_unfinished listens.connected absent]
  dsimp only [absorb]
  rw [await_answered answered]
  exact .failed spent

theorem Listens.closes (listens : Listens (.received [] :: reads) told tail ending connection)
    (absent : delimiter ∉ connection.decoder.pending) :
    Finds tail connection.lost told ending (connection.poll (.received [] :: reads)) := by
  obtain ⟨rfl, rfl, rfl⟩ := listens.stops absent (by decide)
  rw [poll, await, answer_of_unfinished listens.connected absent]
  exact .closed ⟨rfl, rfl, rfl⟩

theorem Listens.poll (listens : Listens reads told tail ending connection)
    (armed : ∀ reason, ending ≠ some (.unlimited reason)) :
    Finds tail connection.lost told ending (connection.poll reads) := by
  -- One look takes as many reads as it needs. A complete message comes before the next read.
  induction reads generalizing connection with
  | nil =>
      rcases Message.unfinished_or_segment connection.decoder.pending with
        absent | ⟨segment, rest, pending, absent⟩
      · obtain ⟨connected, hears, -, rfl⟩ := listens
        rw [List.takeWhile_nil, heard, (Message.segments_of_unfinished absent).1] at hears
        rw [Connection.poll, await, answer_of_unfinished connected absent, ← hears]
        exact .blocked rfl
      · obtain ⟨others, rfl, polled, later⟩ := listens.segment pending absent
        rw [polled]
        exact .told later rfl
  | cons outcome reads induction =>
      rcases Message.unfinished_or_segment connection.decoder.pending with
        absent | ⟨segment, rest, pending, absent⟩
      · cases outcome with
        | received bytes =>
            cases bytes with
            | nil => exact listens.closes absent
            | cons byte bytes =>
                obtain ⟨next, lost, polled, later⟩ := listens.silent absent rfl rfl
                rw [polled, ← lost]
                exact induction later
        | timedOut =>
            obtain ⟨others, rfl, polled, later⟩ := listens.timed_out absent
            rw [polled]
            exact .told later rfl
        | interrupted =>
            obtain ⟨next, lost, polled, later⟩ := listens.silent absent rfl rfl
            rw [polled, ← lost]
            exact induction later
        | failed => exact listens.fails absent
        | unlimited reason =>
            obtain ⟨-, -, same⟩ := listens.stops absent Bool.false_ne_true
            exact absurd same (armed reason)
      · obtain ⟨others, rfl, polled, later⟩ := listens.segment pending absent
        rw [polled]
        exact .told later rfl

theorem polls_answered {answer : Except Error Received} {later : Connection}
    {rest : List ReadOutcome} (polled : connection.poll reads = (some answer, later, rest))
    (count : Nat) :
    connection.polls reads (count + 1) =
      (answer :: (later.polls rest count).1, (later.polls rest count).2) := by
  rw [polls, polled]

theorem polls_of_spent {lost : Bool} (spent : Spent lost connection) (count : Nat) :
    connection.polls reads count = (List.replicate count (.ok .closed), connection) := by
  have absent : delimiter ∉ connection.decoder.pending := by
    rw [spent.nothing_pending]
    exact List.not_mem_nil
  have answered := answer_of_closed spent.closed absent
  rw [if_pos spent.nothing_pending] at answered
  induction count with
  | zero => rfl
  | succ count induction =>
      rw [polls_answered (await_answered answered), induction, List.replicate_succ]

theorem Listens.polls (listens : Listens reads told tail ending connection)
    (armed : ∀ reason, ending ≠ some (.unlimited reason)) {count length : Nat}
    (enough : count ≤ length) :
    (connection.polls reads count).1 = (told ++ epilogue tail length ending).take count ∧
      ((connection.polls reads count).2.lost = true ↔
        connection.lost = true ∨ ending = some .failed ∧ told.length < count) := by
  -- The epilogue has its full length at every look, so only the count goes down.
  induction count generalizing connection reads told with
  | zero =>
      rw [Connection.polls, List.take_zero]
      simp
  | succ count induction =>
      generalize found : connection.poll reads = result
      have finds := listens.poll armed
      rw [found] at finds
      cases finds with
      | told later flag =>
          obtain ⟨answers, lost⟩ := induction later (Nat.le_of_succ_le enough)
          rw [polls_answered found, answers, lost, flag, List.cons_append, List.take_succ_cons,
            List.length_cons, Nat.succ_lt_succ_iff]
          exact ⟨rfl, Iff.rfl⟩
      | blocked flag =>
          rw [Connection.polls, found]
          refine ⟨rfl, ?_⟩
          simp [flag]
      | closed spent =>
          rw [polls_answered found, polls_of_spent spent, List.nil_append, epilogue,
            List.take_replicate, Nat.min_eq_left enough, List.replicate_succ]
          · refine ⟨rfl, ?_⟩
            simp [spent.flag]
          · nofun
      | failed spent =>
          rw [polls_answered found, polls_of_spent spent, List.nil_append, epilogue]
          refine ⟨?_, by simp [spent.flag]⟩
          rw [residue]
          split
          · rw [List.nil_append, List.take_replicate, Nat.min_eq_left enough, List.replicate_succ]
            rfl
          · rw [List.singleton_append, List.take_succ_cons, List.take_replicate,
              Nat.min_eq_left (Nat.le_of_succ_le enough)]
            rfl

end

/-- However often one looks for a message on a connected connection, and whatever the reads
bring, the looks answer with every message that the stream ends with a delimiter, in order and
once, and with a time-out where a read has timed out after all messages complete by then. At
the orderly end of the stream an unfinished message is discarded; after a failure of the
socket it is answered once. From then on the connection is closed, and it is lost if the
socket has failed. -/
theorem every_message_delivered_once (connection : Connection)
    (connected : connection.state = .connected) (held : connection.lost = false)
    (reads : List ReadOutcome) (armed : ∀ reason, .unlimited reason ∉ reads) (count : Nat) :
    let lived := reads.takeWhile ReadOutcome.goesOn
    let ending := reads.find? (!·.goesOn)
    let pending := connection.decoder.pending
    let told := heard pending lived
    let tail := unfinished (pending ++ lived.flatMap ReadOutcome.bytes)
    let (answers, later) := connection.polls reads count
    Tells pending lived told ∧
      (∀ before after, lived = before ++ .timedOut :: after →
        ∃ first others, told = first ++ .ok .timeout :: others ∧ Tells pending before first) ∧
      (∀ left ∈ residue tail, Answers tail left) ∧
      answers = (told ++ epilogue tail count ending).take count ∧
      (later.lost = true ↔ ending = some .failed ∧ told.length < count) := by
  intro lived ending pending told tail
  have listens : Listens reads told tail ending connection := ⟨connected, rfl, rfl, rfl⟩
  have armed_ending : ∀ reason, ending ≠ some (.unlimited reason) := by
    intro reason same
    exact armed reason (List.mem_of_find?_eq_some same)
  obtain ⟨answers, lost⟩ := listens.polls armed_ending (Nat.le_refl count)
  refine ⟨tells_heard pending lived, ?_, ?_, answers, ?_⟩
  · intro before after divided
    have parts : told = _ := congrArg (heard pending) divided
    rw [heard_append] at parts
    exact ⟨heard pending before, _, parts, tells_heard pending before⟩
  · intro left member
    rw [residue] at member
    split at member
    · cases member
    · rw [List.mem_singleton.1 member]
      exact answers_answer_of tail
  · rw [lost, held]
    simp

/-- The socket fails in the middle of the second message, and what has arrived of it is
answered. -/
theorem broken_message_delivered :
    let connection : Connection := ⟨[], 1, .connected, true, false, .empty, none⟩
    let reads : List ReadOutcome :=
      [.received [0x61, 0, 0x62], .timedOut, .received [0x63], .failed]
    (connection.polls reads 5).1 =
        [.ok (.message ['a']), .ok .timeout, .ok (.message ['b', 'c']), .ok .closed,
          .ok .closed] ∧
      (connection.polls reads 5).2.lost = true := by
  intro connection reads
  obtain ⟨-, -, -, answers, lost⟩ :=
    every_message_delivered_once connection rfl rfl reads (by simp [reads]) 5
  exact ⟨answers, lost.2 ⟨rfl, by decide⟩⟩

end StepStream.Connection
