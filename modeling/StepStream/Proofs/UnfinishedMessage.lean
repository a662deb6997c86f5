import StepStream.Proofs.Lifecycle

/-!
What becomes of an unfinished message. The pieces of the stream that a delimiter ends are
delivered one by one, in any state. Behind the last of them there may be a piece without a
delimiter. It is delivered too once the connection is closed: after a failure of the socket,
and also after the client has closed the connection itself, when nothing was lost.
-/

namespace StepStream.Connection

set_option autoImplicit false

open Message (segments unfinished)
open Text (Bytes)

/-- The piece of the stream that an answer delivers, if there is one. A piece that is no text
is delivered as a fault. -/
def piece? : Except Error Received → Option (Except Error Text)
  | .ok (.message text) => some (.ok text)
  | .error (.protocol fault) => some (.error (.protocol fault))
  | _ => none

def Reply.piece? : Reply → Option (Except Error Text)
  | .polled answer => Connection.piece? answer
  | .received (.ok text) => some (.ok text)
  | .received (.error (.protocol fault)) => some (.error (.protocol fault))
  | _ => none

/-- Whether so many pieces of the stream have left it, so that these bytes are left. -/
def Leaves (stream : Bytes) (count : Nat) (pending : Bytes) : Prop :=
  ∃ told, told.length = count ∧ segments stream = told ++ segments pending ∧
    unfinished stream = unfinished pending

/-- Where a connection stands whose reads have brought this stream, when so many pieces have
been delivered and the client has closed the connection itself or not. -/
inductive Stands (stream : Bytes) (count : Nat) (hungUp : Bool) (connection : Connection) : Prop
  | holds (goes_on : connection.state ≠ .closed) (found : connection.lost = false)
      (unclosed : hungUp = false)
      (begun : connection.state = .disconnected → connection.decoder.pending = [])
      (left : Leaves stream count connection.decoder.pending)
  | closed (closed : connection.state = .closed) (flag : connection.lost = !hungUp)
      (left : Leaves stream count connection.decoder.pending)
  | spent (closed : connection.state = .closed) (nothing : connection.decoder.pending = [])
      (told : hungUp = false ∨ (segments stream).length < count)

/-- Whether a text is the piece with this number, counted from zero, among those that a
delimiter ends. -/
def IsMessage (stream : Bytes) (number : Nat) (text : Text) : Prop :=
  (segments stream)[number]? = some (Text.utf8 text)

def Call.look (persistent : Bool) : Call := if persistent then .receive else .poll

/-- Whether all pieces with a delimiter have been delivered, and behind the last of them there is
a text. -/
def LeavesText (stream : Bytes) (count : Nat) : Prop :=
  count = (segments stream).length ∧ ∃ text, text ≠ [] ∧ Text.utf8 text = unfinished stream

namespace Use

def heard (reads : List ReadOutcome) (use : Use) : Bytes :=
  (reads.take (reads.length - use.reads.length)).flatMap ReadOutcome.bytes

def closes (use : Use) : Call → Bool
  | .close => use.connection.isConnected
  | _ => false

def hangsUp (use : Use) : List Call → Bool
  | [] => false
  | call :: calls =>
      use.closes call ||
        match use.perform call with
        | (none, _) => false
        | (some _, later) => later.hangsUp calls

end Use

/-- What is delivered next: the next piece with a delimiter, or what is left behind the last
delimiter once the connection is closed. -/
inductive Yields (stream : Bytes) (count : Nat) (hungUp : Bool) (later : Connection) :
    Except Error Text → Prop
  | complete (segment : Bytes) (next : (segments stream)[count]? = some segment) :
      Yields stream count hungUp later (Message.decode segment)
  | rest (all : count = (segments stream).length) (left : unfinished stream ≠ [])
      (closed : later.state = .closed) (flag : later.lost = !hungUp) :
      Yields stream count hungUp later (Message.decode (unfinished stream))

inductive Answered (stream : Bytes) (count : Nat) (hungUp : Bool) :
    Option (Except Error Received) → Connection → Prop
  | silent {later : Connection} (stands : Stands stream count hungUp later) :
      Answered stream count hungUp none later
  | other {answer : Except Error Received} {later : Connection} (nothing : piece? answer = none)
      (stands : Stands stream count hungUp later) :
      Answered stream count hungUp (some answer) later
  | piece {answer : Except Error Received} {piece : Except Error Text} {later : Connection}
      (found : piece? answer = some piece) (yields : Yields stream count hungUp later piece)
      (stands : Stands stream (count + 1) hungUp later) :
      Answered stream count hungUp (some answer) later

variable {stream : Bytes} {count : Nat} {hungUp : Bool} {connection later : Connection}

theorem piece_of_answer (segment : Bytes) :
    piece? (answerOf segment) = some (Message.decode segment) := by
  unfold answerOf Message.decode
  cases Text.decode segment <;> rfl

theorem leaves_more {pending : Bytes} (left : Leaves stream count pending) (more : Bytes) :
    Leaves (stream ++ more) count (pending ++ more) := by
  obtain ⟨told, length, pieces, tail⟩ := left
  obtain ⟨streamPieces, streamTail⟩ := Message.segments_append stream more
  obtain ⟨pendingPieces, pendingTail⟩ := Message.segments_append pending more
  refine ⟨told, length, ?_, ?_⟩
  · rw [streamPieces, pendingPieces, pieces, tail, List.append_assoc]
  · rw [streamTail, pendingTail, tail]

theorem leaves_segment {segment rest : Bytes} (absent : Message.delimiter ∉ segment)
    (left : Leaves stream count (segment ++ Message.delimiter :: rest)) :
    (segments stream)[count]? = some segment ∧ Leaves stream (count + 1) rest := by
  obtain ⟨told, length, pieces, tail⟩ := left
  obtain ⟨first, behind⟩ := Message.segments_cons absent rest
  rw [first] at pieces
  refine ⟨?_, told ++ [segment], ?_, ?_, ?_⟩
  · rw [pieces, ← length, List.getElem?_append_right (Nat.le_refl _), Nat.sub_self]
    rfl
  · rw [List.length_append, length]
    rfl
  · rw [pieces, List.append_assoc]
    rfl
  · rw [tail, behind]

theorem leaves_tail {pending : Bytes} (absent : Message.delimiter ∉ pending)
    (left : Leaves stream count pending) :
    count = (segments stream).length ∧ unfinished stream = pending := by
  obtain ⟨told, length, pieces, tail⟩ := left
  obtain ⟨none, whole⟩ := Message.segments_of_unfinished absent
  rw [none, List.append_nil] at pieces
  rw [pieces, length, tail, whole]
  exact ⟨rfl, rfl⟩

theorem answered_of_closed (closed : connection.state = .closed)
    (flag : connection.lost = !hungUp)
    (left : Leaves stream count connection.decoder.pending)
    (absent : Message.delimiter ∉ connection.decoder.pending) :
    Answered stream count hungUp connection.answerBuffered.1 connection.answerBuffered.2 := by
  obtain ⟨all, tail⟩ := leaves_tail absent left
  rw [answer_of_closed closed absent]
  split
  · exact .other rfl (.closed closed flag left)
  · next something =>
      rw [← tail] at something ⊢
      refine .piece (piece_of_answer _) (.rest all something closed flag) (.spent closed rfl ?_)
      exact .inr (all ▸ Nat.lt_succ_self count)

theorem answered_of_stands (stands : Stands stream count hungUp connection) :
    Answered stream count hungUp connection.answerBuffered.1 connection.answerBuffered.2 := by
  rcases Message.unfinished_or_segment connection.decoder.pending with
    absent | ⟨segment, rest, pending, absent⟩
  · cases stands with
    | holds goes_on found unclosed begun left =>
        cases state : connection.state with
        | disconnected =>
            rw [answerBuffered, if_pos state]
            exact .other rfl (.holds goes_on found unclosed begun left)
        | connected =>
            rw [answer_of_unfinished state absent]
            exact .silent (.holds goes_on found unclosed begun left)
        | closed => exact absurd state goes_on
    | closed closed flag left => exact answered_of_closed closed flag left absent
    | spent closed nothing told =>
        rw [answer_of_closed closed absent, if_pos nothing]
        exact .other rfl (.spent closed nothing told)
  · have begins (empty : connection.decoder.pending = []) : False := by
      rw [pending] at empty
      simp at empty
    cases stands with
    | holds goes_on found unclosed begun left =>
        have reached : connection.state ≠ .disconnected := fun state => begins (begun state)
        rw [pending] at left
        obtain ⟨next, left⟩ := leaves_segment absent left
        rw [answer_segment_of_begun reached pending absent]
        exact .piece (piece_of_answer segment) (.complete segment next)
          (.holds goes_on found unclosed (fun state => absurd state reached) left)
    | closed closed flag left =>
        have reached : connection.state ≠ .disconnected := by
          rw [closed]
          decide
        rw [pending] at left
        obtain ⟨next, left⟩ := leaves_segment absent left
        rw [answer_segment_of_begun reached pending absent]
        exact .piece (piece_of_answer segment) (.complete segment next) (.closed closed flag left)
    | spent closed nothing told => exact absurd nothing begins

theorem answered_of_absorb (stands : Stands stream count hungUp connection)
    (connected : connection.state = .connected) (outcome : ReadOutcome) :
    Answered (stream ++ outcome.bytes) count hungUp (connection.absorb outcome).1
      (connection.absorb outcome).2 := by
  cases stands with
  | closed closed | spent closed =>
      rw [connected] at closed
      cases closed
  | holds goes_on found unclosed begun left =>
      have more := leaves_more left outcome.bytes
      cases outcome with
      | received bytes =>
          cases bytes with
          | nil => exact .other rfl (.spent rfl rfl (.inl unclosed))
          | cons byte bytes =>
              refine .silent (.holds goes_on found unclosed (fun state => ?_) more)
              have disconnected : connection.state = .disconnected := state
              rw [connected] at disconnected
              cases disconnected
      | timedOut | unlimited =>
          change Answered (stream ++ []) count hungUp _ _
          rw [List.append_nil]
          exact .other rfl (.holds goes_on found unclosed begun left)
      | interrupted =>
          change Answered (stream ++ []) count hungUp _ _
          rw [List.append_nil]
          exact .silent (.holds goes_on found unclosed begun left)
      | failed =>
          change Answered (stream ++ []) count hungUp _ _
          rw [List.append_nil]
          refine .silent (.closed rfl ?_ left)
          rw [unclosed]
          rfl

theorem stands_of_silent (answered : Answered stream count hungUp none later) :
    Stands stream count hungUp later := by
  cases answered with
  | silent stands => exact stands

theorem stands_of_timeout (answered : Answered stream count hungUp (some (.ok .timeout)) later) :
    Stands stream count hungUp later := by
  cases answered with
  | other _ stands => exact stands
  | piece found => cases found

theorem answered_of_await (persistent : Bool) {reads : List ReadOutcome}
    (stands : Stands stream count hungUp connection) :
    ∃ used, reads = used ++ (connection.await persistent reads).2.2 ∧
      Answered (stream ++ used.flatMap ReadOutcome.bytes) count hungUp
        (connection.await persistent reads).1 (connection.await persistent reads).2.1 := by
  induction reads generalizing connection stream with
  | nil =>
      refine ⟨[], rfl, ?_⟩
      rw [List.flatMap_nil, List.append_nil]
      exact answered_of_stands stands
  | cons outcome reads induction =>
      have answered := answered_of_stands stands
      unfold await
      cases buffered : connection.answerBuffered with
      | mk answer silent =>
          rw [buffered] at answered
          cases answer with
          | some answer =>
              refine ⟨[], rfl, ?_⟩
              rw [List.flatMap_nil, List.append_nil]
              exact answered
          | none =>
              have connected := (connected_of_silent buffered).1
              rw [← (answer_keeps_state buffered).1] at connected
              have read := answered_of_absorb (stands_of_silent answered) connected outcome
              have further (next : Connection)
                  (stands : Stands (stream ++ outcome.bytes) count hungUp next) :
                  ∃ used, outcome :: reads = used ++ (next.await persistent reads).2.2 ∧
                    Answered (stream ++ used.flatMap ReadOutcome.bytes) count hungUp
                      (next.await persistent reads).1 (next.await persistent reads).2.1 := by
                obtain ⟨used, rest, later⟩ := induction stands
                refine ⟨outcome :: used, congrArg (outcome :: ·) rest, ?_⟩
                rw [List.flatMap_cons, ← List.append_assoc]
                exact later
              have last (answer : Option (Except Error Received)) (next : Connection)
                  (answered : Answered (stream ++ outcome.bytes) count hungUp answer next) :
                  ∃ used, outcome :: reads = used ++ reads ∧
                    Answered (stream ++ used.flatMap ReadOutcome.bytes) count hungUp answer
                      next := by
                refine ⟨[outcome], rfl, ?_⟩
                rw [List.flatMap_singleton]
                exact answered
              dsimp only
              cases absorbed : silent.absorb outcome with
              | mk answer next =>
                  rw [absorbed] at read
                  split
                  · next found =>
                      cases found
                      exact further _ (stands_of_silent read)
                  · next found =>
                      cases found
                      split
                      · exact further _ (stands_of_timeout read)
                      · exact last _ _ read
                  · next found =>
                      cases found
                      exact last _ _ read

theorem sum_of_answered {answer : Option (Except Error Received)}
    (answered : Answered stream count hungUp answer later) :
    Stands stream (count + (answer.bind piece?).toList.length) hungUp later ∧
      ∀ piece, answer.bind piece? = some piece → Yields stream count hungUp later piece := by
  cases answered with
  | silent stands => exact ⟨stands, nofun⟩
  | other nothing stands =>
      rw [Option.bind_some, nothing]
      exact ⟨stands, nofun⟩
  | piece found yields stands =>
      rw [Option.bind_some, found]
      refine ⟨stands, fun piece same => ?_⟩
      cases same
      exact yields

theorem piece_of_receive (connection : Connection) (reads : List ReadOutcome) :
    ((connection.receive reads).1.map Reply.received).bind Reply.piece? =
      (connection.await true reads).1.bind piece? := by
  unfold receive
  split
  · next awaited =>
      rw [awaited]
      rfl
  · next awaited =>
      rw [awaited]
      rfl
  · next awaited =>
      rw [awaited]
      rfl
  · next fault _ _ awaited =>
      rw [awaited]
      cases fault <;> rfl
  · next awaited =>
      rw [awaited]
      rfl

theorem stands_of_close (stands : Stands stream count hungUp connection) :
    Stands stream count (hungUp || connection.isConnected) connection.close := by
  unfold close isConnected
  cases stands with
  | holds goes_on found unclosed begun left =>
      rw [if_neg goes_on, unclosed]
      cases state : connection.state with
      | disconnected => exact .spent rfl (begun state) (.inl rfl)
      | connected => exact .closed rfl found left
      | closed => exact absurd state goes_on
  | closed closed flag left =>
      rw [if_pos closed, closed, decide_eq_false (by decide), Bool.or_false]
      exact .closed closed flag left
  | spent closed nothing told =>
      rw [if_pos closed, closed, decide_eq_false (by decide), Bool.or_false]
      exact .spent closed nothing told

theorem stands_of_connect (stands : Stands stream count hungUp connection)
    (outcome : ConnectOutcome) :
    Stands stream count hungUp (connection.connect outcome).2 := by
  unfold connect
  split
  · exact stands
  · exact stands
  · next disconnected =>
      cases outcome with
      | refused reason => exact stands
      | accepted =>
          cases stands with
          | holds goes_on found unclosed begun left =>
              exact .holds nofun found unclosed nofun left
          | closed closed | spent closed =>
              rw [disconnected] at closed
              cases closed

namespace Use

variable {use : Use}

theorem perform_look (use : Use) (persistent : Bool) :
    (use.perform (.look persistent)).1.bind Reply.piece? =
        (use.connection.await persistent use.reads).1.bind piece? ∧
      (use.perform (.look persistent)).2 =
        ⟨(use.connection.await persistent use.reads).2.1,
          (use.connection.await persistent use.reads).2.2⟩ := by
  cases persistent with
  | false =>
      refine ⟨?_, rfl⟩
      change ((use.connection.await false use.reads).1.map Reply.polled).bind _ = _
      cases (use.connection.await false use.reads).1 <;> rfl
  | true =>
      refine ⟨piece_of_receive use.connection use.reads, ?_⟩
      rw [← receive_leaves]
      rfl

/-- What is preserved by a call: some reads are used, what it delivers is counted, and it may
be the client's own end of the connection. -/
def Accounts (use : Use) (stream : Bytes) (count : Nat) (hungUp : Bool) (call : Call) : Prop :=
  ∃ used, use.reads = used ++ (use.perform call).2.reads ∧
    Stands (stream ++ used.flatMap ReadOutcome.bytes)
      (count + ((use.perform call).1.bind Reply.piece?).toList.length)
      (hungUp || use.closes call) (use.perform call).2.connection ∧
    ∀ piece, (use.perform call).1.bind Reply.piece? = some piece →
      Yields (stream ++ used.flatMap ReadOutcome.bytes) count hungUp
        (use.perform call).2.connection piece

theorem accounts_look (stands : Stands stream count hungUp use.connection) (persistent : Bool) :
    use.Accounts stream count hungUp (.look persistent) := by
  obtain ⟨used, rest, answered⟩ := answered_of_await persistent stands
  obtain ⟨later, yields⟩ := sum_of_answered answered
  obtain ⟨pieces, leaves⟩ := use.perform_look persistent
  have stays : use.closes (.look persistent) = false := by cases persistent <;> rfl
  unfold Accounts
  rw [pieces, leaves, stays, Bool.or_false]
  exact ⟨used, rest, later, yields⟩

theorem accounts_perform (stands : Stands stream count hungUp use.connection) (call : Call) :
    use.Accounts stream count hungUp call := by
  have unread {later : Connection} {closing : Bool}
      (stands : Stands stream count (hungUp || closing) later) :
      Stands (stream ++ [].flatMap ReadOutcome.bytes) count (hungUp || closing) later := by
    rw [List.flatMap_nil, List.append_nil]
    exact stands
  have still : Stands stream count (hungUp || false) use.connection := by
    rw [Bool.or_false]
    exact stands
  cases call with
  | connect outcome =>
      refine ⟨[], rfl, unread ?_, nofun⟩
      rw [closes, Bool.or_false]
      · exact stands_of_connect stands outcome
      · nofun
  | send text outcome => exact ⟨[], rfl, unread still, nofun⟩
  | poll => exact accounts_look stands false
  | receive => exact accounts_look stands true
  | setReadTimeout limit =>
      refine ⟨[], rfl, unread ?_, nofun⟩
      cases still with
      | holds goes_on found unclosed begun left =>
          exact .holds goes_on found unclosed begun left
      | closed closed flag left => exact .closed closed flag left
      | spent closed nothing told => exact .spent closed nothing told
  | close => exact ⟨[], rfl, unread (stands_of_close stands), nofun⟩

theorem stands_perform_all (calls : List Call) {use : Use} {stream : Bytes} {count : Nat}
    {hungUp : Bool} (stands : Stands stream count hungUp use.connection) :
    ∃ used, use.reads = used ++ (use.performAll calls).2.reads ∧
      Stands (stream ++ used.flatMap ReadOutcome.bytes)
        (count + ((use.performAll calls).1.filterMap Reply.piece?).length)
        (hungUp || use.hangsUp calls) (use.performAll calls).2.connection := by
  induction calls generalizing use stream count hungUp with
  | nil =>
      refine ⟨[], rfl, ?_⟩
      rw [List.flatMap_nil, List.append_nil, hangsUp, Bool.or_false]
      exact stands
  | cons call calls induction =>
      obtain ⟨used, rest, later, -⟩ := accounts_perform stands call
      unfold performAll hangsUp
      cases performed : use.perform call with
      | mk reply next =>
          rw [performed] at rest later
          cases reply with
          | none =>
              refine ⟨used, rest, ?_⟩
              rw [Bool.or_false]
              exact later
          | some reply =>
              obtain ⟨more, left, last⟩ := induction later
              have counted : ((reply :: (next.performAll calls).1).filterMap
                  Reply.piece?).length = ((some reply).bind Reply.piece?).toList.length +
                    ((next.performAll calls).1.filterMap Reply.piece?).length := by
                rw [Option.bind_some, List.filterMap_cons]
                cases reply.piece? with
                | none => exact (Nat.zero_add _).symm
                | some piece => exact Nat.add_comm _ 1
              refine ⟨used ++ more, ?_, ?_⟩
              · rw [rest, List.append_assoc]
                exact congrArg (used ++ ·) left
              · dsimp only
                rw [List.flatMap_append, ← List.append_assoc, ← Bool.or_assoc, counted,
                  ← Nat.add_assoc]
                exact last

theorem heard_of_reads {reads used : List ReadOutcome} (rest : reads = used ++ use.reads) :
    use.heard reads = used.flatMap ReadOutcome.bytes := by
  rw [heard, rest, List.length_append, Nat.add_sub_cancel_right, List.take_left]

theorem look_of_closed (closed : use.connection.state = .closed) (persistent : Bool) :
    (use.perform (.look persistent)).1.bind Reply.piece? =
        use.connection.answerBuffered.1.bind piece? ∧
      (use.perform (.look persistent)).2 = ⟨use.connection.answerBuffered.2, use.reads⟩ := by
  obtain ⟨pieces, leaves⟩ := use.perform_look persistent
  have awaited : use.connection.await persistent use.reads =
      (use.connection.answerBuffered.1, use.connection.answerBuffered.2, use.reads) := by
    cases buffered : use.connection.answerBuffered with
    | mk answer later =>
        cases answer with
        | some answer =>
            cases reads : use.reads with
            | nil => rw [await, buffered]
            | cons outcome rest => rw [await, buffered]
        | none =>
            have connected := (connected_of_silent buffered).1
            rw [closed] at connected
            cases connected
  rw [pieces, leaves, awaited]
  exact ⟨rfl, rfl⟩

end Use

theorem stands_start (host : Text) (port : Nat) : Stands [] 0 false (toAddress host port) :=
  .holds nofun rfl rfl (fun _ => rfl) ⟨[], rfl, rfl, rfl⟩

theorem unfinished_ne_nil {text : Text} (encoded : Text.utf8 text = unfinished stream)
    (nonempty : text ≠ []) : unfinished stream ≠ [] := by
  intro nothing
  have shorter := Text.length_le_utf8 text
  rw [encoded, nothing, List.length_nil] at shorter
  exact nonempty (List.length_eq_zero_iff.1 (Nat.le_zero.1 shorter))

theorem pending_of_leaves {pending : Bytes} (left : Leaves stream count pending)
    (all : count = (segments stream).length) : pending = unfinished stream := by
  rcases Message.unfinished_or_segment pending with absent | ⟨segment, rest, rfl, absent⟩
  · exact (leaves_tail absent left).2.symm
  · obtain ⟨next, -⟩ := leaves_segment absent left
    rw [all, List.getElem?_eq_none (Nat.le_refl _)] at next
    cases next

theorem closed_of_hung_up (stands : Stands stream count true connection) :
    connection.state = .closed := by
  cases stands with
  | holds _ _ unclosed => cases unclosed
  | closed closed | spent closed => exact closed

theorem answer_left_text (stands : Stands stream count true connection)
    (left : LeavesText stream count) :
    ∃ text later, connection.answerBuffered = (some (.ok (.message text)), later) ∧
      later.lost = false ∧ ¬IsMessage stream count text := by
  obtain ⟨all, text, nonempty, encoded⟩ := left
  cases stands with
  | holds _ _ unclosed => cases unclosed
  | spent _ _ told =>
      rcases told with unclosed | beyond
      · cases unclosed
      · omega
  | closed closed flag leaves =>
      have pending := pending_of_leaves leaves all
      have absent : Message.delimiter ∉ connection.decoder.pending := by
        rw [pending]
        exact (Message.unfinished_suffix stream).2
      have answered := answer_of_closed closed absent
      have decoded : answerOf (unfinished stream) = .ok (.message text) := by
        rw [answerOf, (Message.decode_eq_ok_iff _ _).2 encoded]
      rw [pending, if_neg (unfinished_ne_nil encoded nonempty), decoded] at answered
      refine ⟨text, _, answered, flag, ?_⟩
      intro complete
      rw [IsMessage, all, List.getElem?_eq_none (Nat.le_refl _)] at complete
      cases complete

namespace Use

variable {use : Use}

/-- A client that has closed the connection reads nothing more. -/
theorem heard_after_hanging_up (stands : Stands stream count true use.connection)
    (persistent : Bool) (reads : List ReadOutcome) :
    (use.perform (.look persistent)).2.heard reads = use.heard reads := by
  rw [(look_of_closed (closed_of_hung_up stands) persistent).2]
  rfl

theorem look_left_text (stands : Stands stream count true use.connection)
    (left : LeavesText stream count) (persistent : Bool) :
    ∃ text, (use.perform (.look persistent)).1.bind Reply.piece? = some (.ok text) ∧
      (use.perform (.look persistent)).2.connection.lost = false ∧
      ¬IsMessage stream count text := by
  obtain ⟨text, later, answered, kept, incomplete⟩ := answer_left_text stands left
  obtain ⟨pieces, leaves⟩ := look_of_closed (closed_of_hung_up stands) persistent
  rw [answered] at pieces leaves
  rw [leaves]
  exact ⟨text, pieces, kept, incomplete⟩

end Use

theorem text_of_yields {text : Text} (yields : Yields stream count hungUp later (.ok text)) :
    IsMessage stream count text ∨
      later.state = .closed ∧ Text.utf8 text = unfinished stream ∧ text ≠ [] ∧
        count = (segments stream).length ∧ later.lost = !hungUp := by
  generalize delivered : Except.ok text = piece at yields
  cases yields with
  | complete segment next =>
      have encoded := (Message.decode_eq_ok_iff segment text).1 delivered.symm
      exact .inl (next.trans (congrArg some encoded.symm))
  | rest all left closed flag =>
      have encoded := (Message.decode_eq_ok_iff _ text).1 delivered.symm
      refine .inr ⟨closed, encoded, ?_, all, flag⟩
      rintro rfl
      exact left encoded.symm

/-- Whatever has been called before, a look for a message delivers the next piece of the stream
that a delimiter ends, or, from a closed connection, what is left behind the last of them. A
message without a delimiter tells of a lost connection if and only if the client has not closed
the connection itself or has left nothing that is a text. -/
theorem unfinished_message_means_loss_iff (host : Text) (port : Nat) (reads : List ReadOutcome)
    (calls : List Call) (persistent : Bool) :
    let start : Use := ⟨toAddress host port, reads⟩
    let use := (start.performAll calls).2
    let count := ((start.performAll calls).1.filterMap Reply.piece?).length
    let found := (use.perform (.look persistent)).1.bind Reply.piece?
    let later := (use.perform (.look persistent)).2
    (∀ text, found = some (.ok text) → IsMessage (later.heard reads) count text ∨
      later.connection.state = .closed ∧ Text.utf8 text = unfinished (later.heard reads)) ∧
      ((∀ text, found = some (.ok text) → ¬IsMessage (later.heard reads) count text →
          later.connection.lost = true) ↔
        ¬(start.hangsUp calls = true ∧ LeavesText (use.heard reads) count)) := by
  intro start use count found later
  have begins : Stands [] 0 false start.connection := stands_start host port
  obtain ⟨used, rest, stands⟩ := Use.stands_perform_all calls begins
  rw [List.nil_append, Nat.zero_add, Bool.false_or] at stands
  have heard : use.heard reads = used.flatMap ReadOutcome.bytes := Use.heard_of_reads rest
  rw [← heard] at stands
  obtain ⟨more, left, -, yields⟩ := Use.accounts_look stands persistent
  have further : later.heard reads = use.heard reads ++ more.flatMap ReadOutcome.bytes := by
    rw [heard, ← List.flatMap_append]
    apply Use.heard_of_reads
    rw [List.append_assoc, ← left]
    exact rest
  rw [← further] at yields
  have told (text : Text) (delivers : found = some (.ok text)) :=
    text_of_yields (yields (.ok text) delivers)
  refine ⟨?_, ?_, ?_⟩
  · intro text delivers
    rcases told text delivers with complete | ⟨closed, encoded, -⟩
    · exact .inl complete
    · exact .inr ⟨closed, encoded⟩
  · rintro loss ⟨hungUp, leavesText⟩
    rw [hungUp] at stands
    obtain ⟨text, delivers, kept, incomplete⟩ := Use.look_left_text stands leavesText persistent
    have same : later.heard reads = use.heard reads :=
      Use.heard_after_hanging_up stands persistent reads
    have lost : later.connection.lost = true := by
      apply loss text delivers
      rw [same]
      exact incomplete
    exact absurd (lost.symm.trans kept) (by decide)
  · intro kept text delivers incomplete
    rcases told text delivers with complete | ⟨-, encoded, nonempty, all, flag⟩
    · exact absurd complete incomplete
    · cases hungUp : start.hangsUp calls with
      | false =>
          rw [hungUp] at flag
          exact flag
      | true =>
          rw [hungUp] at stands
          have same : later.heard reads = use.heard reads :=
            Use.heard_after_hanging_up stands persistent reads
          rw [same] at all encoded
          exact absurd ⟨hungUp, all, text, nonempty, encoded⟩ kept

/-- The second message has not been ended when the client closes the connection, and it is
delivered although nothing is lost. -/
theorem closed_connection_delivers_rest :
    let start : Use := ⟨toAddress "localhost".toList 1, [.received [0x61, 0, 0x62]]⟩
    let use := (start.performAll [.connect .accepted, .poll, .close]).2
    use.heard start.reads = [0x61, 0, 0x62] ∧ segments (use.heard start.reads) = [[0x61]] ∧
      (use.perform .poll).1 = some (.polled (.ok (.message ['b']))) ∧
      (use.perform .poll).2.connection.lost = false :=
  ⟨rfl, rfl, rfl, rfl⟩

end StepStream.Connection
