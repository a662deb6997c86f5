import StepStream.Proofs.Connection

/-!
The life of a connection. Whatever is called, in whatever order, and whatever the operating
system answers, the state only moves forward, and it agrees with the socket and with the flag
of a lost connection. Before the beginning and after the end, calls are refused.
-/

namespace StepStream

set_option autoImplicit false

open Text (Bytes)

def ConnectionState.rank : ConnectionState → Nat
  | .disconnected => 0
  | .connected => 1
  | .closed => 2

namespace Connection

/-- A call of the client, with the answer of the operating system. Calls that read take the
outcomes of their reads from elsewhere. -/
inductive Call where
  | connect (outcome : ConnectOutcome)
  | send (text : Text) (outcome : SendOutcome)
  | poll
  | receive
  | setReadTimeout (limit : Option Duration)
  | close

inductive Reply where
  | done (result : Except Error Unit)
  | polled (result : Except Error Received)
  | received (result : Except Error Text)

/-- A connection in use, with the outcomes of the reads that are still to come. -/
structure Use where
  connection : Connection
  reads : List ReadOutcome

namespace Use

/-- What a call returns and leaves. It does not return if it needs a read without an outcome. -/
def perform (use : Use) : Call → Option Reply × Use
  | .connect outcome =>
      let (result, connection) := use.connection.connect outcome
      (some (.done result), { use with connection := connection })
  | .send _ outcome => (some (.done (use.connection.send outcome)), use)
  | .poll =>
      let (result, connection, reads) := use.connection.poll use.reads
      (result.map .polled, ⟨connection, reads⟩)
  | .receive =>
      let (result, connection, reads) := use.connection.receive use.reads
      (result.map .received, ⟨connection, reads⟩)
  | .setReadTimeout limit =>
      (some (.done (.ok ())), { use with connection := use.connection.setReadTimeout limit })
  | .close => (some (.done (.ok ())), { use with connection := use.connection.close })

/-- The bytes that a call hands to the socket, which may take only some of them. -/
def writes (use : Use) : Call → Bytes
  | .send text _ =>
      match use.connection.usable with
      | .ok () => Message.encode text
      | .error _ => []
  | _ => []

def performAll (use : Use) : List Call → List Reply × Use
  | [] => ([], use)
  | call :: calls =>
      match use.perform call with
      | (none, later) => ([], later)
      | (some reply, later) =>
          let (replies, last) := later.performAll calls
          (reply :: replies, last)

end Use

/-- Whether the socket and the flag of a lost connection agree with the state. -/
structure Coherent (connection : Connection) : Prop where
  held : connection.socket = true ↔ connection.state = .connected
  lost : connection.lost = true → connection.state = .closed

structure Precedes (early late : Connection) : Prop where
  forward : early.state.rank ≤ late.state.rank
  lost : early.lost = true → late.lost = true

structure Keeps (early late : Connection) : Prop where
  coherent : early.Coherent → late.Coherent
  precedes : early.Precedes late

namespace Keeps

variable {early middle late : Connection}

theorem of_same_life (state : late.state = early.state) (socket : late.socket = early.socket)
    (lost : late.lost = early.lost) : early.Keeps late where
  coherent := by
    rintro ⟨held, ended⟩
    rw [← state, ← socket] at held
    rw [← state, ← lost] at ended
    exact ⟨held, ended⟩
  precedes := ⟨by rw [state], fun flag => lost.trans flag⟩

theorem refl (connection : Connection) : connection.Keeps connection := of_same_life rfl rfl rfl

theorem trans (first : early.Keeps middle) (second : middle.Keeps late) : early.Keeps late where
  coherent := fun coherent => second.coherent (first.coherent coherent)
  precedes :=
    ⟨first.precedes.forward.trans second.precedes.forward,
      fun flag => second.precedes.lost (first.precedes.lost flag)⟩

theorem of_closed (closed : late.state = .closed) (released : late.socket = false)
    (lost : early.lost = true → late.lost = true) : early.Keeps late where
  coherent := fun _ => by
    refine ⟨?_, fun _ => closed⟩
    rw [closed, released]
    exact ⟨nofun, nofun⟩
  precedes := by
    refine ⟨?_, lost⟩
    rw [closed]
    cases early.state <;> decide

end Keeps

variable {connection later : Connection}

theorem keeps_connect (outcome : ConnectOutcome) :
    connection.Keeps (connection.connect outcome).2 := by
  unfold connect
  split
  · exact .refl connection
  · exact .refl connection
  · next disconnected =>
      cases outcome with
      | refused reason => exact .refl connection
      | accepted =>
          refine ⟨fun coherent => ⟨⟨fun _ => rfl, fun _ => rfl⟩, ?_⟩, ?_, fun flag => flag⟩
          · intro lost
            have closed := coherent.lost lost
            rw [disconnected] at closed
            cases closed
          · rw [disconnected]
            exact Nat.zero_le _

theorem keeps_close : connection.Keeps connection.close := by
  unfold close
  split
  · exact .refl connection
  · exact .of_closed rfl rfl fun flag => flag

theorem keeps_answer : connection.Keeps connection.answerBuffered.2 := by
  obtain ⟨decoder, same⟩ := answer_changes_decoder connection
  rw [same]
  exact .of_same_life rfl rfl rfl

theorem keeps_absorb (outcome : ReadOutcome) :
    connection.Keeps (connection.absorb outcome).2 := by
  cases outcome with
  | received bytes =>
      cases bytes with
      | nil => exact .of_closed rfl rfl fun flag => flag
      | cons byte bytes => exact .of_same_life rfl rfl rfl
  | timedOut | interrupted | unlimited => exact .refl connection
  | failed => exact .of_closed rfl rfl fun _ => rfl

theorem keeps_await (persistent : Bool) (reads : List ReadOutcome) (connection : Connection) :
    connection.Keeps (connection.await persistent reads).2.1 := by
  induction reads generalizing connection with
  | nil => exact keeps_answer
  | cons outcome reads induction =>
      have answered : connection.Keeps connection.answerBuffered.2 := keeps_answer
      unfold await
      split
      · next found =>
          rw [found] at answered
          exact answered
      · next silent found =>
          rw [found] at answered
          have absorbed := answered.trans (silent.keeps_absorb outcome)
          split
          · next absorbs =>
              rw [absorbs] at absorbed
              exact absorbed.trans (induction _)
          · next absorbs =>
              rw [absorbs] at absorbed
              split
              · exact absorbed.trans (induction _)
              · exact absorbed
          · next absorbs =>
              rw [absorbs] at absorbed
              exact absorbed

theorem receive_leaves (connection : Connection) (reads : List ReadOutcome) :
    (connection.receive reads).2 = (connection.await true reads).2 := by
  unfold receive
  split <;> next awaited => rw [awaited]

namespace Use

variable {use : Use}

theorem keeps_perform (use : Use) (call : Call) :
    use.connection.Keeps (use.perform call).2.connection := by
  cases call with
  | connect outcome => exact keeps_connect outcome
  | send text outcome => exact .refl use.connection
  | poll => exact keeps_await false use.reads use.connection
  | receive =>
      change use.connection.Keeps (use.connection.receive use.reads).2.1
      rw [receive_leaves]
      exact keeps_await true use.reads use.connection
  | setReadTimeout limit => exact .of_same_life rfl rfl rfl
  | close => exact keeps_close

theorem keeps_perform_all (calls : List Call) (use : Use) :
    use.connection.Keeps (use.performAll calls).2.connection := by
  induction calls generalizing use with
  | nil => exact .refl use.connection
  | cons call calls induction =>
      have first := use.keeps_perform call
      unfold performAll
      split
      · next performed =>
          rw [performed] at first
          exact first
      · next performed =>
          rw [performed] at first
          exact first.trans (induction _)

/-- Whether a call is refused so, without a trace. -/
def Refuses (use : Use) (call : Call) (reply : Reply) : Prop :=
  use.perform call = (some reply, use) ∧ use.writes call = []

theorem refuses_before (disconnected : use.connection.state = .disconnected) (text : Text)
    (outcome : SendOutcome) :
    use.Refuses (.send text outcome) (.done (.error (.connection .notConnected))) ∧
      use.Refuses .poll (.polled (.error (.connection .notConnected))) ∧
      use.Refuses .receive (.received (.error (.connection .notConnected))) := by
  have unusable := usable_of_disconnected disconnected
  have answered : use.connection.answerBuffered =
      (some (.error (.connection .notConnected)), use.connection) := by
    rw [answerBuffered, if_pos disconnected]
  have awaited (persistent : Bool) : use.connection.await persistent use.reads =
      (some (.error (.connection .notConnected)), use.connection, use.reads) := by
    cases reads : use.reads with
    | nil => rw [await, answered]
    | cons outcome rest => rw [await, answered]
  refine ⟨⟨?_, ?_⟩, ⟨?_, rfl⟩, ?_, rfl⟩
  · rw [perform, Connection.send, unusable]
  · rw [writes, unusable]
  · rw [perform, Connection.poll, awaited]
    rfl
  · rw [perform, Connection.receive, awaited]
    rfl

theorem refuses_after (closed : use.connection.state = .closed) (text : Text)
    (reach : ConnectOutcome) (outcome : SendOutcome) :
    use.Refuses (.connect reach) (.done (.error (.connection .sessionClosed))) ∧
      use.Refuses (.send text outcome) (.done (.error (.connection .sessionClosed))) := by
  have unusable := usable_of_closed closed
  refine ⟨⟨?_, rfl⟩, ?_, ?_⟩
  · unfold perform Connection.connect
    dsimp only
    rw [closed]
  · rw [perform, Connection.send, unusable]
  · rw [writes, unusable]

end Use

theorem coherent_to_address (host : Text) (port : Nat) : (toAddress host port).Coherent :=
  ⟨⟨nofun, nofun⟩, nofun⟩

theorem not_connected_iff (coherent : connection.Coherent) :
    connection.usable = .error (.connection .notConnected) ↔
      connection.state = .disconnected := by
  refine ⟨fun unusable => ?_, usable_of_disconnected⟩
  cases state : connection.state with
  | disconnected => rfl
  | connected =>
      rw [usable_of_connected state (coherent.held.2 state)] at unusable
      cases unusable
  | closed =>
      rw [usable_of_closed state] at unusable
      cases unusable

theorem connect_failed {outcome : ConnectOutcome} {fault : Error}
    (failed : connection.connect outcome = (.error fault, later)) : later = connection := by
  unfold connect at failed
  split at failed
  · cases failed
  · cases failed
    rfl
  · split at failed <;> cases failed
    rfl

/-- However a connection is used, and whatever the operating system answers: its state only
moves forward, a socket is held while it is connected and at no other time, and a loss of the
connection is the end of it and stays known. A failed attempt to connect changes nothing.
Before the beginning and after the end, calls are refused, and nothing is changed or written. -/
theorem connection_moves_forward (host : Text) (port : Nat) (reads : List ReadOutcome)
    (calls further : List Call) :
    let early := (Use.performAll ⟨toAddress host port, reads⟩ calls).2
    let late := (early.performAll further).2
    let connection := late.connection
    early.connection.state.rank ≤ connection.state.rank ∧
      (connection.socket = true ↔ connection.state = .connected) ∧
      (connection.usable = .error (.connection .notConnected) ↔
        connection.state = .disconnected) ∧
      (connection.lost = true → connection.state = .closed) ∧
      (early.connection.lost = true → connection.lost = true) ∧
      (∀ outcome fault later, connection.connect outcome = (.error fault, later) →
        later = connection) ∧
      (connection.state = .disconnected → ∀ text outcome,
        late.Refuses (.send text outcome) (.done (.error (.connection .notConnected))) ∧
          late.Refuses .poll (.polled (.error (.connection .notConnected))) ∧
          late.Refuses .receive (.received (.error (.connection .notConnected)))) ∧
      (connection.state = .closed → ∀ text reach outcome,
        late.Refuses (.connect reach) (.done (.error (.connection .sessionClosed))) ∧
          late.Refuses (.send text outcome) (.done (.error (.connection .sessionClosed)))) := by
  intro early late connection
  have begins : early.connection.Coherent :=
    (Use.keeps_perform_all calls _).coherent (coherent_to_address host port)
  have kept : early.connection.Keeps connection := early.keeps_perform_all further
  have coherent := kept.coherent begins
  exact ⟨kept.precedes.forward, coherent.held, not_connected_iff coherent, coherent.lost,
    kept.precedes.lost, fun _ _ _ failed => connect_failed failed,
    fun disconnected => Use.refuses_before disconnected,
    fun closed => Use.refuses_after closed⟩

end Connection

end StepStream
