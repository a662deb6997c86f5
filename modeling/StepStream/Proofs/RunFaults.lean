import StepStream.Proofs.SentMessages
import StepStream.Session.Life

/-!
What can go wrong while a session runs. The connection, the assembly of results and the source
have errors of their own, and a run of either mode only passes them on. So no run reports an
error of the settings, of the stream file or of the start of a server: those are found before.
-/

namespace StepStream

set_option autoImplicit false

open Response (StepResult)

def Error.arisesInRun : Error → Bool
  | .connection _ | .protocol _ | .server _ | .file _ => true
  | .input _ | .command _ | .configuration _ => false

/-- Whether a result, if it is an error, is one that a session can meet while it runs. -/
def MetInRun {Value : Type} (result : Except Error Value) : Prop :=
  ∀ fault, result = .error fault → fault.arisesInRun = true

theorem met_in_run_ok {Value : Type} (value : Value) : MetInRun (.ok value) := nofun

theorem met_in_run_error {Value : Type} {fault : Error} (arises : fault.arisesInRun = true) :
    MetInRun (.error fault : Except Error Value) := by
  rintro _ ⟨⟩
  exact arises

theorem met_in_run_again {First Second : Type} {fault : Error}
    (met : MetInRun (.error fault : Except Error First)) :
    MetInRun (.error fault : Except Error Second) := met_in_run_error (met fault rfl)

/-! The parts of a session. -/

theorem Message.met_in_decode (bytes : Text.Bytes) : MetInRun (Message.decode bytes) := by
  unfold Message.decode
  split
  · exact met_in_run_ok _
  · exact met_in_run_error rfl

namespace Message.Decoder

variable {decoder later : Decoder} {found : Except Error Text}

theorem met_in_next (finds : decoder.next = (some found, later)) : MetInRun found := by
  unfold next at finds
  split at finds <;> cases finds
  exact met_in_decode _

theorem met_in_residue (finds : decoder.takeResidue = (some found, later)) : MetInRun found := by
  unfold takeResidue at finds
  split at finds <;> cases finds
  exact met_in_decode _

end Message.Decoder

namespace Connection

variable {connection later : Connection}

theorem met_in_usable (connection : Connection) : MetInRun connection.usable := by
  unfold usable
  split
  · exact met_in_run_error rfl
  · exact met_in_run_error rfl
  · split
    · exact met_in_run_ok _
    · exact met_in_run_error rfl

theorem met_in_send (outcome : SendOutcome) : MetInRun (sendResult outcome) := by
  cases outcome with
  | delivered => exact met_in_run_ok _
  | broken | failed => exact met_in_run_error rfl

theorem met_in_connect (outcome : ConnectOutcome) (connection : Connection) :
    MetInRun (connection.connect outcome).1 := by
  unfold connect
  split
  · exact met_in_run_ok _
  · exact met_in_run_error rfl
  · split
    · exact met_in_run_ok _
    · exact met_in_run_error rfl

theorem met_in_answer {answer : Except Error Received}
    (answers : connection.answerBuffered = (some answer, later)) : MetInRun answer := by
  unfold answerBuffered at answers
  split at answers
  · cases answers
    exact met_in_run_error rfl
  · split at answers
    · cases answers
      exact met_in_run_ok _
    · next finds =>
        cases answers
        exact met_in_run_again (Message.Decoder.met_in_next finds)
    · split at answers
      · split at answers
        · cases answers
          exact met_in_run_ok _
        · next finds =>
            cases answers
            exact met_in_run_again (Message.Decoder.met_in_residue finds)
        · cases answers
          exact met_in_run_ok _
      · cases answers

theorem met_in_absorb {outcome : ReadOutcome} {answer : Except Error Received}
    (answers : (connection.absorb outcome).1 = some answer) : MetInRun answer := by
  unfold absorb at answers
  split at answers <;> cases answers
  · exact met_in_run_ok _
  · exact met_in_run_ok _
  · exact met_in_run_error rfl

end Connection

namespace Response.Assembly

variable {assembly later : Assembly} {found : Except Error StepResult}

theorem met_in_line {line : Text} (absorbs : assembly.absorb line = (some found, later)) :
    MetInRun found := by
  unfold absorb at absorbs
  split at absorbs
  · next fault unread =>
      cases absorbs
      unfold read at unread
      split at unread <;> cases unread
      exact met_in_run_error rfl
  · cases absorbs
  · cases absorbs
  · cases absorbs
  · cases absorbs
    exact met_in_run_ok _
  · cases absorbs
    exact met_in_run_error rfl
  · cases absorbs
    exact met_in_run_error rfl
  · cases absorbs
    exact met_in_run_ok _

theorem met_in_lines {skips : Error → Bool} {lines : List Text}
    (finds : assembly.nextFrom skips lines = (some found, later)) : MetInRun found := by
  induction lines generalizing assembly with
  | nil => cases finds
  | cons line rest induction =>
      unfold nextFrom at finds
      split at finds
      · exact induction finds
      · cases finds
        exact met_in_run_ok _
      · next fault _ absorbs =>
          split at finds
          · exact induction finds
          · cases finds
            exact met_in_line absorbs

end Response.Assembly

theorem Session.met_in_result {session later : Session} {found : Except Error StepResult}
    (finds : session.nextResult = (some found, later)) : MetInRun found := by
  unfold nextResult at finds
  cases unwarned : session.assembly.nextUnwarned with
  | mk outcome assembly =>
      rw [unwarned] at finds
      cases finds
      exact Response.Assembly.met_in_lines unwarned

namespace Terminal

theorem met_in_decode_line (bytes : Text.Bytes) : MetInRun (decodeLine bytes) := by
  unfold decodeLine
  split
  · exact met_in_run_ok _
  · exact met_in_run_error rfl

end Terminal

theorem Interactive.met_in_gathering (gathered : List Text) (prompts : Text)
    (lines : List Text.Bytes) : MetInRun (gatherFrom gathered prompts lines).1.1 := by
  induction lines generalizing gathered prompts with
  | nil => exact met_in_run_ok _
  | cons bytes rest induction =>
      unfold gatherFrom
      split
      · next fault refused => exact met_in_run_again (refused ▸ Terminal.met_in_decode_line bytes)
      · split
        · exact induction _ _
        · exact induction _ _
        · exact met_in_run_ok _

theorem Query.met_in_reading (options : QueryOptions) (step : Nat) (held : Option Text)
    (lines : List Text.Bytes) : MetInRun (readFrom options step held lines).1.1 := by
  induction lines generalizing held with
  | nil => exact met_in_run_ok _
  | cons bytes rest induction =>
      unfold readFrom
      split
      · next fault refused => exact met_in_run_again (refused ▸ Terminal.met_in_decode_line bytes)
      · split
        · exact induction _
        · exact met_in_run_ok _

namespace Source

theorem met_in_next (source : Source) (step : Nat) : MetInRun (source.next step).1.input := by
  cases source with
  | buffer buffer => exact met_in_run_ok _
  | interactive reader =>
      unfold next Interactive.next
      dsimp only
      split
      · exact met_in_run_ok _
      · exact Interactive.met_in_gathering _ _ _
  | query reader => exact Query.met_in_reading _ _ _ _

theorem met_in_answers (source : Source) (steps : List Nat) :
    ∀ input ∈ source.answers steps, MetInRun input := by
  induction steps generalizing source with
  | nil => exact nofun
  | cons step steps induction =>
      intro input member
      rcases List.mem_cons.1 member with rfl | later
      · exact source.met_in_next step
      · exact induction _ input later

end Source

/-! Runs. -/

theorem met_cons {Move : Type} {input? : Move → Option (Except Error StepInput)} {move : Move}
    {moves : List Move} (met : ∀ input ∈ (move :: moves).filterMap input?, MetInRun input) :
    (∀ input ∈ input? move, MetInRun input) ∧
      ∀ input ∈ moves.filterMap input?, MetInRun input := by
  refine ⟨fun input given => met input ?_, fun input given => met input ?_⟩
  · exact List.mem_filterMap.2 ⟨move, List.mem_cons_self, given⟩
  · exact (List.sublist_cons_self move moves).filterMap _ |>.subset given

namespace SyncRun

variable {session : Session} {run next : SyncRun} {move : Move} {moves : List Move}

/-- Whether the error that a run has ended with, if any, was met in the run. -/
def EndsAsMet (run : SyncRun) : Prop :=
  ∀ outcome, run.phase = .ended outcome → MetInRun outcome

theorem ends_as_met_finish {outcome : Except Error End} (met : MetInRun outcome) :
    (finish session outcome).EndsAsMet := by
  rintro _ ⟨⟩
  exact met

theorem ends_as_met_after_receiving {answer : Option (Except Error Received)}
    (met : ∀ received, answer = some received → MetInRun received) :
    (afterReceiving session answer).EndsAsMet := by
  cases answer with
  | none => exact nofun
  | some received =>
      cases received with
      | error fault => exact ends_as_met_finish (met_in_run_again (met _ rfl))
      | ok received =>
          cases received with
          | message text => exact nofun
          | timeout => exact nofun
          | closed => exact ends_as_met_finish (met_in_run_ok _)

theorem ends_as_met_begin_sending (session : Session) (text : Text) (isStop : Bool) :
    (beginSending session text isStop).EndsAsMet := by
  unfold beginSending
  dsimp only
  split
  · exact nofun
  · next fault refused =>
      exact ends_as_met_finish (met_in_run_again (refused ▸ Connection.met_in_usable _))

theorem ends_as_met_take {answer : Supplied} (met : MetInRun answer.input) :
    (take session answer).EndsAsMet := by
  unfold take
  dsimp only
  split
  · next fault refused => exact ends_as_met_finish (met_in_run_again (refused ▸ met))
  · exact ends_as_met_begin_sending _ _ _
  · exact ends_as_met_begin_sending _ _ _

theorem ends_as_met_step (met : ∀ input ∈ move.input?, MetInRun input)
    (stepped : run.step move = some next) : next.EndsAsMet := by
  obtain ⟨session, phase⟩ := run
  unfold step at stepped
  split at stepped
  · cases worked_of_work stepped with
    | shown asked => exact nofun
    | refused asked => exact ends_as_met_finish (met_in_run_again (Session.met_in_result asked))
    | answered asked answers =>
        apply ends_as_met_after_receiving
        rintro _ ⟨⟩
        exact Connection.met_in_answer answers
  · split at stepped
    · cases stepped
    · cases stepped
      exact ends_as_met_after_receiving fun _ => Connection.met_in_absorb
  · cases stepped
    exact ends_as_met_take (met _ rfl)
  · split at stepped
    · next refused =>
        cases stepped
        exact ends_as_met_finish (met_in_run_again (refused ▸ Connection.met_in_send _))
    · split at stepped
      · cases stepped
        exact ends_as_met_finish (met_in_run_ok _)
      · cases stepped
        exact nofun
  · cases stepped

theorem ends_as_met_run (begins : run.EndsAsMet)
    (met : ∀ input ∈ moves.filterMap Move.input?, MetInRun input)
    (runs : run.runMoves moves = some next) : next.EndsAsMet := by
  induction moves generalizing run with
  | nil =>
      cases runs
      exact begins
  | cons move moves induction =>
      obtain ⟨here, later⟩ := met_cons met
      rw [runMoves, Option.bind_eq_some_iff] at runs
      obtain ⟨middle, stepped, runs⟩ := runs
      exact induction (ends_as_met_step here stepped) later runs

end SyncRun

namespace AsyncRun

variable {run next : AsyncRun} {move : Move} {moves : List Move}

def Move.input? : Move → Option (Except Error StepInput)
  | .supplied answer => some answer.input
  | _ => none

def EndsAsMet (run : AsyncRun) : Prop :=
  ∀ outcome, run.main = .ended outcome → MetInRun outcome

theorem ends_as_met_finish {outcome : Except Error End} (met : MetInRun outcome) :
    (run.finish outcome).EndsAsMet := by
  rintro _ ⟨⟩
  exact met

theorem ends_as_met_begin_sending (run : AsyncRun) (text : Text) (ending : Option End) :
    (run.beginSending text ending).EndsAsMet := by
  unfold beginSending
  dsimp only
  split
  · exact nofun
  · next fault refused =>
      exact ends_as_met_finish (met_in_run_again (refused ▸ Connection.met_in_usable _))

theorem ends_as_met_forward (slot : ∀ input ∈ run.slot, MetInRun input) :
    run.forward.EndsAsMet := by
  unfold forward
  split
  · exact ends_as_met_begin_sending _ _ _
  · exact ends_as_met_begin_sending _ _ _
  · next found => exact ends_as_met_finish (met_in_run_again (slot _ found))
  · exact ends_as_met_begin_sending _ _ _
  · exact nofun

theorem ends_as_met_after_receiving {late : Bool} {answer : Option (Except Error Received)}
    (polling : run.main = .polling)
    (met : ∀ received, answer = some received → MetInRun received) :
    (run.afterReceiving late answer).EndsAsMet := by
  cases answer with
  | none =>
      intro outcome ended
      cases polling.symm.trans ended
  | some received =>
      cases received with
      | error fault => exact ends_as_met_finish (met_in_run_again (met _ rfl))
      | ok received =>
          cases received with
          | message text => exact nofun
          | timeout => exact nofun
          | closed => exact ends_as_met_finish (met_in_run_ok _)

theorem ends_as_met_work (worked : run.work = some next) : next.EndsAsMet := by
  unfold work at worked
  split at worked
  · next polling =>
      split at worked
      · cases worked
      · next answer connection _ answers =>
          cases worked
          apply ends_as_met_after_receiving
          · exact polling
          · rintro _ rfl
            exact Connection.met_in_answer answers
  · next showing =>
      split at worked
      · cases worked
        intro outcome ended
        cases showing.symm.trans ended
      · next found =>
          cases worked
          exact ends_as_met_finish (met_in_run_again (Session.met_in_result found))
      · cases worked
        exact nofun
  · cases worked

theorem ends_as_met_main (slot : ∀ input ∈ run.slot, MetInRun input)
    (stepped : run.stepMain move = some next) : next.EndsAsMet := by
  unfold stepMain at stepped
  split at stepped
  · cases stepped
    exact ends_as_met_forward slot
  · split at stepped
    · next refused =>
        cases stepped
        exact ends_as_met_finish (met_in_run_again (refused ▸ Connection.met_in_send _))
    · split at stepped
      · cases stepped
        exact nofun
      · cases stepped
        exact ends_as_met_finish (met_in_run_ok _)
  · exact ends_as_met_work stepped
  · exact ends_as_met_work stepped
  · next polling =>
      split at stepped
      · cases stepped
      · cases stepped
        exact ends_as_met_after_receiving polling fun _ => Connection.met_in_absorb
  · cases stepped

/-- Whether a run has no other errors, also not on the way from the source to the main line. -/
structure CarriesMet (run : AsyncRun) : Prop where
  hand : ∀ input ∈ inHand run.producer, MetInRun input
  slot : ∀ input ∈ run.slot, MetInRun input
  outcome : run.EndsAsMet

theorem in_hand_of_holder (input : Except Error StepInput) : inHand (holder input) = [input] := by
  rcases input with fault | _ | _ <;> rfl

theorem in_hand_after_handing (input : Except Error StepInput) :
    inHand (afterHanding input) = [] := by
  rcases input with fault | _ | _ <;> rfl

theorem input_of_returned {input : Except Error StepInput}
    (told : .returned input ∈ run.emits move) : move.input? = some input := by
  have received (answer : Option (Except Error Received)) :
      .returned input ∉ Event.ofReceived answer := by
    unfold Event.ofReceived
    split <;> simp
  have result (found : Option (Except Error StepResult)) :
      .returned input ∉ Event.ofResult found := by
    unfold Event.ofResult
    split <;> simp
  unfold emits at told
  split at told
  case h_1 answer =>
    split at told
    · cases List.mem_singleton.1 told
      rfl
    · cases told
  case h_2 | h_3 | h_4 | h_5 => split at told <;> simp_all
  case h_6 => cases told

theorem carries_met_step (carries : run.CarriesMet) (met : ∀ input ∈ move.input?, MetInRun input)
    (stepped : run.step move = some next) : next.CarriesMet := by
  have outcome : next.EndsAsMet := by
    have kept (produces : run.stepProducer move = some next) : next.EndsAsMet :=
      fun result ended =>
        carries.outcome result ((session_of_producer produces).1.symm.trans ended)
    cases move with
    | begin | paced | supplied | cleared | handed | released => exact kept stepped
    | forward | sent | work | read => exact ends_as_met_main carries.slot stepped
  have empty : ∀ input ∈ (none : Option (Except Error StepInput)), MetInRun input := by simp
  have moved := transition_of_step stepped
  generalize emitted : run.emits move = events at moved
  cases moved with
  | leave | abandon => exact ⟨List.forall_mem_nil _, carries.slot, outcome⟩
  | proceed _ _ after =>
      refine ⟨?_, carries.slot, outcome⟩
      rcases after with rfl | rfl <;> exact List.forall_mem_nil _
  | answer answer =>
      have returned : MetInRun answer.input :=
        met _ (input_of_returned (by rw [emitted]; exact List.mem_singleton.2 rfl))
      refine ⟨?_, carries.slot, outcome⟩
      intro input held
      rw [in_hand_of_holder] at held
      cases List.mem_singleton.1 held
      exact returned
  | clear | release =>
      refine ⟨?_, carries.slot, outcome⟩
      intro input held
      cases List.mem_singleton.1 held
      exact met_in_run_ok _
  | hand input handing =>
      have held : MetInRun input := carries.hand input (by simp [handing, inHand])
      refine ⟨?_, ?_, outcome⟩
      · rw [in_hand_after_handing]
        exact List.forall_mem_nil _
      · rintro _ ⟨⟩
        exact held
  | forward | stop => exact ⟨carries.hand, empty, outcome⟩
  | exhaust | look | deliver | close | poll | read | pause | display | drain =>
      exact ⟨carries.hand, carries.slot, outcome⟩
  | fail _ _ _ _ _ kept =>
      refine ⟨carries.hand, ?_, outcome⟩
      rcases kept with rfl | rfl
      · exact empty
      · exact carries.slot

theorem carries_met_run (carries : run.CarriesMet)
    (met : ∀ input ∈ moves.filterMap Move.input?, MetInRun input)
    (runs : run.runMoves moves = some next) : next.CarriesMet := by
  induction moves generalizing run with
  | nil =>
      cases runs
      exact carries
  | cons move moves induction =>
      obtain ⟨here, later⟩ := met_cons met
      rw [runMoves, Option.bind_eq_some_iff] at runs
      obtain ⟨middle, stepped, runs⟩ := runs
      exact induction (carries_met_step carries here stepped) later runs

end AsyncRun

end StepStream
