import StepStream.Execution
import StepStream.Proofs.FileLines
import StepStream.Proofs.RunFaults

/-!
Faults of the settings. They are looked for in several places before the session, some of them
only when a server has been started: then the server is stopped again. None of them is left for
the session to find, so an execution that reports one has not tried to connect.
-/

namespace StepStream

set_option autoImplicit false

open Text (Bytes)

namespace ConfigurationFault

def concernsDelay : ConfigurationFault → Bool
  | .negativeDelay | .unrepresentableDelay | .delayTooLong _ => true
  | _ => false

def concernsPredicate : ConfigurationFault → Bool
  | .invalidPredicate _ => true
  | _ => false

/-- The faults that are looked for behind the start of a server. -/
def isLate (fault : ConfigurationFault) : Bool := fault.concernsDelay || fault.concernsPredicate

end ConfigurationFault

/-! What a session can be played to. -/

namespace Prepared

def begin (prepared : Prepared) (outcome : ConnectOutcome) (spawned : Except Text Unit) :
    Life × Option (Except Error Summary) :=
  (Life.start prepared.session).beginRun prepared.session outcome prepared.source.isPaced spawned

/-- The results that the run of a session can have, whatever the world answers, if it is fed
by its source. -/
inductive Played (prepared : Prepared) : Except Error Summary → Prop
  | returned {outcome : ConnectOutcome} {spawned : Except Text Unit} {life : Life}
      {result : Except Error Summary}
      (begins : prepared.begin outcome spawned = (life, some result)) : Played prepared result
  | sync {outcome : ConnectOutcome} {spawned : Except Text Unit} {returned : List AsyncRun}
      {run final : SyncRun} {moves : List SyncRun.Move} {steps : List Nat}
      {ending : Except Error End}
      (begins : prepared.begin outcome spawned = (⟨.sync run, returned⟩, none))
      (runs : run.runMoves moves = some final)
      (fed : moves.filterMap SyncRun.Move.input? = prepared.source.answers steps)
      (ends : final.phase = .ended ending) : Played prepared (final.session.report ending)
  | async {outcome : ConnectOutcome} {spawned : Except Text Unit} {returned : List AsyncRun}
      {run final : AsyncRun} {moves : List AsyncRun.Move} {steps : List Nat}
      {ending : Except Error End}
      (begins : prepared.begin outcome spawned = (⟨.async run, returned⟩, none))
      (runs : run.runMoves moves = some final)
      (fed : moves.filterMap AsyncRun.Move.input? = prepared.source.answers steps)
      (ends : final.main = .ended ending) : Played prepared (final.session.report ending)

variable {prepared : Prepared} {result : Except Error Summary}

theorem met_in_report {session : Session} {ending : Except Error End} (met : MetInRun ending) :
    MetInRun (session.report ending) := by
  cases ending with
  | ok ending => exact met_in_run_ok _
  | error fault => exact met_in_run_again met

theorem begin_sync {outcome : ConnectOutcome} {spawned : Except Text Unit} {run : SyncRun}
    {returned : List AsyncRun}
    (begins : prepared.begin outcome spawned = (⟨.sync run, returned⟩, none)) :
    run.phase = .receiving := by
  unfold begin Life.beginRun at begins
  split at begins
  · cases begins
  · split at begins <;> cases begins
    rfl

theorem begin_async {outcome : ConnectOutcome} {spawned : Except Text Unit} {run : AsyncRun}
    {returned : List AsyncRun}
    (begins : prepared.begin outcome spawned = (⟨.async run, returned⟩, none)) :
    run.producer = .starting ∧ run.slot = none ∧ run.main = .forwarding := by
  unfold begin Life.beginRun at begins
  split at begins
  · cases begins
  · split at begins <;> cases begins
    exact ⟨rfl, rfl, rfl⟩

theorem met_in_begin {outcome : ConnectOutcome} {spawned : Except Text Unit} {life : Life}
    (begins : prepared.begin outcome spawned = (life, some result)) : MetInRun result := by
  unfold begin Life.beginRun at begins
  split at begins
  · next fault session refused =>
      cases begins
      unfold Session.connect at refused
      cases connected : prepared.session.connection.connect outcome with
      | mk answer connection =>
          rw [connected] at refused
          cases refused
          have met := Connection.met_in_connect outcome prepared.session.connection
          rw [connected] at met
          exact met_in_run_again met
  · split at begins <;> cases begins
    exact met_in_run_error rfl

theorem met_in_play (played : prepared.Played result) : MetInRun result := by
  have supplied {steps : List Nat} := prepared.source.met_in_answers steps
  cases played with
  | returned begins => exact met_in_begin begins
  | @sync _ _ _ run _ _ _ _ begins runs fed ends =>
      have fresh : run.EndsAsMet := by
        intro ending ended
        cases (begin_sync begins).symm.trans ended
      exact met_in_report (SyncRun.ends_as_met_run fresh (fed ▸ supplied) runs _ ends)
  | @async _ _ _ run _ _ _ _ begins runs fed ends =>
      obtain ⟨producer, slot, main⟩ := begin_async begins
      have fresh : run.CarriesMet := by
        refine ⟨by simp [producer, AsyncRun.inHand], by simp [slot], ?_⟩
        intro ending ended
        cases main.symm.trans ended
      have carries := AsyncRun.carries_met_run fresh (fed ▸ supplied) runs
      exact met_in_report (carries.outcome _ ends)

end Prepared

/-! The parts of the preparation. -/

/-- Whether the faults of the settings that are found here are found before a server is started. -/
def FoundEarly {Value : Type} (result : Except Error Value) : Prop :=
  ∀ fault, result = .error (.configuration fault) → fault.isLate = false

def FoundLate {Value : Type} (result : Except Error Value) : Prop :=
  ∀ fault, result = .error (.configuration fault) → fault.isLate = true

theorem StepBuffer.input_fault_of_collect {file : Text} {closed : List Fragment}
    {current lines : List Text} {fault : Error}
    (refused : collect file closed current lines = .error fault) : ∃ line, fault = .input line := by
  induction lines generalizing closed current with
  | nil => cases refused
  | cons line rest induction =>
      unfold collect at refused
      dsimp only at refused
      split at refused
      · exact induction refused
      · split at refused
        · exact induction refused
        · exact induction refused
        · cases refused
        · cases refused
          exact ⟨_, rfl⟩

theorem FileLines.file_fault_of_read {files : Files} {path : Text} {fault : Error}
    (refused : read files path = .error fault) : ∃ reason, fault = .file reason := by
  have mapped {content : Bytes} (refused : ofMapped path content = .error fault) :
      ∃ reason, fault = .file reason := by
    obtain ⟨_, _, _, _, -, -, rfl⟩ := first_of_refused refused
    exact ⟨_, rfl⟩
  unfold read at refused
  split at refused
  · cases refused
    exact ⟨_, rfl⟩
  · cases refused
    exact ⟨_, rfl⟩
  · cases refused
    exact ⟨_, rfl⟩
  · split at refused
    · exact mapped refused
    · rw [of_portions_eq_mapped] at refused
      exact mapped refused

theorem StepBuffer.found_early_in_file (files : Files) (path : Text) :
    FoundEarly (ofFile files path) := by
  intro fault refused
  unfold ofFile at refused
  split at refused
  · split at refused
    · next lines _ =>
        unfold ofLines at refused
        split at refused
        · cases refused
        · next unread =>
            cases refused
            obtain ⟨line, ⟨⟩⟩ := input_fault_of_collect unread
    · next unread =>
        cases refused
        obtain ⟨reason, ⟨⟩⟩ := FileLines.file_fault_of_read unread
  · cases refused
    rfl

namespace Options

variable (options : Options) (files : Files)

theorem found_early_in_config : FoundEarly options.config := by
  intro fault refused
  unfold config at refused
  split at refused
  · next paced =>
      cases refused
      unfold pacing at paced
      split at paced
      · split at paced <;> cases paced
        rfl
      · cases paced
  · cases refused

theorem found_early_in_source (input : Bytes) : FoundEarly (options.source files input) := by
  intro fault refused
  unfold source at refused
  split at refused
  · next unread =>
      cases refused
      unfold StepBuffer.ofPaths at unread
      split at unread
      · cases unread
      · next path _ =>
          split at unread
          · cases unread
          · next unread' =>
              cases unread
              exact StepBuffer.found_early_in_file files path fault unread'
      · cases unread
        rfl
  · cases refused
  · split at refused <;> cases refused

theorem found_late_in_delay : FoundLate options.delay := by
  intro fault refused
  unfold delay at refused
  split at refused
  · cases refused
    rfl
  · cases refused
    rfl
  · cases refused
    rfl
  · dsimp only at refused
    split at refused
    · cases refused
      rfl
    · split at refused <;> cases refused
      rfl

end Options

namespace Server

theorem found_early_in_spawn (files : Files) (program : Text) (encodings : List Text)
    (outcome : SpawnOutcome) : FoundEarly (spawn files program encodings outcome) := by
  intro fault refused
  unfold spawn at refused
  split at refused
  · cases refused
    rfl
  · split at refused <;> cases refused

/-- A delay that is too long is told at once, when the process has not been looked at. -/
theorem found_late_in_wait {clock delay : Duration} {exit : Option ExitStatus}
    {server later : Server} {fault : ConfigurationFault}
    (refused : server.waitReady clock delay exit = (.error (.configuration fault), later)) :
    fault.isLate = true ∧ later = server := by
  unfold waitReady at refused
  split at refused
  · cases refused
    exact ⟨rfl, rfl⟩
  · split at refused <;> cases refused

theorem held_of_spawn {files : Files} {program : Text} {encodings : List Text}
    {outcome : SpawnOutcome} {server : Server}
    (spawns : spawn files program encodings outcome = .ok server) : server.isHeld = true := by
  unfold spawn at spawns
  split at spawns
  · cases spawns
  · split at spawns <;> cases spawns
    rfl

end Server

theorem Session.found_late_in_create (config : Config) (format : OutputFormat) :
    FoundLate (create config format) := by
  intro fault refused
  unfold create at refused
  dsimp only at refused
  split at refused
  · cases refused
  · split at refused
    · cases refused
    · next unnamed =>
        cases refused
        unfold CarryOver.ofPredicate at unnamed
        split at unnamed <;> cases unnamed
        rfl

/-! The preparation as a whole. -/

namespace Options

variable {options : Options} {files : Files} {answers : LaunchAnswers} {effects : List Effect}
  {fault : ConfigurationFault}

def serverStart (options : Options) : List Effect :=
  if options.encodings = [] then []
  else [.launched options.server (options.encodings ++ options.serverArguments)]

/-- What has been done when a fault of the settings is reported. For a late fault a server has
been started and stopped again. -/
def doneBefore (options : Options) (fault : ConfigurationFault) : List Effect :=
  if options.encodings ≠ [] ∧ fault.isLate then
    [.launched options.server (options.encodings ++ options.serverArguments), .stopped]
  else []

theorem effects_of_launch (launches : options.launch files answers = (effects, .ok ())) :
    effects = options.serverStart := by
  unfold launch at launches
  split at launches
  · next none =>
      cases launches
      rw [serverStart, if_pos (List.isEmpty_iff.1 none)]
  · next some =>
      rw [List.isEmpty_iff] at some
      split at launches
      · cases launches
      · dsimp only at launches
        split at launches
        · cases launches
        · split at launches <;> cases launches
          rw [serverStart, if_neg some]

theorem effects_of_launch_fault
    (refused : options.launch files answers = (effects, .error (.configuration fault))) :
    effects = options.doneBefore fault := by
  unfold launch at refused
  split at refused
  · cases refused
  · next some =>
      rw [List.isEmpty_iff] at some
      split at refused
      · next spawned =>
          cases refused
          have early := Server.found_early_in_spawn _ _ _ _ fault spawned
          simp [doneBefore, early]
      · next server spawned =>
          dsimp only at refused
          split at refused
          · next delayed =>
              cases refused
              have late := found_late_in_delay options fault delayed
              rw [doneBefore, if_pos ⟨some, late⟩]
          · split at refused
            · cases refused
            · next waited =>
                cases refused
                obtain ⟨late, rfl⟩ := Server.found_late_in_wait waited
                rw [if_pos (Server.held_of_spawn spawned), doneBefore, if_pos ⟨some, late⟩]
                rfl

theorem done_before_early (early : fault.isLate = false) : options.doneBefore fault = [] := by
  simp [doneBefore, early]

end Options

namespace Execution

variable {options : Options} {files : Files} {input : Bytes} {answers : LaunchAnswers}
  {effects : List Effect} {fault : ConfigurationFault}

theorem effects_of_prepare_fault
    (refused : prepare options files input answers = (effects, .error (.configuration fault))) :
    effects = options.doneBefore fault := by
  unfold prepare at refused
  split at refused
  · next unset =>
      cases refused
      have early := Options.found_early_in_config options fault unset
      rw [Options.done_before_early early]
  · split at refused
    · next unread =>
        cases refused
        have early := Options.found_early_in_source options files input fault unread
        rw [Options.done_before_early early]
    · split at refused
      · next unlaunched =>
          cases refused
          exact Options.effects_of_launch_fault unlaunched
      · next launched =>
          split at refused
          · cases refused
          · next uncreated =>
              cases refused
              have late := Session.found_late_in_create _ _ fault uncreated
              rw [Options.effects_of_launch launched, Options.serverStart, Options.doneBefore]
              split <;> simp_all

theorem created_of_prepare {prepared : Prepared}
    (prepares : (prepare options files input answers).2 = .ok prepared) :
    ∃ config, Session.create config options.outputFormat = .ok prepared.session := by
  unfold prepare at prepares
  split at prepares
  · cases prepares
  · next config _ =>
      split at prepares
      · cases prepares
      · split at prepares
        · cases prepares
        · split at prepares
          · next created =>
              cases prepares
              exact ⟨config, created⟩
          · cases prepares

def unreached (prepared : Prepared) : Except Error Summary × Unit :=
  let connection := prepared.session.connection
  (.error (.connection (.connectFailed connection.host connection.port
    "Connection refused".toList)), ())

theorem played_unreached {prepared : Prepared}
    (prepares : (prepare options files input answers).2 = .ok prepared) :
    prepared.Played (unreached prepared).1 := by
  obtain ⟨config, created⟩ := created_of_prepare prepares
  obtain ⟨session, source⟩ := prepared
  obtain rfl := Session.carry_of_create created
  exact @Prepared.Played.returned _ (.refused "Connection refused".toList) (.ok ()) _ _ rfl

theorem effects_of_run_fault {Record : Type}
    {play : Prepared → Except Error Summary × Record} {idle : Record}
    (plays : ∀ prepared, (prepare options files input answers).2 = .ok prepared →
      prepared.Played (play prepared).1)
    (fails : (run options files input answers play idle).2.1 = .error (.configuration fault)) :
    (run options files input answers play idle).1 = options.doneBefore fault := by
  unfold run at fails ⊢
  split at fails
  · next refused =>
      cases fails
      exact effects_of_prepare_fault refused
  · next prepared prepares =>
      have met := Prepared.met_in_play (plays prepared (by rw [prepares]))
      cases met _ fails

/-- A fault of the settings is reported without an attempt to connect. A server has been started
exactly if there are encodings and the fault is one of the delay or of the predicate, and then it
has been stopped again. -/
theorem configuration_error_before_connection {Record : Type}
    {play : Prepared → Except Error Summary × Record} {idle : Record}
    (plays : ∀ prepared, (prepare options files input answers).2 = .ok prepared →
      prepared.Played (play prepared).1)
    (fails : (run options files input answers play idle).2.1 = .error (.configuration fault)) :
    let effects := (run options files input answers play idle).1
    (∀ host port, .connecting host port ∉ effects) ∧
      ((∃ program arguments, .launched program arguments ∈ effects) ↔
        options.encodings ≠ [] ∧ fault.isLate = true) ∧
      effects = options.doneBefore fault := by
  intro effects
  have done : effects = options.doneBefore fault := effects_of_run_fault plays fails
  refine ⟨?_, ?_, done⟩
  · intro host port
    rw [done, Options.doneBefore]
    split <;> simp
  · rw [done, Options.doneBefore]
    split
    · next both => simpa using both
    · next missing => simpa using missing

/-- The server is up when the wait for it turns out to be too long. -/
theorem overlong_delay_before_connection :
    let options :=
      { Options.standard with
        encodings := ["30".toList]
        server := "sleep".toList
        startupDelay := .finite false (Nat.pow 10 19 * Binary64.unitsInOne) }
    let files : Files := ⟨[("30".toList, .content [])]⟩
    let answers : LaunchAnswers := ⟨.started, ⟨0⟩, none⟩
    (∀ prepared, (prepare options files [] answers).2 = .ok prepared →
      prepared.Played (unreached prepared).1) ∧
    (run options files [] answers unreached ()).2.1 =
      .error (.configuration (.delayTooLong (.ofSeconds (Nat.pow 10 19)))) ∧
    (∀ host port, .connecting host port ∉ (run options files [] answers unreached ()).1) ∧
    (run options files [] answers unreached ()).1 =
      [.launched "sleep".toList ["30".toList], .stopped] := by
  intro options files answers
  have plays : ∀ prepared, (prepare options files [] answers).2 = .ok prepared →
      prepared.Played (unreached prepared).1 := fun _ => played_unreached
  have fails : (run options files [] answers unreached ()).2.1 =
      .error (.configuration (.delayTooLong (.ofSeconds (Nat.pow 10 19)))) := by decide +kernel
  obtain ⟨unconnected, -, done⟩ := configuration_error_before_connection plays fails
  exact ⟨plays, fails, unconnected, done⟩

/-- The predicate is refused when the server has been started and has come up. -/
theorem predicate_refused_behind_start :
    let options :=
      { Options.standard with
        encodings := ["enc.lp".toList]
        carryOver := some "Bad".toList }
    let files : Files := ⟨[("enc.lp".toList, .content [])]⟩
    let outcome := run options files [] ⟨.started, ⟨0⟩, none⟩ unreached ()
    outcome.2.1 = .error (.configuration (.invalidPredicate "Bad".toList)) ∧
    outcome.1 = [.launched "oclingo".toList ["enc.lp".toList], .stopped] := by
  decide +kernel

end Execution

end StepStream
