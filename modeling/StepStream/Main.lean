import StepStream.Execution
import StepStream.Session.Async
import StepStream.Session.Sync
import Std.Internal.UV.DNS
import Std.Internal.UV.TCP

/-!
The program. It reads files and the terminal, talks to the server over a socket, and passes
what it is answered to the session, which decides everything. Starting a server process is
not possible here and is reported as a failed launch.
-/

namespace StepStream.Main

set_option autoImplicit false

open Std.Internal.UV
open Std.Net
open Text (Bytes)

/-- The number that the system gives an error. Some calls report it with the sign changed. -/
def errorNumber (code : UInt32) : Nat := if code < 0x80000000 then code.toNat else (0 - code).toNat

def capitalize (text : Text) : Text :=
  match text with
  | first :: rest => first.toUpper :: rest
  | [] => []

def describe (error : IO.Error) : Text :=
  let known : Option (String × UInt32) :=
    match error with
    | .noFileOrDirectory _ code _ => some ("no such file or directory", code)
    | .permissionDenied _ code details | .inappropriateType _ code details
    | .noSuchThing _ code details | .invalidArgument _ code details
    | .resourceExhausted _ code details | .otherError code details
    | .resourceBusy code details | .resourceVanished code details
    | .illegalOperation code details | .protocolError code details
    | .timeExpired code details => some (details, code)
    | _ => none
  match known with
  | some (details, code) =>
      capitalize details.toList ++ " (os error ".toList ++
        Text.showNumeral (errorNumber code) ++ [')']
  | none => error.toString.toList

def readEntry (path : Text) : IO (List (Text × FileEntry)) := do
  try
    return [(path, .content (← IO.FS.readBinFile (String.ofList path)).toList)]
  catch error =>
    match error with
    | .noFileOrDirectory _ _ _ => return []
    | .inappropriateType _ _ _ => return [(path, .directory)]
    | other => return [(path, .unreadable (describe other))]

def readFiles (paths : List Text) : IO Files := do
  return ⟨(← paths.mapM readEntry).flatten⟩

def sleep (span : Duration) : IO Unit :=
  IO.sleep (UInt32.ofNat ((span.nanoseconds + 999999) / 1000000))

/-! The terminal. -/

/-- The next line of the terminal, which is empty at the end of the input. -/
def readLine : IO Bytes := do
  let input ← IO.getStdin
  let mut line : ByteArray := .empty
  repeat
    let byte ← input.read 1
    line := line ++ byte
    if byte.isEmpty || byte.toList = [10] then break
  return line.toList

def write (text : Text) : IO Unit := do
  let output ← IO.getStdout
  output.write (ByteArray.mk (Text.utf8 text).toArray)
  output.flush

/-- A question to the user that waits for the next line: for stream input behind the lines
gathered before, or for a query behind an assertion that is held back. -/
inductive Question where
  | stream (lines : List Text)
  | query (reader : Query) (held : Option Text)

/-- The answer of a source that need not ask, or the question that it has begun to ask. -/
def ask (source : Source) (step : Nat) : IO (Sum (Supplied × Source) Question) := do
  match source with
  | .interactive reader =>
      if reader.pendingStop then return .inl (source.next step)
      write Interactive.prompt
      return .inr (.stream [])
  | .query reader =>
      write Query.prompt
      return .inr (.query reader none)
  | .buffer _ => return .inl (source.next step)

def Question.answer (question : Question) (step : Nat) (bytes : Bytes) :
    IO (Sum (Supplied × Source) Question) := do
  let supply (input : Except Error StepInput) (step : Nat) (source : Source) :
      Sum (Supplied × Source) Question :=
    .inl (⟨input, step, []⟩, source)
  let stream (pendingStop : Bool) : Source := .interactive ⟨⟨[]⟩, pendingStop⟩
  match question, Terminal.decodeLine bytes with
  | .stream _, .error error => return supply (.error error) step (stream false)
  | .query reader _, .error error => return supply (.error error) step (.query reader)
  | .stream lines, .ok line =>
      if bytes.isEmpty then
        let (input, pendingStop) := Interactive.atStop lines
        return supply (.ok input) step (stream pendingStop)
      match Interactive.absorb lines line with
      | .gather more => return .inr (.stream more)
      | .askAgain =>
          write Interactive.prompt
          return .inr question
      | .finish input pendingStop => return supply (.ok input) step (stream pendingStop)
  | .query reader held, .ok line =>
      if bytes.isEmpty then return supply (.ok .stop) step (.query reader)
      match Query.absorb reader.options step held line with
      | .hold more => return .inr (.query reader more)
      | .finish input step => return supply (.ok input) step (.query reader)

def waitForAnswer (step : Nat) (asked : Sum (Supplied × Source) Question) :
    IO (Supplied × Source) := do
  let mut asked := asked
  repeat
    match asked with
    | .inl answer => return answer
    | .inr question => asked := (← question.answer step (← readLine))
  return (⟨.ok .stop, step, []⟩, .buffer ⟨[]⟩)

/-! The socket. -/

def settle {Value : Type} (promise : IO.Promise (Except IO.Error Value)) :
    IO (Except IO.Error Value) := do
  return (← IO.wait promise.result?).getD (.error (.userError "operation abandoned"))

def resolve (host : Text) : IO (Except Text IPAddr) := do
  match ← settle (← DNS.getAddrInfo (String.ofList host) "" 0) with
  | .error error => return .error (describe error)
  | .ok addresses =>
      match addresses[0]? with
      | some address => return .ok address
      | none => return .error "no address".toList

def socketAddress (address : IPAddr) (port : UInt16) : SocketAddress :=
  match address with
  | .v4 address => .v4 ⟨address, port⟩
  | .v6 address => .v6 ⟨address, port⟩

def connect (host : Text) (port : Nat) : IO (ConnectOutcome × TCP.Socket) := do
  let socket ← TCP.Socket.new
  match ← resolve host with
  | .error reason => return (.refused reason, socket)
  | .ok address =>
      match ← settle (← socket.connect (socketAddress address (UInt16.ofNat port))) with
      | .error error => return (.refused (describe error), socket)
      | .ok () => return (.accepted, socket)

def send (socket : TCP.Socket) (text : Text) : IO SendOutcome := do
  match ← settle (← socket.send #[ByteArray.mk (Message.encode text).toArray]) with
  | .ok () => return .delivered
  | .error (.resourceVanished _ _) => return .broken
  | .error error => return .failed (describe error)

def readOutcome : Except IO.Error (Option ByteArray) → ReadOutcome
  | .ok (some bytes) => .received bytes.toList
  | .ok none => .received []
  | .error _ => .failed

/-! Runs. -/

def flush (session : Session) : IO Session := do
  unless session.transcript.isEmpty do write session.transcript
  return { session with transcript := [] }

def hangUp (socket : TCP.Socket) (session : Session) : IO Unit := do
  if session.connection.state = .closed then
    try discard <| settle (← socket.shutdown) catch _ => pure ()

def runSync (socket : TCP.Socket) (session : Session) (source : Source) :
    IO (Except Error Summary) := do
  let mut run := SyncRun.start session
  let mut source := source
  repeat
    let session ← flush run.session
    run := { run with session := session }
    let move ← match run.phase with
      | .ended outcome =>
          hangUp socket session
          return session.report outcome
      | .receiving =>
          if (run.step .work).isSome then pure SyncRun.Move.work
          else pure (.read (readOutcome (← settle (← socket.recv? 2048))))
      | .asking => do
          if let .delay span := session.config.pacing then
            if source.isPaced then sleep span
          let (supplied, rest) ← waitForAnswer session.status.step
            (← ask source session.status.step)
          source := rest
          pure (.supplied supplied)
      | .sending text _ => pure (.sent (← send socket text))
    run := (run.step move).getD run
  return run.session.report (.ok .connectionLost)

/-- The state of an asynchronous run that is not part of the session: the question to the
user with the line that is awaited, the read that is on its way, and some times in
milliseconds. -/
structure Progress where
  asked : Option (Question × Task (Except IO.Error Bytes))
  reading : Option (IO.Promise (Except IO.Error (Option ByteArray)))
  resumes : Nat
  sentAt : Nat
  readSince : Nat

def producerMove (run : AsyncRun) (source : Source) (progress : Progress) :
    IO (Option AsyncRun.Move × Source × Progress) := do
  match run.producer with
  | .starting =>
      let pause := match run.session.config.pacing with
        | .delay span => span.nanoseconds / 1000000
        | _ => 0
      return (some .begin, source, { progress with resumes := (← IO.monoMsNow) + pause })
  | .pacing =>
      let move := if (← IO.monoMsNow) < progress.resumes then none else some .paced
      return (move, source, progress)
  | .asking =>
      let step := run.session.status.step
      let asked ← match progress.asked with
        | none => ask source step
        | some (question, line) => do
            unless ← IO.hasFinished line do return (none, source, progress)
            question.answer step (← IO.ofExcept line.get)
      match asked with
      | .inl (supplied, source) =>
          return (some (.supplied supplied), source, { progress with asked := none })
      | .inr question =>
          let line ← IO.asTask readLine .dedicated
          return (none, source, { progress with asked := some (question, line) })
  | .taking _ => return (some .cleared, source, progress)
  | .handing _ => return (some .handed, source, progress)
  | .holding => return (some .released, source, progress)
  | .gone => return (none, source, progress)

/-- Waits for the read that is on its way, but not past the poll interval. -/
def pollSocket (run : AsyncRun) (socket : TCP.Socket) (progress : Progress) :
    IO (Option AsyncRun.Move × Progress) := do
  let reading ← match progress.reading with
    | some reading => pure reading
    | none => socket.recv? 2048
  let progress := { progress with reading := some reading }
  if ← IO.hasFinished reading.result? then
    let outcome := readOutcome (← settle reading)
    return (some (.read outcome false),
      { progress with reading := none, readSince := ← IO.monoMsNow })
  let now ← IO.monoMsNow
  let limit := (run.session.connection.readTimeout.map Duration.nanoseconds).map (· / 1000000)
  if limit.any (progress.readSince + · ≤ now) then
    let late := match run.session.config.pacing with
      | .awaitAnswer span => decide (span.nanoseconds / 1000000 ≤ now - progress.sentAt)
      | _ => false
    return (some (.read .timedOut late), progress)
  IO.sleep 1
  return (none, progress)

def runAsync (socket : TCP.Socket) (session : Session) (source : Source) :
    IO (Except Error Summary) := do
  let mut run := AsyncRun.start session source.isPaced
  let mut source := source
  let now ← IO.monoMsNow
  let mut progress : Progress := ⟨none, none, now, now, now⟩
  repeat
    let session ← flush run.session
    run := { run with session := session }
    if let .ended outcome := run.main then
      hangUp socket session
      return session.report outcome
    let (move, rest, further) ← producerMove run source progress
    source := rest
    progress := further
    if let some move := move then
      run := (run.step move).getD run
    match run.main with
    | .forwarding =>
        progress := { progress with readSince := ← IO.monoMsNow }
        run := (run.step .forward).getD run
    | .sending text _ =>
        let outcome ← send socket text
        progress := { progress with sentAt := ← IO.monoMsNow }
        run := (run.step (.sent outcome)).getD run
    | .showing => run := (run.step .work).getD run
    | .polling =>
        if let some worked := run.step .work then run := worked
        else
          let (move, further) ← pollSocket run socket progress
          progress := further
          if let some move := move then run := (run.step move).getD run
    | .ended _ => pure ()
  return run.session.report (.ok .connectionLost)

def play (prepared : Prepared) : IO (Except Error Summary) := do
  let config := prepared.session.config
  let (outcome, socket) ← connect config.host config.port
  match prepared.session.connect outcome with
  | (.error error, _) => return .error error
  | (.ok (), session) =>
      match config.mode with
      | .sync => runSync socket session prepared.source
      | .async => runAsync socket session prepared.source

def noLaunch : LaunchAnswers := ⟨.failed "Function not implemented (os error 38)".toList, ⟨0⟩, none⟩

/-- Runs the program up to its report, whose output then lacks the transcript. -/
def report (arguments : List String) : IO Report := do
  let setting (name : String) : IO (Option Text) := return (← IO.getEnv name).map String.toList
  let environment : CommandLine.Environment :=
    ⟨← setting "OCLINGO_HOST", ← setting "OCLINGO_PORT"⟩
  match CommandLine.parse environment (arguments.map String.toList) with
  | .error error => return .ofUsage error
  | .ok options =>
      let files ← readFiles (options.files ++ options.encodings)
      let outcome ← match (Execution.prepare options files [] noLaunch).2 with
        | .error error => pure (.error error)
        | .ok prepared => play prepared
      return .ofOutcome options.outputFormat [] outcome

end StepStream.Main

def main (arguments : List String) : IO UInt32 := do
  let report ← StepStream.Main.report arguments
  StepStream.Main.write report.output
  (← IO.getStderr).putStr (String.ofList report.errors)
  return UInt32.ofNat report.exit
