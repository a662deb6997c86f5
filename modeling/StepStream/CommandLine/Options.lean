import StepStream.Binary64
import StepStream.Session.Config
import StepStream.Source.Query
import StepStream.Transcript

/-!
The options of the program, and the settings that follow from them. Some combinations of
options make no sense; that is found out when the settings are asked for.
-/

namespace StepStream

set_option autoImplicit false

structure Options where
  /-- The stream files. There may be at most one. -/
  files : List Text
  host : Text
  port : Nat
  /-- The seconds between fragments, or the time limit of an answer. -/
  time : Nat
  timeout : Bool
  mode : Mode
  debug : Bool
  verbose : Bool
  format : Text
  carryOver : Option Text
  encodings : List Text
  serverArguments : List Text
  server : Text
  startupDelay : Binary64
  query : Bool
  permanent : Bool
  implicitIncrement : Bool
  window : Option Nat
  autoIncrement : Bool
  deriving DecidableEq, Repr

namespace Options

def defaultServer : Text := "oclingo".toList

def defaultStartupDelay : Binary64 := .finite false (2 * Binary64.unitsInOne)

def standard : Options where
  files := []
  host := Config.defaultHost
  port := Config.defaultPort
  time := 0
  timeout := false
  mode := .sync
  debug := false
  verbose := false
  format := "text".toList
  carryOver := none
  encodings := []
  serverArguments := []
  server := defaultServer
  startupDelay := defaultStartupDelay
  query := false
  permanent := false
  implicitIncrement := false
  window := none
  autoIncrement := false

def outputFormat (options : Options) : OutputFormat := .ofName options.format

/-- The pace of a stream file. A time limit has to be positive. -/
def pacing (options : Options) : Except Error Pacing :=
  if options.time = 0 then
    if options.timeout then .error (.configuration .timeoutWithoutTime) else .ok .immediate
  else
    let span := Duration.ofSeconds options.time
    .ok (if options.timeout then .awaitAnswer span else .delay span)

def config (options : Options) : Except Error Config :=
  match options.pacing with
  | .error error => .error error
  | .ok pacing =>
      .ok
        { Config.standard with
          host := options.host
          port := options.port
          mode := options.mode
          pacing := pacing
          carryOver := options.carryOver
          echoInput := options.debug }

def queryOptions (options : Options) : QueryOptions where
  volatility :=
    if options.permanent then .none
    else match options.window with
      | some size => .window size
      | none => .input
  implicitIncrement := options.implicitIncrement
  autoIncrement := options.autoIncrement

def delayBound : Nat := Nat.pow 2 64 * 1000000000

/-- The time between the start of a server and the first attempt to connect, to the nearest
nanosecond. -/
def delay (options : Options) : Except Error Duration :=
  match options.startupDelay with
  | .undefined | .infinite false => .error (.configuration .unrepresentableDelay)
  | .infinite true => .error (.configuration .negativeDelay)
  | .finite negative units =>
      let nanoseconds := roundHalfEven (units * 1000000000) Binary64.unitsInOne
      if negative && units != 0 then .error (.configuration .negativeDelay)
      else if delayBound ≤ nanoseconds then .error (.configuration .unrepresentableDelay)
      else .ok ⟨nanoseconds⟩

end Options

end StepStream
