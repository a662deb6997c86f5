import StepStream.CommandLine.Occurrence
import StepStream.CommandLine.Options

/-!
From the items of a command line to options. Items take effect one after the other, and the
first fault decides. What the items say about each other is looked at in the end: first
items that exclude each other, then items that lack one they need.
-/

namespace StepStream.CommandLine

set_option autoImplicit false

open Text

inductive UsageError where
  | unknownArgument
  /-- A value is missing, or is not one of the possible values. -/
  | invalidValue
  /-- A value does not have the form that it has to have. -/
  | malformedValue
  | conflict
  | missingArgument
  | needlessValue
  | helpRequested
  | versionRequested
  deriving DecidableEq, Repr

/-- The part of the environment that stands in for parameters. -/
structure Environment where
  host : Option Text
  port : Option Text
  deriving DecidableEq, Repr

structure Given where
  switches : List Switch
  files : List Text
  host : Option Text
  port : Option Nat
  time : Option Nat
  mode : Option Mode
  format : Option Text
  carryOver : Option Text
  encodings : List Text
  serverArguments : List Text
  server : Option Text
  startupDelay : Option Binary64
  window : Option Nat
  deriving DecidableEq, Repr

namespace Given

def nothing : Given where
  switches := []
  files := []
  host := none
  port := none
  time := none
  mode := none
  format := none
  carryOver := none
  encodings := []
  serverArguments := []
  server := none
  startupDelay := none
  window := none

/-! Values of parameters. -/

def readPath (text : Text) : Except UsageError Text :=
  if text = [] then .error .invalidValue else .ok text

/-- A natural number below two to the sixty-fourth power. A plus sign may stand before it. -/
def readNumber (text : Text) : Except UsageError Nat :=
  match readNumeral (match text with | '+' :: rest => rest | _ => text) with
  | some number => .ok number
  | none => .error .malformedValue

/-- A port. A minus sign may stand before zero. -/
def readPort (text : Text) : Except UsageError Nat :=
  let magnitude :=
    match text with
    | '-' :: rest => (readNumeral rest).filter (· = 0)
    | '+' :: rest => readNumeral rest
    | _ => readNumeral text
  match magnitude.filter (· < 65536) with
  | some port => .ok port
  | none => .error .malformedValue

def readMode (text : Text) : Except UsageError Mode :=
  if text = "yes".toList then .ok .sync
  else if text = "no".toList then .ok .async
  else .error .invalidValue

def readDelay (text : Text) : Except UsageError Binary64 :=
  match Binary64.ofText text with
  | some delay => .ok delay
  | none => .error .malformedValue

def once {Value : Type} (before : Option Value) (read : Text → Except UsageError Value)
    (values : List Text) : Except UsageError (Option Value) :=
  match before, values with
  | _, [] => .error .invalidValue
  | some _, _ => .error .conflict
  | none, value :: _ => (read value).map some

def more (before : List Text) (read : Text → Except UsageError Text) (values : List Text) :
    Except UsageError (List Text) :=
  match values with
  | [] => .error .invalidValue
  | _ => (values.mapM read).map (before ++ ·)

def setParameter (given : Given) (values : List Text) : Parameter → Except UsageError Given
  | .files => do return { given with files := ← more given.files readPath values }
  | .host => do return { given with host := ← once given.host .ok values }
  | .port => do return { given with port := ← once given.port readPort values }
  | .time => do return { given with time := ← once given.time readNumber values }
  | .wait => do return { given with mode := ← once given.mode readMode values }
  | .format => do return { given with format := ← once given.format .ok values }
  | .carryOver => do return { given with carryOver := ← once given.carryOver .ok values }
  | .encodings => do return { given with encodings := ← more given.encodings readPath values }
  | .serverArguments => do
      return { given with serverArguments := ← more given.serverArguments .ok values }
  | .server => do return { given with server := ← once given.server .ok values }
  | .startupDelay => do
      return { given with startupDelay := ← once given.startupDelay readDelay values }
  | .window => do return { given with window := ← once given.window readNumber values }

def setSwitch (given : Given) : Switch → Except UsageError Given
  | .help => .error .helpRequested
  | .version => .error .versionRequested
  | switch =>
      if switch ∈ given.switches then .error .conflict
      else .ok { given with switches := switch :: given.switches }

def take (given : Given) : Occurrence → Except UsageError Given
  | .switch switch => given.setSwitch switch
  | .values parameter values => given.setParameter values parameter
  | .unknown => .error .unknownArgument
  | .needless => .error .needlessValue

/-- The environment stands in for a host or a port that has not been given. -/
def complete (environment : Environment) (given : Given) : Except UsageError Given := do
  let port ← match given.port, environment.port with
    | none, some text => (readPort text).map some
    | port, _ => pure port
  return { given with host := given.host.or environment.host, port := port }

def has (given : Given) (switch : Switch) : Bool := switch ∈ given.switches

def isConflicting (given : Given) : Bool :=
  (given.has .query && !given.files.isEmpty) || (given.has .permanent && given.window.isSome)

/-- Whether an item lacks another one that it needs. Items for queries do without the
switch for queries if a stream file, which excludes that switch, is given. -/
def isIncomplete (given : Given) : Bool :=
  let forQueries := given.has .permanent || given.has .implicitIncrement ||
    given.has .autoIncrement || given.window.isSome
  (forQueries && !given.has .query && given.files.isEmpty) ||
    (!given.serverArguments.isEmpty && given.encodings.isEmpty)

def options (given : Given) : Options :=
  let standard := Options.standard
  { files := given.files
    host := given.host.getD standard.host
    port := given.port.getD standard.port
    time := given.time.getD standard.time
    timeout := given.has .timeout
    mode := given.mode.getD standard.mode
    debug := given.has .debug
    verbose := given.has .verbose
    format := given.format.getD standard.format
    carryOver := given.carryOver
    encodings := given.encodings
    serverArguments := given.serverArguments
    server := given.server.getD standard.server
    startupDelay := given.startupDelay.getD standard.startupDelay
    query := given.has .query
    permanent := given.has .permanent
    implicitIncrement := given.has .implicitIncrement
    window := given.window
    autoIncrement := given.has .autoIncrement }

end Given

def parse (environment : Environment) (arguments : List Text) : Except UsageError Options := do
  let given ← (occurrences arguments).foldlM Given.take .nothing
  let given ← given.complete environment
  if given.isConflicting then throw .conflict
  if given.isIncomplete then throw .missingArgument
  return given.options

end StepStream.CommandLine
