import StepStream.Text.Basic

/-!
The items of a command line: switches, and parameters, which take values. Every item but
the stream files has a name or several names; abbreviations of names are none.
-/

namespace StepStream.CommandLine

set_option autoImplicit false

inductive Switch where
  | timeout
  | debug
  | verbose
  | query
  | permanent
  | implicitIncrement
  | autoIncrement
  | help
  | version
  deriving DecidableEq, Repr

inductive Parameter where
  | files
  | host
  | port
  | time
  | wait
  | format
  | carryOver
  | encodings
  | serverArguments
  | server
  | startupDelay
  | window
  deriving DecidableEq, Repr

inductive Item where
  | switch (switch : Switch)
  | parameter (parameter : Parameter)
  deriving DecidableEq, Repr

namespace Item

def longNames : List (Text × Item) :=
  [("host".toList, .parameter .host), ("port".toList, .parameter .port),
    ("time".toList, .parameter .time), ("timeout".toList, .switch .timeout),
    ("to".toList, .switch .timeout), ("wait".toList, .parameter .wait),
    ("debug".toList, .switch .debug), ("verbose".toList, .switch .verbose),
    ("format".toList, .parameter .format), ("carry-over".toList, .parameter .carryOver),
    ("co".toList, .parameter .carryOver), ("oclenc".toList, .parameter .encodings),
    ("oclpar".toList, .parameter .serverArguments), ("op".toList, .parameter .serverArguments),
    ("oclingo-bin".toList, .parameter .server),
    ("startup-delay".toList, .parameter .startupDelay), ("query".toList, .switch .query),
    ("no-volatile".toList, .switch .permanent), ("nv".toList, .switch .permanent),
    ("qii".toList, .switch .implicitIncrement), ("iwindow-size".toList, .parameter .window),
    ("iws".toList, .parameter .window), ("ainc".toList, .switch .autoIncrement),
    ("help".toList, .switch .help), ("version".toList, .switch .version)]

def shortNames : List (Char × Item) :=
  [('n', .parameter .host), ('p', .parameter .port), ('t', .parameter .time),
    ('w', .parameter .wait), ('d', .switch .debug), ('v', .switch .verbose),
    ('o', .parameter .encodings), ('q', .switch .query), ('h', .switch .help),
    ('V', .switch .version)]

def ofLongName (name : Text) : Option Item := longNames.lookup name

def ofShortName (name : Char) : Option Item := shortNames.lookup name

end Item

namespace Parameter

/-- Whether all arguments up to the next item are values, and not only one. -/
def takesSeveral : Parameter → Bool
  | files | encodings | serverArguments => true
  | _ => false

/-- Whether every further argument is a value, whatever it looks like. -/
def takesEverything : Parameter → Bool
  | serverArguments => true
  | _ => false

end Parameter

end StepStream.CommandLine
