import StepStream.Time

/-!
Everything that can go wrong, by cause, and the one place where a cause gets its wording.
-/

namespace StepStream

set_option autoImplicit false

inductive InputFault where
  /-- A line that is neither clause nor directive nor comment, in the step with this
  number, counted from one. -/
  | invalidLine (line : Text) (step : Nat) (file : Text)
  deriving DecidableEq, Repr

inductive ConnectionFault where
  | connectFailed (host : Text) (port : Nat) (reason : Text)
  | notConnected
  | sessionClosed
  | brokenPipe
  | peerClosed
  | transport (reason : Text)
  deriving DecidableEq, Repr

inductive ProtocolFault where
  | unknownOutput (line : Text)
  /-- A message that is no text; the offset is the size of its longest valid beginning. -/
  | invalidUtf8 (offset : Nat)
  deriving DecidableEq, Repr

inductive ServerReport where
  | warning (text : Text)
  | error (text : Text)
  deriving DecidableEq, Repr

inductive FileFault where
  | notFound (path : Text)
  | readFailed (path : Text) (reason : Text)
  | mappingFailed (path : Text) (reason : Text)
  | other (reason : Text)
  deriving DecidableEq, Repr

inductive CommandFault where
  | launchFailed (reason : Text)
  | outputFailed (reason : Text)
  deriving DecidableEq, Repr

inductive ConfigurationFault where
  | missingFile (path : Text)
  | severalStreamFiles
  | timeoutWithoutTime
  | invalidPredicate (predicate : Text)
  | negativeDelay
  | unrepresentableDelay
  | delayTooLong (delay : Duration)
  | described (message : Text)
  deriving DecidableEq, Repr

inductive Error where
  | input (fault : InputFault)
  | connection (fault : ConnectionFault)
  | protocol (fault : ProtocolFault)
  | server (report : ServerReport)
  | file (fault : FileFault)
  | command (fault : CommandFault)
  | configuration (fault : ConfigurationFault)
  deriving DecidableEq, Repr

def InputFault.message : InputFault → Text
  | invalidLine line step file =>
      "invalid rule '".toList ++ line ++ "' after step ".toList ++ Text.showNumeral step ++
        " in file '".toList ++ file ++ "'".toList

def ConnectionFault.message : ConnectionFault → Text
  | connectFailed host port reason =>
      "could not connect to ".toList ++ host ++ ":".toList ++ Text.showNumeral port ++
        ": ".toList ++ reason
  | notConnected => "controller is not yet connected to server".toList
  | sessionClosed => "session already closed".toList
  | brokenPipe => "sending input to oclingo failed: socket connection is broken".toList
  | peerClosed =>
      ("socket was closed by server, probably because '#stop.' was sent, " ++
        "the program is not satisfiable anymore or --imax was reached").toList
  | transport reason => "transport error: ".toList ++ reason

def ProtocolFault.message : ProtocolFault → Text
  | unknownOutput line => "unknown output received from server: ".toList ++ line
  | invalidUtf8 offset => "invalid UTF-8 at byte offset ".toList ++ Text.showNumeral offset

def ServerReport.message : ServerReport → Text
  | warning text => "Warning: ".toList ++ text
  | error text => "Error: ".toList ++ text

def FileFault.message : FileFault → Text
  | notFound path => "file not found: ".toList ++ path
  | readFailed path reason => "failed to read file: ".toList ++ path ++ ": ".toList ++ reason
  | mappingFailed path reason =>
      "memory mapping failed: ".toList ++ path ++ ": ".toList ++ reason
  | other reason => "I/O error: ".toList ++ reason

def CommandFault.message : CommandFault → Text
  | launchFailed reason => "failed to launch oclingo: ".toList ++ reason
  | outputFailed reason => "output error: ".toList ++ reason

def ConfigurationFault.message : ConfigurationFault → Text
  | missingFile path => "could not find file '".toList ++ path ++ "'".toList
  | severalStreamFiles => "more than one online file was given".toList
  | timeoutWithoutTime => "--timeout needs a time-out given with -t".toList
  | invalidPredicate predicate =>
      "invalid carry-over predicate '".toList ++ predicate ++ "'".toList
  | negativeDelay =>
      ("invalid startup delay: cannot convert float seconds to Duration: " ++
        "value is negative").toList
  | unrepresentableDelay =>
      ("invalid startup delay: cannot convert float seconds to Duration: " ++
        "value is either too big or NaN").toList
  | delayTooLong delay => "startup delay of ".toList ++ delay.display ++ " is too long".toList
  | described message => message

namespace Error

def message : Error → Text
  | input fault => "input error: ".toList ++ fault.message
  | connection fault => "connection error: ".toList ++ fault.message
  | protocol fault => "protocol error: ".toList ++ fault.message
  | server report => report.message
  | file fault => "I/O error: ".toList ++ fault.message
  | command fault => "command error: ".toList ++ fault.message
  | configuration fault => "configuration error: ".toList ++ fault.message

/-- Only a warning of the server lets a session go on. -/
def isRecoverable : Error → Bool
  | server (.warning _) => true
  | _ => false

end Error

end StepStream
