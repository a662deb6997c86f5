import StepStream.Time

/-!
The settings of a session.
-/

namespace StepStream

set_option autoImplicit false

inductive Mode where
  /-- The answer to a step is awaited before the next fragment is taken. -/
  | sync
  /-- Fragments are sent as they come, and answers shown as they arrive. -/
  | async
  deriving DecidableEq, Repr

inductive Pacing where
  | immediate
  | delay (span : Duration)
  /-- Before every fragment an answer is awaited, but not for longer than this. -/
  | awaitAnswer (span : Duration)
  deriving DecidableEq, Repr

structure Config where
  host : Text
  port : Nat
  mode : Mode
  pacing : Pacing
  /-- How long one look for messages takes in asynchronous mode. -/
  pollInterval : Duration
  retryDelay : Duration
  carryOver : Option Text
  echoInput : Bool
  deriving DecidableEq, Repr

namespace Config

def defaultHost : Text := "localhost".toList

def defaultPort : Nat := 25277

def standard : Config where
  host := defaultHost
  port := defaultPort
  mode := .sync
  pacing := .immediate
  pollInterval := .ofMilliseconds 100
  retryDelay := .ofMilliseconds 100
  carryOver := none
  echoInput := false

end Config

end StepStream
