import StepStream.Source.Interactive
import StepStream.Source.Query
import StepStream.Source.StepBuffer

/-!
Sources of input: a stream file, a terminal with stream input, or a terminal with queries.
-/

namespace StepStream

set_option autoImplicit false

inductive Source where
  | buffer (buffer : StepBuffer)
  | interactive (reader : Interactive)
  | query (reader : Query)

namespace Source

def name : Source → Text
  | buffer _ => "file".toList
  | interactive _ => "interactive".toList
  | query _ => "query".toList

/-- Whether the pace of the session applies. Only a file could flood the server. -/
def isPaced : Source → Bool
  | buffer _ => true
  | _ => false

def next (step : Nat) : Source → Supplied × Source
  | buffer fragments =>
      let (input, rest) := fragments.pop
      (⟨.ok input, step, []⟩, .buffer rest)
  | interactive reader =>
      let (supplied, rest) := reader.next step
      (supplied, .interactive rest)
  | query reader =>
      let (supplied, rest) := reader.next step
      (supplied, .query rest)

end Source

end StepStream
