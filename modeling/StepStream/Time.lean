import StepStream.Text.Numeral

/-!
Spans of time in nanoseconds.
-/

namespace StepStream

set_option autoImplicit false

structure Duration where
  nanoseconds : Nat
  deriving DecidableEq, Repr

namespace Duration

def ofSeconds (seconds : Nat) : Duration := ⟨seconds * 1000000000⟩

def ofMilliseconds (milliseconds : Nat) : Duration := ⟨milliseconds * 1000000⟩

def seconds (span : Duration) : Nat := span.nanoseconds / 1000000000

def subsecond (span : Duration) : Nat := span.nanoseconds % 1000000000

/-- The digits behind the point for a part of `10 ^ places`, without zeros at the end. -/
def fraction (part places : Nat) : Text :=
  if part = 0 then []
  else
    let digits := Text.showNumeral part
    let filled := List.replicate (places - digits.length) '0' ++ digits
    '.' :: Text.dropEndWhile (· == '0') filled

/-- A span in the largest unit in which it is at least one. -/
def display (span : Duration) : Text :=
  let count := span.nanoseconds
  if 1000000000 ≤ count then
    Text.showNumeral span.seconds ++ fraction span.subsecond 9 ++ ['s']
  else if 1000000 ≤ count then
    Text.showNumeral (count / 1000000) ++ fraction (count % 1000000) 6 ++ "ms".toList
  else if 1000 ≤ count then
    Text.showNumeral (count / 1000) ++ fraction (count % 1000) 3 ++ "µs".toList
  else Text.showNumeral count ++ "ns".toList

end Duration

end StepStream
