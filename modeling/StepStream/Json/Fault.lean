import StepStream.Error

/-!
Faults of writing a document. A fault has a reason and may name a position, which stands at
the end of its text. A position in line zero says nothing and is left out.
-/

namespace StepStream.Json

set_option autoImplicit false

open Text

structure Position where
  line : Nat
  column : Nat
  deriving DecidableEq, Repr

def Position.message (position : Position) : Text :=
  " at line ".toList ++ showNumeral position.line ++
    " column ".toList ++ showNumeral position.column

structure Fault where
  reason : Text
  position : Option Position
  deriving DecidableEq, Repr

namespace Fault

/-- The digits at the end of a text, and what stands in front of `lead` before them. -/
def numberAtEnd (lead text : Text) : Option (Text × Nat) := do
  let (digits, before) := spanDigits text.reverse
  let number ← readNumeral digits.reverse
  let rest ← afterLead lead.reverse before
  some (rest.reverse, number)

def positionAtEnd (text : Text) : Option (Text × Position) := do
  let (located, column) ← numberAtEnd " column ".toList text
  let (reason, line) ← numberAtEnd " at line ".toList located
  some (reason, ⟨line, column⟩)

def ofText (text : Text) : Fault :=
  match positionAtEnd text with
  | none => ⟨text, none⟩
  | some (reason, position) => ⟨reason, if position.line = 0 then none else some position⟩

def message (fault : Fault) : Text :=
  match fault.position with
  | none => fault.reason
  | some position => fault.reason ++ position.message

def toError (fault : Fault) : Error := .command (.outputFailed fault.message)

end Fault

end StepStream.Json
