import StepStream.Text.Numeral

/-!
Decimal numbers in the binary64 format. Finite numbers are measured in units of two to the
power of −1074, which is the distance of the smallest ones. A decimal number becomes the
nearest number of the format, and of two equally near ones the one with the even
significand.
-/

namespace StepStream

set_option autoImplicit false

/-- The natural number nearest to a quotient, where a half goes to the even neighbour. -/
def roundHalfEven (numerator denominator : Nat) : Nat :=
  let quotient := numerator / denominator
  let excess := 2 * (numerator % denominator)
  if excess < denominator ∨ (excess = denominator ∧ quotient % 2 = 0) then quotient
  else quotient + 1

inductive Binary64 where
  | finite (negative : Bool) (units : Nat)
  | infinite (negative : Bool)
  | undefined
  deriving DecidableEq, Repr

namespace Binary64

open Text

def unitsInOne : Nat := Nat.pow 2 1074

/-- A quotient in units, rounded to 53 significant binary digits. -/
def nearestUnits (numerator denominator : Nat) : Nat :=
  let scaled := numerator * unitsInOne
  let spacing := Nat.pow 2 ((scaled / denominator).log2 - 52)
  roundHalfEven scaled (denominator * spacing) * spacing

/-- The number `digits * 10 ^ exponent`. Exponents far out are decided by the size alone. -/
def ofDecimal (negative : Bool) (digits : Nat) (exponent : Int) : Binary64 :=
  let size := (showNumeral digits).length + exponent
  if digits = 0 ∨ size < -330 then .finite negative 0
  else if 310 < size then .infinite negative
  else
    let units := nearestUnits (digits * Nat.pow 10 exponent.toNat) (Nat.pow 10 (-exponent).toNat)
    if units < Nat.pow 2 1024 * unitsInOne then .finite negative units else .infinite negative

def readSign : Text → Bool × Text
  | '-' :: rest => (true, rest)
  | '+' :: rest => (false, rest)
  | text => (false, text)

def readExponent : Text → Option Int
  | [] => some 0
  | mark :: rest =>
      let (negative, digits) := readSign rest
      if (mark = 'e' ∨ mark = 'E') ∧ digits ≠ [] ∧ digits.all isDigit then
        let size : Int := valueOfDigits digits
        some (if negative then -size else size)
      else none

def spanFraction : Text → Text × Text
  | '.' :: rest => spanDigits rest
  | rest => ([], rest)

/-- A number without its sign. There has to be a digit on one side of the point. -/
def readMagnitude (negative : Bool) (text : Text) : Option Binary64 := do
  let (whole, rest) := spanDigits text
  let (part, rest) := spanFraction rest
  let exponent ← readExponent rest
  if whole = [] ∧ part = [] then none
  else some (ofDecimal negative (valueOfDigits (whole ++ part)) (exponent - part.length))

/-- Reads a number. The names of the numbers that are not finite can be in either case. -/
def ofText (text : Text) : Option Binary64 :=
  let (negative, magnitude) := readSign text
  let name := magnitude.map Char.toLower
  if name = "inf".toList ∨ name = "infinity".toList then some (.infinite negative)
  else if name = "nan".toList then some .undefined
  else readMagnitude negative magnitude

end Binary64

end StepStream
