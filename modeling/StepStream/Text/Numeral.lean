import StepStream.Text.Basic

/-!
Decimal numerals of steps and windows. A step is a number below two to the
sixty-fourth power, written with the digits `0` to `9`; leading zeros are allowed.
-/

namespace StepStream.Text

set_option autoImplicit false

def greatestStep : Nat := Nat.pow 2 64 - 1

/-- The step after this one, which for the greatest step is the step itself. -/
def nextStep (step : Nat) : Nat := min (step + 1) greatestStep

def isDigit (character : Char) : Bool := '0' ≤ character && character ≤ '9'

def valueOfDigits (digits : Text) : Nat :=
  digits.foldl (fun value digit => value * 10 + (digit.toNat - '0'.toNat)) 0

/-- The number that a numeral stands for. Nothing but digits may occur, and the number has
to be a step. -/
def readNumeral (text : Text) : Option Nat :=
  if text ≠ [] ∧ text.all isDigit ∧ valueOfDigits text ≤ greatestStep then
    some (valueOfDigits text)
  else none

def showNumeral (number : Nat) : Text := Nat.toDigits 10 number

theorem digit_of_numeral {number : Nat} {character : Char}
    (member : character ∈ showNumeral number) : isDigit character = true := by
  have digit : character.isDigit = true :=
    Nat.isDigit_of_mem_toDigits (by decide) (by decide) member
  simp only [Char.isDigit, Bool.and_eq_true, decide_eq_true_eq] at digit
  simp only [isDigit, Bool.and_eq_true, decide_eq_true_eq]
  exact digit

theorem not_mem_numeral {character : Char} (other : isDigit character = false) (number : Nat) :
    character ∉ showNumeral number := by
  intro member
  rw [digit_of_numeral member] at other
  cases other

theorem small_of_read_numeral {text : Text} {number : Nat}
    (found : readNumeral text = some number) : number ≤ greatestStep := by
  rw [readNumeral] at found
  split at found
  · next numeral =>
      cases found
      exact numeral.2.2
  · cases found

theorem value_of_show_numeral (number : Nat) : valueOfDigits (showNumeral number) = number := by
  have printed : Nat.ofDigitChars 10 (showNumeral number) 0 = number :=
    Nat.ofDigitChars_ten_toDigits
  rw [Nat.ofDigitChars_eq_foldl] at printed
  simpa only [valueOfDigits, Nat.mul_comm] using printed

theorem read_show_numeral {number : Nat} (small : number ≤ greatestStep) :
    readNumeral (showNumeral number) = some number := by
  have digits : (showNumeral number).all isDigit = true := by
    rw [List.all_eq_true]
    exact fun character member => digit_of_numeral member
  rw [readNumeral, value_of_show_numeral, if_pos ⟨Nat.toDigits_ne_nil, digits, small⟩]

def spanDigits (text : Text) : Text × Text := text.span isDigit

end StepStream.Text
