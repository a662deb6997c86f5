import StepStream.Line.Kind
import StepStream.Line.Shape
import StepStream.Text.Numeral

/-!
Directives. Each is read from the front: the keyword, its numerals, the final period and
a tail of blanks and a comment. At most one keyword fits a line.
-/

namespace StepStream.Line

set_option autoImplicit false

open Text

def numeral (text : Text) : Option (Nat × Text) :=
  let (digits, rest) := spanDigits text
  (readNumeral digits).map fun number => (number, rest)

def dropSpaces (text : Text) : Text := text.dropWhile (· == ' ')

def window (text : Text) : Option (Nat × Text) := do
  let rest ← afterLead [':'] (dropSpaces text)
  numeral (dropSpaces rest)

/-- Accepts the end of a directive: a period and a tail. -/
def atEnd (kind : LineKind) (text : Text) : Option LineKind := do
  let rest ← afterLead ['.'] text
  if tail.accepts rest then some kind else none

def readStep (text : Text) : Option LineKind := do
  let (number, rest) ← numeral (← afterLead "#step ".toList text)
  match window rest with
  | some (size, rest) => atEnd (.step number (some size)) (dropSpaces rest)
  | none => atEnd (.step number none) rest

def readVolatile (text : Text) : Option LineKind := do
  let rest ← afterLead "#volatile".toList text
  match window rest with
  | some (size, rest) => atEnd (.volatile (some size)) rest
  | none => atEnd (.volatile none) rest

def readForget (text : Text) : Option LineKind := do
  let (first, rest) ← numeral (← afterLead "#forget ".toList text)
  match afterLead "..".toList rest with
  | some rest =>
      let (last, rest) ← numeral rest
      atEnd (.forget first (some last)) rest
  | none => atEnd (.forget first none) rest

def readIncrement (text : Text) : Option LineKind := do
  let rest ← afterLead "#istep".toList text
  match afterLead [' '] rest with
  | some rest =>
      let (target, rest) ← numeral rest
      atEnd (.incrementStep (some target)) rest
  | none => atEnd (.incrementStep none) rest

def readPlain (keyword : Text) (kind : LineKind) (text : Text) : Option LineKind := do
  atEnd kind (← afterLead keyword text)

def readTerm (keyword : Text) (kind : LineKind) (text : Text) : Option LineKind := do
  let rest ← afterLead keyword text
  if termShape.accepts rest then some kind else none

def readDirective (text : Text) : Option LineKind :=
  (readStep text)
    <|> (readPlain "#endstep".toList .endStep text)
    <|> (readPlain "#cumulative".toList .cumulative text)
    <|> (readVolatile text)
    <|> (readForget text)
    <|> (readTerm "#assert".toList .assert text)
    <|> (readTerm "#retract".toList .retract text)
    <|> (readPlain "#stop".toList .stop text)
    <|> (readIncrement text)

end StepStream.Line
