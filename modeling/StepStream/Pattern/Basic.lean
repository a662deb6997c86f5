import StepStream.Text.Basic

/-!
Patterns: regular expressions over a few classes of characters. The texts of a pattern are
given by an inductive relation, and `accepts` decides the relation in one pass over the
text. It keeps the list of what may still follow, without repetitions, so a line with many
readings costs no more than one with few.
-/

namespace StepStream

set_option autoImplicit false

inductive CharClass where
  | exactly (character : Char)
  /-- A blank in the sense of Unicode, newlines included. -/
  | blank
  | inline
  | nameStart
  | namePart
  deriving DecidableEq, Repr

namespace CharClass

def isNameStart (character : Char) : Bool :=
  ('a' ≤ character && character ≤ 'z') || character = '_'

def isNamePart (character : Char) : Bool :=
  isNameStart character || ('A' ≤ character && character ≤ 'Z') ||
    ('0' ≤ character && character ≤ '9')

def holds : CharClass → Char → Bool
  | exactly expected, character => character = expected
  | blank, character => Text.isBlank character
  | inline, character => Text.isInline character
  | nameStart, character => isNameStart character
  | namePart, character => isNamePart character

end CharClass

inductive Pattern where
  | never
  | empty
  | one (charClass : CharClass)
  | seq (first second : Pattern)
  | alt (left right : Pattern)
  | star (body : Pattern)
  deriving DecidableEq, Repr

namespace Pattern

inductive Matches : Pattern → Text → Prop where
  | empty : Matches .empty []
  | one {charClass : CharClass} {character : Char} (holds : charClass.holds character = true) :
      Matches (.one charClass) [character]
  | seq {first second : Pattern} {front back : Text} (left : Matches first front)
      (right : Matches second back) : Matches (.seq first second) (front ++ back)
  | altLeft {left right : Pattern} {text : Text} (here : Matches left text) :
      Matches (.alt left right) text
  | altRight {left right : Pattern} {text : Text} (here : Matches right text) :
      Matches (.alt left right) text
  | starNil {body : Pattern} : Matches (.star body) []
  | starCons {body : Pattern} {front back : Text} (here : Matches body front)
      (more : Matches (.star body) back) : Matches (.star body) (front ++ back)

def plus (body : Pattern) : Pattern := .seq body (.star body)

def opt (body : Pattern) : Pattern := .alt body .empty

def literal : Text → Pattern
  | [] => .empty
  | character :: rest => .seq (.one (.exactly character)) (literal rest)

def sequence : List Pattern → Pattern
  | [] => .empty
  | [pattern] => pattern
  | pattern :: rest => .seq pattern (sequence rest)

def nullable : Pattern → Bool
  | never => false
  | empty => true
  | one _ => false
  | seq first second => first.nullable && second.nullable
  | alt left right => left.nullable || right.nullable
  | star _ => true

/-- A sequence in which an empty first part is left out. -/
def andThen : Pattern → Pattern → Pattern
  | empty, second => second
  | first, second => .seq first second

/-- Patterns whose texts together are what may follow `character`. -/
def after (character : Char) : Pattern → List Pattern
  | never => []
  | empty => []
  | one charClass => if charClass.holds character then [empty] else []
  | seq first second =>
      let firstGoesOn := (first.after character).map fun rest => andThen rest second
      if first.nullable then firstGoesOn ++ second.after character else firstGoesOn
  | alt left right => left.after character ++ right.after character
  | star body => (body.after character).map fun rest => andThen rest (.star body)

/-- What may follow one more character, each pattern once. -/
def advance (pending : List Pattern) (character : Char) : List Pattern :=
  (pending.flatMap (after character)).foldl (fun kept pattern => kept.insert pattern) []

def accepts (pattern : Pattern) (text : Text) : Bool :=
  (text.foldl advance [pattern]).any nullable

end Pattern

end StepStream
