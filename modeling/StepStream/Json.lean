import StepStream.Text.Numeral

/-!
JSON documents and their indented form: two spaces per level, a line per element, and
empty arrays and objects in one piece. In strings only quotes, backslashes and control
characters are escaped.
-/

namespace StepStream

set_option autoImplicit false

/-- A JSON value, as far as transcripts need it: all numbers are natural. -/
inductive Json where
  | string (text : Text)
  | number (value : Nat)
  | array (items : List Json)
  | object (members : List (Text × Json))

namespace Json

def hexDigit (value : Nat) : Char := Nat.digitChar value

def escape (character : Char) : Text :=
  if character = '"' then ['\\', '"']
  else if character = '\\' then ['\\', '\\']
  else if character = '\n' then ['\\', 'n']
  else if character = '\r' then ['\\', 'r']
  else if character = '\t' then ['\\', 't']
  else if character.toNat = 0x08 then ['\\', 'b']
  else if character.toNat = 0x0C then ['\\', 'f']
  else if character.toNat < 0x20 then
    ['\\', 'u', '0', '0', hexDigit (character.toNat / 16), hexDigit (character.toNat % 16)]
  else [character]

def quote (text : Text) : Text := '"' :: (text.flatMap escape ++ ['"'])

def lineBreak (level : Nat) : Text := '\n' :: List.replicate (2 * level) ' '

mutual

/-- A value whose first line stands at a level. -/
def renderAt (level : Nat) : Json → Text
  | .string text => quote text
  | .number value => Text.showNumeral value
  | .array [] => ['[', ']']
  | .array (item :: items) =>
      ('[' :: lineBreak (level + 1)) ++ renderAt (level + 1) item ++
        renderItems (level + 1) items ++ lineBreak level ++ [']']
  | .object [] => ['\x7b', '\x7d']
  | .object ((key, value) :: members) =>
      ('\x7b' :: lineBreak (level + 1)) ++ quote key ++ ": ".toList ++ renderAt (level + 1) value ++
        renderMembers (level + 1) members ++ lineBreak level ++ ['\x7d']

def renderItems (level : Nat) : List Json → Text
  | [] => []
  | item :: items => (',' :: lineBreak level) ++ renderAt level item ++ renderItems level items

def renderMembers (level : Nat) : List (Text × Json) → Text
  | [] => []
  | (key, value) :: members =>
      (',' :: lineBreak level) ++ quote key ++ ": ".toList ++ renderAt level value ++
        renderMembers level members

end

def render (value : Json) : Text := renderAt 0 value

end Json

end StepStream
