/-!
Texts as lists of characters, the blank characters, and trimming. A blank is a
character with the Unicode property White_Space; the newline is one of them.
-/

namespace StepStream

set_option autoImplicit false

abbrev Text := List Char

namespace Text

/-- The characters of the Unicode property White_Space. -/
def isBlank (character : Char) : Bool :=
  let code := character.toNat
  (9 ≤ code && code ≤ 13) || code = 0x20 || code = 0x85 || code = 0xA0 || code = 0x1680 ||
    (0x2000 ≤ code && code ≤ 0x200A) || code = 0x2028 || code = 0x2029 || code = 0x202F ||
    code = 0x205F || code = 0x3000

def isInline (character : Char) : Bool := character != '\n'

def trimStart (text : Text) : Text := text.dropWhile isBlank

def dropEndWhile (test : Char → Bool) (text : Text) : Text :=
  (text.reverse.dropWhile test).reverse

def trimEnd (text : Text) : Text := dropEndWhile isBlank text

def trim (text : Text) : Text := trimEnd (trimStart text)

/-- What follows `lead` in a text that begins with it. -/
def afterLead (lead text : Text) : Option Text := lead.isPrefixOf? text

/-- The text between the first occurrence of `mark` and the end, with what comes before. -/
def splitFirst (mark : Char) (text : Text) : Option (Text × Text) :=
  match text.span (· != mark) with
  | (_, []) => none
  | (before, _ :: after) => some (before, after)

def splitLast (mark : Char) (text : Text) : Option (Text × Text) :=
  (splitFirst mark text.reverse).map fun (after, before) => (before.reverse, after.reverse)

def words (text : Text) : List Text :=
  (text.splitOnP isBlank).filter (· ≠ [])

end Text

end StepStream
