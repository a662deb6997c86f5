import Mathlib.Data.List.Basic
import StepStream.Proofs.Lines
import StepStream.Text.Numeral

/-!
JSON texts as they are written, with every blank, every escape and every form of a number. A tree of
the grammar has a text and a value. A text can belong to several trees of the same value only, so
that there is at most one value to read from it.
-/

namespace StepStream

set_option autoImplicit false

open Text

/-- A value of a JSON text. The members of an object stand in the order in which they are written,
and names may repeat. -/
inductive Document where
  | null
  | boolean (value : Bool)
  | number (value : Rat)
  | string (text : Text)
  | array (items : List Document)
  | object (members : List (Text × Document))

namespace Document

theorem run_at_front {test : Char → Bool} {run other rest later : Text}
    (holds : ∀ character ∈ run, test character = true)
    (kept : ∀ character ∈ other, test character = true)
    (stops : ∀ first ∈ rest.head?, test first = false)
    (ends : ∀ first ∈ later.head?, test first = false) (same : run ++ rest = other ++ later) :
    run = other ∧ rest = later := by
  obtain rfl : run = other := by
    rw [← take_while_append holds stops, same, take_while_append kept ends]
  exact ⟨rfl, List.append_cancel_left same⟩

/-! ## Blanks -/

def isSpace (character : Char) : Bool :=
  character == ' ' || character == '\t' || character == '\n' || character == '\r'

structure Space where
  text : Text
  blank : ∀ character ∈ text, isSpace character = true

def Space.empty : Space := ⟨[], List.forall_mem_nil _⟩

/-! ## Strings -/

def isHexDigit (character : Char) : Bool :=
  isDigit character || ('a' ≤ character && character ≤ 'f') || ('A' ≤ character && character ≤ 'F')

def hexValue (digit : Char) : Nat :=
  if isDigit digit then digit.toNat - '0'.toNat
  else if 'a' ≤ digit then digit.toNat - 'a'.toNat + 10
  else digit.toNat - 'A'.toNat + 10

structure CodeUnit where
  text : Text
  four : text.length = 4
  hexadecimal : ∀ digit ∈ text, isHexDigit digit = true

def CodeUnit.value (unit : CodeUnit) : Nat :=
  unit.text.foldl (fun value digit => value * 16 + hexValue digit) 0

def shortEscapes : List (Char × Char) :=
  [('"', '"'), ('\\', '\\'), ('/', '/'), ('b', '\x08'), ('f', '\x0C'), ('n', '\n'), ('r', '\r'),
    ('t', '\t')]

/-- The forms of one character in a string. Characters beyond the sixteen-bit units are escaped as
a pair of surrogates. -/
inductive Glyph where
  | plain (character : Char)
      (bare : character ≠ '"' ∧ character ≠ '\\' ∧ 0x20 ≤ character.toNat)
  | short (escape : Char × Char) (known : escape ∈ shortEscapes)
  | unit (code : CodeUnit) (scalar : code.value < 0xD800 ∨ 0xE000 ≤ code.value)
  | pair (high low : CodeUnit) (first : 0xD800 ≤ high.value ∧ high.value < 0xDC00)
      (second : 0xDC00 ≤ low.value ∧ low.value < 0xE000)

namespace Glyph

def text : Glyph → Text
  | plain character _ => [character]
  | short escape _ => ['\\', escape.1]
  | unit code _ => '\\' :: 'u' :: code.text
  | pair high low _ _ => '\\' :: 'u' :: (high.text ++ '\\' :: 'u' :: low.text)

def character : Glyph → Char
  | plain character _ => character
  | short escape _ => escape.2
  | unit code _ => Char.ofNat code.value
  | pair high low _ _ =>
      Char.ofNat (0x10000 + (high.value - 0xD800) * 0x400 + (low.value - 0xDC00))

theorem text_cons (glyph : Glyph) : ∃ first rest, glyph.text = first :: rest ∧ first ≠ '"' := by
  cases glyph with
  | plain character bare => exact ⟨character, [], rfl, bare.1⟩
  | short escape => exact ⟨_, _, rfl, by decide⟩
  | unit code => exact ⟨_, _, rfl, by decide⟩
  | pair high low => exact ⟨_, _, rfl, by decide⟩

theorem code_unit_unique {left right : CodeUnit} {rest later : Text}
    (same : left.text ++ rest = right.text ++ later) : left = right ∧ rest = later := by
  obtain ⟨text, rests⟩ := List.append_inj same (left.four.trans right.four.symm)
  cases left
  cases right
  cases text
  exact ⟨rfl, rests⟩

theorem short_ne_unit {escape : Char × Char} (known : escape ∈ shortEscapes) : escape.1 ≠ 'u' := by
  have every : ∀ escape ∈ shortEscapes, escape.1 ≠ 'u' := by decide
  exact every escape known

theorem short_unique {left right : Char × Char} (first : left ∈ shortEscapes)
    (second : right ∈ shortEscapes) (same : left.1 = right.1) : left.2 = right.2 := by
  have every : ∀ left ∈ shortEscapes, ∀ right ∈ shortEscapes, left.1 = right.1 →
      left.2 = right.2 := by decide
  exact every left first right second same

def behind : Glyph → Option Text
  | plain _ _ => none
  | short escape _ => some [escape.1]
  | unit code _ => some ('u' :: code.text)
  | pair high low _ _ => some ('u' :: (high.text ++ '\\' :: 'u' :: low.text))

theorem text_of_escape {glyph : Glyph} {behind : Text} (escaped : glyph.behind = some behind) :
    glyph.text = '\\' :: behind := by
  cases glyph <;> cases escaped <;> rfl

theorem plain_ne_escape {character : Char} (bare : character ≠ '\\') {rest later : Text}
    {glyph : Glyph} {behind : Text} (escaped : glyph.behind = some behind) :
    character :: rest ≠ glyph.text ++ later := by
  rw [text_of_escape escaped]
  intro same
  exact bare (List.cons.inj same).1

theorem short_ne_escape {escape : Char × Char} (known : escape ∈ shortEscapes)
    {rest later : Text} : escape.1 :: rest ≠ 'u' :: later :=
  fun same => short_ne_unit known (List.cons.inj same).1

theorem pair_append (high low : CodeUnit) (first : 0xD800 ≤ high.value ∧ high.value < 0xDC00)
    (second : 0xDC00 ≤ low.value ∧ low.value < 0xE000) (rest : Text) :
    (pair high low first second).text ++ rest =
      '\\' :: 'u' :: (high.text ++ '\\' :: 'u' :: (low.text ++ rest)) := by
  simp [text]

/-- The first sixteen-bit unit of a pair is no character by itself. -/
theorem unit_ne_pair {code high : CodeUnit} (scalar : code.value < 0xD800 ∨ 0xE000 ≤ code.value)
    (first : 0xD800 ≤ high.value ∧ high.value < 0xDC00) : code ≠ high := by
  rintro rfl
  omega

theorem unique {left right : Glyph} {rest later : Text}
    (same : left.text ++ rest = right.text ++ later) :
    left.character = right.character ∧ rest = later := by
  cases left with
  | plain character bare =>
      cases right with
      | plain =>
          obtain ⟨rfl, rests⟩ := List.cons.inj same
          exact ⟨rfl, rests⟩
      | _ => exact absurd same (plain_ne_escape bare.2.1 rfl)
  | short escape known =>
      cases right with
      | plain _ bare => exact absurd same.symm (plain_ne_escape bare.2.1 rfl)
      | short _ other =>
          obtain ⟨mark, rests⟩ := List.cons.inj (List.cons.inj same).2
          exact ⟨short_unique known other mark, rests⟩
      | _ => exact absurd (List.cons.inj same).2 (short_ne_escape known)
  | unit code scalar =>
      cases right with
      | plain _ bare => exact absurd same.symm (plain_ne_escape bare.2.1 rfl)
      | short _ known => exact absurd (List.cons.inj same).2.symm (short_ne_escape known)
      | unit =>
          obtain ⟨rfl, rests⟩ := code_unit_unique (List.cons.inj (List.cons.inj same).2).2
          exact ⟨rfl, rests⟩
      | pair high low first =>
          rw [pair_append] at same
          have units := (List.cons.inj (List.cons.inj same).2).2
          exact absurd (code_unit_unique units).1 (unit_ne_pair scalar first)
  | pair high low first =>
      cases right with
      | plain _ bare => exact absurd same.symm (plain_ne_escape bare.2.1 rfl)
      | short _ known => exact absurd (List.cons.inj same).2.symm (short_ne_escape known)
      | unit _ scalar =>
          rw [pair_append] at same
          have units := (List.cons.inj (List.cons.inj same).2).2
          exact absurd (code_unit_unique units).1.symm (unit_ne_pair scalar first)
      | pair =>
          rw [pair_append, pair_append] at same
          have units := (List.cons.inj (List.cons.inj same).2).2
          obtain ⟨rfl, others⟩ := code_unit_unique units
          obtain ⟨rfl, rests⟩ := code_unit_unique (List.cons.inj (List.cons.inj others).2).2
          exact ⟨rfl, rests⟩

end Glyph

def quoted (glyphs : List Glyph) : Text := '"' :: (glyphs.flatMap Glyph.text ++ ['"'])

theorem quoted_unique {left right : List Glyph} {rest later : Text}
    (same : quoted left ++ rest = quoted right ++ later) :
    left.map Glyph.character = right.map Glyph.character ∧ rest = later := by
  have inner :
      left.flatMap Glyph.text ++ '"' :: rest = right.flatMap Glyph.text ++ '"' :: later := by
    simpa [quoted] using same
  clear same
  induction left generalizing right with
  | nil =>
      cases right with
      | nil => exact ⟨rfl, (List.cons.inj inner).2⟩
      | cons glyph others =>
          obtain ⟨first, more, text, bare⟩ := glyph.text_cons
          rw [List.flatMap_cons, text] at inner
          exact absurd (List.cons.inj inner).1.symm bare
  | cons glyph others induction =>
      cases right with
      | nil =>
          obtain ⟨first, more, text, bare⟩ := glyph.text_cons
          rw [List.flatMap_cons, text] at inner
          exact absurd (List.cons.inj inner).1 bare
      | cons other more =>
          rw [List.flatMap_cons, List.flatMap_cons, List.append_assoc, List.append_assoc] at inner
          obtain ⟨character, behind⟩ := Glyph.unique inner
          obtain ⟨characters, rests⟩ := induction behind
          exact ⟨by rw [List.map_cons, List.map_cons, character, characters], rests⟩

/-! ## Numbers -/

structure Digits where
  text : Text
  nonempty : text ≠ []
  decimal : ∀ digit ∈ text, isDigit digit = true

structure Exponent where
  isCapital : Bool
  /-- Whether there is a sign, and whether it is a minus. -/
  sign : Option Bool
  digits : Digits

structure Numeral where
  isNegative : Bool
  whole : Digits
  /-- Only the number zero begins with a zero. -/
  leading : whole.text.head? = some '0' → whole.text = ['0']
  fraction : Option Digits
  exponent : Option Exponent

def optional {Part : Type} (spell : Part → Text) (part : Option Part) : Text :=
  (part.map spell).getD []

def signText (isMinus : Bool) : Text := [if isMinus then '-' else '+']

def minusText (isNegative : Bool) : Text := if isNegative then ['-'] else []

def fractionText (digits : Digits) : Text := '.' :: digits.text

def Exponent.text (exponent : Exponent) : Text :=
  (if exponent.isCapital then 'E' else 'e') ::
    (optional signText exponent.sign ++ exponent.digits.text)

namespace Numeral

def text (numeral : Numeral) : Text :=
  minusText numeral.isNegative ++ (numeral.whole.text ++
    (optional fractionText numeral.fraction ++ optional Exponent.text numeral.exponent))

/-- The digits in front of and behind the point, as one number. -/
def mantissa (numeral : Numeral) : Nat :=
  valueOfDigits (numeral.whole.text ++ (numeral.fraction.map Digits.text).getD [])

/-- The power of ten that the mantissa is multiplied with. -/
def scale (numeral : Numeral) : Int :=
  let raised : Int := match numeral.exponent with
    | none => 0
    | some exponent =>
        let size : Int := valueOfDigits exponent.digits.text
        if exponent.sign = some true then -size else size
  raised - ((numeral.fraction.map fun digits => digits.text.length).getD 0 : Nat)

def value (numeral : Numeral) : Rat :=
  let size := numeral.mantissa * Nat.pow 10 numeral.scale.toNat
  mkRat (if numeral.isNegative then Int.negOfNat size else size)
    (Nat.pow 10 (-numeral.scale).toNat)

/-- The number `-2.50E+1`. -/
example :
    let digits (text : Text) (nonempty : text ≠ []) (decimal : text.all isDigit = true) : Digits :=
      ⟨text, nonempty, List.all_eq_true.1 decimal⟩
    value ⟨true, digits ['2'] nofun rfl, nofun, some (digits ['5', '0'] nofun rfl),
      some ⟨true, some false, digits ['1'] nofun rfl⟩⟩ = -25 := by
  decide

end Numeral

def Stops (test : Char → Bool) (rest : Text) : Prop := ∀ first ∈ rest.head?, test first = false

theorem stops_cons {test : Char → Bool} {first : Char} (fails : test first = false) (rest : Text) :
    Stops test (first :: rest) := by
  intro other here
  rwa [← Option.mem_some_iff.1 here]

/-- A part that is left out and a part that is there have different texts, if it shows by its first
character. -/
theorem optional_unique {Part : Type} {spell : Part → Text} {test : Char → Bool}
    {left right : Option Part} {rest later : Text}
    (begins : ∀ part, ∃ first more, spell part = first :: more ∧ test first = true)
    (stops : Stops test rest) (ends : Stops test later)
    (unique : ∀ part other, spell part ++ rest = spell other ++ later →
      part = other ∧ rest = later)
    (same : optional spell left ++ rest = optional spell right ++ later) :
    left = right ∧ rest = later := by
  have differs {part : Part} {behind other : Text} (stops : Stops test other) :
      spell part ++ behind ≠ other := by
    obtain ⟨first, more, whole, holds⟩ := begins part
    rintro rfl
    rw [whole] at stops
    rw [stops first rfl] at holds
    cases holds
  cases left with
  | none =>
      cases right with
      | none => exact ⟨rfl, same⟩
      | some part => exact absurd same.symm (differs stops)
  | some part =>
      cases right with
      | none => exact absurd same (differs ends)
      | some other =>
          obtain ⟨rfl, rests⟩ := unique part other same
          exact ⟨rfl, rests⟩

theorem stops_optional {Part : Type} {spell : Part → Text} {test : Char → Bool}
    {part : Option Part} {rest : Text}
    (begins : ∀ part, ∃ first more, spell part = first :: more ∧ test first = false)
    (stops : Stops test rest) : Stops test (optional spell part ++ rest) := by
  cases part with
  | none => exact stops
  | some part =>
      obtain ⟨first, more, whole, fails⟩ := begins part
      change Stops test (spell part ++ rest)
      rw [whole]
      exact stops_cons fails _

theorem Digits.text_cons (digits : Digits) :
    ∃ first rest, digits.text = first :: rest ∧ isDigit first = true := by
  obtain ⟨first, rest, letters⟩ := List.exists_cons_of_ne_nil digits.nonempty
  exact ⟨first, rest, letters, digits.decimal first (by rw [letters]; exact List.mem_cons_self)⟩

theorem Digits.stops {test : Char → Bool} (digits : Digits) (rest : Text)
    (fails : ∀ digit, isDigit digit = true → test digit = false) :
    Stops test (digits.text ++ rest) := by
  obtain ⟨first, more, letters, digit⟩ := digits.text_cons
  rw [letters]
  exact stops_cons (fails first digit) _

theorem Digits.unique {left right : Digits} {rest later : Text} (stops : Stops isDigit rest)
    (ends : Stops isDigit later) (same : left.text ++ rest = right.text ++ later) :
    left = right ∧ rest = later := by
  obtain ⟨text, rests⟩ := run_at_front left.decimal right.decimal stops ends same
  cases left
  cases right
  cases text
  exact ⟨rfl, rests⟩

def isSign (character : Char) : Bool := character == '-' || character == '+'

def isExponentMark (character : Char) : Bool := character == 'e' || character == 'E'

theorem sign_begins (isMinus : Bool) :
    ∃ first more, signText isMinus = first :: more ∧ isSign first = true := by
  cases isMinus <;> exact ⟨_, _, rfl, by decide⟩

theorem exponent_begins (exponent : Exponent) :
    ∃ first more, exponent.text = first :: more ∧ isExponentMark first = true := by
  refine ⟨_, _, rfl, ?_⟩
  cases exponent.isCapital <;> decide

theorem no_sign_of_digit (digit : Char) (decimal : isDigit digit = true) :
    isSign digit = false := by
  rw [isSign, Bool.or_eq_false_iff, beq_eq_false_iff_ne, beq_eq_false_iff_ne]
  constructor <;> rintro rfl <;> exact absurd decimal (by decide)

theorem minus_unique {left right : Bool} {digits others : Digits} {rest later : Text}
    (same : minusText left ++ (digits.text ++ rest) = minusText right ++ (others.text ++ later)) :
    left = right ∧ digits.text ++ rest = others.text ++ later := by
  have differs (digits : Digits) (rest behind : Text) : digits.text ++ rest ≠ '-' :: behind := by
    intro same
    have stops := digits.stops rest no_sign_of_digit
    rw [same] at stops
    exact absurd (stops '-' rfl) (by decide)
  cases left with
  | false =>
      cases right with
      | false => exact ⟨rfl, same⟩
      | true => exact absurd same (differs digits rest _)
  | true =>
      cases right with
      | false => exact absurd same.symm (differs others later _)
      | true => exact ⟨rfl, (List.cons.inj same).2⟩

theorem mark_unique {mark other : Char} (differs : mark ≠ other) {left right : Bool}
    (same : (if left then mark else other) = (if right then mark else other)) : left = right := by
  cases left with
  | false =>
      cases right with
      | false => rfl
      | true => exact absurd same.symm differs
  | true =>
      cases right with
      | false => exact absurd same differs
      | true => rfl

theorem sign_unique {left right : Option Bool} {digits others : Digits} {rest later : Text}
    (same : optional signText left ++ (digits.text ++ rest) =
      optional signText right ++ (others.text ++ later)) :
    left = right ∧ digits.text ++ rest = others.text ++ later := by
  refine optional_unique sign_begins (digits.stops rest no_sign_of_digit)
    (others.stops later no_sign_of_digit) (fun minus other equal => ?_) same
  obtain ⟨mark, rests⟩ := List.cons.inj equal
  exact ⟨mark_unique (by decide) mark, rests⟩

theorem exponent_unique {left right : Exponent} {rest later : Text} (stops : Stops isDigit rest)
    (ends : Stops isDigit later) (same : left.text ++ rest = right.text ++ later) :
    left = right ∧ rest = later := by
  rw [Exponent.text, Exponent.text, List.cons_append, List.cons_append, List.append_assoc,
    List.append_assoc] at same
  obtain ⟨mark, behind⟩ := List.cons.inj same
  obtain ⟨sign, numbers⟩ := sign_unique behind
  obtain ⟨digits, rests⟩ := Digits.unique stops ends numbers
  have capital := mark_unique (by decide) mark
  refine ⟨?_, rests⟩
  cases left
  cases right
  cases capital
  cases sign
  cases digits
  rfl

def isNumberPart (character : Char) : Bool :=
  isDigit character || character == '.' || isExponentMark character

theorem Stops.of_imp {test wide : Char → Bool} {rest : Text} (stops : Stops wide rest)
    (implied : ∀ character, test character = true → wide character = true) : Stops test rest := by
  intro first here
  rw [← Bool.not_eq_true]
  intro holds
  have fails := stops first here
  rw [implied first holds] at fails
  cases fails

theorem stops_exponent {test : Char → Bool} {rest : Text} (stops : Stops test rest)
    (fails : test 'e' = false ∧ test 'E' = false) (exponent : Option Exponent) :
    Stops test (optional Exponent.text exponent ++ rest) := by
  refine stops_optional (fun exponent => ⟨_, _, rfl, ?_⟩) stops
  cases exponent.isCapital
  · exact fails.1
  · exact fails.2

theorem stops_fraction {test : Char → Bool} {rest : Text} (stops : Stops test rest)
    (fails : test '.' = false) (fraction : Option Digits) :
    Stops test (optional fractionText fraction ++ rest) :=
  stops_optional (fun _ => ⟨_, _, rfl, fails⟩) stops

theorem Numeral.text_append (numeral : Numeral) (rest : Text) :
    numeral.text ++ rest = minusText numeral.isNegative ++ (numeral.whole.text ++
      (optional fractionText numeral.fraction ++
        (optional Exponent.text numeral.exponent ++ rest))) := by
  simp only [text, List.append_assoc]

theorem Numeral.unique {left right : Numeral} {rest later : Text}
    (stops : Stops isNumberPart rest) (ends : Stops isNumberPart later)
    (same : left.text ++ rest = right.text ++ later) : left = right ∧ rest = later := by
  have digits {rest : Text} (stops : Stops isNumberPart rest) : Stops isDigit rest :=
    stops.of_imp fun _ digit => by simp [isNumberPart, digit]
  have point {rest : Text} (stops : Stops isNumberPart rest) : Stops (· == '.') rest :=
    stops.of_imp fun _ point => by simp [isNumberPart, point]
  have mark {rest : Text} (stops : Stops isNumberPart rest) : Stops isExponentMark rest :=
    stops.of_imp fun _ mark => by simp [isNumberPart, mark]
  -- A part that is left out could only be taken for one that is there by its mark.
  have noDigit : isDigit 'e' = false ∧ isDigit 'E' = false := by decide
  have noPoint : ('e' == '.') = false ∧ ('E' == '.') = false := by decide
  rw [text_append, text_append] at same
  obtain ⟨minus, unsigned⟩ := minus_unique same
  obtain ⟨whole, behind⟩ := Digits.unique
    (stops_fraction (stops_exponent (digits stops) noDigit _) (by decide) _)
    (stops_fraction (stops_exponent (digits ends) noDigit _) (by decide) _) unsigned
  obtain ⟨fraction, others⟩ := optional_unique (fun _ => ⟨_, _, rfl, rfl⟩)
    (stops_exponent (point stops) noPoint _) (stops_exponent (point ends) noPoint _)
    (fun _ _ equal => Digits.unique (stops_exponent (digits stops) noDigit _)
      (stops_exponent (digits ends) noDigit _) (List.cons.inj equal).2) behind
  obtain ⟨exponent, rests⟩ := optional_unique exponent_begins (mark stops) (mark ends)
    (fun _ _ equal => exponent_unique (digits stops) (digits ends) equal) others
  refine ⟨?_, rests⟩
  cases left
  cases right
  cases minus
  cases whole
  cases fraction
  cases exponent
  rfl

/-! ## Values -/

structure Key where
  before : Space
  glyphs : List Glyph
  after : Space

def Key.text (key : Key) : Text :=
  key.before.text ++ (quoted key.glyphs ++ (key.after.text ++ [':']))

def Key.name (key : Key) : Text := key.glyphs.map Glyph.character

mutual

inductive Spelling where
  | null
  | boolean (value : Bool)
  | number (numeral : Numeral)
  | string (glyphs : List Glyph)
  | emptyArray (space : Space)
  | array (items : Items)
  | emptyObject (space : Space)
  | object (members : Members)

inductive Items where
  | last (before : Space) (item : Spelling) (after : Space)
  | more (before : Space) (item : Spelling) (after : Space) (others : Items)

inductive Members where
  | last (key : Key) (before : Space) (item : Spelling) (after : Space)
  | more (key : Key) (before : Space) (item : Spelling) (after : Space) (others : Members)

end

mutual

def Spelling.text : Spelling → Text
  | .null => "null".toList
  | .boolean value => if value then "true".toList else "false".toList
  | .number numeral => numeral.text
  | .string glyphs => quoted glyphs
  | .emptyArray space => '[' :: (space.text ++ [']'])
  | .array items => '[' :: (items.text ++ [']'])
  | .emptyObject space => '\x7b' :: (space.text ++ ['\x7d'])
  | .object members => '\x7b' :: (members.text ++ ['\x7d'])

def Items.text : Items → Text
  | .last before item after => before.text ++ (item.text ++ after.text)
  | .more before item after others =>
      before.text ++ (item.text ++ (after.text ++ ',' :: others.text))

def Members.text : Members → Text
  | .last key before item after => key.text ++ (before.text ++ (item.text ++ after.text))
  | .more key before item after others =>
      key.text ++ (before.text ++ (item.text ++ (after.text ++ ',' :: others.text)))

end

mutual

def Spelling.document : Spelling → Document
  | .null => .null
  | .boolean value => .boolean value
  | .number numeral => .number numeral.value
  | .string glyphs => .string (glyphs.map Glyph.character)
  | .emptyArray _ => .array []
  | .array items => .array items.documents
  | .emptyObject _ => .object []
  | .object members => .object members.documents

def Items.documents : Items → List Document
  | .last _ item _ => [item.document]
  | .more _ item _ others => item.document :: others.documents

def Members.documents : Members → List (Text × Document)
  | .last key _ item _ => [(key.name, item.document)]
  | .more key _ item _ others => (key.name, item.document) :: others.documents

end

/-- Whether a text is this value with blanks before and behind it. -/
def IsReadFrom (document : Document) (text : Text) : Prop :=
  ∃ (before : Space) (spelling : Spelling) (after : Space),
    spelling.document = document ∧ before.text ++ (spelling.text ++ after.text) = text

/-! ## There is at most one value -/

/-- What the first character of a value tells. -/
inductive Kind where
  | null
  | boolean (value : Bool)
  | number
  | string
  | array
  | object
  deriving DecidableEq

def kindOf (first : Char) : Option Kind :=
  if first == '-' || isDigit first then some .number
  else if first = 'n' then some .null
  else if first = 't' then some (.boolean true)
  else if first = 'f' then some (.boolean false)
  else if first = '"' then some .string
  else if first = '[' then some .array
  else if first = '\x7b' then some .object
  else none

def Spelling.kind : Spelling → Kind
  | .null => .null
  | .boolean value => .boolean value
  | .number _ => .number
  | .string _ => .string
  | .emptyArray _ | .array _ => .array
  | .emptyObject _ | .object _ => .object

theorem Spelling.text_cons (spelling : Spelling) :
    ∃ first rest, spelling.text = first :: rest ∧ kindOf first = some spelling.kind := by
  cases spelling with
  | null => exact ⟨_, _, rfl, by decide⟩
  | boolean value => cases value <;> exact ⟨_, _, rfl, by decide⟩
  | number numeral =>
      obtain ⟨isNegative, whole, leading, fraction, exponent⟩ := numeral
      cases isNegative with
      | true => exact ⟨'-', _, rfl, rfl⟩
      | false =>
          obtain ⟨first, more, letters, digit⟩ := whole.text_cons
          refine ⟨first,
            more ++ (optional fractionText fraction ++ optional Exponent.text exponent), ?_,
            by simp [kindOf, digit, kind]⟩
          simp [text, Numeral.text, minusText, letters]
  | _ => exact ⟨_, _, rfl, rfl⟩

theorem kind_unique {left right : Spelling} {rest later : Text}
    (same : left.text ++ rest = right.text ++ later) : left.kind = right.kind := by
  obtain ⟨first, more, here, kind⟩ := left.text_cons
  obtain ⟨other, others, there, same_kind⟩ := right.text_cons
  rw [here, there] at same
  rw [(List.cons.inj same).1] at kind
  exact Option.some.inj (kind.symm.trans same_kind)

def isCloser (character : Char) : Bool :=
  character == ',' || character == ']' || character == '\x7d'

theorem Space.part {character : Char} (blank : isSpace character = true) :
    isNumberPart character = false ∧ kindOf character = none ∧ isCloser character = false ∧
      character ≠ '"' ∧ character ≠ ':' := by
  simp only [isSpace, Bool.or_eq_true, beq_iff_eq] at blank
  rcases blank with ((rfl | rfl) | rfl) | rfl <;> decide

theorem closer_part {character : Char} (closes : isCloser character = true) :
    isNumberPart character = false ∧ kindOf character = none ∧ isSpace character = false := by
  simp only [isCloser, Bool.or_eq_true, beq_iff_eq] at closes
  rcases closes with (rfl | rfl) | rfl <;> decide

theorem Space.unique {left right : Space} {rest later : Text} (stops : Stops isSpace rest)
    (ends : Stops isSpace later) (same : left.text ++ rest = right.text ++ later) : rest = later :=
  (run_at_front left.blank right.blank stops ends same).2

theorem Spelling.stops_space (spelling : Spelling) (rest : Text) :
    Stops isSpace (spelling.text ++ rest) := by
  obtain ⟨first, more, letters, kind⟩ := spelling.text_cons
  rw [letters]
  refine stops_cons ?_ _
  rw [← Bool.not_eq_true]
  intro blank
  rw [(Space.part blank).2.1] at kind
  cases kind

theorem Space.stops_number (space : Space) {rest : Text} (stops : Stops isNumberPart rest) :
    Stops isNumberPart (space.text ++ rest) := by
  intro first here
  cases blanks : space.text with
  | nil =>
      rw [blanks] at here
      exact stops first here
  | cons blank others =>
      rw [blanks] at here
      have member : first ∈ space.text := by
        rw [blanks, ← Option.mem_some_iff.1 here]
        exact List.mem_cons_self
      exact (Space.part (space.blank first member)).1

/-- Whether a spelling tells its value and its end, whatever stands behind it. -/
def Spelling.IsTold (left : Spelling) : Prop :=
  ∀ (right : Spelling) (rest later : Text), Stops isNumberPart rest → Stops isNumberPart later →
    left.text ++ rest = right.text ++ later → left.document = right.document ∧ rest = later

theorem element_unique {item other : Spelling} (told : item.IsTold)
    {before ahead after behind : Space} {mark stop : Char} (closes : isCloser mark = true)
    (ends : isCloser stop = true) {rest later : Text}
    (same : before.text ++ (item.text ++ (after.text ++ mark :: rest)) =
      ahead.text ++ (other.text ++ (behind.text ++ stop :: later))) :
    item.document = other.document ∧ mark = stop ∧ rest = later := by
  have first := Space.unique (item.stops_space _) (other.stops_space _) same
  obtain ⟨value, blanks⟩ := told other _ _
    (after.stops_number (stops_cons (closer_part closes).1 _))
    (behind.stops_number (stops_cons (closer_part ends).1 _)) first
  have marks := Space.unique (stops_cons (closer_part closes).2.2 _)
    (stops_cons (closer_part ends).2.2 _) blanks
  exact ⟨value, List.cons.inj marks⟩

theorem key_unique {left right : Key} {rest later : Text}
    (same : left.text ++ rest = right.text ++ later) : left.name = right.name ∧ rest = later := by
  have quote (glyphs : List Glyph) (rest : Text) : Stops isSpace (quoted glyphs ++ rest) :=
    stops_cons (by decide) _
  simp only [Key.text, List.append_assoc, List.singleton_append] at same
  have first := Space.unique (quote _ _) (quote _ _) same
  obtain ⟨name, behind⟩ := quoted_unique first
  have colon := Space.unique (stops_cons (by decide) _) (stops_cons (by decide) _) behind
  exact ⟨name, (List.cons.inj colon).2⟩

theorem blank_unique {left right : Space} {mark : Char} (closes : isCloser mark = true)
    {rest later : Text} (same : left.text ++ mark :: rest = right.text ++ mark :: later) :
    rest = later :=
  (List.cons.inj (Space.unique (stops_cons (closer_part closes).2.2 _)
    (stops_cons (closer_part closes).2.2 _) same)).2

theorem Items.ne_blank (items : Items) (space : Space) (rest later : Text) :
    items.text ++ later ≠ space.text ++ ']' :: rest := by
  have differs (before : Space) (item : Spelling) (behind : Text) :
      before.text ++ (item.text ++ behind) ≠ space.text ++ ']' :: rest := by
    intro same
    obtain ⟨first, more, letters, kind⟩ := item.text_cons
    have begins := Space.unique (item.stops_space behind) (stops_cons (by decide) _) same
    rw [letters] at begins
    rw [(List.cons.inj begins).1] at kind
    cases kind
  cases items with
  | last before item after =>
      simp only [text, List.append_assoc]
      exact differs before item _
  | more before item after others =>
      simp only [text, List.append_assoc]
      exact differs before item _

theorem Members.ne_blank (members : Members) (space : Space) (rest later : Text) :
    members.text ++ later ≠ space.text ++ '\x7d' :: rest := by
  have differs (key : Key) (behind : Text) :
      key.text ++ behind ≠ space.text ++ '\x7d' :: rest := by
    intro same
    simp only [Key.text, List.append_assoc] at same
    have begins := Space.unique (stops_cons (by decide) _) (stops_cons (by decide) _) same
    exact absurd (List.cons.inj begins).1 (by decide)
  cases members with
  | last key before item after =>
      simp only [text, List.append_assoc]
      exact differs key _
  | more key before item after others =>
      simp only [text, List.append_assoc]
      exact differs key _

-- The first characters are the same, so that both spellings are of one kind, and the cases with
-- spellings of two kinds are closed by `kinds`.
mutual

/-- By induction on the first of the two spellings. -/
theorem Spelling.told : (left : Spelling) → left.IsTold
  | .null => fun right rest later _ _ same => by
      have kinds := kind_unique same
      cases right with
      | null => exact ⟨rfl, List.append_cancel_left same⟩
      | _ => cases kinds
  | .boolean value => fun right rest later _ _ same => by
      have kinds := kind_unique same
      cases right with
      | boolean =>
          cases kinds
          exact ⟨rfl, List.append_cancel_left same⟩
      | _ => cases kinds
  | .number numeral => fun right rest later stops ends same => by
      have kinds := kind_unique same
      cases right with
      | number =>
          obtain ⟨rfl, rests⟩ := Numeral.unique stops ends same
          exact ⟨rfl, rests⟩
      | _ => cases kinds
  | .string glyphs => fun right rest later _ _ same => by
      have kinds := kind_unique same
      cases right with
      | string =>
          obtain ⟨characters, rests⟩ := quoted_unique same
          exact ⟨congrArg Document.string characters, rests⟩
      | _ => cases kinds
  | .emptyArray space => fun right rest later _ _ same => by
      have kinds := kind_unique same
      cases right with
      | emptyArray other =>
          simp only [Spelling.text, List.cons_append, List.append_assoc] at same
          exact ⟨rfl, blank_unique rfl (List.cons.inj same).2⟩
      | array items =>
          simp only [Spelling.text, List.cons_append, List.append_assoc] at same
          exact absurd (List.cons.inj same).2.symm (items.ne_blank space _ _)
      | _ => cases kinds
  | .array items => fun right rest later _ _ same => by
      have kinds := kind_unique same
      cases right with
      | emptyArray space =>
          simp only [Spelling.text, List.cons_append, List.append_assoc] at same
          exact absurd (List.cons.inj same).2 (items.ne_blank space _ _)
      | array others =>
          simp only [Spelling.text, List.cons_append, List.append_assoc] at same
          obtain ⟨values, rests⟩ := items.told others rest later (List.cons.inj same).2
          exact ⟨congrArg Document.array values, rests⟩
      | _ => cases kinds
  | .emptyObject space => fun right rest later _ _ same => by
      have kinds := kind_unique same
      cases right with
      | emptyObject other =>
          simp only [Spelling.text, List.cons_append, List.append_assoc] at same
          exact ⟨rfl, blank_unique rfl (List.cons.inj same).2⟩
      | object members =>
          simp only [Spelling.text, List.cons_append, List.append_assoc] at same
          exact absurd (List.cons.inj same).2.symm (members.ne_blank space _ _)
      | _ => cases kinds
  | .object members => fun right rest later _ _ same => by
      have kinds := kind_unique same
      cases right with
      | emptyObject space =>
          simp only [Spelling.text, List.cons_append, List.append_assoc] at same
          exact absurd (List.cons.inj same).2 (members.ne_blank space _ _)
      | object others =>
          simp only [Spelling.text, List.cons_append, List.append_assoc] at same
          obtain ⟨values, rests⟩ := members.told others rest later (List.cons.inj same).2
          exact ⟨congrArg Document.object values, rests⟩
      | _ => cases kinds

theorem Items.told : (left right : Items) → (rest later : Text) →
    left.text ++ ']' :: rest = right.text ++ ']' :: later →
    left.documents = right.documents ∧ rest = later
  | .last before item after, right, rest, later, same => by
      cases right with
      | last ahead other behind =>
          simp only [Items.text, List.append_assoc] at same
          obtain ⟨value, -, rests⟩ := element_unique item.told rfl rfl same
          exact ⟨congrArg (fun value => [value]) value, rests⟩
      | more ahead other behind others =>
          simp only [Items.text, List.append_assoc, List.cons_append] at same
          obtain ⟨-, mark, -⟩ := element_unique item.told rfl rfl same
          exact absurd mark (by decide)
  | .more before item after others, right, rest, later, same => by
      cases right with
      | last ahead other behind =>
          simp only [Items.text, List.append_assoc, List.cons_append] at same
          obtain ⟨-, mark, -⟩ := element_unique item.told rfl rfl same
          exact absurd mark (by decide)
      | more ahead other behind more =>
          simp only [Items.text, List.append_assoc, List.cons_append] at same
          obtain ⟨value, -, behind⟩ := element_unique item.told rfl rfl same
          obtain ⟨values, rests⟩ := others.told more rest later behind
          exact ⟨congrArg₂ List.cons value values, rests⟩

theorem Members.told : (left right : Members) → (rest later : Text) →
    left.text ++ '\x7d' :: rest = right.text ++ '\x7d' :: later →
    left.documents = right.documents ∧ rest = later
  | .last key before item after, right, rest, later, same => by
      cases right with
      | last other ahead element behind =>
          simp only [Members.text, List.append_assoc] at same
          obtain ⟨name, element⟩ := key_unique same
          obtain ⟨value, -, rests⟩ := element_unique item.told rfl rfl element
          exact ⟨by rw [Members.documents, Members.documents, name, value], rests⟩
      | more other ahead element behind others =>
          simp only [Members.text, List.append_assoc, List.cons_append] at same
          obtain ⟨-, mark, -⟩ := element_unique item.told rfl rfl (key_unique same).2
          exact absurd mark (by decide)
  | .more key before item after others, right, rest, later, same => by
      cases right with
      | last other ahead element behind =>
          simp only [Members.text, List.append_assoc, List.cons_append] at same
          obtain ⟨-, mark, -⟩ := element_unique item.told rfl rfl (key_unique same).2
          exact absurd mark (by decide)
      | more other ahead element behind more =>
          simp only [Members.text, List.append_assoc, List.cons_append] at same
          obtain ⟨name, element⟩ := key_unique same
          obtain ⟨value, -, behind⟩ := element_unique item.told rfl rfl element
          obtain ⟨values, rests⟩ := others.told more rest later behind
          exact ⟨by rw [Members.documents, Members.documents, name, value, values], rests⟩

end

/-- No two values can be read from one text. -/
theorem read_unique {left right : Document} {text : Text} (first : IsReadFrom left text)
    (second : IsReadFrom right text) : left = right := by
  obtain ⟨before, spelling, after, rfl, rfl⟩ := first
  obtain ⟨ahead, other, behind, rfl, same⟩ := second
  have begins := Space.unique (spelling.stops_space _) (other.stops_space _) same.symm
  have ends (space : Space) : Stops isNumberPart space.text := by
    have stops : Stops isNumberPart (space.text ++ []) := space.stops_number nofun
    rwa [List.append_nil] at stops
  exact (spelling.told other _ _ (ends after) (ends behind) begins).1

end Document

end StepStream
