import StepStream.Proofs.Lines
import StepStream.Proofs.Utf8
import StepStream.Source.Supply

/-!
One call of a source after the other. The status may change between two calls, so every call
comes with a step counter of its own. What is typed in as a text is read as its lines.
-/

namespace StepStream

set_option autoImplicit false

namespace Text

theorem utf8_append (front back : Text) : utf8 (front ++ back) = utf8 front ++ utf8 back :=
  List.flatMap_append

theorem utf8_flatten (texts : List Text) : utf8 texts.flatten = (texts.map utf8).flatten := by
  induction texts with
  | nil => rfl
  | cons text texts induction =>
      rw [List.flatten_cons, utf8_append, induction, List.map_cons, List.flatten_cons]

theorem newline_mem_utf8 (text : Text) : 10 ∈ utf8 text ↔ '\n' ∈ text :=
  byte_mem_utf8 (by decide) rfl text

theorem split_after_utf8 (text : Text) :
    splitAfter 10 (utf8 text) = (splitAfter '\n' text).map utf8 := by
  generalize size : text.length = length
  induction length using Nat.strongRecOn generalizing text with
  | ind length induction =>
      by_cases present : '\n' ∈ text
      · -- The byte of a newline occurs in no other character, so both are cut at the same place.
        obtain ⟨line, rest, rfl, absent⟩ := List.eq_append_cons_of_mem present
        have free : 10 ∉ utf8 line := by rwa [newline_mem_utf8]
        have bytes : utf8 (line ++ '\n' :: rest) = utf8 line ++ 10 :: utf8 rest := by
          rw [utf8_append, utf8_cons]
          rfl
        have ended : utf8 (line ++ ['\n']) = utf8 line ++ [10] := by
          rw [utf8_append]
          rfl
        rw [List.length_append, List.length_cons] at size
        rw [bytes, split_after_append free, split_after_append absent,
          induction rest.length (by omega) rest rfl, List.map_cons, ended]
      · cases text with
        | nil => rfl
        | cons character text =>
            have free : 10 ∉ utf8 (character :: text) := by rwa [newline_mem_utf8]
            have nonempty : utf8 (character :: text) ≠ [] := by
              apply List.ne_nil_of_length_pos
              have longer := length_le_utf8 (character :: text)
              rw [List.length_cons] at longer
              omega
            rw [split_after_of_absent free nonempty,
              split_after_of_absent present (List.cons_ne_nil _ _), List.map_singleton]

end Text

namespace Terminal

theorem lines_of_text (text : Text) :
    (ofBytes (Text.utf8 text)).lines = (Text.splitAfter '\n' text).map Text.utf8 :=
  Text.split_after_utf8 text

theorem decode_line_utf8 (line : Text) : decodeLine (Text.utf8 line) = .ok line := by
  rw [decodeLine, Text.decode_utf8]

end Terminal

namespace Interactive

theorem absorb_cases (current : List Text) (line : Text) :
    match absorb current line with
    | .gather more => more = current ∨ more = current ++ [line]
    | .askAgain => True
    | .finish input _ =>
        input = .fragment (Fragment.ofLines current) ∨ input = (atStop current).1 := by
  rw [absorb]
  cases Line.classify line with
  | step | cumulative | volatile | forget | assert | retract | fact | integrity | rule =>
      exact .inr rfl
  | commentOrBlank => exact .inl rfl
  | incrementStep | unrecognized => trivial
  | endStep => exact .inl rfl
  | stop => exact .inr rfl

end Interactive

namespace Source

def typed (lines : List Text.Bytes) : Source := .interactive ⟨⟨lines⟩, false⟩

def asked (options : QueryOptions) (lines : List Text.Bytes) : Source := .query ⟨⟨lines⟩, options⟩

/-- What a source answers to calls at these step counters. -/
def answers (source : Source) : List Nat → List (Except Error StepInput)
  | [] => []
  | step :: steps => (source.next step).1.input :: (source.next step).2.answers steps

end Source

end StepStream
