import StepStream.Proofs.Calls

/-!
Reading files. A file that is read in portions has the lines it has when it is cut as a whole,
wherever the portions end. What is read of a text is its lines, and a file that is no text is
refused for its first line that is none.
-/

namespace StepStream

set_option autoImplicit false

open Text (Bytes splitAfter)

namespace FileLines

variable {path : Text} {before : List Text} {number : Nat}

theorem decode_lines_cons (line : Bytes) (rest : List Bytes) :
    decodeLines path before number (line :: rest) =
      match decodeLine path number line with
      | .ok text => decodeLines path (text :: before) (number + 1) rest
      | .error fault => .error fault := rfl

def undecodable (path : Text) (number : Nat) (malformed : Text.Malformed) : Error :=
  .file (.readFailed path
    ("invalid UTF-8 on line ".toList ++ Text.showNumeral number ++ ": ".toList ++
      malformed.message))

theorem decode_line_eq (path : Text) (number : Nat) (bytes : Bytes) :
    decodeLine path number bytes =
      (Text.decode bytes).mapError (undecodable path number) := by
  rw [decodeLine]
  cases Text.decode bytes <;> rfl

/-- A reading goes on with the unfinished line in front of what is still to come. -/
theorem take_all_eq (portions : List Bytes) {unfinished : Bytes}
    (open_line : newline ∉ unfinished) :
    Reading.takeAll path ⟨before, number, unfinished⟩ portions =
      decodeLines path before number
        (splitAfter newline (unfinished.reverse ++ portions.flatten)) := by
  induction portions generalizing before number unfinished with
  | nil =>
      rw [Reading.takeAll, List.flatten_nil, List.append_nil]
      cases unfinished with
      | nil => rfl
      | cons byte bytes =>
          have absent : newline ∉ (byte :: bytes).reverse := by rwa [List.mem_reverse]
          rw [Text.split_after_of_absent absent (by simp), decode_lines_cons, Reading.finishLine]
          dsimp only [List.isEmpty_cons]
          cases decodeLine path number (byte :: bytes).reverse <;> rfl
  | cons portion portions induction =>
      rw [Reading.takeAll, List.flatten_cons]
      -- Within a portion the bytes are taken one by one, and each newline completes a line.
      induction portion generalizing before number unfinished with
      | nil => exact induction open_line
      | cons byte bytes further =>
          rw [Reading.take]
          by_cases ends : byte = newline
          · subst ends
            have absent : newline ∉ unfinished.reverse := by rwa [List.mem_reverse]
            rw [List.cons_append, Text.split_after_append absent, decode_lines_cons, if_pos rfl,
              Reading.finishLine]
            dsimp only
            rw [List.reverse_cons]
            cases decodeLine path number (unfinished.reverse ++ [newline]) with
            | ok text => exact further List.not_mem_nil
            | error fault => rfl
          · have longer : newline ∉ byte :: unfinished := by
              simp [Ne.symm ends, open_line]
            rw [if_neg ends, further longer, List.reverse_cons, List.append_assoc]
            rfl

theorem of_portions_eq_mapped (path : Text) (portions : List Bytes) :
    ofPortions path portions = ofMapped path portions.flatten :=
  take_all_eq portions List.not_mem_nil

theorem decode_lines_of_texts (lines : List Text) :
    decodeLines path before number (lines.map Text.utf8) = .ok (before.reverse ++ lines) := by
  induction lines generalizing before number with
  | nil => simp [decodeLines]
  | cons line lines induction =>
      have decoded : decodeLine path number (Text.utf8 line) = .ok line := by
        rw [decodeLine, Text.decode_utf8]
      rw [List.map_cons, decode_lines_cons, decoded]
      simp [induction]

theorem of_mapped_text (path text : Text) :
    ofMapped path (Text.utf8 text) = .ok (splitAfter '\n' text) := by
  have cut : splitAfter newline (Text.utf8 text) = _ := Text.split_after_utf8 text
  rw [ofMapped, cut, decode_lines_of_texts]
  rfl

theorem texts_of_decoded {pieces : List Bytes} {lines : List Text}
    (decoded : decodeLines path before number pieces = .ok lines) :
    ∃ texts : List Text, pieces = texts.map Text.utf8 := by
  induction pieces generalizing before number with
  | nil => exact ⟨[], rfl⟩
  | cons piece pieces induction =>
      rw [decode_lines_cons, decode_line_eq] at decoded
      cases outcome : Text.decode piece with
      | error malformed =>
          rw [outcome] at decoded
          cases decoded
      | ok text =>
          rw [outcome] at decoded
          obtain ⟨texts, rfl⟩ := induction decoded
          have same : Text.utf8 text = piece := (Text.decode_eq_ok_iff piece text).1 outcome
          exact ⟨text :: texts, by rw [List.map_cons, same]⟩

/-- A refusal names the first line that is no text. -/
theorem first_of_refused {pieces : List Bytes} {fault : Error}
    (refused : decodeLines path before number pieces = .error fault) :
    ∃ (texts : List Text) (piece : Bytes) (rest : List Bytes) (malformed : Text.Malformed),
      pieces = texts.map Text.utf8 ++ piece :: rest ∧ Text.decode piece = .error malformed ∧
        fault = undecodable path (number + texts.length) malformed := by
  induction pieces generalizing before number with
  | nil => cases refused
  | cons piece pieces induction =>
      rw [decode_lines_cons, decode_line_eq] at refused
      cases outcome : Text.decode piece with
      | error malformed =>
          rw [outcome] at refused
          cases refused
          exact ⟨[], piece, pieces, malformed, rfl, outcome, rfl⟩
      | ok text =>
          rw [outcome] at refused
          obtain ⟨texts, other, rest, malformed, rfl, broken, named⟩ := induction refused
          have same : Text.utf8 text = piece := (Text.decode_eq_ok_iff piece text).1 outcome
          refine ⟨text :: texts, other, rest, malformed, ?_, broken, ?_⟩
          · rw [List.map_cons, same, List.cons_append]
          · rw [named, List.length_cons, Nat.add_right_comm, Nat.add_assoc]

theorem text_of_mapped {path : Text} {content : Bytes} {lines : List Text}
    (decoded : ofMapped path content = .ok lines) :
    ∃ text, Text.utf8 text = content ∧ lines = splitAfter '\n' text := by
  obtain ⟨texts, cut⟩ := texts_of_decoded decoded
  have whole : Text.utf8 texts.flatten = content := by
    rw [Text.utf8_flatten, ← cut, Text.flatten_split_after]
  refine ⟨texts.flatten, whole, ?_⟩
  rw [← whole, of_mapped_text, Except.ok.injEq] at decoded
  exact decoded.symm

/-- A file has the same lines, or the same fault, whichever way it is read and wherever the
portions end. It is read exactly if it is a text as a whole. Then the lines make up the file, and
all but perhaps the last end with their only newline. Otherwise the fault is that of the first
line that is no text. -/
theorem readings_agree (path : Text) (portions : List Bytes) :
    let content := portions.flatten
    ofPortions path portions = ofMapped path content ∧
      ((∃ lines, ofMapped path content = .ok lines) ↔ ∃ text, Text.utf8 text = content) ∧
      (∀ lines, ofMapped path content = .ok lines →
        lines.flatMap Text.utf8 = content ∧
          (∀ line ∈ lines.dropLast, Text.EndsOnce '\n' line) ∧
          ∀ line ∈ lines.getLast?, Text.EndsOnce '\n' line ∨ '\n' ∉ line ∧ line ≠ []) ∧
      ∀ fault, ofMapped path content = .error fault →
        ∃ (before : List Text) (bytes : Bytes) (after : List Bytes) (malformed : Text.Malformed),
          splitAfter newline content = before.map Text.utf8 ++ bytes :: after ∧
            Text.decode bytes = .error malformed ∧
            fault = undecodable path (before.length + 1) malformed := by
  intro content
  refine ⟨of_portions_eq_mapped path portions, ?_, ?_, ?_⟩
  · constructor
    · rintro ⟨lines, decoded⟩
      obtain ⟨text, whole, -⟩ := text_of_mapped decoded
      exact ⟨text, whole⟩
    · rintro ⟨text, whole⟩
      exact ⟨_, whole ▸ of_mapped_text path text⟩
  · intro lines decoded
    obtain ⟨text, whole, rfl⟩ := text_of_mapped decoded
    refine ⟨?_, Text.ended_but_last text, ?_⟩
    · rw [List.flatMap_def, ← Text.utf8_flatten, Text.flatten_split_after, whole]
    · intro line last
      exact Text.piece_of_split_after (List.mem_of_getLast? last)
  · intro fault refused
    obtain ⟨before, bytes, after, malformed, cut, broken, named⟩ := first_of_refused refused
    exact ⟨before, bytes, after, malformed, cut, broken, by rw [named, Nat.add_comm]⟩

-- A character that breaks off at the end of the second line, cut into two portions.
example : ofPortions "in.lp".toList [[97, 46, 10, 98, 0xE2], [0x82, 10, 99]] =
    .error (undecodable "in.lp".toList 2 ⟨1, some 2⟩) := by decide

theorem read_text {files : Files} {path text : Text}
    (holds : files.find path = some (.content (Text.utf8 text))) :
    read files path = .ok (splitAfter '\n' text) := by
  have whole := of_mapped_text path text
  have portions := of_portions_eq_mapped path [Text.utf8 text]
  rw [List.flatten_singleton, whole] at portions
  rw [read, holds]
  dsimp only
  split
  · exact whole
  · exact portions

end FileLines

theorem StepBuffer.of_file_text {files : Files} {path text : Text}
    (holds : files.find path = some (.content (Text.utf8 text))) :
    ofFile files path = ofLines path (splitAfter '\n' text) := by
  have present : files.has path = true := by simp [Files.has, holds]
  rw [ofFile, if_pos present, FileLines.read_text holds]

end StepStream
