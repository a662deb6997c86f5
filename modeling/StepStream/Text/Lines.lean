import StepStream.Text.Basic

/-!
Lines of a text or of a byte string. A piece keeps the mark that ends it, so the
pieces of an input always concatenate to the input, and only the last piece can
lack its mark.
-/

namespace StepStream.Text

set_option autoImplicit false

def splitAfter {Item : Type} [DecidableEq Item] (mark : Item) (items : List Item) :
    List (List Item) :=
  items.foldr (fun item pieces =>
    if item = mark then [item] :: pieces
    else match pieces with
      | [] => [[item]]
      | piece :: rest => (item :: piece) :: rest) []

theorem flatten_split_after {Item : Type} [DecidableEq Item] (mark : Item) (items : List Item) :
    (splitAfter mark items).flatten = items := by
  induction items with
  | nil => rfl
  | cons item items induction =>
      rw [splitAfter, List.foldr_cons, ← splitAfter]
      split
      · simp [induction]
      · cases pieces : splitAfter mark items with
        | nil =>
            rw [pieces] at induction
            rw [← induction]
            rfl
        | cons piece rest =>
            rw [pieces] at induction
            rw [← induction]
            rfl

/-- Drops all newlines and carriage returns at the end. -/
def stripLineEnd (line : Text) : Text :=
  dropEndWhile (fun character => character == '\n' || character == '\r') line

def completeLine (line : Text) : Text :=
  if line.getLast? = some '\n' then line else line ++ ['\n']

/-- Drops the newline that ends a piece, together with one carriage return before it. A
piece without a newline stays as it is. -/
def dropNewline (piece : Text) : Text :=
  match piece.reverse with
  | '\n' :: '\r' :: rest => rest.reverse
  | '\n' :: rest => rest.reverse
  | _ => piece

def lines (text : Text) : List Text := (splitAfter '\n' text).map dropNewline

end StepStream.Text
