import StepStream.Text.Utf8

/-!
Places in the file system. A path leads from directory to directory, beginning at the root
or at the working directory, and the names on the way are followed one after the other.
-/

namespace StepStream

set_option autoImplicit false

/-- A place: so many directories above the beginning, and from there down the names, which
stand in reverse order. There is nothing above the root. -/
structure Place where
  isAbsolute : Bool
  above : Nat
  names : List Text
  deriving DecidableEq, Repr

namespace Place

def start (path : Text) : Place := ⟨path.head? = some '/', 0, []⟩

def parent (place : Place) : Place :=
  match place.names with
  | _ :: names => { place with names := names }
  | [] => if place.isAbsolute then place else { place with above := place.above + 1 }

/-- Follows a name. An empty name and a dot stay in place. -/
def follow (place : Place) (name : Text) : Place :=
  if name = [] ∨ name = ['.'] then place
  else if name = ['.', '.'] then place.parent
  else { place with names := name :: place.names }

def pathNames (path : Text) : List Text := path.splitOnP (· == '/')

def ofPath (path : Text) : Place := (pathNames path).foldl follow (start path)

/-- Whether one of the places on the way, without the last one, is the target. -/
def leadsThrough (target place : Place) : List Text → Bool
  | [] => false
  | name :: rest => place == target || leadsThrough target (place.follow name) rest

def isOnWay (target : Place) (path : Text) : Bool :=
  leadsThrough target (start path) (pathNames path)

def pathBound : Nat := 4096

def isPath (path : Text) : Bool := path ≠ [] && decide ((Text.utf8 path).length < pathBound)

end Place

end StepStream
