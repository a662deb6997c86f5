import StepStream.Line.Classify
import StepStream.Source.Files
import StepStream.Source.Fragment

/-!
Step buffers: the fragments of a stream file. The whole file is read and checked before
the first fragment is handed out.
-/

namespace StepStream

set_option autoImplicit false

structure StepBuffer where
  fragments : List Fragment
  deriving DecidableEq, Repr

namespace StepBuffer

/-- Adds the lines of the last step, which stand in reverse order, to the fragments before
it, also in reverse order, unless there are no lines. -/
def closeLast (closed : List Fragment) (current : List Text) : List Fragment :=
  if current.isEmpty then closed.reverse
  else (Fragment.ofLines current.reverse :: closed).reverse

/-- Distributes lines over fragments. The fragments that are complete and the lines of the
current one stand in reverse order. -/
def collect (file : Text) (closed : List Fragment) (current : List Text) :
    List Text → Except Error (List Fragment)
  | [] => .ok (closeLast closed current)
  | line :: rest =>
      let kind := Line.classify line
      if kind.isProgramLine then collect file closed (line :: current) rest
      else match kind with
        | .commentOrBlank => collect file closed current rest
        | .endStep => collect file (Fragment.ofLines current.reverse :: closed) [] rest
        | .stop => .ok (closeLast closed current)
        | _ =>
            .error (.input (.invalidLine (Text.stripLineEnd line) (closed.length + 1) file))

/-- The buffer for these lines. Nothing behind a `#stop.` line matters. -/
def ofLines (file : Text) (lines : List Text) : Except Error StepBuffer :=
  match collect file [] [] lines with
  | .ok fragments => .ok ⟨fragments⟩
  | .error error => .error error

def ofFile (files : Files) (path : Text) : Except Error StepBuffer :=
  if files.has path then
    match FileLines.read files path with
    | .ok lines => ofLines path lines
    | .error error => .error error
  else .error (.configuration (.missingFile path))

def ofPaths (files : Files) : List Text → Except Error (Option StepBuffer)
  | [] => .ok none
  | [path] =>
      match ofFile files path with
      | .ok buffer => .ok (some buffer)
      | .error error => .error error
  | _ => .error (.configuration .severalStreamFiles)

def pop : StepBuffer → StepInput × StepBuffer
  | ⟨[]⟩ => (.stop, ⟨[]⟩)
  | ⟨fragment :: rest⟩ => (.fragment fragment, ⟨rest⟩)

def length (buffer : StepBuffer) : Nat := buffer.fragments.length

def isEmpty (buffer : StepBuffer) : Bool := buffer.fragments.isEmpty

end StepBuffer

end StepStream
