import StepStream.Error
import StepStream.Source.Place
import StepStream.Text.Lines
import StepStream.Text.Utf8

/-!
Files and their lines. A file of a mebibyte or more is mapped and cut as a whole. A
smaller one is read in portions, and a line is complete when its newline has arrived. Both
ways decode line by line, so an error names the first line that is no text.
-/

namespace StepStream

set_option autoImplicit false

open Text (Bytes)

inductive FileEntry where
  | content (bytes : Bytes)
  | directory
  | unreadable (reason : Text)
  deriving DecidableEq, Repr

structure Files where
  entries : List (Text × FileEntry)

namespace Files

/-- The entry at a place. A place on the way to an entry is a directory, and so is every
place that can be reached without a name. -/
def atPlace (files : Files) (place : Place) : Option FileEntry :=
  match files.entries.find? fun entry => Place.ofPath entry.1 == place with
  | some (_, entry) => some entry
  | none =>
      if place.names.isEmpty || files.entries.any fun entry => place.isOnWay entry.1 then
        some .directory
      else none

/-- Follows names from a place. Only from a directory a name leads on. -/
def findFrom (files : Files) (place : Place) : List Text → Option FileEntry
  | [] => files.atPlace place
  | name :: rest =>
      match files.atPlace place with
      | some .directory => findFrom files (place.follow name) rest
      | _ => none

def find (files : Files) (path : Text) : Option FileEntry :=
  if Place.isPath path then files.findFrom (.start path) (Place.pathNames path) else none

def has (files : Files) (path : Text) : Bool := (files.find path).isSome

end Files

namespace FileLines

/-- Files from this size on are mapped. -/
def mappingThreshold : Nat := 1024 * 1024

def newline : UInt8 := 10

def decodeLine (path : Text) (number : Nat) (bytes : Bytes) : Except Error Text :=
  match Text.decode bytes with
  | .ok line => .ok line
  | .error malformed =>
      .error (.file (.readFailed path
        ("invalid UTF-8 on line ".toList ++ Text.showNumeral number ++ ": ".toList ++
          malformed.message)))

def decodeLines (path : Text) (before : List Text) (number : Nat) :
    List Bytes → Except Error (List Text)
  | [] => .ok before.reverse
  | line :: rest =>
      match decodeLine path number line with
      | .ok text => decodeLines path (text :: before) (number + 1) rest
      | .error error => .error error

def ofMapped (path : Text) (content : Bytes) : Except Error (List Text) :=
  decodeLines path [] 1 (Text.splitAfter newline content)

/-- A file that is being read in portions: the lines so far in reverse order, and the bytes
of the unfinished line in reverse order. -/
structure Reading where
  lines : List Text
  number : Nat
  unfinished : Bytes

namespace Reading

def start : Reading := ⟨[], 1, []⟩

def finishLine (path : Text) (reading : Reading) : Except Error Reading :=
  match decodeLine path reading.number reading.unfinished.reverse with
  | .ok line => .ok ⟨line :: reading.lines, reading.number + 1, []⟩
  | .error error => .error error

def take (path : Text) (reading : Reading) : Bytes → Except Error Reading
  | [] => .ok reading
  | byte :: rest =>
      let reading := { reading with unfinished := byte :: reading.unfinished }
      if byte = newline then
        match finishLine path reading with
        | .ok reading => take path reading rest
        | .error error => .error error
      else take path reading rest

/-- Takes all portions, and ends the last line at the end of the file. -/
def takeAll (path : Text) (reading : Reading) : List Bytes → Except Error (List Text)
  | [] =>
      if reading.unfinished.isEmpty then .ok reading.lines.reverse
      else
        match finishLine path reading with
        | .ok reading => .ok reading.lines.reverse
        | .error error => .error error
  | portion :: rest =>
      match take path reading portion with
      | .ok reading => takeAll path reading rest
      | .error error => .error error

end Reading

def ofPortions (path : Text) (portions : List Bytes) : Except Error (List Text) :=
  Reading.takeAll path .start portions

def read (files : Files) (path : Text) : Except Error (List Text) :=
  match files.find path with
  | none => .error (.file (.notFound path))
  | some .directory =>
      .error (.file (.readFailed path "Is a directory (os error 21)".toList))
  | some (.unreadable reason) => .error (.file (.readFailed path reason))
  | some (.content bytes) =>
      if mappingThreshold ≤ bytes.length then ofMapped path bytes else ofPortions path [bytes]

end FileLines

end StepStream
