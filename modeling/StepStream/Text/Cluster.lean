import StepStream.Text.Basic
import StepStream.Text.ClusterTable

/-!
Extended grapheme clusters: what a reader of the text sees as one character. The text is
read once from left to right. What has been read of the current cluster decides, together
with the next character, whether a new cluster begins.
-/

namespace StepStream.Text

set_option autoImplicit false

/-- What a character does to the cluster boundaries beside it. -/
inductive ClusterRole where
  | carriageReturn
  | newline
  | control
  | extend
  | joiner
  | regional
  | prepend
  | spacingMark
  | leading
  | vowel
  | trailing
  | openSyllable
  | closedSyllable
  | pictograph
  | consonant
  | other
  deriving DecidableEq, Repr

/-- The role of a character. Below U+0300 only the controls and two pictographs have a role
of their own. -/
def clusterRole (character : Char) : ClusterRole :=
  let code := character.toNat
  if code = 0x0D then .carriageReturn
  else if code = 0x0A then .newline
  else if code < 0x20 then .control
  else if code < 0x7F then .other
  else if code < 0xA0 || code = 0xAD then .control
  else if code = 0xA9 || code = 0xAE then .pictograph
  else if code < 0x300 then .other
  else if 0xAC00 ≤ code && code ≤ 0xD7A3 then
    if (code - 0xAC00) % 28 = 0 then .openSyllable else .closedSyllable
  else if code = 0x200D then .joiner
  else if 0x1F1E6 ≤ code && code ≤ 0x1F1FF then .regional
  else if inRanges extendRanges code then .extend
  else if inRanges spacingMarkRanges code then .spacingMark
  else if inRanges prependRanges code then .prepend
  else if inRanges controlRanges code then .control
  else if inRanges leadingRanges code then .leading
  else if inRanges vowelRanges code then .vowel
  else if inRanges trailingRanges code then .trailing
  else if inRanges pictographRanges code then .pictograph
  else if inRanges conjunctConsonantRanges code then .consonant
  else .other

def linksConsonants (character : Char) : Bool := inRanges conjunctLinkerRanges character.toNat

/-- Whether a mark lets a pending conjunct wait for its next consonant. The non-joiner ends
the conjunct. -/
def keepsConjunct (character : Char) : Bool := character.toNat ≠ 0x200C

/-- How far a conjunct has got at the end of what has been read. -/
inductive Conjunct where
  | none
  | consonant
  | linked
  deriving DecidableEq, Repr

inductive Pictographs where
  | none
  | pictograph
  | joined
  deriving DecidableEq, Repr

/-- What the boundary in front of the next character can depend on. -/
structure ClusterState where
  role : ClusterRole
  pictographs : Pictographs
  conjunct : Conjunct
  oddRegional : Bool
  deriving DecidableEq, Repr

def ClusterState.advance (state : ClusterState) (character : Char) : ClusterState :=
  let role := clusterRole character
  { role := role
    pictographs :=
      match role, state.pictographs with
      | .pictograph, _ => .pictograph
      | .extend, .pictograph => .pictograph
      | .joiner, .pictograph => .joined
      | _, _ => .none
    conjunct :=
      match role, state.conjunct with
      | .consonant, _ => .consonant
      | .extend, .none => .none
      | .extend, reached =>
          if linksConsonants character then .linked
          else if keepsConjunct character then reached else .none
      | .joiner, reached => reached
      | _, _ => .none
    oddRegional := role = .regional && !state.oddRegional }

/-- The state at the beginning of a text, where everything begins a cluster. -/
def ClusterState.start : ClusterState :=
  { role := .control, pictographs := .none, conjunct := .none, oddRegional := false }

def ClusterState.continues (state : ClusterState) (next : ClusterRole) : Bool :=
  match state.role, next with
  | .carriageReturn, .newline => true
  | .carriageReturn, _ | .newline, _ | .control, _ => false
  | _, .carriageReturn | _, .newline | _, .control => false
  | _, .extend | _, .joiner | _, .spacingMark => true
  | .prepend, _ => true
  | .leading, .leading | .leading, .vowel | .leading, .openSyllable
  | .leading, .closedSyllable => true
  | .openSyllable, .vowel | .openSyllable, .trailing => true
  | .vowel, .vowel | .vowel, .trailing => true
  | .closedSyllable, .trailing | .trailing, .trailing => true
  | .joiner, .pictograph => state.pictographs = .joined
  | .regional, .regional => state.oddRegional
  | _, .consonant => state.conjunct = .linked
  | _, _ => false

def clustersFrom (state : ClusterState) : Text → Nat → Nat
  | [], count => count
  | character :: rest, count =>
      let count := if state.continues (clusterRole character) then count else count + 1
      clustersFrom (state.advance character) rest count

/-- The number of extended grapheme clusters of a text. -/
def clusterCount (text : Text) : Nat := clustersFrom .start text 0

def padding (width : Nat) (text : Text) : Text := List.replicate (width - clusterCount text) ' '

def padRight (width : Nat) (text : Text) : Text := text ++ padding width text

def padLeft (width : Nat) (text : Text) : Text := padding width text ++ text

end StepStream.Text
