import StepStream.Proofs.FileLines
import StepStream.Proofs.Framing
import StepStream.Proofs.QueryText

/-!
Fragments without the character NUL, which would divide a message on the wire. A source adds
directives and step arguments to the lines of its input, but never this character, so only an
input that contains it can lead to a fragment that does.
-/

namespace StepStream

set_option autoImplicit false

open Text (Bytes splitAfter)
open Message (delimiter)

/-- Whether no line of a fragment holds the character that ends a message. -/
def Fragment.IsUndivided (fragment : Fragment) : Prop := ∀ line ∈ fragment.lines, '\x00' ∉ line

theorem nul_mem_complete_line (line : Text) : '\x00' ∈ Text.completeLine line ↔ '\x00' ∈ line := by
  rw [Text.completeLine]
  split
  · exact Iff.rfl
  · simp

theorem undivided_of_lines {lines : List Text} (free : ∀ line ∈ lines, '\x00' ∉ line) :
    (Fragment.ofLines lines).IsUndivided := by
  intro line member
  obtain ⟨given, here, rfl⟩ := List.mem_map.1 member
  rw [nul_mem_complete_line]
  exact free given here

theorem render_undivided_iff {extra : List Text} (free : ∀ line ∈ extra, '\x00' ∉ line)
    (fragment : Fragment) : '\x00' ∉ fragment.render extra ↔ fragment.IsUndivided := by
  have carried : '\x00' ∉ extra.flatMap Text.completeLine := by
    rw [List.mem_flatMap]
    rintro ⟨line, member, here⟩
    exact free line member ((nul_mem_complete_line line).1 here)
  have ended : '\x00' ∉ Fragment.endStep := by decide
  rw [Fragment.render, List.mem_append, List.mem_append]
  simp [carried, ended, Fragment.IsUndivided]

def IsUndivided : Except Error StepInput → Prop
  | .ok (.fragment fragment) => fragment.IsUndivided
  | _ => True

namespace StepBuffer

theorem undivided_close_last {closed : List Fragment} {current : List Text}
    (complete : ∀ fragment ∈ closed, fragment.IsUndivided)
    (gathered : ∀ line ∈ current, '\x00' ∉ line) :
    ∀ fragment ∈ closeLast closed current, fragment.IsUndivided := by
  have last : (Fragment.ofLines current.reverse).IsUndivided := by
    apply undivided_of_lines
    simpa using gathered
  rw [closeLast]
  split
  · simpa using complete
  · simp only [List.reverse_cons, List.mem_append, List.mem_reverse, List.mem_singleton]
    rintro fragment (earlier | rfl)
    · exact complete fragment earlier
    · exact last

theorem undivided_collect {file : Text} {lines current : List Text}
    {closed fragments : List Fragment} (complete : ∀ fragment ∈ closed, fragment.IsUndivided)
    (gathered : ∀ line ∈ current, '\x00' ∉ line) (free : ∀ line ∈ lines, '\x00' ∉ line)
    (collected : collect file closed current lines = .ok fragments) :
    ∀ fragment ∈ fragments, fragment.IsUndivided := by
  induction lines generalizing current closed with
  | nil =>
      cases collected
      exact undivided_close_last complete gathered
  | cons line lines induction =>
      obtain ⟨here, others⟩ := List.forall_mem_cons.1 free
      rw [collect] at collected
      split at collected
      · exact induction complete (List.forall_mem_cons.2 ⟨here, gathered⟩) others collected
      · split at collected
        · exact induction complete gathered others collected
        · have closes : (Fragment.ofLines current.reverse).IsUndivided := by
            apply undivided_of_lines
            simpa using gathered
          have nothing : ∀ line ∈ ([] : List Text), '\x00' ∉ line := by simp
          exact induction (List.forall_mem_cons.2 ⟨closes, complete⟩) nothing others collected
        · cases collected
          exact undivided_close_last complete gathered
        · cases collected

theorem undivided_of_accepted {file : Text} {lines : List Text} {buffer : StepBuffer}
    (free : ∀ line ∈ lines, '\x00' ∉ line) (accepted : ofLines file lines = .ok buffer) :
    ∀ fragment ∈ buffer.fragments, fragment.IsUndivided := by
  rw [ofLines] at accepted
  split at accepted
  · next collected =>
      cases accepted
      exact undivided_collect (by simp) (by simp) free collected
  · cases accepted

end StepBuffer

namespace Terminal

theorem nul_of_decoded {bytes : Bytes} {line : Text} (decoded : decodeLine bytes = .ok line)
    (free : delimiter ∉ bytes) : '\x00' ∉ line := by
  rw [decodeLine] at decoded
  split at decoded
  · next decoded' =>
      cases decoded
      rwa [← (Text.decode_eq_ok_iff _ _).1 decoded', Message.delimiter_mem_utf8] at free
  · cases decoded

end Terminal

namespace Interactive

theorem undivided_at_stop {current : List Text} (gathered : ∀ line ∈ current, '\x00' ∉ line) :
    IsUndivided (.ok (atStop current).1) := by
  rw [atStop]
  split
  · trivial
  · exact undivided_of_lines gathered

theorem undivided_gather {lines : List Bytes} {current : List Text} (prompts : Text)
    (gathered : ∀ line ∈ current, '\x00' ∉ line) (free : ∀ bytes ∈ lines, delimiter ∉ bytes) :
    IsUndivided (gatherFrom current prompts lines).1.1 ∧
      ∀ bytes ∈ (gatherFrom current prompts lines).2.terminal.lines, delimiter ∉ bytes := by
  induction lines generalizing current prompts with
  | nil => exact ⟨undivided_at_stop gathered, nofun⟩
  | cons bytes lines induction =>
      obtain ⟨here, others⟩ := List.forall_mem_cons.1 free
      rw [gatherFrom]
      cases decoded : Terminal.decodeLine bytes with
      | error fault => exact ⟨trivial, others⟩
      | ok line =>
          have plain := Terminal.nul_of_decoded decoded here
          have longer : ∀ gatheredLine ∈ current ++ [line], '\x00' ∉ gatheredLine := by
            simpa [or_imp, forall_and] using ⟨gathered, plain⟩
          have effect := absorb_cases current line
          revert effect
          dsimp only
          cases absorb current line with
          | gather more =>
              rintro (rfl | rfl)
              · exact induction prompts gathered others
              · exact induction prompts longer others
          | askAgain =>
              intro _
              exact induction _ gathered others
          | finish input pendingStop =>
              rintro (rfl | rfl)
              · exact ⟨undivided_of_lines gathered, others⟩
              · exact ⟨undivided_at_stop gathered, others⟩

end Interactive

namespace QueryClause

theorem nul_of_numeral (number : Nat) : '\x00' ∉ Text.showNumeral number :=
  Text.not_mem_numeral (by decide) number

theorem nul_of_append_step {line : Text} (free : '\x00' ∉ line) (step : Nat) :
    '\x00' ∉ appendStep line step := by
  obtain ⟨front, mark, within, marked, appended⟩ := append_step_front line step
  have kept : '\x00' ∉ front :=
    fun member => free ((List.takeWhile_prefix _).subset (within.subset member))
  have numeral := nul_of_numeral step
  rw [appended]
  rcases marked with rfl | rfl <;> simp [kept, numeral]

end QueryClause

namespace Query

theorem nul_of_step_line (step : Nat) : '\x00' ∉ stepLine step := by
  change '\x00' ∉ "#step ".toList ++ Text.showNumeral step ++ ".\n".toList
  simp [QueryClause.nul_of_numeral]

theorem nul_of_volatile_line {volatility : Volatility} {line : Text}
    (found : volatileLine volatility = some line) : '\x00' ∉ line := by
  cases volatility with
  | input =>
      cases found
      decide
  | window size =>
      cases found
      simp [QueryClause.nul_of_numeral]
  | none => cases found

theorem nul_of_advance (options : QueryOptions) (kind : LineKind) {line : Text}
    (free : '\x00' ∉ line) (step : Nat) : '\x00' ∉ (advance options kind line step).1 := by
  -- Only a clause that raises the step is written anew, with the step as its argument.
  have raised : '\x00' ∉ (if options.implicitIncrement && (kind = .fact || kind = .integrity) then
      (QueryClause.appendStep line (Text.nextStep step), Text.nextStep step)
      else (line, step)).1 := by
    split
    · exact QueryClause.nul_of_append_step free _
    · exact free
  rw [advance]
  split
  · split <;> exact raised
  · exact raised

theorem nul_of_clause_lines (options : QueryOptions) {held : Option Text} {clause : Text}
    (kept : ∀ assertion ∈ held, '\x00' ∉ assertion) (free : '\x00' ∉ clause) (step : Nat) :
    ∀ line ∈ clauseLines options held clause step, '\x00' ∉ line := by
  intro line member
  simp only [clauseLines, List.mem_append, List.mem_singleton, Option.mem_toList] at member
  rcases member with (rfl | chosen) | rfl
  · exact nul_of_step_line step
  · rcases Option.or_eq_some_iff.1 chosen with assertion | ⟨-, volatile⟩
    · exact kept line assertion
    · exact nul_of_volatile_line volatile
  · exact free

theorem undivided_absorb (options : QueryOptions) (step : Nat) {held : Option Text} {line : Text}
    (kept : ∀ assertion ∈ held, '\x00' ∉ assertion) (free : '\x00' ∉ line) :
    match absorb options step held line with
    | .hold held => ∀ assertion ∈ held, '\x00' ∉ assertion
    | .finish input _ => IsUndivided (.ok input) := by
  have begun (later : Nat) : '\x00' ∉ stepLine later := nul_of_step_line later
  rw [absorb]
  cases kind : Line.classify line with
  | fact | integrity | rule =>
      apply undivided_of_lines
      exact nul_of_clause_lines options kept (nul_of_advance options _ free _) _
  | incrementStep target => exact undivided_of_lines (by simpa using begun _)
  | retract => exact undivided_of_lines (by simpa using ⟨begun _, free⟩)
  | endStep => exact undivided_of_lines (by simp)
  | stop => trivial
  | assert =>
      rintro assertion ⟨⟩
      exact free
  | step | cumulative | volatile | forget | commentOrBlank | unrecognized => exact kept

theorem undivided_read (options : QueryOptions) (step : Nat) {lines : List Bytes}
    {held : Option Text} (kept : ∀ assertion ∈ held, '\x00' ∉ assertion)
    (free : ∀ bytes ∈ lines, delimiter ∉ bytes) :
    IsUndivided (readFrom options step held lines).1.1 ∧
      ∀ bytes ∈ (readFrom options step held lines).2, delimiter ∉ bytes := by
  induction lines generalizing held with
  | nil => exact ⟨trivial, by simp [readFrom]⟩
  | cons bytes lines induction =>
      obtain ⟨here, others⟩ := List.forall_mem_cons.1 free
      rw [readFrom]
      cases decoded : Terminal.decodeLine bytes with
      | error fault => exact ⟨trivial, others⟩
      | ok line =>
          have absorbed :=
            undivided_absorb options step kept (Terminal.nul_of_decoded decoded here)
          revert absorbed
          dsimp only
          cases absorb options step held line with
          | hold later =>
              intro absorbed
              exact induction absorbed others
          | finish input later =>
              intro absorbed
              exact ⟨absorbed, others⟩

end Query

namespace Source

def HoldsUndivided : Source → Prop
  | buffer left => ∀ fragment ∈ left.fragments, fragment.IsUndivided
  | interactive reader => ∀ bytes ∈ reader.terminal.lines, delimiter ∉ bytes
  | query reader => ∀ bytes ∈ reader.terminal.lines, delimiter ∉ bytes

theorem undivided_next {source : Source} (holds : source.HoldsUndivided) (step : Nat) :
    IsUndivided (source.next step).1.input ∧ (source.next step).2.HoldsUndivided := by
  cases source with
  | buffer left =>
      obtain ⟨fragments⟩ := left
      cases fragments with
      | nil => exact ⟨trivial, holds⟩
      | cons fragment fragments => exact List.forall_mem_cons.1 holds
  | interactive reader =>
      obtain ⟨⟨lines⟩, pendingStop⟩ := reader
      cases pendingStop with
      | true => exact ⟨trivial, holds⟩
      | false => exact Interactive.undivided_gather _ (by simp) holds
  | query reader => exact Query.undivided_read reader.options step (by simp) holds

theorem undivided_answers {source : Source} (holds : source.HoldsUndivided) (steps : List Nat) :
    ∀ answer ∈ source.answers steps, IsUndivided answer := by
  induction steps generalizing source with
  | nil => simp [answers]
  | cons step steps induction =>
      obtain ⟨first, later⟩ := undivided_next holds step
      rw [answers, List.forall_mem_cons]
      exact ⟨first, induction later⟩

/-- Whether a source is what a text begins as: the content of a stream file, or what is typed
in. -/
inductive Opens (text : Text) : Source → Prop
  | file {files : Files} {path : Text} {buffer : StepBuffer}
      (holds : files.find path = some (.content (Text.utf8 text)))
      (accepted : StepBuffer.ofFile files path = .ok buffer) : Opens text (.buffer buffer)
  | interactive : Opens text (.interactive ⟨.ofBytes (Text.utf8 text), false⟩)
  | query (options : QueryOptions) : Opens text (.query ⟨.ofBytes (Text.utf8 text), options⟩)

theorem undivided_of_opens {text : Text} {source : Source} (opens : source.Opens text)
    (free : '\x00' ∉ text) : source.HoldsUndivided := by
  have lines : ∀ line ∈ splitAfter '\n' text, '\x00' ∉ line := by
    intro line member present
    have whole := Text.flatten_split_after '\n' text
    rw [← whole] at free
    exact free (List.mem_flatten.2 ⟨line, member, present⟩)
  have typed : ∀ bytes ∈ (Terminal.ofBytes (Text.utf8 text)).lines, delimiter ∉ bytes := by
    rw [Terminal.lines_of_text]
    intro bytes member
    obtain ⟨line, here, rfl⟩ := List.mem_map.1 member
    rw [Message.delimiter_mem_utf8]
    exact lines line here
  cases opens with
  | file holds accepted =>
      rw [StepBuffer.of_file_text holds] at accepted
      exact StepBuffer.undivided_of_accepted lines accepted
  | interactive => exact typed
  | query options => exact typed

end Source

end StepStream
