import Chronicle.Recording.Encoding
import Chronicle.Text.Blank

/-!
# Recordings as text

A recording is stored as one document, or as lines: the metadata record on the
first line and one frame on each of the following.  Reading tries the document
first and falls back to lines when the first line is a JSON value by itself.
A recording that has been read is valid: its frames number the ticks from zero
without a gap, and every target is well formed.
-/

namespace Chronicle

/-- Why a text is not a recording. -/
inductive FormatError where
  | empty
  | json (line : Nat)
  | gap (expected found : Tick)
  | target (sequence : Sequence) (reason : TargetError)
  deriving Repr, DecidableEq

namespace FormatError

/-- The text of a fault in the target of a server event. -/
def targetText (sequence : Sequence) (reason : String) : String :=
  s!"invalid target in server event {sequence}: {reason}"

/-- The text of the error.  Behind the number of a malformed line, a colon and what the
reader of JSON says about it would follow; that part depends on the reader and is left out. -/
def message : FormatError → String
  | .empty => "recording is empty"
  | .json line => s!"malformed recording at line {line}"
  | .gap expected found => s!"frame gap: expected tick {expected}, found tick {found}"
  | .target sequence reason => targetText sequence reason.message

end FormatError

namespace Recording

namespace Frame

/-- Checks the targets of a frame's server events. -/
def checkTargets : List ServerEvent → Except FormatError Unit
  | [] => .ok ()
  | event :: rest =>
      match event.target.toTarget with
      | .ok _ => checkTargets rest
      | .error reason => .error (.target event.sequence reason)

end Frame

/-- Checks that frames number the ticks from `expected` on without a gap, and
that their targets are well formed. -/
def checkFrames (expected : Tick) : List Frame → Except FormatError Unit
  | [] => .ok ()
  | frame :: rest =>
      if frame.tick = expected then do
        Frame.checkTargets frame.serverEvents
        checkFrames (expected + 1) rest
      else .error (.gap expected frame.tick)

/-- Checks that a recording is valid. -/
def validate (recording : Recording) : Except FormatError Unit :=
  checkFrames 0 recording.frames

/-- Lines with their numbers from `first` on, without the blank ones. -/
def filledLines (first : Nat) (lines : List (List Char)) : List (Nat × List Char) :=
  (lines.zipIdx first).filterMap fun entry =>
    if entry.1.all Text.isBlank then none else some (entry.2, entry.1)

/-- Decodes a numbered line. -/
def decodeLine (decoder : Json.Decoder α) (line : Nat × List Char) : Except FormatError α :=
  (decoder.decodeText line.2).mapError fun _ => .json line.1

/-- Reads a recording stored as lines. -/
def ofLines (text : List Char) : Except FormatError Recording :=
  match filledLines 1 (Text.lines text) with
  | [] => .error .empty
  | first :: rest => do
      let metadata ← decodeLine Metadata.decoder first
      let frames ← rest.mapM (decodeLine Frame.decoder)
      return ⟨metadata, frames⟩

/-- Whether the first line of a text is a JSON value by itself. -/
def opensWithValue (text : List Char) : Bool :=
  match Json.Decoder.value.decodeText ((Text.lines text).headD []) with
  | .ok _ => true
  | .error _ => false

/-- Reads a recording in either form without validating it. -/
def ofText (text : List Char) : Except FormatError Recording :=
  let trimmed := Text.trimStart text
  if trimmed.isEmpty then .error .empty
  else
    match decoder.decodeText trimmed with
    | .ok recording => .ok recording
    | .error line => if opensWithValue trimmed then ofLines text else .error (.json line)

/-- Reads a valid recording in either form. -/
def parse (text : String) : Except FormatError Recording := do
  let recording ← ofText text.toList
  recording.validate
  return recording

/-- A metadata record or frame as a line with its line feed. -/
def line (value : Json) : String := value.compact ++ "\n"

/-- The text of a recording stored as lines. -/
def toLines (recording : Recording) : String :=
  line recording.metadata.toJson ++ String.join (recording.frames.map fun f => line f.toJson)

end Recording
end Chronicle
