import Chronicle.Log
import Chronicle.Storage.Basic

/-!
# The recorder

The recorder takes one frame for each tick and passes them on in batches, so
that a tick never waits for the storage.  The writer at the other end stores
the metadata record before any frame; a batch that could not be stored is
retained and stored together with the next one.
-/

namespace Chronicle

/-- What the recorder passes on to the writer. -/
inductive WriterCommand where
  | metadata (metadata : Recording.Metadata)
  | append (frames : List Recording.Frame)
  deriving DecidableEq, Inhabited

/-- Totals of a recording that has been closed. -/
structure FlushReport where
  flushes : Nat := 0
  written : Nat := 0
  pending : Nat := 0
  deriving Repr, DecidableEq, Inhabited

/-- The writer: what it was given and could not store yet, and its totals. -/
structure Writer where
  metadata : Option Recording.Metadata := none
  metadataStored : Bool := false
  retained : List Recording.Frame := []
  flushes : Nat := 0
  written : Nat := 0
  deriving DecidableEq, Inhabited

namespace Writer

variable {m : Type → Type} [Monad m]

/-- Stores the retained frames as one batch. -/
def storeFrames (storage : Storage m) (writer : Writer) : m Writer := do
  if writer.retained.isEmpty then return writer
  match ← storage.appendFrames writer.retained with
  | .ok _ =>
      return { writer with
        retained := []
        flushes := writer.flushes + 1
        written := writer.written + writer.retained.length }
  | .error _ => return writer

/-- Stores the metadata record if that is still to be done, and then the
retained frames.  Before there is a metadata record nothing is stored. -/
def store (storage : Storage m) (writer : Writer) : m Writer := do
  if writer.metadataStored then storeFrames storage writer
  else
    match writer.metadata with
    | none => return writer
    | some metadata =>
        match ← storage.writeMetadata metadata with
        | .ok _ => storeFrames storage { writer with metadataStored := true }
        | .error _ => return writer

/-- Takes a command and stores what can be stored. -/
def handle (storage : Storage m) (writer : Writer) : WriterCommand → m Writer
  | .metadata metadata => store storage { writer with metadata := some metadata }
  | .append frames => store storage { writer with retained := writer.retained ++ frames }

/-- The totals of a writer, with the frames that it could not store. -/
def report (writer : Writer) : FlushReport :=
  ⟨writer.flushes, writer.written, writer.retained.length⟩

/-- Takes the remaining commands and makes a last attempt to store. -/
def finish (storage : Storage m) (commands : List WriterCommand) (writer : Writer) :
    m FlushReport := do
  let writer ← commands.foldlM (handle storage) writer
  let writer ← store storage writer
  return writer.report

end Writer

/-- The recorder: the frames that wait for their batch to be complete, and the
commands that the writer has not taken yet. -/
structure Recorder where
  interval : UInt64
  buffer : Log Recording.Frame := ∅
  metadataSet : Bool := false
  lastTick : Option Tick := none
  recorded : Nat := 0
  commands : Log WriterCommand := ∅
  deriving DecidableEq, Inhabited

namespace Recorder

/-- A recorder that passes on frames in batches of a size, at least one. -/
def ofInterval (interval : UInt64) : Recorder := { interval := max interval 1 }

/-- Passes a command on to the writer. -/
def send (recorder : Recorder) (command : WriterCommand) : Recorder :=
  { recorder with commands := recorder.commands.push command }

/-- Passes on the metadata record, which is done once. -/
def setMetadata (recorder : Recorder) (metadata : Recording.Metadata) :
    Except LandError Recorder :=
  if recorder.metadataSet then .error (.metadataState "has already been set")
  else .ok { recorder.send (.metadata metadata) with metadataSet := true }

/-- Passes on the frames that wait, as one batch. -/
def flush (recorder : Recorder) : Recorder :=
  if recorder.buffer.isEmpty then recorder
  else { recorder.send (.append recorder.buffer.toList) with buffer := ∅ }

/-- Takes the frame of a tick, which has to follow the last one, and flushes
when the batch is complete. -/
def record (recorder : Recorder) (frame : Recording.Frame) : Except LandError Recorder :=
  if !recorder.metadataSet then .error (.metadataState "must be set before recording frames")
  else
    let taken :=
      { recorder with
        lastTick := some frame.tick
        recorded := recorder.recorded + 1
        buffer := recorder.buffer.push frame }
    let flushed := if taken.interval.toNat ≤ taken.buffer.size then taken.flush else taken
    match recorder.lastTick with
    | none => .ok flushed
    | some last =>
        if frame.tick = last + 1 then .ok flushed else .error (.recordingGap last frame.tick)

/-- Hands over the commands that the writer has not taken yet. -/
def takeCommands (recorder : Recorder) : List WriterCommand × Recorder :=
  (recorder.commands.toList, { recorder with commands := ∅ })

/-- The frames of a command. -/
def commandFrames : WriterCommand → List Recording.Frame
  | .metadata _ => []
  | .append frames => frames

/-- All frames that the recorder holds or has passed on, as long as the writer
has taken nothing. -/
def frames (recorder : Recorder) : List Recording.Frame :=
  recorder.commands.toList.flatMap commandFrames ++ recorder.buffer.toList

/-- Closes the recorder: the frames that wait are passed on, and the writer
takes everything and reports. -/
def close {m : Type → Type} [Monad m] (storage : Storage m) (writer : Writer)
    (recorder : Recorder) : m FlushReport :=
  writer.finish storage recorder.flush.commands.toList

end Recorder
end Chronicle
