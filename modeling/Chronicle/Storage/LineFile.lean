import Chronicle.Bytes
import Chronicle.Storage.Basic
import Chronicle.Text.Utf8

/-!
# Storage in a file of lines

The file holds the metadata record on its first line and one frame on each of
the following.  A batch of frames is encoded as a whole before anything of it is
written.  The length up to the end of the last complete write is remembered.  A
write first cuts off whatever lies beyond it, and a write that fails is cut off
again; if that fails too, the next write does it.
-/

namespace Chronicle

/-- A file of lines, and its length up to the last complete write. -/
structure LineFile where
  bytes : List UInt8 := []
  committed : Nat := 0
  deriving Repr, DecidableEq, Inhabited

/-- Where a call fails and what is said about it: at encoding the value at an index, at
asking for the length, at cutting the file, at seeking, or after some of the bytes; in the
last case the bytes may or may not be cut off again. -/
inductive WriteFault where
  | encoding (index : Nat) (reason : String)
  | length (reason : String)
  | cutting (reason : String)
  | seeking (reason : String)
  | writing (kept : Nat) (cutOff : Bool) (reason : String)
  deriving Repr, DecidableEq

namespace LineFile

/-- Sets the length of some bytes; bytes that are missing are zeros. -/
def resize (length : Nat) (bytes : List UInt8) : List UInt8 :=
  bytes.take length ++ List.replicate (length - bytes.length) 0

/-- The file with the length of its last complete write. -/
def recut (file : LineFile) : LineFile := { file with bytes := resize file.committed file.bytes }

/-- The bytes of a file after some bytes were written at the end of the last
complete write. -/
def written (file : LineFile) (bytes : List UInt8) : List UInt8 :=
  file.bytes.take file.committed ++ bytes ++ file.bytes.drop (file.committed + bytes.length)

/-- Writes bytes to a file that has the length of its last complete write. -/
def writeAt (file : LineFile) (bytes : List UInt8) :
    Option WriteFault → Except StorageError Unit × LineFile
  | some (.seeking reason) => (.error (.io reason), file)
  | some (.writing kept cutOff reason) =>
      let torn := { file with bytes := file.written (bytes.take kept) }
      (.error (.io reason), if cutOff then torn.recut else torn)
  | _ =>
      (.ok (), ⟨file.written bytes, file.committed + bytes.length⟩)

/-- Writes bytes after the last complete write, with a fault or without. -/
def write (file : LineFile) (bytes : List UInt8) (fault : Option WriteFault) :
    Except StorageError Unit × LineFile :=
  match fault with
  | some (.length reason) => (.error (.io reason), file)
  | some (.cutting reason) =>
      if file.bytes.length = file.committed then file.writeAt bytes fault
      else (.error (.io reason), file)
  | _ =>
      if file.bytes.length = file.committed then file.writeAt bytes fault
      else file.recut.writeAt bytes fault

/-- What is said about the value at an index if it cannot be encoded. -/
def refusal? (fault : Option WriteFault) (index : Nat) : Option String :=
  match fault with
  | some (.encoding place reason) => if place = index then some reason else none
  | _ => none

/-- Puts the lines of values behind a text, with a fault at encoding one of them or
without.  The values are numbered from `index` on. -/
def encodeFrom (fault : Option WriteFault) (text : String) (index : Nat) :
    List Json → Except StorageError String
  | [] => .ok text
  | value :: rest =>
      match refusal? fault index with
      | some reason => .error (.encode reason)
      | none => encodeFrom fault (text ++ Recording.line value) (index + 1) rest

/-- Writes values as lines.  All of them are encoded before the first is written. -/
def writeLines (file : LineFile) (values : List Json) (fault : Option WriteFault) :
    Except StorageError Unit × LineFile :=
  match encodeFrom fault "" 0 values with
  | .error error => (.error error, file)
  | .ok text => file.write (Bytes.utf8 text) fault

/-- Writes the metadata record as a line. -/
def writeMetadata (file : LineFile) (metadata : Recording.Metadata) (fault : Option WriteFault) :
    Except StorageError Unit × LineFile :=
  file.writeLines [metadata.toJson] fault

/-- The lines of a batch of frames. -/
def batchText (frames : List Recording.Frame) : String :=
  String.join (frames.map fun frame => Recording.line frame.toJson)

/-- Appends a batch of frames as lines. -/
def append (file : LineFile) (frames : List Recording.Frame) (fault : Option WriteFault) :
    Except StorageError Unit × LineFile :=
  file.writeLines (frames.map (·.toJson)) fault

/-- The file as a storage on which no write fails. -/
def storage : Storage (StateM LineFile) where
  writeMetadata metadata file := file.writeMetadata metadata none
  appendFrames frames file := file.append frames none

/-- The file shown as text. -/
def text (file : LineFile) : String := String.ofList (Text.ofUtf8 file.bytes)

/-- Reads a recording from the bytes of a file. -/
def load (bytes : List UInt8) : Except StorageError Recording :=
  match String.fromUTF8? ⟨bytes.toArray⟩ with
  | none => .error (.io "stream did not contain valid UTF-8")
  | some text => (Recording.parse text).mapError .format

/-- The frame of a tick, read back from the file. -/
def readFrame (file : LineFile) (tick : Tick) : Except StorageError (Option Recording.Frame) :=
  (load file.bytes).map fun recording => Recording.frameOf? tick recording.frames

end LineFile
end Chronicle
