import Chronicle.Log
import Chronicle.Storage.Basic

/-!
# Storage in memory

The memory keeps the metadata record, the frames, and the ticks of every batch
that was appended.  It can be told to let the next appends fail, and a script
can let any of its calls fail.
-/

namespace Chronicle

/-- A recording kept in memory. -/
structure Memory where
  metadata : Option Recording.Metadata := none
  frames : Log Recording.Frame := ∅
  batches : Log (List Tick) := ∅
  failing : Nat := 0
  deriving Inhabited

namespace Memory

/-- Keeps the metadata record in place of an earlier one. -/
def writeMetadata (memory : Memory) (metadata : Recording.Metadata) : Memory :=
  { memory with metadata := some metadata }

/-- Appends a batch of frames, unless the append is one of those to fail. -/
def append (memory : Memory) (frames : List Recording.Frame) : Except StorageError Unit × Memory :=
  if 0 < memory.failing then
    (.error (.io "injected write failure"), { memory with failing := memory.failing - 1 })
  else
    (.ok (),
      { memory with
        frames := memory.frames.append frames
        batches := memory.batches.push (frames.map (·.tick)) })

/-- Lets the next appends fail. -/
def failNext (memory : Memory) (count : Nat) : Memory := { memory with failing := count }

/-- The recording stored so far, none before its metadata record. -/
def snapshot? (memory : Memory) : Option Recording :=
  memory.metadata.map fun metadata => ⟨metadata, memory.frames.toList⟩

/-- The number of batches that were appended. -/
def flushes (memory : Memory) : Nat := memory.batches.size

/-- The memory as a storage. -/
def storage : Storage (StateM Memory) where
  writeMetadata metadata memory := (.ok (), memory.writeMetadata metadata)
  appendFrames frames memory := memory.append frames

end Memory

/-- A memory with a script: which of the next calls of each kind fail.  Calls
past the end of the script succeed. -/
structure ScriptedMemory where
  memory : Memory := {}
  metadataFaults : List Bool := []
  appendFaults : List Bool := []
  deriving Inhabited

namespace ScriptedMemory

/-- The failure of a call that the script lets fail. -/
def fault : StorageError := .io "scripted write failure"

/-- The scripted memory as a storage. -/
def storage : Storage (StateM ScriptedMemory) where
  writeMetadata metadata scripted :=
    let rest := { scripted with metadataFaults := scripted.metadataFaults.tail }
    if scripted.metadataFaults.headD false then (.error fault, rest)
    else (.ok (), { rest with memory := rest.memory.writeMetadata metadata })
  appendFrames frames scripted :=
    let rest := { scripted with appendFaults := scripted.appendFaults.tail }
    if scripted.appendFaults.headD false then (.error fault, rest)
    else
      let (result, memory) := rest.memory.append frames
      (result, { rest with memory := memory })

end ScriptedMemory
end Chronicle
