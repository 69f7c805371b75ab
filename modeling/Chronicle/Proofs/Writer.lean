import Chronicle.Recorder
import Chronicle.Storage.Memory

/-!
# What the writer stores

A storage that fails some of its calls keeps nothing of them.  So what it holds
and what its writer retains are together what the writer was given, whichever
calls fail, and nothing is stored before the metadata record.
-/

namespace Chronicle

open Recording (Frame Metadata)

namespace ScriptedMemory

variable {scripted : ScriptedMemory}

/-- A script that lets no call fail. -/
structure Faultless (scripted : ScriptedMemory) : Prop where
  metadata : ∀ fails ∈ scripted.metadataFaults, fails = false
  appends : ∀ fails ∈ scripted.appendFaults, fails = false

/-- The metadata record is stored, or the call fails and does nothing. -/
theorem writeMetadata_cases (scripted : ScriptedMemory) (metadata : Metadata) :
    (∃ after, (storage.writeMetadata metadata).run scripted = (.ok (), after) ∧
      after.memory = scripted.memory.writeMetadata metadata ∧
      (scripted.Faultless → after.Faultless)) ∨
    (∃ after, (storage.writeMetadata metadata).run scripted = (.error fault, after) ∧
      after.memory = scripted.memory ∧ ¬scripted.Faultless) := by
  obtain ⟨memory, metadataFaults, appendFaults⟩ := scripted
  cases metadataFaults with
  | nil =>
      refine .inl ⟨_, rfl, rfl, fun faultless => ⟨?_, faultless.appends⟩⟩
      exact faultless.metadata
  | cons fails rest =>
      cases fails with
      | false =>
          refine .inl ⟨_, rfl, rfl, fun faultless => ⟨fun fails later => ?_, faultless.appends⟩⟩
          exact faultless.metadata fails (List.mem_cons_of_mem _ later)
      | true =>
          refine .inr ⟨_, rfl, rfl, fun faultless => ?_⟩
          cases faultless.metadata true List.mem_cons_self

/-- A batch of frames is stored, or the call fails and does nothing. -/
theorem appendFrames_cases
    (working : scripted.memory.failing = 0)
    (frames : List Frame) :
    (∃ after, (storage.appendFrames frames).run scripted = (.ok (), after) ∧
      after.memory = (scripted.memory.append frames).2 ∧
      (scripted.Faultless → after.Faultless)) ∨
    (∃ after, (storage.appendFrames frames).run scripted = (.error fault, after) ∧
      after.memory = scripted.memory ∧ ¬scripted.Faultless) := by
  obtain ⟨⟨metadata, stored, batches, failing⟩, metadataFaults, appendFaults⟩ := scripted
  obtain rfl : failing = 0 := working
  cases appendFaults with
  | nil =>
      refine .inl ⟨_, rfl, rfl, fun faultless => ⟨faultless.metadata, ?_⟩⟩
      exact faultless.appends
  | cons fails rest =>
      cases fails with
      | false =>
          refine .inl ⟨_, rfl, rfl, fun faultless => ⟨faultless.metadata, fun fails later => ?_⟩⟩
          exact faultless.appends fails (List.mem_cons_of_mem _ later)
      | true =>
          refine .inr ⟨_, rfl, rfl, fun faultless => ?_⟩
          cases faultless.appends true List.mem_cons_self

end ScriptedMemory

/-- A memory that is not told to fail appends what it is given. -/
theorem Memory.append_of_working
    {memory : Memory}
    (working : memory.failing = 0)
    (frames : List Frame) :
    (memory.append frames).2 =
      { memory with
        frames := memory.frames.append frames
        batches := memory.batches.push (frames.map (·.tick)) } := by
  rw [Memory.append, if_neg (by omega)]

namespace Writer

open ScriptedMemory (storage)

variable {writer : Writer} {scripted : ScriptedMemory}

/-- What an attempt to store the retained frames comes to: all of them are stored
as one batch, or the writer and the memory stay as they are. -/
theorem storeFrames_cases
    (writer : Writer)
    (working : scripted.memory.failing = 0) :
    (∃ after, (writer.storeFrames storage).run scripted =
        ({ writer with
            retained := []
            flushes := writer.flushes + 1
            written := writer.written + writer.retained.length }, after) ∧
      writer.retained ≠ [] ∧
      after.memory = (scripted.memory.append writer.retained).2 ∧
      (scripted.Faultless → after.Faultless)) ∨
    (∃ after, (writer.storeFrames storage).run scripted = (writer, after) ∧
      after.memory = scripted.memory ∧
      (scripted.Faultless → writer.retained = [] ∧ after.Faultless)) := by
  unfold Writer.storeFrames
  by_cases none : writer.retained = []
  · simp only [none, List.isEmpty_nil, if_true]
    exact .inr ⟨scripted, rfl, rfl, fun faultless => ⟨trivial, faultless⟩⟩
  rw [if_neg (by simpa using none)]
  obtain ⟨after, called, stored, keeps⟩ | ⟨after, called, same, faulty⟩ :=
    ScriptedMemory.appendFrames_cases working writer.retained
  · exact .inl ⟨after, by rw [StateT.run_bind, called]; rfl, none, stored, keeps⟩
  · exact .inr ⟨after, by rw [StateT.run_bind, called]; rfl, same,
      fun faultless => absurd faultless faulty⟩

/-- How an attempt to store goes: the metadata record is already stored, it is
stored now, or there is none or it fails and nothing changes. -/
theorem store_cases
    (writer : Writer)
    (scripted : ScriptedMemory) :
    (writer.metadataStored = true ∧
      (writer.store storage).run scripted = (writer.storeFrames storage).run scripted) ∨
    (∃ metadata after, writer.metadata = some metadata ∧
      (writer.store storage).run scripted =
        (storeFrames storage { writer with metadataStored := true }).run after ∧
      after.memory = scripted.memory.writeMetadata metadata ∧
      (scripted.Faultless → after.Faultless)) ∨
    (∃ after, (writer.store storage).run scripted = (writer, after) ∧
      after.memory = scripted.memory ∧
      (scripted.Faultless → writer.metadata = none ∧ after.Faultless)) := by
  unfold Writer.store
  by_cases stored : writer.metadataStored = true
  · exact .inl ⟨stored, by rw [if_pos stored]⟩
  refine .inr ?_
  rw [if_neg stored]
  cases writer.metadata with
  | none => exact .inr ⟨scripted, rfl, rfl, fun faultless => ⟨rfl, faultless⟩⟩
  | some metadata =>
      obtain ⟨after, called, memory, keeps⟩ | ⟨after, called, memory, faulty⟩ :=
        scripted.writeMetadata_cases metadata
      · exact .inl ⟨metadata, after, rfl, by rw [StateT.run_bind, called]; rfl, memory, keeps⟩
      · exact .inr ⟨after, by rw [StateT.run_bind, called]; rfl, memory,
          fun faultless => absurd faultless faulty⟩

/-- An attempt to store does not touch the metadata record that the writer was
given. -/
theorem metadata_store (writer : Writer) (working : scripted.memory.failing = 0) :
    ((writer.store storage).run scripted).1.metadata = writer.metadata := by
  have unchanged (writer : Writer) (scripted : ScriptedMemory)
      (working : scripted.memory.failing = 0) :
      ((writer.storeFrames storage).run scripted).1.metadata = writer.metadata := by
    obtain ⟨after, run, -⟩ | ⟨after, run, -⟩ := storeFrames_cases writer working
    · rw [run]
    · rw [run]
  obtain ⟨-, run⟩ | ⟨metadata, after, -, run, memory, -⟩ | ⟨after, run, -⟩ :=
    store_cases writer scripted
  · rw [run]
    exact unchanged writer scripted working
  · rw [run]
    exact unchanged _ after (by rw [memory]; exact working)
  · rw [run]

/-- A writer that knows the metadata record still knows it after any command. -/
theorem known_handle
    (working : scripted.memory.failing = 0)
    {command : WriterCommand}
    (known : writer.metadata = none → ∃ metadata, command = .metadata metadata) :
    ((writer.handle storage command).run scripted).1.metadata ≠ none := by
  cases command with
  | metadata metadata =>
      have kept := metadata_store { writer with metadata := some metadata } working
      exact fun unknown => Option.some_ne_none metadata (kept.symm.trans unknown)
  | append frames =>
      have kept :=
        metadata_store { writer with retained := writer.retained ++ frames } working
      intro unknown
      obtain ⟨metadata, isMetadata⟩ := known (kept.symm.trans unknown)
      cases isMetadata

/-- What a writer and a memory have come to with the frames that the writer was
given, where `given` is the metadata record of the recording. -/
structure Filed
    (writer : Writer)
    (memory : Memory)
    (given : Option Metadata)
    (frames : List Frame) : Prop where
  frames : memory.frames.toList ++ writer.retained = frames
  batches : memory.batches.toList.flatten = memory.frames.toList.map (·.tick)
  written : writer.written = memory.frames.toList.length
  flushes : writer.flushes = memory.flushes
  stored : writer.metadataStored = memory.metadata.isSome
  metadataFirst : memory.metadata = none → memory.frames.toList = []
  known : ∀ metadata ∈ writer.metadata, given = some metadata
  same : ∀ metadata ∈ memory.metadata, given = some metadata
  working : memory.failing = 0

/-- A new writer has come to nothing with no frames. -/
theorem filed_empty : ({} : Writer).Filed {} none [] where
  frames := rfl
  batches := rfl
  written := rfl
  flushes := rfl
  stored := rfl
  metadataFirst := fun _ => rfl
  known := fun _ isKnown => absurd isKnown (Option.not_mem_none _)
  same := fun _ isStored => absurd isStored (Option.not_mem_none _)
  working := rfl

namespace Filed

variable {given : Option Metadata} {frames : List Frame}

/-- The memory has as many of the first frames as the writer counts. -/
theorem stored_eq_take (filed : writer.Filed scripted.memory given frames) :
    scripted.memory.frames.toList = frames.take writer.written := by
  rw [filed.written, ← filed.frames, List.take_left]

/-- The writer counts every frame once, as stored or as retained. -/
theorem written_add_retained (filed : writer.Filed scripted.memory given frames) :
    writer.written + writer.retained.length = frames.length := by
  rw [filed.written, ← filed.frames, List.length_append]

/-- Storing the retained frames, or failing to do so, loses none of them and
stores none of them twice. -/
theorem storeFrames
    (filed : writer.Filed scripted.memory given frames)
    (stored : writer.metadataStored = true) :
    ((writer.storeFrames storage).run scripted).1.Filed
      ((writer.storeFrames storage).run scripted).2.memory given frames := by
  obtain ⟨after, run, -, memory, -⟩ | ⟨after, run, memory, -⟩ :=
    storeFrames_cases writer filed.working
  · rw [run, memory, Memory.append_of_working filed.working]
    exact
      { filed with
        frames := by simpa using filed.frames
        batches := by simp [filed.batches]
        written := by simp [filed.written]
        flushes := by
          rw [filed.flushes]
          rfl
        metadataFirst := fun missing => by
          rw [filed.stored, missing] at stored
          cases stored }
  · rw [run, memory]
    exact filed

/-- An attempt to store, whichever of its calls fail, keeps account of the
frames. -/
theorem store (filed : writer.Filed scripted.memory given frames) :
    ((writer.store storage).run scripted).1.Filed
      ((writer.store storage).run scripted).2.memory given frames := by
  obtain ⟨stored, run⟩ | ⟨metadata, after, known, run, memory, -⟩ | ⟨after, run, memory, -⟩ :=
    store_cases writer scripted
  · rw [run]
    exact filed.storeFrames stored
  · rw [run]
    refine storeFrames ?_ rfl
    rw [memory]
    exact
      { filed with
        stored := rfl
        metadataFirst := fun missing => by cases missing
        same := fun other isOther => filed.known other (known.trans isOther) }
  · rw [run, memory]
    exact filed

/-- The writer keeps account of the frames of every command that it takes. -/
theorem handle
    (filed : writer.Filed scripted.memory given frames)
    (command : WriterCommand)
    (same : ∀ metadata, command = .metadata metadata → given = some metadata) :
    ((writer.handle storage command).run scripted).1.Filed
      ((writer.handle storage command).run scripted).2.memory given
      (frames ++ Recorder.commandFrames command) := by
  cases command with
  | metadata metadata =>
      have knows : Filed { writer with metadata := some metadata } scripted.memory given
          (frames ++ []) :=
        { filed with
          frames := filed.frames.trans (List.append_nil frames).symm
          known := fun other isOther => same other (by rw [Option.mem_some_iff.mp isOther]) }
      exact knows.store
  | append batch =>
      have retains : Filed { writer with retained := writer.retained ++ batch } scripted.memory
          given (frames ++ batch) :=
        { filed with
          frames := by
            rw [← List.append_assoc]
            exact congrArg (· ++ batch) filed.frames }
      exact retains.store

/-- The writer keeps account of the frames of all commands that it takes one
after the other. -/
theorem handleAll
    (filed : writer.Filed scripted.memory given frames)
    (commands : List WriterCommand)
    (same : ∀ metadata, .metadata metadata ∈ commands → given = some metadata) :
    ((commands.foldlM (Writer.handle storage) writer).run scripted).1.Filed
      ((commands.foldlM (Writer.handle storage) writer).run scripted).2.memory given
      (frames ++ commands.flatMap Recorder.commandFrames) := by
  induction commands generalizing writer scripted frames with
  | nil =>
      rw [List.flatMap_nil, List.append_nil]
      exact filed
  | cons command rest ih =>
      have first := filed.handle command fun metadata isFirst =>
        same metadata (isFirst ▸ List.mem_cons_self)
      have others := ih first fun metadata later =>
        same metadata (List.mem_cons_of_mem _ later)
      rw [List.append_assoc] at others
      exact others

end Filed

/-- The batch that some frames make, none without frames. -/
def batchOf (frames : List Frame) : List (List Tick) :=
  if frames = [] then [] else [frames.map (·.tick)]

theorem batchOf_cases (frames : List Frame) :
    (frames = [] ∧ batchOf frames = []) ∨
    (frames ≠ [] ∧ batchOf frames = [frames.map (·.tick)]) := by
  by_cases none : frames = []
  · exact .inl ⟨none, if_pos none⟩
  · exact .inr ⟨none, if_neg none⟩

theorem flatten_batchOf (frames : List Frame) :
    (batchOf frames).flatten = frames.map (·.tick) := by
  obtain ⟨none, same⟩ | ⟨-, same⟩ := batchOf_cases frames
  · rw [same, none]
    rfl
  · rw [same, List.flatten_singleton]

/-- The batches of some commands have the frames of the commands. -/
theorem flatten_batches (commands : List WriterCommand) :
    (commands.flatMap fun command => batchOf (Recorder.commandFrames command)).flatten =
      (commands.flatMap Recorder.commandFrames).map (·.tick) := by
  induction commands with
  | nil => rfl
  | cons command rest ih => simp [flatten_batchOf, ih]

/-- What the writer leaves when no call fails: nothing is retained, and the
memory has some more batches. -/
structure Empties
    (writer : Writer)
    (scripted : ScriptedMemory)
    (batches : List (List Tick))
    (after : Writer × ScriptedMemory) : Prop where
  faultless : after.2.Faultless
  working : after.2.memory.failing = 0
  retained : after.1.retained = []
  batches : after.2.memory.batches.toList =
    scripted.memory.batches.toList ++ batches

/-- Without faults the retained frames become one batch. -/
theorem empties_storeFrames
    (writer : Writer)
    (working : scripted.memory.failing = 0)
    (faultless : scripted.Faultless) :
    writer.Empties scripted (batchOf writer.retained)
      ((writer.storeFrames storage).run scripted) := by
  obtain ⟨after, run, some, memory, keeps⟩ | ⟨after, run, memory, keeps⟩ :=
    storeFrames_cases writer working
  · rw [run]
    rw [Memory.append_of_working working] at memory
    refine ⟨keeps faultless, by rw [memory]; exact working, rfl, ?_⟩
    rw [memory, batchOf, if_neg some]
    exact Log.toList_push _ _
  · obtain ⟨none, keeps⟩ := keeps faultless
    rw [run]
    refine ⟨keeps, memory ▸ working, none, ?_⟩
    rw [memory, batchOf, if_pos none, List.append_nil]

/-- Without faults a writer that knows the metadata record stores everything that
it retains. -/
theorem empties_store
    (writer : Writer)
    (working : scripted.memory.failing = 0)
    (faultless : scripted.Faultless)
    (known : writer.metadata = none → writer.retained = []) :
    writer.Empties scripted (batchOf writer.retained) ((writer.store storage).run scripted) := by
  obtain ⟨-, run⟩ | ⟨metadata, after, -, run, memory, keeps⟩ | ⟨after, run, memory, keeps⟩ :=
    store_cases writer scripted
  · rw [run]
    exact empties_storeFrames writer working faultless
  · rw [run]
    have stillWorking : after.memory.failing = 0 := by
      rw [memory]
      exact working
    have emptied := empties_storeFrames { writer with metadataStored := true } stillWorking
      (keeps faultless)
    exact { emptied with batches := by rw [emptied.batches, memory]; rfl }
  · obtain ⟨unknown, keeps⟩ := keeps faultless
    rw [run]
    refine ⟨keeps, memory ▸ working, known unknown, ?_⟩
    rw [memory, batchOf, if_pos (known unknown), List.append_nil]

/-- Without faults a writer that retains nothing stores the frames of a command
as one batch, if it knows the metadata record or the command has it. -/
theorem empties_handle
    (working : scripted.memory.failing = 0)
    (faultless : scripted.Faultless)
    (retained : writer.retained = [])
    (command : WriterCommand)
    (known : writer.metadata = none → ∃ metadata, command = .metadata metadata) :
    writer.Empties scripted (batchOf (Recorder.commandFrames command))
      ((writer.handle storage command).run scripted) := by
  cases command with
  | metadata metadata =>
      have emptied := empties_store { writer with metadata := some metadata } working faultless
        fun _ => retained
      exact { emptied with batches := emptied.batches.trans (by rw [retained]; rfl) }
  | append frames =>
      have emptied := empties_store { writer with retained := writer.retained ++ frames } working
        faultless fun unknown => by
          obtain ⟨metadata, isMetadata⟩ := known unknown
          cases isMetadata
      exact { emptied with batches := emptied.batches.trans (by rw [retained]; rfl) }

/-- Without faults a writer that retains nothing stores the frames of every
command as a batch of its own, if the metadata record comes first. -/
theorem empties_handleAll
    (working : scripted.memory.failing = 0)
    (faultless : scripted.Faultless)
    (retained : writer.retained = [])
    (commands : List WriterCommand)
    (known : writer.metadata = none →
      ∀ command ∈ commands.head?, ∃ metadata, command = .metadata metadata) :
    writer.Empties scripted
      (commands.flatMap fun command => batchOf (Recorder.commandFrames command))
      ((commands.foldlM (handle storage) writer).run scripted) := by
  induction commands generalizing writer scripted with
  | nil => exact ⟨faultless, working, retained, (List.append_nil _).symm⟩
  | cons command rest ih =>
      have knows : writer.metadata = none → ∃ metadata, command = .metadata metadata :=
        fun unknown => known unknown command rfl
      have emptied := empties_handle working faultless retained command knows
      have others := ih emptied.working emptied.faultless emptied.retained
        fun unknown => absurd unknown (known_handle working knows)
      refine { others with batches := ?_ }
      rw [List.flatMap_cons, ← List.append_assoc, ← emptied.batches]
      exact others.batches

end Writer
end Chronicle
