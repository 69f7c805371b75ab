import Chronicle.Proofs.Recorder
import Chronicle.Proofs.Writer

/-!
# From the recorder to the storage

The calls of a recorder and the steps of its writer interleave in any way, and
any call of the storage may fail.  The storage then holds the first of the
recorded frames, each of them once, and closing the recorder accounts for all.
-/

namespace Chronicle

open Recording (Frame Metadata)

/-- A list is cut into chunks of one size, of which only the last may be
shorter. -/
structure InChunks {α : Type} (size : Nat) (chunks : List (List α)) (whole : List α) : Prop where
  flatten : chunks.flatten = whole
  full : ∀ chunk ∈ chunks.dropLast, chunk.length = size
  last : ∀ chunk ∈ chunks.getLast?, 0 < chunk.length ∧ chunk.length ≤ size

/-- Full chunks and a shorter rest, if there is a rest. -/
theorem InChunks.of_append
    {α : Type}
    {size : Nat}
    (positive : 0 < size)
    {chunks rest : List (List α)}
    (full : ∀ chunk ∈ chunks, chunk.length = size)
    (shorter : rest = [] ∨ ∃ chunk, rest = [chunk] ∧ 0 < chunk.length ∧ chunk.length < size) :
    InChunks size (chunks ++ rest) (chunks ++ rest).flatten := by
  obtain rfl | ⟨chunk, rfl, some, short⟩ := shorter
  · rw [List.append_nil]
    refine ⟨rfl, fun chunk early => full chunk (List.dropLast_subset _ early), ?_⟩
    intro chunk isLast
    rw [full chunk (List.mem_of_getLast? isLast)]
    exact ⟨positive, Nat.le_refl size⟩
  · refine ⟨rfl, fun other early => full other ?_, fun other isLast => ?_⟩
    · rwa [List.dropLast_concat] at early
    · rw [List.getLast?_concat, Option.mem_some_iff] at isLast
      exact isLast ▸ ⟨some, Nat.le_of_lt short⟩

/-- A call of the recorder, or the writer taking the oldest command. -/
inductive Delivery.Move where
  | setMetadata (metadata : Metadata)
  | record (frame : Frame)
  | flush
  | write

/-- The metadata record that a move is to pass on. -/
def Delivery.Move.metadata? : Move → Option Metadata
  | .setMetadata metadata => some metadata
  | _ => none

@[simp] theorem Delivery.Move.metadata?_record (frame : Frame) :
    (record frame).metadata? = none := rfl

@[simp] theorem Delivery.Move.metadata?_flush : flush.metadata? = none := rfl

@[simp] theorem Delivery.Move.metadata?_write : write.metadata? = none := rfl

/-- A recorder, its writer, and the storage behind it. -/
structure Delivery where
  recorder : Recorder
  writer : Writer := {}
  storage : ScriptedMemory

namespace Delivery

/-- A new recorder, with a storage that fails as a script says. -/
def start (interval : UInt64) (metadataFaults appendFaults : List Bool) : Delivery where
  recorder := .ofInterval interval
  storage := { metadataFaults, appendFaults }

/-- The writer takes the oldest command, if there is one. -/
def write (delivery : Delivery) : Delivery :=
  match delivery.recorder.commands.toList with
  | [] => delivery
  | command :: rest =>
      let outcome := (delivery.writer.handle ScriptedMemory.storage command).run delivery.storage
      { recorder := { delivery.recorder with commands := Log.append ∅ rest }
        writer := outcome.1
        storage := outcome.2 }

/-- What a move leads to.  A call that is refused changes nothing. -/
def after (delivery : Delivery) : Move → Delivery
  | .setMetadata metadata =>
      match delivery.recorder.setMetadata metadata with
      | .ok recorder => { delivery with recorder }
      | .error _ => delivery
  | .record frame =>
      match delivery.recorder.record frame with
      | .ok recorder => { delivery with recorder }
      | .error _ => delivery
  | .flush => { delivery with recorder := delivery.recorder.flush }
  | .write => delivery.write

@[simp] theorem after_flush (delivery : Delivery) :
    delivery.after .flush = { delivery with recorder := delivery.recorder.flush } := rfl

@[simp] theorem after_write (delivery : Delivery) : delivery.after .write = delivery.write := rfl

/-- What a sequence of moves leads to. -/
def run (delivery : Delivery) (moves : List Move) : Delivery := moves.foldl after delivery

/-- The frame that a move records, if it does. -/
def accepts (delivery : Delivery) : Move → List Frame
  | .record frame =>
      match delivery.recorder.record frame with
      | .ok _ => [frame]
      | .error _ => []
  | _ => []

@[simp] theorem accepts_setMetadata (delivery : Delivery) (metadata : Metadata) :
    delivery.accepts (.setMetadata metadata) = [] := rfl

@[simp] theorem accepts_flush (delivery : Delivery) : delivery.accepts .flush = [] := rfl

@[simp] theorem accepts_write (delivery : Delivery) : delivery.accepts .write = [] := rfl

/-- The frames that a sequence of moves records. -/
def recorded (delivery : Delivery) : List Move → List Frame
  | [] => []
  | move :: moves => delivery.accepts move ++ (delivery.after move).recorded moves

/-- The recorder is closed: what is reported, and the storage that is left. -/
def close (delivery : Delivery) : FlushReport × ScriptedMemory :=
  (delivery.recorder.close ScriptedMemory.storage delivery.writer).run delivery.storage

variable {delivery : Delivery} {given : Option Metadata} {frames : List Frame}

/-- The recorder, its writer and the storage have, together and in this order,
the frames that were recorded, where `given` is the metadata record. -/
structure Keeps (delivery : Delivery) (given : Option Metadata) (frames : List Frame) : Prop where
  filed : ∃ taken, delivery.writer.Filed delivery.storage.memory given taken ∧
    taken ++ delivery.recorder.frames = frames
  recorded : delivery.recorder.recorded = frames.length
  lastTick : delivery.recorder.lastTick = frames.getLast?.map (·.tick)
  metadataSet : delivery.recorder.metadataSet = given.isSome
  sent : ∀ metadata, .metadata metadata ∈ delivery.recorder.commands.toList →
    given = some metadata
  unset : given = none → delivery.recorder.commands = ∅ ∧ delivery.recorder.buffer = ∅
  ahead : given ≠ none → delivery.writer.metadata = none →
    ∃ metadata, delivery.recorder.commands.toList.head? = some (.metadata metadata)

namespace Keeps

theorem start (interval : UInt64) (metadataFaults appendFaults : List Bool) :
    (Delivery.start interval metadataFaults appendFaults).Keeps none [] where
  filed := ⟨[], Writer.filed_empty, rfl⟩
  recorded := rfl
  lastTick := rfl
  metadataSet := rfl
  sent := fun _ isSent => absurd isSent List.not_mem_nil
  unset := fun _ => ⟨rfl, rfl⟩
  ahead := fun isSet => absurd rfl isSet

/-- A writer that does not know the metadata record takes it before anything
else. -/
theorem first
    (keeps : delivery.Keeps given frames)
    (unknown : delivery.writer.metadata = none) :
    ∀ command ∈ delivery.recorder.commands.toList.head?,
      ∃ metadata, command = .metadata metadata := by
  intro command isFirst
  cases given with
  | none =>
      rw [(keeps.unset rfl).1] at isFirst
      cases isFirst
  | some given =>
      obtain ⟨metadata, ahead⟩ := keeps.ahead (Option.some_ne_none given) unknown
      rw [ahead, Option.mem_some_iff] at isFirst
      exact ⟨metadata, isFirst.symm⟩

/-- Passing on a batch loses nothing. -/
theorem flush (keeps : delivery.Keeps given frames) :
    ({ delivery with recorder := delivery.recorder.flush } : Delivery).Keeps given frames := by
  obtain ⟨-, same⟩ | ⟨waiting, passed⟩ := delivery.recorder.flush_cases
  · rw [same]
    exact keeps
  have holds := delivery.recorder.frames_flush
  rw [passed] at holds ⊢
  exact
    { filed := by
        obtain ⟨taken, filed, all⟩ := keeps.filed
        exact ⟨taken, filed, by rw [holds]; exact all⟩
      recorded := keeps.recorded
      lastTick := keeps.lastTick
      metadataSet := keeps.metadataSet
      sent := fun metadata isSent => by
        refine keeps.sent metadata ?_
        simpa [Recorder.send] using isSent
      unset := fun missing => by
        rw [(keeps.unset missing).2] at waiting
        exact absurd rfl waiting
      ahead := fun isSet unknown => by
        obtain ⟨metadata, first⟩ := keeps.ahead isSet unknown
        refine ⟨metadata, ?_⟩
        simp [Recorder.send, first] }

/-- A frame that the recorder takes is the last of those that are kept. -/
theorem taking
    (keeps : delivery.Keeps given frames)
    (isSet : delivery.recorder.metadataSet = true)
    (frame : Frame) :
    ({ delivery with recorder := delivery.recorder.taking frame } : Delivery).Keeps given
      (frames ++ [frame]) where
  filed := by
    obtain ⟨taken, filed, all⟩ := keeps.filed
    refine ⟨taken, filed, ?_⟩
    simp only [Recorder.taking, Recorder.frames, Log.toList_push, ← all, List.append_assoc]
  recorded := by simp [Recorder.taking, keeps.recorded]
  lastTick := by simp [Recorder.taking]
  metadataSet := keeps.metadataSet
  sent := keeps.sent
  unset := fun missing => by
    rw [keeps.metadataSet, missing] at isSet
    cases isSet
  ahead := keeps.ahead

/-- Looking whether a batch is complete loses nothing. -/
theorem settled (keeps : delivery.Keeps given frames) :
    ({ delivery with recorder := delivery.recorder.settled } : Delivery).Keeps given frames := by
  unfold Recorder.settled
  split
  · exact keeps.flush
  · exact keeps

/-- The writer taking a command loses nothing. -/
theorem write (keeps : delivery.Keeps given frames) : delivery.write.Keeps given frames := by
  unfold Delivery.write
  cases waiting : delivery.recorder.commands.toList with
  | nil => exact keeps
  | cons command rest =>
      obtain ⟨taken, filed, all⟩ := keeps.filed
      exact
        { filed := by
            refine ⟨_, filed.handle command fun metadata isFirst => ?_, ?_⟩
            · exact keeps.sent metadata (by rw [waiting, isFirst]; exact List.mem_cons_self)
            · rw [← all]
              simp [Recorder.frames, waiting]
          recorded := keeps.recorded
          lastTick := keeps.lastTick
          metadataSet := keeps.metadataSet
          sent := fun metadata isSent => by
            refine keeps.sent metadata ?_
            rw [waiting]
            exact List.mem_cons_of_mem _ (by simpa using isSent)
          unset := fun missing => by
            rw [(keeps.unset missing).1] at waiting
            cases waiting
          ahead := fun isSet unknown => by
            refine absurd unknown (Writer.known_handle filed.working fun before => ?_)
            exact keeps.first before command (by rw [waiting]; rfl) }

/-- The metadata record that the recorder takes is the one that is kept. -/
theorem setMetadata (keeps : delivery.Keeps none frames) (metadata : Metadata) :
    ({ delivery with
        recorder := { delivery.recorder.send (.metadata metadata) with metadataSet := true } } :
      Delivery).Keeps (some metadata) frames where
  filed := by
    obtain ⟨taken, filed, all⟩ := keeps.filed
    refine ⟨taken, { filed with known := ?_, same := ?_ }, ?_⟩
    · intro other isOther
      cases filed.known other isOther
    · intro other isOther
      cases filed.same other isOther
    · rw [← all]
      simp [Recorder.frames, Recorder.send, Recorder.commandFrames]
  recorded := keeps.recorded
  lastTick := keeps.lastTick
  metadataSet := rfl
  sent := fun other isSent => by
    have first : WriterCommand.metadata other = .metadata metadata := by
      simpa [Recorder.send, (keeps.unset rfl).1] using isSent
    cases first
    rfl
  unset := fun missing => by cases missing
  ahead := fun _ _ => ⟨metadata, by simp [Recorder.send, (keeps.unset rfl).1]⟩

/-- Every move keeps the recorded frames, and the one that it may record. -/
theorem after (keeps : delivery.Keeps given frames) (move : Move) :
    (delivery.after move).Keeps (given.or move.metadata?) (frames ++ delivery.accepts move) := by
  cases move with
  | setMetadata metadata =>
      rw [accepts_setMetadata, List.append_nil]
      obtain ⟨unset, taken⟩ | ⟨isSet, refusal, refused⟩ :=
        delivery.recorder.setMetadata_cases metadata
      · rw [keeps.metadataSet, Option.isSome_eq_false_iff, Option.isNone_iff_eq_none] at unset
        subst unset
        simp only [Delivery.after, taken]
        exact keeps.setMetadata metadata
      · obtain ⟨first, rfl⟩ := Option.isSome_iff_exists.mp (keeps.metadataSet.symm.trans isSet)
        simp only [Delivery.after, refused]
        exact keeps
  | record frame =>
      rw [Move.metadata?_record, Option.or_none]
      obtain ⟨isSet, -, taken⟩ | ⟨-, refusal, refused⟩ := delivery.recorder.record_cases frame
      · simp only [Delivery.after, accepts, taken]
        exact (keeps.taking isSet frame).settled
      · simp only [Delivery.after, accepts, refused, List.append_nil]
        exact keeps
  | flush => simpa using keeps.flush
  | write => simpa using keeps.write

/-- Every sequence of moves keeps the recorded frames, and those that it
records. -/
theorem run (keeps : delivery.Keeps given frames) (moves : List Move) :
    (delivery.run moves).Keeps (given.or (moves.findSome? Move.metadata?))
      (frames ++ delivery.recorded moves) := by
  induction moves generalizing delivery given frames with
  | nil =>
      rw [List.findSome?_nil, Option.or_none, Delivery.recorded, List.append_nil]
      exact keeps
  | cons move moves ih =>
      have others := ih (keeps.after move)
      rw [List.append_assoc, Option.or_assoc] at others
      have first : (move :: moves).findSome? Move.metadata? =
          move.metadata?.or (moves.findSome? Move.metadata?) := by
        rw [List.findSome?_cons]
        cases move.metadata? <;> rfl
      rw [first]
      exact others

end Keeps

/-- Batches have a size, and fewer frames than that wait for theirs. -/
structure Waits (delivery : Delivery) (size : Nat) : Prop where
  interval : delivery.recorder.interval.toNat = size
  buffer : delivery.recorder.buffer.size < size

namespace Waits

variable {size : Nat}

theorem start (interval : UInt64) (metadataFaults appendFaults : List Bool) :
    (Delivery.start interval metadataFaults appendFaults).Waits (max interval 1).toNat where
  interval := rfl
  buffer := by
    change 0 < (if interval ≤ 1 then 1 else interval).toNat
    split
    · decide
    · next more =>
        rw [UInt64.le_iff_toNat_le] at more
        exact Nat.zero_lt_of_lt (Nat.lt_of_not_le more)

/-- Passing on the frames that wait leaves none. -/
theorem flush
    (waits : delivery.Waits size)
    {recorder : Recorder}
    (same : recorder.interval = delivery.recorder.interval) :
    ({ delivery with recorder := recorder.flush } : Delivery).Waits size where
  interval := by rw [Recorder.interval_flush, same, waits.interval]
  buffer := by
    rw [Recorder.buffer_flush]
    exact Nat.zero_lt_of_lt waits.buffer

/-- After every move fewer frames wait than a batch has. -/
theorem after (waits : delivery.Waits size) (move : Move) : (delivery.after move).Waits size := by
  cases move with
  | setMetadata metadata =>
      obtain ⟨-, taken⟩ | ⟨-, refusal, refused⟩ := delivery.recorder.setMetadata_cases metadata
      · simp only [Delivery.after, taken]
        exact ⟨waits.interval, waits.buffer⟩
      · simp only [Delivery.after, refused]
        exact waits
  | record frame =>
      obtain ⟨-, -, taken⟩ | ⟨-, refusal, refused⟩ := delivery.recorder.record_cases frame
      · simp only [Delivery.after, taken, Recorder.settled]
        split
        · exact waits.flush rfl
        · next incomplete =>
            refine ⟨waits.interval, ?_⟩
            rw [← waits.interval]
            exact Nat.lt_of_not_le incomplete
      · simp only [Delivery.after, refused]
        exact waits
  | flush => exact waits.flush rfl
  | write =>
      rw [after_write]
      unfold Delivery.write
      split
      · exact waits
      · exact ⟨waits.interval, waits.buffer⟩

theorem run (waits : delivery.Waits size) (moves : List Move) :
    (delivery.run moves).Waits size := by
  induction moves generalizing delivery with
  | nil => exact waits
  | cons move moves ih => exact ih (waits.after move)

end Waits

/-- The batches that were appended, and those that the writer has been asked
for. -/
def batches (delivery : Delivery) : List (List Tick) :=
  delivery.storage.memory.batches.toList ++
    delivery.recorder.commands.toList.flatMap
      fun command => Writer.batchOf (Recorder.commandFrames command)

/-- The frames that wait become the last batch when they are passed on. -/
theorem batches_flush (delivery : Delivery) :
    ({ delivery with recorder := delivery.recorder.flush } : Delivery).batches =
      delivery.batches ++ Writer.batchOf delivery.recorder.buffer.toList := by
  obtain ⟨none, same⟩ | ⟨-, passed⟩ := delivery.recorder.flush_cases
  · rw [same, none]
    exact (List.append_nil _).symm
  · simp [passed, batches, Recorder.send, Recorder.commandFrames]

/-- Nothing has failed, and all batches so far are complete. -/
structure Regular (delivery : Delivery) (size : Nat) : Prop where
  faultless : delivery.storage.Faultless
  retained : delivery.writer.retained = []
  full : ∀ batch ∈ delivery.batches, batch.length = size

namespace Regular

variable {size : Nat}

theorem start
    {interval : UInt64}
    {metadataFaults appendFaults : List Bool}
    (faultless : (Delivery.start interval metadataFaults appendFaults).storage.Faultless) :
    (Delivery.start interval metadataFaults appendFaults).Regular size where
  faultless := faultless
  retained := rfl
  full := fun _ isBatch => absurd isBatch List.not_mem_nil

/-- A batch that a frame completes has its size. -/
theorem record
    (regular : delivery.Regular size)
    (waits : delivery.Waits size)
    (frame : Frame) :
    ({ delivery with recorder := (delivery.recorder.taking frame).settled } : Delivery).Regular
      size := by
  unfold Recorder.settled
  split
  · next complete =>
      refine ⟨regular.faultless, regular.retained, fun batch isBatch => ?_⟩
      have passed := batches_flush { delivery with recorder := delivery.recorder.taking frame }
      have size : ((delivery.recorder.taking frame).buffer.toList.map (·.tick)).length = size := by
        rw [List.length_map, ← Log.size_eq_length]
        exact Nat.le_antisymm waits.buffer (waits.interval ▸ complete)
      rw [passed, List.mem_append] at isBatch
      obtain before | isLast := isBatch
      · exact regular.full batch before
      obtain ⟨-, none⟩ | ⟨-, last⟩ :=
        Writer.batchOf_cases (delivery.recorder.taking frame).buffer.toList
      · rw [none] at isLast
        exact absurd isLast List.not_mem_nil
      · rw [last, List.mem_singleton] at isLast
        rw [isLast, size]
  · exact ⟨regular.faultless, regular.retained, regular.full⟩

/-- Without faults the writer stores the batches that it is asked for. -/
theorem write
    (regular : delivery.Regular size)
    (keeps : delivery.Keeps given frames) :
    delivery.write.Regular size := by
  unfold Delivery.write
  cases waiting : delivery.recorder.commands.toList with
  | nil => exact regular
  | cons command rest =>
      obtain ⟨taken, filed, -⟩ := keeps.filed
      have emptied :=
        Writer.empties_handle filed.working regular.faultless regular.retained command
          fun unknown => keeps.first unknown command (by rw [waiting]; rfl)
      refine ⟨emptied.faultless, emptied.retained, fun batch isBatch => ?_⟩
      refine regular.full batch ?_
      rw [batches, waiting, List.flatMap_cons, ← List.append_assoc]
      rw [batches, emptied.batches] at isBatch
      simpa using isBatch

/-- Without faults, and unless it is asked for one, every batch is complete. -/
theorem after
    (regular : delivery.Regular size)
    (waits : delivery.Waits size)
    (keeps : delivery.Keeps given frames)
    {move : Move}
    (notFlush : move ≠ .flush) :
    (delivery.after move).Regular size := by
  cases move with
  | setMetadata metadata =>
      obtain ⟨-, taken⟩ | ⟨-, refusal, refused⟩ := delivery.recorder.setMetadata_cases metadata
      · simp only [Delivery.after, taken]
        refine ⟨regular.faultless, regular.retained, fun batch isBatch => ?_⟩
        refine regular.full batch ?_
        simpa [batches, Recorder.send, Recorder.commandFrames, Writer.batchOf] using isBatch
      · simp only [Delivery.after, refused]
        exact regular
  | record frame =>
      obtain ⟨-, -, taken⟩ | ⟨-, refusal, refused⟩ := delivery.recorder.record_cases frame
      · simp only [Delivery.after, taken]
        exact regular.record waits frame
      · simp only [Delivery.after, refused]
        exact regular
  | flush => exact absurd rfl notFlush
  | write => exact regular.write keeps

theorem run
    (regular : delivery.Regular size)
    (waits : delivery.Waits size)
    (keeps : delivery.Keeps given frames)
    {moves : List Move}
    (noFlush : .flush ∉ moves) :
    (delivery.run moves).Regular size := by
  induction moves generalizing delivery given frames with
  | nil => exact regular
  | cons move moves ih =>
      obtain ⟨notFlush, noFlush⟩ := List.ne_and_not_mem_of_not_mem_cons noFlush
      exact ih (regular.after waits keeps notFlush.symm) (waits.after move) (keeps.after move)
        noFlush

end Regular

/-- What holds at every moment: the storage has the first of the recorded frames,
and none before the metadata record, which is the first one that was set. -/
structure Durable
    (delivery : Delivery)
    (size : Nat)
    (given : Option Metadata)
    (frames : List Frame) : Prop where
  stored : delivery.storage.memory.frames.toList <+: frames
  metadataFirst : delivery.storage.memory.metadata = none →
    delivery.storage.memory.frames.toList = []
  metadata : ∀ metadata ∈ delivery.storage.memory.metadata, given = some metadata
  recorded : delivery.recorder.recorded = frames.length
  waiting : delivery.recorder.buffer.size < size

/-- Which calls are taken: the first metadata record, and after it every frame
that follows the last one.  All others change nothing. -/
structure Refuses
    (delivery : Delivery)
    (given : Option Metadata)
    (frames : List Frame) : Prop where
  metadata : given ≠ none → ∀ metadata, delivery.after (.setMetadata metadata) = delivery
  takes : ∀ frame, given ≠ none ∧ Recorder.Continues frames frame.tick →
    delivery.accepts (.record frame) = [frame]
  frame : ∀ frame, ¬(given ≠ none ∧ Recorder.Continues frames frame.tick) →
    delivery.accepts (.record frame) = [] ∧ delivery.after (.record frame) = delivery

/-- What closing comes to: the storage has as many of the first recorded frames
as are reported as written, and the others are reported as pending. -/
structure Accounts
    (delivery : Delivery)
    (given : Option Metadata)
    (frames : List Frame) : Prop where
  stored : delivery.close.2.memory.frames.toList = frames.take delivery.close.1.written
  total : delivery.close.1.written + delivery.close.1.pending = delivery.recorder.recorded
  flushes : delivery.close.1.flushes = delivery.close.2.memory.flushes
  batches : delivery.close.2.memory.batches.toList.flatten =
    delivery.close.2.memory.frames.toList.map (·.tick)
  metadataFirst : delivery.close.2.memory.metadata = none →
    delivery.close.2.memory.frames.toList = []
  metadata : ∀ metadata ∈ delivery.close.2.memory.metadata, given = some metadata

/-- The storage has a prefix of what is kept. -/
theorem Keeps.durable
    (keeps : delivery.Keeps given frames)
    {size : Nat}
    (waits : delivery.Waits size) :
    delivery.Durable size given frames := by
  obtain ⟨taken, filed, all⟩ := keeps.filed
  refine ⟨?_, filed.metadataFirst, filed.same, keeps.recorded, waits.buffer⟩
  rw [← all, ← filed.frames, List.append_assoc]
  exact List.prefix_append _ _

/-- A frame is taken exactly after the metadata record and after the last
frame. -/
theorem Keeps.record_cases (keeps : delivery.Keeps given frames) (frame : Frame) :
    ((given ≠ none ∧ Recorder.Continues frames frame.tick) ∧
      ∃ after, delivery.recorder.record frame = .ok after) ∨
    (¬(given ≠ none ∧ Recorder.Continues frames frame.tick) ∧
      ∃ refusal, delivery.recorder.record frame = .error refusal) := by
  rw [Recorder.continues_iff, ← keeps.lastTick, ← Option.isSome_iff_ne_none, ← keeps.metadataSet]
  obtain ⟨isSet, continues, taken⟩ | ⟨why, refused⟩ := delivery.recorder.record_cases frame
  · exact .inl ⟨⟨isSet, continues⟩, _, taken⟩
  · refine .inr ⟨?_, refused⟩
    rintro ⟨isSet, continues⟩
    obtain unset | ⟨last, isLast, differs⟩ := why
    · rw [unset] at isSet
      cases isSet
    · exact differs (continues last isLast)

/-- A call is refused unless it is the next one. -/
theorem Keeps.refuses (keeps : delivery.Keeps given frames) : delivery.Refuses given frames where
  metadata := fun isSet metadata => by
    obtain ⟨unset, -⟩ | ⟨-, refusal, refused⟩ := delivery.recorder.setMetadata_cases metadata
    · rw [keeps.metadataSet, Option.isSome_eq_false_iff, Option.isNone_iff_eq_none] at unset
      exact absurd unset isSet
    · simp only [Delivery.after, refused]
  takes := fun frame isNext => by
    obtain ⟨-, after, taken⟩ | ⟨notNext, -⟩ := keeps.record_cases frame
    · simp only [accepts, taken]
    · exact absurd isNext notNext
  frame := fun frame notNext => by
    obtain ⟨isNext, -⟩ | ⟨-, refusal, refused⟩ := keeps.record_cases frame
    · exact absurd isNext notNext
    · simp only [accepts, Delivery.after, refused, and_self]

/-- Closing accounts for everything that is kept. -/
theorem Keeps.accounts (keeps : delivery.Keeps given frames) :
    delivery.Accounts given frames := by
  obtain ⟨taken, filed, all⟩ := keeps.flush.filed
  have closed := (filed.handleAll delivery.recorder.flush.commands.toList keeps.flush.sent).store
  have nothingWaits : delivery.recorder.flush.frames =
      delivery.recorder.flush.commands.toList.flatMap Recorder.commandFrames := by
    simp [Recorder.frames]
  rw [← nothingWaits, all] at closed
  exact
    { stored := closed.stored_eq_take
      total := closed.written_add_retained.trans keeps.recorded.symm
      flushes := closed.flushes
      batches := closed.batches
      metadataFirst := closed.metadataFirst
      metadata := closed.same }

/-- Without faults closing adds the frames that wait as the last batch. -/
theorem Regular.batches_close
    {size : Nat}
    (regular : delivery.Regular size)
    (keeps : delivery.Keeps given frames) :
    delivery.close.2.memory.batches.toList =
      delivery.batches ++ Writer.batchOf delivery.recorder.buffer.toList := by
  obtain ⟨taken, filed, -⟩ := keeps.filed
  have handled := Writer.empties_handleAll filed.working regular.faultless regular.retained
    delivery.recorder.flush.commands.toList keeps.flush.first
  have stored := Writer.empties_store _ handled.working handled.faultless fun _ => handled.retained
  have same := stored.batches
  rw [handled.retained, handled.batches] at same
  rw [← batches_flush]
  exact same.trans (List.append_nil _)

/-- Without faults, and unless it is asked for one, the batches of a closed
recording are the chunks of the recorded frames. -/
theorem Regular.inChunks
    {size : Nat}
    (regular : delivery.Regular size)
    (waits : delivery.Waits size)
    (keeps : delivery.Keeps given frames) :
    InChunks size delivery.close.2.memory.batches.toList (frames.map (·.tick)) := by
  obtain ⟨taken, filed, all⟩ := keeps.filed
  have nothingRetained := filed.frames
  rw [regular.retained, List.append_nil] at nothingRetained
  have whole : (delivery.batches ++ Writer.batchOf delivery.recorder.buffer.toList).flatten =
      frames.map (·.tick) := by
    rw [← all, ← nothingRetained]
    simp [batches, Recorder.frames, filed.batches, Writer.flatten_batchOf, Writer.flatten_batches]
  rw [regular.batches_close keeps, ← whole]
  refine InChunks.of_append (Nat.zero_lt_of_lt waits.buffer) regular.full ?_
  obtain ⟨-, none⟩ | ⟨some, last⟩ := Writer.batchOf_cases delivery.recorder.buffer.toList
  · exact .inl none
  · refine .inr ⟨_, last, ?_⟩
    rw [List.length_map]
    refine ⟨List.length_pos_iff.mpr some, ?_⟩
    rw [← Log.size_eq_length]
    exact waits.buffer

/-- For every size of the batches, every pattern of failing calls of the storage and every
interleaving of the calls of a recorder with its writer: at every moment the storage has the
first of the recorded frames, each of them once and in order, and nothing before the
metadata record.  Calls out of order change nothing.  When the recorder is closed the
storage has as many frames as are reported, and the others are reported as pending.  If no
call of the storage fails and no batch is asked for, the batches are the chunks of the
recorded frames. -/
theorem stores_durable_prefix
    (interval : UInt64)
    (metadataFaults appendFaults : List Bool)
    (moves : List Move) :
    let begun := start interval metadataFaults appendFaults
    let delivery := begun.run moves
    let size := (max interval 1).toNat
    let given := moves.findSome? Move.metadata?
    let frames := begun.recorded moves
    delivery.Durable size given frames ∧
    delivery.Refuses given frames ∧
    delivery.Accounts given frames ∧
    (begun.storage.Faultless → .flush ∉ moves →
      InChunks size delivery.close.2.memory.batches.toList (frames.map (·.tick))) := by
  intro begun delivery size given frames
  have keeps : delivery.Keeps given frames :=
    (Keeps.start interval metadataFaults appendFaults).run moves
  have waits : delivery.Waits size := (Waits.start interval metadataFaults appendFaults).run moves
  refine ⟨keeps.durable waits, keeps.refuses, keeps.accounts, fun faultless noFlush => ?_⟩
  have regular : delivery.Regular size :=
    (Regular.start faultless).run (Waits.start interval metadataFaults appendFaults)
      (Keeps.start interval metadataFaults appendFaults) noFlush
  exact regular.inChunks waits keeps

/-- Three frames in batches of two, on a storage that never fails: the last batch has
one frame. -/
theorem stores_durable_prefix_of_three_frames :
    let frame (tick : Tick) : Frame := { (default : Frame) with tick }
    let moves : List Move :=
      [.setMetadata default, .record (frame 0), .record (frame 1), .write, .record (frame 2)]
    (start 2 [] []).storage.Faultless ∧ .flush ∉ moves ∧
      InChunks 2 ((start 2 [] []).run moves).close.2.memory.batches.toList [0, 1, 2] := by
  intro frame moves
  have faultless : (start 2 [] []).storage.Faultless :=
    ⟨List.forall_mem_nil _, List.forall_mem_nil _⟩
  have noFlush : .flush ∉ moves := by simp [moves]
  have size : (max (2 : UInt64) 1).toNat = 2 := by decide
  have ticks : ((start 2 [] []).recorded moves).map (·.tick) = [0, 1, 2] := by decide +kernel
  obtain ⟨-, -, -, chunks⟩ := stores_durable_prefix 2 [] [] moves
  rw [size, ticks] at chunks
  exact ⟨faultless, noFlush, chunks faultless noFlush⟩

/-- The append of the first batch fails, and its frame is stored with the next one. -/
example :
    let frame (tick : Tick) : Frame := { (default : Frame) with tick }
    let delivery := (start 1 [] [true]).run
      [.setMetadata default, .record (frame 0), .write, .write, .record (frame 1)]
    delivery.storage.memory.batches.toList = [] ∧
      delivery.close.2.memory.batches.toList = [[0, 1]] ∧
      delivery.close.1 = ⟨1, 2, 0⟩ := by
  decide +kernel

end Delivery
end Chronicle
