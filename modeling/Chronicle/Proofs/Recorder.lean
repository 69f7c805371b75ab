import Chronicle.Recorder

/-!
# What the recorder holds

A recorder that has its metadata record takes every frame that follows the last
one.  Passing on a batch changes nothing about what it holds.
-/

namespace Chronicle
namespace Recorder

/-- The metadata record that the recorder has passed on. -/
def metadata? (recorder : Recorder) : Option Recording.Metadata :=
  recorder.commands.toList.findSome? fun
    | .metadata metadata => some metadata
    | .append _ => none

/-- What the recorder holds so far: its metadata record and its frames, of which
it knows the last tick. -/
structure Holds
    (recorder : Recorder)
    (metadata : Recording.Metadata)
    (frames : List Recording.Frame) : Prop where
  metadataSet : recorder.metadataSet = true
  metadata : recorder.metadata? = some metadata
  lastTick : recorder.lastTick = frames.getLast?.map (·.tick)
  frames : recorder.frames = frames

/-- A tick follows the last one of a list of frames. -/
def Continues (frames : List Recording.Frame) (tick : Tick) : Prop :=
  ∀ last ∈ frames.getLast?, tick = last.tick + 1

theorem continues_iff {frames : List Recording.Frame} {tick : Tick} :
    Continues frames tick ↔ ∀ last ∈ frames.getLast?.map (·.tick), tick = last + 1 := by
  simp [Continues]

/-- A new recorder that was given its metadata record holds that and no
frames. -/
theorem holds_of_setMetadata
    {interval : UInt64}
    {metadata : Recording.Metadata}
    {recorder : Recorder}
    (set : (ofInterval interval).setMetadata metadata = .ok recorder) :
    recorder.Holds metadata [] := by
  obtain rfl := Except.ok.inj set
  exact ⟨rfl, rfl, rfl, rfl⟩

/-- Passing on the frames that wait: there are none, or they become a command. -/
theorem flush_cases (recorder : Recorder) :
    (recorder.buffer = ∅ ∧ recorder.flush = recorder) ∨
    (recorder.buffer.toList ≠ [] ∧
      recorder.flush = { recorder.send (.append recorder.buffer.toList) with buffer := ∅ }) := by
  unfold flush
  by_cases none : recorder.buffer.toList = []
  · exact .inl ⟨Log.ext_toList none, if_pos (by rw [Log.isEmpty_eq, none]; rfl)⟩
  · exact .inr ⟨none, if_neg (by rw [Log.isEmpty_eq]; simpa using none)⟩

/-- The frames that wait do not wait any more once they are passed on. -/
@[simp] theorem buffer_flush (recorder : Recorder) : recorder.flush.buffer = ∅ := by
  obtain ⟨none, same⟩ | ⟨-, passed⟩ := recorder.flush_cases
  · rw [same, none]
  · rw [passed]

@[simp] theorem interval_flush (recorder : Recorder) :
    recorder.flush.interval = recorder.interval := by
  obtain ⟨-, same⟩ | ⟨-, passed⟩ := recorder.flush_cases
  · rw [same]
  · rw [passed]
    rfl

/-- The metadata record is passed on, or refused because one has been set. -/
theorem setMetadata_cases (recorder : Recorder) (metadata : Recording.Metadata) :
    (recorder.metadataSet = false ∧
      recorder.setMetadata metadata =
        .ok { recorder.send (.metadata metadata) with metadataSet := true }) ∨
    (recorder.metadataSet = true ∧ ∃ refusal, recorder.setMetadata metadata = .error refusal) := by
  unfold setMetadata
  cases recorder.metadataSet with
  | false => exact .inl ⟨rfl, rfl⟩
  | true => exact .inr ⟨rfl, _, rfl⟩

/-- What is passed on to the writer counts as recorded before and after. -/
@[simp] theorem frames_flush (recorder : Recorder) : recorder.flush.frames = recorder.frames := by
  obtain ⟨-, same⟩ | ⟨-, passed⟩ := recorder.flush_cases
  · rw [same]
  · simp [passed, frames, send, commandFrames]

/-- Passing on a batch keeps what the recorder knows of its frames. -/
theorem Holds.flush
    {recorder : Recorder}
    {metadata : Recording.Metadata}
    {frames : List Recording.Frame}
    (holds : recorder.Holds metadata frames) :
    recorder.flush.Holds metadata frames := by
  have passedOn := recorder.frames_flush.trans holds.frames
  obtain ⟨-, same⟩ | ⟨-, passed⟩ := recorder.flush_cases
  · rw [same]
    exact holds
  rw [passed] at passedOn ⊢
  refine ⟨holds.metadataSet, ?_, holds.lastTick, passedOn⟩
  rw [← holds.metadata]
  simp [metadata?, send]

/-- The recorder with one more frame, before it looks whether a batch is
complete. -/
def taking (recorder : Recorder) (frame : Recording.Frame) : Recorder :=
  { recorder with
    lastTick := some frame.tick
    recorded := recorder.recorded + 1
    buffer := recorder.buffer.push frame }

/-- The recorder after it has looked whether a batch is complete. -/
def settled (recorder : Recorder) : Recorder :=
  if recorder.interval.toNat ≤ recorder.buffer.size then recorder.flush else recorder

/-- What a recorder makes of a frame, by its last tick. -/
theorem record_eq (recorder : Recorder) (frame : Recording.Frame) :
    recorder.record frame =
      if !recorder.metadataSet then .error (.metadataState "must be set before recording frames")
      else
        recorder.lastTick.elim (.ok (recorder.taking frame).settled) fun last =>
          if frame.tick = last + 1 then .ok (recorder.taking frame).settled
          else .error (.recordingGap last frame.tick) := by
  unfold record
  cases recorder.lastTick <;> rfl

/-- A frame is taken if the metadata record is there and the frame follows the
last one; otherwise it is refused. -/
theorem record_cases (recorder : Recorder) (frame : Recording.Frame) :
    (recorder.metadataSet = true ∧
      (∀ last ∈ recorder.lastTick, frame.tick = last + 1) ∧
      recorder.record frame = .ok (recorder.taking frame).settled) ∨
    ((recorder.metadataSet = false ∨ ∃ last ∈ recorder.lastTick, frame.tick ≠ last + 1) ∧
      ∃ refusal, recorder.record frame = .error refusal) := by
  rw [record_eq]
  by_cases metadataSet : recorder.metadataSet = true
  · rw [if_neg (by simp [metadataSet])]
    cases recorder.lastTick with
    | none =>
        refine .inl ⟨metadataSet, fun last isLast => ?_, rfl⟩
        cases isLast
    | some last =>
        by_cases follows : frame.tick = last + 1
        · refine .inl ⟨metadataSet, fun other isLast => ?_, if_pos follows⟩
          rwa [← Option.mem_some_iff.mp isLast]
        · exact .inr ⟨.inr ⟨last, rfl, follows⟩, _, if_neg follows⟩
  · rw [if_pos (by simp [metadataSet])]
    exact .inr ⟨.inl (eq_false_of_ne_true metadataSet), _, rfl⟩

/-- Looking whether a batch is complete keeps what the recorder holds. -/
theorem Holds.settled
    {recorder : Recorder}
    {metadata : Recording.Metadata}
    {frames : List Recording.Frame}
    (holds : recorder.Holds metadata frames) :
    recorder.settled.Holds metadata frames := by
  unfold Recorder.settled
  split
  · exact holds.flush
  · exact holds

/-- A frame that follows the last one is taken. -/
theorem Holds.record
    {recorder : Recorder}
    {metadata : Recording.Metadata}
    {frames : List Recording.Frame}
    (holds : recorder.Holds metadata frames)
    (frame : Recording.Frame)
    (continues : Continues frames frame.tick) :
    ∃ after, recorder.record frame = .ok after ∧ after.Holds metadata (frames ++ [frame]) := by
  obtain ⟨-, -, taken⟩ | ⟨refused, -⟩ := recorder.record_cases frame
  · refine ⟨_, taken, Holds.settled ?_⟩
    exact
      { metadataSet := holds.metadataSet
        metadata := holds.metadata
        frames := by
          simp only [taking, Recorder.frames, Log.toList_push]
          rw [← List.append_assoc]
          exact congrArg (· ++ [frame]) holds.frames
        lastTick := by simp [taking] }
  · obtain unset | ⟨last, isLast, differs⟩ := refused
    · rw [holds.metadataSet] at unset
      cases unset
    · rw [holds.lastTick] at isLast
      exact absurd (continues_iff.mp continues last isLast) differs

end Recorder
end Chronicle
