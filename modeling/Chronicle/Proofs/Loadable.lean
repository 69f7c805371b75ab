import Chronicle.Proofs.Replay

/-!
# Loading what a live land has recorded

Whatever is done to a live land, also after a fatal error, its frames number the
ticks without a gap.  So the only thing that can be wrong with its recording is
the target of an event, and the only target without a readable record is an
empty list of players.
-/

namespace Chronicle

open Recording (Frame Metadata ServerEvent)

/-- The record of a target is readable, or it is that of an empty list of
players. -/
theorem Target.toTarget_toRecord_cases (target : Target) :
    target.toRecord ≠ ⟨.players, []⟩ ∧ target.toRecord.toTarget = .ok target ∨
      target.toRecord = ⟨.players, []⟩ ∧ target.toRecord.toTarget = .error ⟨.players, 0⟩ := by
  by_cases empty : target.toRecord = ⟨.players, []⟩
  · exact .inr ⟨empty, by rw [empty]; rfl⟩
  · exact .inl ⟨empty, Target.toTarget_toRecord empty⟩

/-- A server event whose target is the record of one. -/
def Recording.ServerEvent.Published (event : ServerEvent) : Prop :=
  ∃ target : Target, event.target = target.toRecord

namespace Recording

/-- Frames with published events are valid exactly if none of the events goes to
an empty list of players. -/
theorem validate_of_published
    (recording : Recording)
    (onward : Onward recording.frames)
    (published : ∀ frame ∈ recording.frames, ∀ event ∈ frame.serverEvents, event.Published) :
    (recording.validate = .ok () ∧
      ∀ frame ∈ recording.frames, ∀ event ∈ frame.serverEvents, event.target ≠ ⟨.players, []⟩) ∨
    ∃ frame ∈ recording.frames, ∃ event ∈ frame.serverEvents,
      event.target = ⟨.players, []⟩ ∧
        recording.validate = .error (.target event.sequence ⟨.players, 0⟩) := by
  rcases validate_cases onward with
    ⟨addressed, passed⟩ | ⟨frame, inside, event, recorded, reason, unreadable, refused⟩
  · refine .inl ⟨passed, fun frame inside event recorded empty => ?_⟩
    obtain ⟨target, readable⟩ := addressed frame inside event recorded
    rw [empty] at readable
    cases readable
  · obtain ⟨target, isTarget⟩ := published frame inside event recorded
    rw [isTarget] at unreadable
    rcases target.toTarget_toRecord_cases with ⟨-, readable⟩ | ⟨empty, fault⟩
    · rw [readable] at unreadable
      cases unreadable
    · rw [fault] at unreadable
      obtain rfl := Except.error.inj unreadable
      exact .inr ⟨frame, inside, event, recorded, isTarget.trans empty, refused⟩

end Recording

/-- A recording makes a source exactly if it is valid. -/
theorem Source.exists_ofRecording_iff (recording : Recording) :
    (∃ source, Source.ofRecording recording = .ok source) ↔ recording.validate = .ok () := by
  rw [Source.ofRecording]
  cases recording.validate <;> simp

namespace Land

variable {σ : Type} {rules : Rules σ}

/-- What a live land has recorded so far, whether or not it has failed: its
metadata record and one frame for each tick, all of their events published. -/
structure Recorded
    (land : Land σ)
    (metadata : Metadata)
    (frames : List Frame) : Prop where
  mode : ∃ queue recorder started,
    land.mode = .live queue recorder started ∧ recorder.Holds metadata frames
  nextTick : land.nextTick = UInt64.ofNat frames.length
  onward : Recording.Onward frames
  published : ∀ frame ∈ frames, ∀ event ∈ frame.serverEvents, event.Published

namespace Recorded

variable {land : Land σ} {metadata : Metadata} {frames : List Frame}

/-- A new live land has recorded its metadata record. -/
theorem of_live
    {config : LandConfig}
    {created : Timestamp}
    {initial : σ}
    (started : live rules config created initial = .ok land) :
    land.Recorded (config.recordingMetadata created (some (rules.fingerprint initial))) [] := by
  obtain ⟨recorder, holds, rfl⟩ := live_eq_ok started
  exact
    { mode := ⟨{}, recorder, 0, rfl, holds⟩
      nextTick := rfl
      onward := fun _ _ none => by cases none
      published := List.forall_mem_nil _ }

/-- The next tick follows the last recorded one. -/
theorem continues (recorded : land.Recorded metadata frames) :
    Recorder.Continues frames land.nextTick := by
  intro last isLast
  rw [Option.mem_def, List.getLast?_eq_getElem?] at isLast
  have inside : frames.length - 1 < frames.length := (List.getElem?_eq_some_iff.1 isLast).1
  rw [recorded.onward _ _ isLast, recorded.nextTick]
  have successor : frames.length = frames.length - 1 + 1 := by omega
  rw [successor, UInt64.ofNat_add]
  rfl

/-- What changes neither the recorder nor the next tick keeps what has been
recorded. -/
theorem of_same_recorder
    {after : Land σ}
    (recorded : land.Recorded metadata frames)
    (recorder : after.recorder? = land.recorder?)
    (nextTick : after.nextTick = land.nextTick) :
    after.Recorded metadata frames := by
  obtain ⟨queue, held, started, live, holds⟩ := recorded.mode
  refine { recorded with mode := ?_, nextTick := nextTick.trans recorded.nextTick }
  rw [recorder?, recorder?, live] at recorder
  cases mode : after.mode with
  | live queue other started =>
      rw [mode] at recorder
      obtain rfl := Option.some.inj recorder
      exact ⟨queue, other, started, rfl, holds⟩
  | replay source strict summary =>
      rw [mode] at recorder
      cases recorder

/-- A tick adds its frame behind the others. -/
theorem snoc
    {after : Land σ}
    {frame : Frame}
    (recorded : land.Recorded metadata frames)
    (mode : ∃ queue recorder started,
      after.mode = .live queue recorder started ∧ recorder.Holds metadata (frames ++ [frame]))
    (nextTick : after.nextTick = land.nextTick + 1)
    (tick : frame.tick = land.nextTick)
    (published : ∀ event ∈ frame.serverEvents, event.Published) :
    after.Recorded metadata (frames ++ [frame]) where
  mode := mode
  nextTick := by
    rw [nextTick, recorded.nextTick, List.length_append, List.length_singleton, UInt64.ofNat_add]
    rfl
  onward := by
    intro index found isFound
    rw [List.getElem?_append] at isFound
    split at isFound
    · exact recorded.onward index found isFound
    · rename_i late
      obtain ⟨inside, rfl⟩ := List.getElem?_eq_some_iff.1 isFound
      rw [List.length_singleton] at inside
      obtain rfl : index = frames.length := by omega
      simp only [List.getElem_singleton]
      exact tick.trans recorded.nextTick
  published := by
    intro other member
    rcases List.mem_append.1 member with earlier | last
    · exact recorded.published other earlier
    · obtain rfl := List.mem_singleton.1 last
      exact published

/-- Whatever is done to a live land, it records at most the tick of which it
reports. -/
theorem after
    (rules : Rules σ)
    (recorded : land.Recorded metadata frames)
    (operation : Operation) :
    ∃ added : List Frame,
      (land.after rules operation).Recorded metadata (frames ++ added) ∧
        added.map Frame.serverEvents =
          (Passage.report? rules ⟨land, operation⟩).toList.map TickReport.serverEvents := by
  obtain ⟨queue, recorder, started, live, holds⟩ := recorded.mode
  cases operation with
  | submit inbound =>
      refine ⟨[], ?_, rfl⟩
      rw [List.append_nil]
      rcases submit_live_cases rules live inbound with
        ⟨error, refused⟩ | ⟨sequence, numbering, -, issued, queued⟩ |
          ⟨resolvers, sequence, numbering, -, -, issued, resolving⟩
      · rw [Land.after, refused, note_eq]
        exact recorded.of_same_recorder rfl rfl
      · rw [Land.after, queued]
        refine recorded.of_same_recorder ?_ rfl
        rw [recorder?, recorder?, live]
      · rw [Land.after, resolving]
        refine recorded.of_same_recorder ?_ rfl
        rw [recorder?, recorder?, live]
  | complete completion =>
      refine ⟨[], ?_, rfl⟩
      rw [List.append_nil]
      rcases complete_live_cases live completion with
        ⟨outputs, -, resolved⟩ | ⟨error, -, dropped⟩
      · rw [Land.after, resolved]
        refine recorded.of_same_recorder ?_ rfl
        rw [recorder?, recorder?, live]
      · rw [Land.after, dropped]
        exact recorded.of_same_recorder rfl rfl
  | step =>
      rcases step_live_cases rules live holds recorded.continues with
        ⟨error, run, performed, stats, aborted⟩ | ⟨run, after, outcome, performed, isOutcome,
          afterHolds, stats, executed⟩
      · refine ⟨[], ?_, ?_⟩
        · rw [List.append_nil, Land.after, aborted, note_eq]
          refine recorded.of_same_recorder ?_ rfl
          rw [recorder?, recorder?, live]
        · rw [Passage.report?, aborted]
          rfl
      · have published : ∀ event ∈ run.recorded, event.Published :=
          TickRun.exists_target_of_performAll
            (fun _ none => absurd none List.not_mem_nil) performed
        refine ⟨[outcome.toFrame (some (rules.fingerprint run.state))], ?_, ?_⟩
        · subst isOutcome
          rw [Land.after, executed]
          exact recorded.snoc ⟨_, after, started, rfl, afterHolds⟩ rfl rfl published
        · rw [Passage.report?, executed]
          rfl

/-- What has been recorded after some operations: of each tick that was reported
a frame with the same events. -/
theorem foldl_after
    (rules : Rules σ)
    (recorded : land.Recorded metadata frames)
    (operations : List Operation) :
    ∃ added : List Frame,
      (operations.foldl (Land.after rules) land).Recorded metadata (frames ++ added) ∧
        added.map Frame.serverEvents =
          (reports rules (land.passages rules operations)).map TickReport.serverEvents := by
  induction operations generalizing land frames with
  | nil => exact ⟨[], by rwa [List.append_nil], rfl⟩
  | cons operation rest inductionHypothesis =>
      obtain ⟨first, next, firstEvents⟩ := recorded.after rules operation
      obtain ⟨later, last, laterEvents⟩ := inductionHypothesis next
      refine ⟨first ++ later, by rwa [← List.append_assoc], ?_⟩
      rw [List.map_append, firstEvents, laterEvents, passages, reports_cons, List.map_append]

/-- The recording is made of the metadata record and the frames. -/
theorem recording_eq (recorded : land.Recorded metadata frames) :
    land.recording? = some ⟨metadata, frames⟩ := by
  obtain ⟨queue, recorder, started, live, holds⟩ := recorded.mode
  exact recording?_eq live holds

end Recorded
end Land

section Run

variable {σ : Type} {rules : Rules σ} {config : LandConfig} {created : Timestamp} {initial : σ}
  {start : Land σ}

/-- Whatever is done to a live land, its recording has the events of the ticks
that were executed.  It is valid, and makes a source, exactly if none of them
went to an empty list of players; nothing else can be wrong with it. -/
theorem recording_loads_iff
    (started : Land.live rules config created initial = .ok start)
    (operations : List Operation) :
    ∃ recording,
      (operations.foldl (Land.after rules) start).recording? = some recording ∧
        recording.metadata =
          config.recordingMetadata created (some (rules.fingerprint initial)) ∧
        recording.frames.map Frame.serverEvents =
          (reports rules (start.passages rules operations)).map TickReport.serverEvents ∧
        (recording.validate = .ok () ↔
          Addressed (reports rules (start.passages rules operations))) ∧
        ((∃ source, Source.ofRecording recording = .ok source) ↔
          Addressed (reports rules (start.passages rules operations))) ∧
        ∀ fault, recording.validate = .error fault →
          ∃ sequence, fault = .target sequence ⟨.players, 0⟩ := by
  obtain ⟨frames, recorded, sameEvents⟩ :=
    (Land.Recorded.of_live started).foldl_after rules operations
  rw [List.nil_append] at recorded
  have overEvents {α : Type} (events : α → List ServerEvent) (parts : List α) :
      (∀ part ∈ parts, ∀ event ∈ events part, event.target ≠ ⟨.players, []⟩) ↔
        ∀ list ∈ parts.map events, ∀ event ∈ list, event.target ≠ ⟨.players, []⟩ := by
    rw [List.forall_mem_map]
  have addressed : Addressed (reports rules (start.passages rules operations)) ↔
      ∀ frame ∈ frames, ∀ event ∈ frame.serverEvents, event.target ≠ ⟨.players, []⟩ := by
    rw [Addressed, overEvents TickReport.serverEvents, overEvents Frame.serverEvents, sameEvents]
  refine ⟨_, recorded.recording_eq, rfl, sameEvents, ?_⟩
  rw [Source.exists_ofRecording_iff, addressed]
  rcases Recording.validate_of_published ⟨_, frames⟩ recorded.onward recorded.published with
    ⟨passed, sound⟩ | ⟨frame, inside, event, member, empty, refused⟩
  · rw [passed]
    exact ⟨iff_of_true rfl sound, iff_of_true rfl sound, nofun⟩
  · have unsound : ¬∀ frame ∈ frames, ∀ event ∈ frame.serverEvents,
        event.target ≠ ⟨.players, []⟩ :=
      fun sound => sound frame inside event member empty
    rw [refused]
    exact ⟨iff_of_false nofun unsound, iff_of_false nofun unsound,
      fun _ isFault => ⟨event.sequence, (Except.error.inj isFault).symm⟩⟩

end Run

/-- What a ledger has recorded of a join can be loaded. -/
theorem recording_loads_of_join :
    ∃ start recording source,
      Land.live (Ledger.rules {}) { landId := "books", landType := "ledger" } .epoch {} =
          .ok start ∧
        ([.submit (.lifecycle .join (.ofIds "p1" "c1" "s1") {}), .step].foldl
          (Land.after (Ledger.rules {})) start).recording? = some recording ∧
        recording.validate = .ok () ∧
        Source.ofRecording recording = .ok source := by
  let rules := Ledger.rules {}
  let config : LandConfig := { landId := "books", landType := "ledger" }
  let operations : List Operation := [.submit (.lifecycle .join (.ofIds "p1" "c1" "s1") {}), .step]
  obtain ⟨start, started⟩ : ∃ start, Land.live rules config .epoch {} = .ok start := ⟨_, rfl⟩
  have emitted : Addressed (reports rules (start.passages rules operations)) := by
    obtain rfl := Except.ok.inj started
    decide +kernel
  obtain ⟨recording, isRecording, -, -, valid, loads, -⟩ :=
    recording_loads_iff started operations
  obtain ⟨source, loaded⟩ := loads.2 emitted
  exact ⟨start, recording, source, started, isRecording, valid.2 emitted, loaded⟩

/-- A ledger that calls an empty list of players at the end of every tick. -/
def Ledger.callingNobody : Rules Ledger.State :=
  { Ledger.rules {} with update := fun _ => Ledger.announce "Call" .null (.players []) }

/-- A call to nobody is recorded, and then the recording cannot be loaded. -/
theorem call_to_nobody_not_loadable :
    ∃ start recording,
      Land.live Ledger.callingNobody { landId := "books", landType := "ledger" } .epoch {} =
          .ok start ∧
        (start.step Ledger.callingNobody).result.isOk = true ∧
        (start.after Ledger.callingNobody .step).recording? = some recording ∧
        recording.validate = .error (.target 0 ⟨.players, 0⟩) ∧
        ¬∃ source, Source.ofRecording recording = .ok source := by
  obtain ⟨start, started⟩ : ∃ start, Land.live Ledger.callingNobody
      { landId := "books", landType := "ledger" } .epoch {} = .ok start := ⟨_, rfl⟩
  obtain ⟨recording, isRecording, refused⟩ :
      ∃ recording, (start.after Ledger.callingNobody .step).recording? = some recording ∧
        recording.validate = .error (.target 0 ⟨.players, 0⟩) := by
    obtain rfl := Except.ok.inj started
    exact ⟨_, rfl, rfl⟩
  refine ⟨start, recording, started, ?_, isRecording, refused, ?_⟩
  · obtain rfl := Except.ok.inj started
    rfl
  · rw [Source.exists_ofRecording_iff, refused]
    exact nofun

end Chronicle
