import Chronicle.Ledger
import Chronicle.Proofs.LineFile
import Chronicle.Proofs.Lines
import Chronicle.Proofs.Order
import Chronicle.Proofs.Replay
import Chronicle.Transport.Basic

/-!
# Reading back what was accepted

A payload that comes over the wire may be nested as deeply as the reader allows.
In a recording the same payload stands within three more brackets, and a captured
output within five, so the reader takes the recording of a run exactly if what it
holds leaves room for them.  If it does, an accepted payload comes back as it was.
-/

namespace Chronicle

open Json (Decoder depthItems depthMembers depthItems_le_iff depthMembers_le_iff maxDepth)

/-! ## Room for a frame -/

/-- The depth that the line of a frame leaves for a payload, which stands within
the frame, one of its lists and its record. -/
def payloadRoom : Nat := maxDepth - 3

/-- The depth that the line of a frame leaves for the value of a captured output,
which stands within the dictionary of outputs and its own record as well. -/
def outputRoom : Nat := maxDepth - 5

/-- Captured outputs that leave room for the frame around them. -/
def ResolverOutput.Shallow (outputs : ResolverOutputs) : Prop :=
  ∀ entry ∈ outputs.entries, entry.2.value.depth ≤ outputRoom

namespace ResolverOutput

theorem depth_members_le_iff {outputs : ResolverOutputs} {room : Nat} :
    depthMembers (members outputs) ≤ room + 2 ↔
      ∀ entry ∈ outputs.entries, entry.2.value.depth ≤ room := by
  have record (output : ResolverOutput) : output.toJson.depth = output.value.depth + 1 := by
    simp [toJson, Json.depth, depthMembers]
  rcases members_cases outputs with ⟨rfl, none⟩ | captured
  · rw [none]
    exact iff_of_true (Nat.zero_le _) (List.forall_mem_nil _)
  · rw [captured, depthMembers, depthMembers, Nat.max_zero, dictToJson, Json.ofDict, Json.depth,
      Nat.add_le_add_iff_right, depthMembers_le_iff, Dict.map, List.forall_mem_map]
    simp only [record, Nat.add_le_add_iff_right]

end ResolverOutput

namespace Recording

theorem Input.depth_toJson_le_iff {input : Input} {room : Nat} :
    input.toJson.depth ≤ room + 3 ↔
      input.payload.depth ≤ room + 2 ∧
        ∀ entry ∈ input.outputs.entries, entry.2.value.depth ≤ room := by
  rw [← ResolverOutput.depth_members_le_iff, toJson, Json.depth, Nat.add_le_add_iff_right]
  simp only [depthMembers_le_iff, List.forall_mem_append, List.forall_mem_cons, Actor.members]
  simp [Json.depth]

theorem Lifecycle.depth_toJson_le_iff {event : Lifecycle} {room : Nat} :
    event.toJson.depth ≤ room + 3 ↔
      ∀ entry ∈ event.outputs.entries, entry.2.value.depth ≤ room := by
  have strings : (stringsToJson event.metadata).depth ≤ room + 2 := by
    rw [stringsToJson, Json.ofDict, Json.depth, Nat.add_le_add_iff_right, depthMembers_le_iff,
      Dict.map, List.forall_mem_map]
    exact fun entry _ => Nat.zero_le _
  rw [← ResolverOutput.depth_members_le_iff, toJson, Json.depth, Nat.add_le_add_iff_right]
  simp only [depthMembers_le_iff, List.forall_mem_append, List.forall_mem_cons, Actor.members]
  simp [Json.depth, strings]

theorem ServerEvent.depth_toJson_le_iff {event : ServerEvent} {room : Nat} :
    event.toJson.depth ≤ room + 3 ↔ event.payload.depth ≤ room + 2 := by
  have target : event.target.toJson.depth ≤ room + 2 := by
    simp only [TargetRecord.toJson, Json.depth, depthMembers, Nat.add_le_add_iff_right]
    simp [depthItems_le_iff]
  rw [toJson, Json.depth, Nat.add_le_add_iff_right]
  simp [depthMembers_le_iff, target]

/-- A frame whose payloads and captured outputs leave room for the line around
them. -/
structure Frame.Shallow (frame : Frame) : Prop where
  inputs : ∀ input ∈ frame.actions ++ frame.clientEvents,
    input.payload.depth ≤ payloadRoom ∧ ResolverOutput.Shallow input.outputs
  serverEvents : ∀ event ∈ frame.serverEvents, event.payload.depth ≤ payloadRoom
  lifecycleEvents : ∀ event ∈ frame.lifecycleEvents, ResolverOutput.Shallow event.outputs

/-- The line of a frame can be read exactly if what is in it leaves room for it. -/
theorem Frame.depth_toJson_le_iff (frame : Frame) :
    frame.toJson.depth ≤ maxDepth ↔ frame.Shallow := by
  have hash : ∀ member ∈ (frame.stateHash.map fun hash => ("stateHash", Json.string hash)).toList,
      member.2.depth ≤ outputRoom + 4 := by
    cases frame.stateHash with
    | none => exact List.forall_mem_nil _
    | some hash => exact List.forall_mem_singleton.2 (Nat.zero_le _)
  have list {items : List Json} :
      (Json.array items).depth ≤ outputRoom + 4 ↔ ∀ item ∈ items, item.depth ≤ outputRoom + 3 := by
    rw [Json.depth, Nat.add_le_add_iff_right, depthItems_le_iff]
  have line : frame.toJson.depth ≤ maxDepth ↔ frame.toJson.depth ≤ outputRoom + 4 + 1 := Iff.rfl
  rw [line, toJson, Json.depth, Nat.add_le_add_iff_right]
  simp only [depthMembers_le_iff, List.forall_mem_append, List.forall_mem_cons, list,
    List.forall_mem_map, Input.depth_toJson_le_iff, ServerEvent.depth_toJson_le_iff,
    Lifecycle.depth_toJson_le_iff]
  constructor
  · rintro ⟨⟨-, actions, clientEvents, serverEvents, lifecycleEvents, -⟩, -⟩
    exact ⟨List.forall_mem_append.2 ⟨actions, clientEvents⟩, serverEvents, lifecycleEvents⟩
  · intro shallow
    obtain ⟨actions, clientEvents⟩ := List.forall_mem_append.1 shallow.inputs
    exact ⟨⟨Nat.zero_le _, actions, clientEvents, shallow.serverEvents, shallow.lifecycleEvents,
      List.forall_mem_nil _⟩, hash⟩

instance (frame : Frame) : Decidable frame.Shallow :=
  decidable_of_iff _ frame.depth_toJson_le_iff

/-! ## Reading the file -/

/-- The file of valid frames is read exactly if all of them leave room for their
lines. -/
theorem load_ofBatches
    {metadata : Metadata}
    {frames : List Frame}
    {batches : List (List Frame)}
    (flushed : batches.flatten = frames)
    (readsBack : ReadsBack ⟨metadata, frames⟩)
    (wellFormed : metadata.WellFormed)
    (notEmpty : frames ≠ [])
    (numbered : Numbered frames)
    (addressed : ∀ frame ∈ frames, frame.Addressed) :
    ((∀ frame ∈ frames, frame.Shallow) →
      LineFile.load (LineFile.ofBatches metadata batches).bytes =
        .ok ⟨metadata.asRead, frames.map Frame.asRead⟩) ∧
    ((¬∀ frame ∈ frames, frame.Shallow) →
      ∃ fault, LineFile.load (LineFile.ofBatches metadata batches).bytes = .error fault) := by
  have holds := LineFile.ofBatches_holds metadata batches
  rw [flushed] at holds
  have room : (∀ frame ∈ frames, frame.toJson.depth ≤ maxDepth) ↔
      ∀ frame ∈ frames, frame.Shallow :=
    forall₂_congr fun frame _ => frame.depth_toJson_le_iff
  obtain ⟨taken, refused⟩ := parse_toLines readsBack wellFormed notEmpty
    (validate_eq_ok numbered addressed)
  rw [holds.load, ← room]
  constructor
  · intro shallow
    rw [taken shallow]
    rfl
  · intro deep
    obtain ⟨fault, isFault⟩ := refused deep
    rw [isFault]
    exact ⟨.format fault, rfl⟩

end Recording

/-! ## Accepted payloads -/

/-- A value that was read from a text is canonical. -/
theorem Json.canonical_of_parse? {text : String} {value : Json} (read : parse? text = some value) :
    value.canonical = value := by
  simp only [parse?, Decoder.decode?, Decoder.decodeText] at read
  generalize Document.read text.toList = document at read
  cases decoded : Decoder.value maxDepth document.root with
  | error fault =>
      rw [decoded] at read
      cases read
  | ok stored =>
      have canonical := Decoder.canonical_of_value maxDepth document.root decoded
      rw [decoded] at read
      cases trailing : document.trailing with
      | none =>
          simp only [bind, Except.bind, trailing] at read
          exact Option.some.inj read ▸ canonical
      | some line =>
          simp only [bind, Except.bind, trailing] at read
          cases read

namespace ItemRecord

/-- A record as it is read back. -/
def asRead : ItemRecord → ItemRecord
  | .action input => .action input.asRead
  | .clientEvent input => .clientEvent input.asRead
  | .lifecycle event => .lifecycle event.asRead

end ItemRecord

/-- The records of a frame that is read back are those of the frame, read back. -/
theorem Recording.Frame.records_asRead (frame : Frame) :
    frame.asRead.records = frame.records.map ItemRecord.asRead := by
  simp only [records, asRead, List.map_append, List.map_map]
  rfl

/-- An item that came over the wire is given back by its record, once that is read
back. -/
theorem Item.toSubmission_asRead
    {type payload : String}
    {actor : Actor}
    {isClientEvent : Bool}
    {inbound : Inbound}
    {sequence : Sequence}
    {item : Item}
    (accepted : Inbound.ofPayload? type payload actor isClientEvent = some inbound)
    (submitted : item.toSubmission = inbound.submission sequence)
    (tick : Tick) :
    (item.toRecord tick).asRead.toItem.toSubmission = inbound.submission sequence := by
  obtain ⟨value, read, rfl⟩ := Option.map_eq_some_iff.1 accepted
  have canonical := Json.canonical_of_parse? read
  obtain ⟨submission, outputs, resolvedAt⟩ := item
  obtain rfl : submission = _ := submitted
  cases isClientEvent with
  | false => exact congrArg (Submission.mk .action sequence type · actor none) canonical
  | true => exact congrArg (Submission.mk .clientEvent sequence type · actor none) canonical

/-! ## Runs -/

section Run

variable {σ : Type} {rules : Rules σ} {config : LandConfig} {created : Timestamp} {initial : σ}
  {start land : Land σ} {past : List (Passage σ)}

/-- The frames of a run whose events have addressees are valid. -/
theorem Run.frames_valid
    (started : Land.live rules config created initial = .ok start)
    (run : Run rules start past land)
    (emitted : Addressed (reports rules past)) :
    Recording.Numbered land.frames ∧ ∀ frame ∈ land.frames, frame.Addressed := by
  obtain ⟨frames, tracks⟩ := run.tracks started
  obtain ⟨queue, recorder, resolutions, live, -, holds⟩ := tracks.mode
  obtain ⟨_, _, history, -⟩ := tracks.history
  have same : land.frames = frames := by
    simp only [Land.frames, Land.recorder?, live, holds.frames]
  rw [same]
  exact ⟨fun _ _ found => history.tick_eq found, history.addressed emitted⟩

/-- A frame that records what a step has executed. -/
def Recording.Frame.Records (frame : Frame) (passage : Passage σ) : Prop :=
  frame.tick = passage.before.nextTick ∧
    frame.records.Perm (passage.executed.map (Item.toRecord frame.tick))

/-- Every step of a run has its frame. -/
theorem Run.exists_records
    (started : Land.live rules config created initial = .ok start)
    (run : Run rules start past land)
    (going : land.failed = false)
    {passage : Passage σ}
    (member : passage ∈ past)
    (isStep : passage.operation = .step) :
    ∃ frame ∈ land.frames, frame.Records passage := by
  induction run with
  | nothing => exact absurd member List.not_mem_nil
  | next run takes inductionHypothesis =>
      rename_i past land operation
      obtain ⟨frames, tracks⟩ := run.tracks started
      obtain ⟨_, _, _, wasLive, -⟩ := tracks.mode
      by_cases lastIsStep : operation = .step
      · subst lastIsStep
        obtain ⟨queue, ends⟩ := tracks.endsTick takes going
        obtain ⟨outcome, stateHash, tick, executed, frames⟩ := ends.recorded
        change ∃ frame ∈ (land.step rules).land.frames, _
        rw [frames]
        rcases List.mem_append.1 member with earlier | last
        · obtain ⟨frame, recorded, records⟩ := inductionHypothesis takes.1 earlier
          exact ⟨frame, List.mem_append_left _ recorded, records⟩
        · obtain rfl := List.mem_singleton.1 last
          obtain ⟨_, _, live⟩ := ends.live
          have same : (⟨land, .step⟩ : Passage σ).executed = outcome.executed := by
            simp only [Passage.executed, Land.take, live, executed]
          refine ⟨_, List.mem_append_right _ List.mem_cons_self, tick, ?_⟩
          rw [same]
          exact outcome.records_toFrame_perm stateHash
      · have sameFrames := (Land.frames_after rules wasLive lastIsStep).1
        rcases List.mem_append.1 member with earlier | last
        · rw [sameFrames]
          exact inductionHypothesis takes.1 earlier
        · obtain rfl := List.mem_singleton.1 last
          exact absurd isStep lastIsStep

/-- Whatever the wire accepts as a payload, once a run has executed it the file of
the recording can be read exactly if nothing in it is nested too deeply, and what
is read holds the payload as it was accepted. -/
theorem accepted_payload_read_back_iff
    {type payload : String}
    {actor : Actor}
    {isClientEvent : Bool}
    {inbound : Inbound}
    {sequence : Sequence}
    {passage : Passage σ}
    {item : Item}
    {metadata : Recording.Metadata}
    {batches : List (List Recording.Frame)}
    (started : Land.live rules config created initial = .ok start)
    (run : Run rules start past land)
    (going : land.failed = false)
    (emitted : Addressed (reports rules past))
    (accepted : Inbound.ofPayload? type payload actor isClientEvent = some inbound)
    (taken : passage ∈ past)
    (executed : item ∈ passage.executed)
    (submitted : item.toSubmission = inbound.submission sequence)
    (wellFormed : metadata.WellFormed)
    (flushed : batches.flatten = land.frames)
    (readsBack : Recording.ReadsBack ⟨metadata, land.frames⟩) :
    ((∃ recording, LineFile.load (LineFile.ofBatches metadata batches).bytes = .ok recording) ↔
      ∀ frame ∈ land.frames, frame.Shallow) ∧
    ∀ recording, LineFile.load (LineFile.ofBatches metadata batches).bytes = .ok recording →
      ∃ frame ∈ recording.frames, frame.tick = passage.before.nextTick ∧
        ∃ record ∈ frame.records, record.toItem.toSubmission = inbound.submission sequence := by
  have isStep : passage.operation = .step := by
    unfold Passage.executed at executed
    split at executed
    · assumption
    · exact absurd executed List.not_mem_nil
  obtain ⟨frame, recorded, tick, records⟩ := run.exists_records started going taken isStep
  obtain ⟨numbered, addressed⟩ := run.frames_valid started emitted
  obtain ⟨read, refused⟩ := Recording.load_ofBatches flushed readsBack wellFormed
    (List.ne_nil_of_mem recorded) numbered addressed
  have readable : (∃ recording,
      LineFile.load (LineFile.ofBatches metadata batches).bytes = .ok recording) ↔
        ∀ frame ∈ land.frames, frame.Shallow := by
    constructor
    · rintro ⟨recording, loaded⟩
      by_contra deep
      obtain ⟨fault, isFault⟩ := refused deep
      rw [loaded] at isFault
      cases isFault
    · intro shallow
      exact ⟨_, read shallow⟩
  refine ⟨readable, fun recording loaded => ?_⟩
  have isRecording := read (readable.1 ⟨recording, loaded⟩)
  rw [loaded] at isRecording
  obtain rfl := Except.ok.inj isRecording
  refine ⟨frame.asRead, List.mem_map_of_mem recorded, tick,
    (item.toRecord frame.tick).asRead, ?_, Item.toSubmission_asRead accepted submitted _⟩
  rw [Recording.Frame.records_asRead]
  exact List.mem_map_of_mem (records.mem_iff.2 (List.mem_map_of_mem executed))

/-- A note with half a number in it is read back. -/
theorem accepted_payload_read_back_of_note :
    ∃ start past land metadata inbound recording,
      Land.live (Ledger.rules {}) { landId := "books", landType := "ledger" } .epoch {} =
          .ok start ∧
        Run (Ledger.rules {}) start past land ∧
        Inbound.ofPayload? "Note" "\x7b\"text\":\"half\",\"of\":1.5\x7d"
          (.ofIds "p1" "c1" "s1") false = some inbound ∧
        Recording.Metadata.WellFormed metadata ∧
        LineFile.load (LineFile.ofBatches metadata [land.frames]).bytes = .ok recording ∧
        ∃ frame ∈ recording.frames, frame.tick = 0 ∧
          ∃ record ∈ frame.records, record.toItem.toSubmission = inbound.submission 0 := by
  let rules := Ledger.rules {}
  let config : LandConfig := { landId := "books", landType := "ledger" }
  let player := Actor.ofIds "p1" "c1" "s1"
  let half : Json.Number := .decimal ⟨0x3ff8000000000000⟩ (by decide +kernel)
  let note := Json.object [("of", .number half), ("text", .string "half")]
  let inbound := Inbound.action "Note" note player
  let metadata := config.recordingMetadata .epoch none
  have accepted : Inbound.ofPayload? "Note" "\x7b\"text\":\"half\",\"of\":1.5\x7d" player false =
      some inbound := by
    decide +kernel
  have wellFormed : metadata.WellFormed := by
    refine (Recording.Metadata.wellFormed_iff ?_).2 ?_
    · decide +kernel
    · decide +kernel
  obtain ⟨start, started⟩ : ∃ start, Land.live rules config .epoch {} = .ok start := ⟨_, rfl⟩
  have run := Run.of_operations rules start [.submit inbound, .step] (by
    obtain rfl := Except.ok.inj started
    decide +kernel)
  have submitted : ((inbound.submission 0).resolve ∅ 0).toSubmission = inbound.submission 0 := rfl
  have reads := accepted_payload_read_back_iff started run
    (by obtain rfl := Except.ok.inj started; decide +kernel)
    (by obtain rfl := Except.ok.inj started; decide +kernel)
    accepted (List.mem_cons_of_mem _ List.mem_cons_self)
    (by obtain rfl := Except.ok.inj started; decide +kernel)
    submitted wellFormed List.flatten_singleton
    (by obtain rfl := Except.ok.inj started; decide +kernel)
  obtain ⟨recording, loaded⟩ := reads.1.2 (by
    obtain rfl := Except.ok.inj started
    decide +kernel)
  obtain ⟨frame, member, tick, record⟩ := reads.2 recording loaded
  refine ⟨start, _, _, metadata, inbound, recording, started, run, accepted, wellFormed, loaded,
    frame, member, ?_, record⟩
  rw [tick]
  obtain rfl := Except.ok.inj started
  decide +kernel

end Run

/-- An array within as many others. -/
def Json.nested : Nat → Json
  | 0 => .array []
  | others + 1 => .array [nested others]

/-- A payload of 125 nested arrays is accepted and executed, and the file of the
recording cannot be read any more. -/
theorem deep_payload_not_read_back :
    ∃ start past land metadata inbound,
      Land.live (Ledger.rules {}) { landId := "books", landType := "ledger" } .epoch {} =
          .ok start ∧
        Run (Ledger.rules {}) start past land ∧
        land.failed = false ∧
        Addressed (reports (Ledger.rules {}) past) ∧
        Inbound.ofPayload? "Note" (Json.nested 124).compact (.ofIds "p1" "c1" "s1") false =
          some inbound ∧
        (∃ passage ∈ past, ∃ item ∈ passage.executed,
          item.toSubmission = inbound.submission 0) ∧
        Recording.Metadata.WellFormed metadata ∧
        Recording.ReadsBack ⟨metadata, land.frames⟩ ∧
        ∃ fault, LineFile.load (LineFile.ofBatches metadata [land.frames]).bytes =
          .error fault := by
  let rules := Ledger.rules {}
  let config : LandConfig := { landId := "books", landType := "ledger" }
  let player := Actor.ofIds "p1" "c1" "s1"
  let inbound := Inbound.action "Note" (Json.nested 124) player
  let metadata := config.recordingMetadata .epoch none
  have accepted : Inbound.ofPayload? "Note" (Json.nested 124).compact player false =
      some inbound := by
    have canonical : (Json.nested 124).canonical = Json.nested 124 := by decide +kernel
    rw [Inbound.ofPayload?, Json.parse?_compact (by decide +kernel) (by decide +kernel), canonical]
    rfl
  have wellFormed : metadata.WellFormed := by
    refine (Recording.Metadata.wellFormed_iff ?_).2 ?_
    · decide +kernel
    · decide +kernel
  obtain ⟨start, started⟩ : ∃ start, Land.live rules config .epoch {} = .ok start := ⟨_, rfl⟩
  have run := Run.of_operations rules start [.submit inbound, .step] (by
    obtain rfl := Except.ok.inj started
    decide +kernel)
  have emitted : Addressed (reports rules (start.passages rules [.submit inbound, .step])) := by
    obtain rfl := Except.ok.inj started
    decide +kernel
  have readsBack : Recording.ReadsBack
      ⟨metadata, ([.submit inbound, .step].foldl (Land.after rules) start).frames⟩ := by
    obtain rfl := Except.ok.inj started
    decide +kernel
  obtain ⟨numbered, addressed⟩ := run.frames_valid started emitted
  refine ⟨start, _, _, metadata, inbound, started, run, ?_, emitted, accepted, ?_, wellFormed,
    readsBack, ?_⟩
  · obtain rfl := Except.ok.inj started
    decide +kernel
  · obtain rfl := Except.ok.inj started
    decide +kernel
  · refine (Recording.load_ofBatches List.flatten_singleton readsBack wellFormed ?_ numbered
      addressed).2 ?_
    · obtain rfl := Except.ok.inj started
      decide +kernel
    · obtain rfl := Except.ok.inj started
      decide +kernel

end Chronicle
