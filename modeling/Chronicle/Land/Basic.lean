import Chronicle.Config
import Chronicle.Queue
import Chronicle.Recorder
import Chronicle.Source
import Chronicle.Tick
import Chronicle.Verification

/-!
# Lands

A live land takes submissions, executes them tick by tick and records every
tick.  A replaying land executes what a recording says and compares the
outcome with it.  Both execute their ticks by the same rules.
-/

namespace Chronicle

/-- What a land has of its own in each of the two modes: a live one the queue,
the recorder and the number of resolutions started, a replaying one the
recording, whether it is strict, and the totals. -/
inductive LandMode where
  | live (queue : Queue) (recorder : Recorder) (started : Nat)
  | replay (source : Source) (strict : Bool) (summary : ReplaySummary)
  deriving Inhabited

namespace LandMode

/-- The name of a mode. -/
def name : LandMode → String
  | .live _ _ _ => "live"
  | .replay _ _ _ => "replay"

end LandMode

/-- How a submission was admitted: queued for the next tick, or waiting for
its resolvers. -/
inductive Admission where
  | queued (sequence : Sequence)
  | resolving (resolution : Resolution)

namespace Admission

/-- The sequence number of an admitted submission. -/
def sequence : Admission → Sequence
  | .queued sequence => sequence
  | .resolving resolution => resolution.submission.sequence

end Admission

/-- What an executed tick produced. -/
structure TickReport where
  tick : Tick
  stateHash : String
  executed : List Sequence
  failures : Nat
  serverEvents : List Recording.ServerEvent
  verification : Option Verification := none
  deriving DecidableEq, Inhabited

/-- The figures of a land. -/
structure LandStats where
  mode : String
  nextTick : Tick
  pending : Nat
  resolving : Nat
  started : Nat
  rejected : Nat
  frames : Nat
  ticks : TickStats
  deriving DecidableEq, Inhabited

/-- A land: its mode, the state, the counter of sequence numbers, and its
figures. -/
structure Land (σ : Type) where
  id : String
  mode : LandMode
  state : σ
  numbering : Numbering := {}
  ticks : TickStats := {}
  nextTick : Tick := 0
  tickInterval : Option Nat := none
  resolving : Nat := 0
  rejected : Nat := 0
  failed : Bool := false

/-- A land after a step: what came of it, and the events that the listener of
the land heard. -/
structure Stepped (σ : Type) where
  result : Except LandError TickReport
  land : Land σ
  heard : List Event

namespace Land

variable {σ : Type}

/-- A live land with some settings, created at a time. -/
def live (rules : Rules σ) (config : LandConfig) (created : Timestamp) (state : σ) :
    Except LandError (Land σ) := do
  config.validate.mapError .config
  let metadata := config.recordingMetadata created (some (rules.fingerprint state))
  let recorder ← (Recorder.ofInterval config.flushInterval).setMetadata metadata
  return {
    id := config.landId
    mode := .live {} recorder 0
    state := state
    tickInterval := config.tickInterval }

/-- A land that executes only what a source has recorded. -/
def replay (rules : Rules σ) (source : Source) (strict : Bool) (state : σ) :
    Except LandError (Land σ) :=
  let recorded := source.metadata.landType
  if recorded = rules.landType then
    .ok { id := source.metadata.landId, mode := .replay source strict {}, state := state }
  else
    .error <| .replayParse
      s!"recording is for land type '{recorded}', handlers are for '{rules.landType}'"

/-- Marks a land as failed when an error is fatal. -/
def note (error : LandError) (land : Land σ) : Land σ :=
  if error.isFatal then { land with failed := true } else land

/-- Admits an inbound: without resolvers it is queued for the next tick, and
otherwise its resolution is started. -/
def accept (rules : Rules σ) (inbound : Inbound) (land : Land σ) :
    Except LandError (Admission × Land σ) :=
  match land.mode with
  | .replay _ _ _ => .error (.modeViolation inbound.operation "replay")
  | .live queue recorder started => do
      let resolvers ← rules.registry.resolversFor inbound.kind inbound.type
      let (sequence, numbering) ← land.numbering.issue
      let submission := inbound.submission sequence
      let numbered := { land with numbering := numbering }
      if resolvers.isEmpty then
        let queue := queue.push (submission.resolve ∅ land.nextTick)
        return (.queued sequence, { numbered with mode := .live queue recorder started })
      else
        return (.resolving ⟨submission, resolvers⟩,
          { numbered with
            mode := .live queue recorder (started + 1)
            resolving := land.resolving + 1 })

/-- Submits an inbound; one that is refused is counted and leaves no other
trace. -/
def submit (rules : Rules σ) (inbound : Inbound) (land : Land σ) :
    Except LandError Admission × Land σ :=
  match land.accept rules inbound with
  | .ok (admission, land) => (.ok admission, land)
  | .error error => (.error error, note error { land with rejected := land.rejected + 1 })

/-- Puts an item into the queue of a live land. -/
def enqueue (item : Item) (land : Land σ) : Land σ :=
  match land.mode with
  | .live queue recorder started => { land with mode := .live (queue.push item) recorder started }
  | .replay _ _ _ => land

/-- Applies what became of a resolution: the item is queued for the next tick
that has not started yet, or dropped and counted as refused. -/
def complete (completion : Completion) (land : Land σ) : Except LandError Sequence × Land σ :=
  let settled := { land with resolving := land.resolving - 1 }
  match completion.result with
  | .ok outputs =>
      let item := completion.submission.resolve outputs land.nextTick
      (.ok completion.submission.sequence, settled.enqueue item)
  | .error error => (.error error, { settled with rejected := settled.rejected + 1 })

/-- The items of the next tick, and the mode without them. -/
def take (land : Land σ) : List Item × LandMode :=
  match land.mode with
  | .live queue recorder started =>
      let (items, queue) := queue.drain (land.nextTick + 1)
      (items, .live queue recorder started)
  | .replay source strict summary => (source.items land.nextTick, .replay source strict summary)

/-- The report of an executed tick, before it is compared with a recording. -/
def report (outcome : TickOutcome) (stateHash : String) : TickReport :=
  { tick := outcome.tick
    stateHash := stateHash
    executed := outcome.executed.map (·.sequence)
    failures := outcome.failures
    serverEvents := outcome.serverEvents }

/-- Records an executed tick, or compares it with its record. -/
def conclude (outcome : TickOutcome) (stateHash : String) :
    LandMode → Except LandError TickReport × LandMode
  | .live queue recorder started =>
      match recorder.record (outcome.toFrame (some stateHash)) with
      | .ok recorder => (.ok (report outcome stateHash), .live queue recorder started)
      | .error error => (.error error, .live queue recorder started)
  | .replay source strict summary =>
      let tick := outcome.tick
      let eventsAgree :=
        Verification.allEventsAgree (source.serverEvents tick) outcome.serverEvents
      let verification := Verification.check strict tick (source.recordedHash? tick) stateHash
      let summary := summary.count tick eventsAgree verification
      (verification.map fun verification =>
          { report outcome stateHash with verification := some verification },
        .replay source strict summary)

/-- Executes the next tick. -/
def step (rules : Rules σ) (land : Land σ) : Stepped σ :=
  let (items, mode) := land.take
  let executed := rules.execute land.nextTick items land.state land.numbering land.ticks
  let advanced :=
    { land with
      mode := mode
      state := executed.state
      numbering := executed.numbering
      ticks := executed.stats }
  match executed.result with
  | .error error => ⟨.error error, note error advanced, executed.heard⟩
  | .ok outcome =>
      let (result, mode) := conclude outcome (rules.fingerprint executed.state) mode
      let stepped := { advanced with mode := mode, nextTick := land.nextTick + 1 }
      match result with
      | .ok report => ⟨.ok report, stepped, executed.heard⟩
      | .error error => ⟨.error error, note error stepped, executed.heard⟩

/-- The last recorded tick of a replaying land. -/
def replayEnd (land : Land σ) : Except LandError (Option Tick) :=
  match land.mode with
  | .replay source _ _ => .ok source.lastTick?
  | .live _ _ _ => .error (.modeViolation "replay_end" "live")

/-- The totals of a replaying land. -/
def replaySummary (land : Land σ) : Except LandError ReplaySummary :=
  match land.mode with
  | .replay _ _ summary => .ok summary
  | .live _ _ _ => .error (.modeViolation "replay_summary" "live")

/-- Changes the totals of a replaying land. -/
def updateSummary (change : ReplaySummary → ReplaySummary) (land : Land σ) : Land σ :=
  match land.mode with
  | .replay source strict summary => { land with mode := .replay source strict (change summary) }
  | .live _ _ _ => land

/-- The recorder of a live land. -/
def recorder? (land : Land σ) : Option Recorder :=
  match land.mode with
  | .live _ recorder _ => some recorder
  | .replay _ _ _ => none

/-- Hands over what the recorder of a live land has passed on to its writer. -/
def takeCommands (land : Land σ) : List WriterCommand × Land σ :=
  match land.mode with
  | .live queue recorder started =>
      let (commands, recorder) := recorder.takeCommands
      (commands, { land with mode := .live queue recorder started })
  | .replay _ _ _ => ([], land)

/-- The figures of a land. -/
def stats (land : Land σ) : LandStats :=
  let (pending, started, frames) :=
    match land.mode with
    | .live queue recorder started => (queue.size, started, recorder.recorded)
    | .replay _ _ _ => (0, 0, 0)
  { mode := land.mode.name
    nextTick := land.nextTick
    pending := pending
    resolving := land.resolving
    started := started
    rejected := land.rejected
    frames := frames
    ticks := land.ticks }

/-- Stops a land.  Items that are queued or resolving are discarded; a live
land's recorder is closed. -/
def shutdown {m : Type → Type} [Monad m] (storage : Storage m) (writer : Writer)
    (land : Land σ) : m (Option FlushReport) :=
  match land.recorder? with
  | some recorder => some <$> recorder.close storage writer
  | none => pure none

end Land
end Chronicle
