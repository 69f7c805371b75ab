import Chronicle.Ledger
import Chronicle.Proofs.Frame
import Chronicle.Proofs.History
import Chronicle.Proofs.Source
import Chronicle.Proofs.Verification
import Chronicle.Replay

/-!
# Replaying a live run

What a live land has recorded can be replayed, up to any of its ticks.  The
replay begins with the number zero for its first event, so its numbers differ
from the live ones; everything else that a tick reports is the same.
-/

namespace Chronicle

/-- A replayed tick reports what the live one has reported, except for the
sequence numbers of the events, and agrees with the recorded hash. -/
structure TickReport.Reproduces (live replayed : TickReport) : Prop where
  tick : replayed.tick = live.tick
  executed : replayed.executed = live.executed
  stateHash : replayed.stateHash = live.stateHash
  failures : replayed.failures = live.failures
  serverEvents : List.Forall₂ Recording.ServerEvent.Same live.serverEvents replayed.serverEvents
  verification : replayed.verification = some .agrees

/-- No tick has emitted an event to an empty list of players. -/
def Addressed (reports : List TickReport) : Prop :=
  ∀ report ∈ reports, ∀ event ∈ report.serverEvents, event.target ≠ ⟨.players, []⟩

instance (reports : List TickReport) : Decidable (Addressed reports) :=
  inferInstanceAs (Decidable (∀ report ∈ reports, ∀ event ∈ report.serverEvents,
    event.target ≠ ⟨.players, []⟩))

/-- A target that is not an empty list of players can be read back from its
record. -/
theorem Target.toTarget_toRecord
    {target : Target}
    (addressed : target.toRecord ≠ ⟨.players, []⟩) :
    target.toRecord.toTarget = .ok target := by
  cases target with
  | all => rfl
  | player id => rfl
  | client id => rfl
  | session id => rfl
  | players ids =>
      cases ids with
      | nil => exact absurd rfl addressed
      | cons id rest => rfl

namespace History

variable {σ : Type} {rules : Rules σ} {initial state : σ} {frames : List Recording.Frame}
  {reports : List TickReport} {numbering : Numbering}

/-- Frames of ticks that address their events have targets that can be read
back. -/
theorem addressed
    (history : History rules initial frames reports state numbering)
    (emitted : Addressed reports) :
    ∀ frame ∈ frames, frame.Addressed := by
  induction history with
  | begins => exact fun frame member => absurd member List.not_mem_nil
  | numbered _ _ inductionHypothesis => exact inductionHypothesis emitted
  | executed older number notFinal ordered performed serverEvents failures
      inductionHypothesis =>
      intro frame member
      rcases List.mem_append.1 member with earlier | last
      · exact inductionHypothesis
          (fun report there => emitted report (List.mem_append_left _ there)) frame earlier
      · obtain rfl := List.mem_singleton.1 last
        intro event recorded
        have published := TickRun.exists_target_of_performAll
          (fun _ none => absurd none List.not_mem_nil) performed
        have addressed := emitted _ (List.mem_append_right _ List.mem_cons_self) event recorded
        obtain ⟨target, isTarget⟩ := published event (serverEvents ▸ recorded)
        rw [isTarget] at addressed ⊢
        exact ⟨target, Target.toTarget_toRecord addressed⟩

end History

namespace Replay

variable {σ : Type} {rules : Rules σ}

/-- A replay after some of its ticks. -/
def advance (rules : Rules σ) (replay : Replay σ) : Nat → Replay σ
  | 0 => replay
  | ticks + 1 => ((replay.advance rules ticks).step rules).2

/-- A replay of a source has come as far as a live land once was: all ticks so
far have agreed, and the state is the one of the live land. -/
structure At
    (replay : Replay σ)
    (source : Source)
    (strict : Bool)
    (ticks : Nat)
    (state : σ)
    (numbering : Numbering) : Prop where
  mode : replay.land.mode = .replay source strict (.allMatching ticks)
  state : replay.land.state = state
  numbering : replay.land.numbering.Behind numbering
  nextTick : replay.land.nextTick.toNat = ticks
  lastTick : replay.lastTick = source.lastTick?

/-- A replay of a matching recording begins where the live land began. -/
theorem start_eq_ok
    {source : Source}
    {initial : σ}
    {rebuild : Recording.Metadata → σ}
    (matching : source.metadata.landType = rules.landType)
    (rebuilt : rebuild source.metadata = initial)
    (hash : source.metadata.initialHash = some (rules.fingerprint initial))
    (strict : Bool) :
    ∃ replay, start rules source strict rebuild = .ok replay ∧
      ∀ numbering, replay.At source strict 0 initial numbering := by
  refine ⟨⟨{ id := source.metadata.landId, mode := .replay source strict {}, state := initial },
    source.lastTick?⟩, ?_, fun _ => ⟨rfl, rfl, Nat.zero_le _, rfl, rfl⟩⟩
  unfold start Land.replay
  rw [if_pos matching, hash, rebuilt]
  exact if_pos rfl

/-- A recorded tick that is next is replayed as it was executed. -/
theorem At.step
    {replay : Replay σ}
    {source : Source}
    {strict : Bool}
    {state : σ}
    {numbering : Numbering}
    {outcome : TickOutcome}
    {run : TickRun σ}
    (here : replay.At source strict outcome.tick.toNat state numbering)
    (within : ∃ last ∈ source.lastTick?, outcome.tick ≤ last)
    (notFinal : outcome.tick ≠ finalTick)
    (found : source.frame? outcome.tick =
      some (outcome.toFrame (some (rules.fingerprint run.state))))
    (ordered : outcome.executed.Pairwise Item.Precedes)
    (performed : TickRun.performAll outcome.tick ⟨state, numbering, [], [], 0⟩
      (rules.effects outcome.tick outcome.executed) = (.ok (), run))
    (serverEvents : outcome.serverEvents = run.recorded)
    (failures : outcome.failures = run.failures) :
    (∃ report, (replay.step rules).1 = .ok (some report) ∧
      (Land.report outcome (rules.fingerprint run.state)).Reproduces report) ∧
    (replay.step rules).2.At source strict (outcome.tick.toNat + 1) run.state run.numbering := by
  have tick : replay.land.nextTick = outcome.tick := UInt64.toNat_inj.1 here.nextTick
  have unfinished : ¬ replay.isFinished = true := by
    obtain ⟨last, isLast, notAfter⟩ := within
    rw [isFinished, here.lastTick, Option.mem_def.1 isLast, tick]
    simpa using UInt64.not_lt.2 notAfter
  have items : source.items outcome.tick =
      outcome.executed.map (Item.asRecorded outcome.tick) := by
    rw [Source.items, found]
    exact Source.inOrder_frameItems_toFrame outcome _ ordered
  have begins : TickRun.Follows ⟨state, replay.land.numbering, [], [], 0⟩
      ⟨state, numbering, [], [], 0⟩ := ⟨rfl, rfl, rfl, here.numbering, .nil⟩
  obtain ⟨other, replayed, follows⟩ := begins.performAll _ performed
  have sameEvents : List.Forall₂ Recording.ServerEvent.Same outcome.serverEvents
      other.recorded := serverEvents ▸ follows.recorded
  have agreeing :
      Verification.allEventsAgree (source.serverEvents outcome.tick) other.recorded = true := by
    rw [Source.serverEvents, found]
    exact Verification.allEventsAgree_of_same sameEvents
  have recordedHash : source.recordedHash? outcome.tick = some (rules.fingerprint other.state) := by
    rw [Source.recordedHash?, found, follows.state]
    rfl
  have executed :
      ∃ report stepped heard,
        replay.land.step rules = ⟨.ok report, stepped, heard⟩ ∧
          (Land.report outcome (rules.fingerprint run.state)).Reproduces report ∧
          Replay.At ⟨stepped, replay.lastTick⟩ source strict (outcome.tick.toNat + 1)
            run.state run.numbering := by
    simp only [Land.step, Land.take, here.mode, tick, items, Rules.execute,
      Rules.effects_asRecorded, here.state, replayed, Land.conclude, agreeing, recordedHash,
      Verification.check_self, Except.map, ReplaySummary.count_agrees]
    refine ⟨_, _, _, rfl, ?_, ?_⟩
    · exact
        { tick := rfl
          executed := by simp [Land.report, Function.comp_def]
          stateHash := congrArg rules.fingerprint follows.state
          failures := follows.failures.trans failures.symm
          serverEvents := sameEvents
          verification := rfl }
    · refine ⟨rfl, follows.state, follows.numbering, ?_, here.lastTick⟩
      have bound : outcome.tick.toNat < 18446744073709551616 := outcome.tick.toNat_lt
      have notLast : outcome.tick.toNat ≠ 18446744073709551615 :=
        fun last => notFinal (UInt64.toNat_inj.1 last)
      rw [UInt64.toNat_add]
      exact Nat.mod_eq_of_lt (by simp; omega)
  obtain ⟨report, stepped, heard, result, reproduces, after⟩ := executed
  rw [Replay.step, if_neg unfinished, result]
  exact ⟨⟨report, rfl, reproduces⟩, after⟩

/-- Where a live land was with one counter, a replay also is with a counter that
has gone on. -/
theorem At.numbered
    {replay : Replay σ}
    {source : Source}
    {strict : Bool}
    {ticks : Nat}
    {state : σ}
    {numbering later : Numbering}
    (here : replay.At source strict ticks state numbering)
    (behind : numbering.Behind later) :
    replay.At source strict ticks state later :=
  { here with numbering := Nat.le_trans here.numbering behind }

/-- A replay of a source that has the frames of a history reproduces its reports
one by one and comes to its state. -/
theorem At.reproduces_history
    {replay : Replay σ}
    {source : Source}
    {strict : Bool}
    {initial state : σ}
    {numbering : Numbering}
    {frames : List Recording.Frame}
    {reports : List TickReport}
    (begins : ∀ counter, replay.At source strict 0 initial counter)
    (history : History rules initial frames reports state numbering)
    (found : ∀ frame ∈ frames, source.frame? frame.tick = some frame)
    (within : ∀ frame ∈ frames, ∃ last ∈ source.lastTick?, frame.tick ≤ last) :
    (∀ index < frames.length, ∃ live ∈ reports[index]?, ∃ report,
      ((replay.advance rules index).step rules).1 = .ok (some report) ∧
        live.Reproduces report) ∧
    (replay.advance rules frames.length).At source strict frames.length state numbering := by
  induction history with
  | begins numbering => exact ⟨fun _ none => absurd none (Nat.not_lt_zero _), begins numbering⟩
  | numbered _ behind inductionHypothesis =>
      obtain ⟨reproduced, here⟩ := inductionHypothesis found within
      exact ⟨reproduced, here.numbered behind⟩
  | executed older number notFinal ordered performed serverEvents failures
      inductionHypothesis =>
      rename_i frames reports _ _ outcome run
      have newest := List.mem_append_right frames (List.mem_singleton_self
        (outcome.toFrame (some (rules.fingerprint run.state))))
      obtain ⟨reproduced, here⟩ := inductionHypothesis
        (fun frame member => found frame (List.mem_append_left _ member))
        (fun frame member => within frame (List.mem_append_left _ member))
      rw [← number] at here
      obtain ⟨⟨report, result, reproduces⟩, next⟩ := here.step (within _ newest) notFinal
        (found _ newest) ordered performed serverEvents failures
      rw [List.length_append, List.length_singleton, ← number]
      refine ⟨fun index before => ?_, next⟩
      rcases Nat.lt_succ_iff_lt_or_eq.1 before with earlier | rfl
      · rw [List.getElem?_append_left (by rw [older.length_reports, ← number]; exact earlier)]
        exact reproduced index (number ▸ earlier)
      · refine ⟨_, ?_, report, result, reproduces⟩
        rw [number, ← older.length_reports, Option.mem_def, List.getElem?_concat_length]

/-! ## Replaying to the end -/

/-- A replay that is not finished steps as its land does. -/
theorem step_of_unfinished
    {replay : Replay σ}
    (unfinished : ¬ replay.isFinished = true) :
    replay.step rules = ((replay.land.step rules).result.map some,
      { replay with land := (replay.land.step rules).land }) := by
  rw [step, if_neg unfinished]

/-- A tick before which the replay is not cancelled leaves the rest to the replay
after it, unless it fails. -/
theorem runFor_succ
    {replay : Replay σ}
    {cancelledBefore : Tick → Bool}
    (unfinished : ¬ replay.isFinished = true)
    (going : cancelledBefore replay.land.nextTick = false)
    (fuel : Nat) :
    replay.runFor rules cancelledBefore (fuel + 1) =
      match (replay.step rules).1 with
      | .ok _ => (replay.step rules).2.runFor rules cancelledBefore fuel
      | .error error => .error error := by
  rw [runFor, if_neg unfinished, going, if_neg Bool.false_ne_true, step_of_unfinished unfinished]
  generalize replay.land.step rules = stepped
  obtain ⟨result, land, heard⟩ := stepped
  cases result <;> rfl

/-- A replay that is not finished goes on with the step of its land. -/
theorem unfinished_of_step
    {replay : Replay σ}
    {report : TickReport}
    (replayed : (replay.step rules).1 = .ok (some report)) :
    ¬ replay.isFinished = true := by
  intro finished
  rw [step, if_pos finished] at replayed
  cases replayed

/-- Ticks that are replayed leave the rest to the replay after them. -/
theorem runFor_advance
    {replay : Replay σ}
    {ticks : Nat}
    (replayed : ∀ index < ticks, ∃ report,
      ((replay.advance rules index).step rules).1 = .ok (some report))
    (fuel : Nat) :
    replay.runFor rules (fun _ => false) (ticks + fuel) =
      (replay.advance rules ticks).runFor rules (fun _ => false) fuel := by
  induction ticks generalizing fuel with
  | zero => rw [Nat.zero_add, advance]
  | succ ticks inductionHypothesis =>
      obtain ⟨report, last⟩ := replayed ticks (Nat.lt_succ_self ticks)
      rw [Nat.add_assoc, Nat.add_comm 1 fuel,
        inductionHypothesis (fun index before => replayed index (Nat.lt_succ_of_lt before)),
        runFor_succ (unfinished_of_step last) rfl, last]
      rfl

/-- A replay that has come past the last tick is finished. -/
theorem At.isFinished
    {replay : Replay σ}
    {source : Source}
    {strict : Bool}
    {state : σ}
    {numbering : Numbering}
    {frames : List Recording.Frame}
    (here : replay.At source strict frames.length state numbering)
    (numbered : Recording.Numbered frames)
    (ends : source.lastTick? = frames.getLast?.map (·.tick)) :
    replay.isFinished = true := by
  rw [Replay.isFinished, here.lastTick, ends]
  cases last : frames.getLast? with
  | none => rfl
  | some frame =>
      rw [List.getLast?_eq_getElem?] at last
      have position := numbered _ frame last
      have inside := (List.getElem?_eq_some_iff.1 last).1
      rw [Option.map_some, decide_eq_true_iff, UInt64.lt_iff_toNat_lt, here.nextTick, position]
      exact inside

/-- A replay has as many ticks to go as there are frames. -/
theorem At.remaining
    {replay : Replay σ}
    {source : Source}
    {strict : Bool}
    {state : σ}
    {numbering : Numbering}
    {frames : List Recording.Frame}
    (begins : replay.At source strict 0 state numbering)
    (numbered : Recording.Numbered frames)
    (ends : source.lastTick? = frames.getLast?.map (·.tick)) :
    replay.remaining = frames.length := by
  rw [Replay.remaining, begins.lastTick, ends, begins.nextTick]
  cases last : frames.getLast? with
  | none =>
      rw [List.getLast?_eq_none_iff.1 last]
      rfl
  | some frame =>
      rw [List.getLast?_eq_getElem?] at last
      have position := numbered _ frame last
      have inside := (List.getElem?_eq_some_iff.1 last).1
      change frame.tick.toNat + 1 - 0 = frames.length
      rw [position]
      omega

end Replay

/-- The recording of a live land can be replayed: every beginning of it makes a
source, a replay of which, strict or not, reproduces what the ticks have reported
one by one, comes to its end, and counts every tick as a match. -/
def Replayable
    {σ : Type}
    (rules : Rules σ)
    (initial : σ)
    (reports : List TickReport)
    (land : Land σ) : Prop :=
  ∃ recording,
    land.recording? = some recording ∧
    recording.frames.length = reports.length ∧
    ∀ (count : Nat) (strict : Bool) (rebuild : Recording.Metadata → σ),
      rebuild recording.metadata = initial →
        let frames := recording.frames.take count
        ∃ source replay,
          Source.ofRecording ⟨recording.metadata, frames⟩ = .ok source ∧
          Replay.start rules source strict rebuild = .ok replay ∧
          (∀ index < frames.length, ∃ live ∈ reports[index]?, ∃ report,
            ((replay.advance rules index).step rules).1 = .ok (some report) ∧
              live.Reproduces report) ∧
          ((replay.advance rules frames.length).step rules).1 = .ok none ∧
          replay.run rules (fun _ => false) = .ok (.allMatching frames.length)

/-- Whatever is submitted to a live land, whatever its resolvers come to and
however often it steps, what it has recorded up to a fatal error can be
replayed. -/
theorem replay_reproduces_run
    {σ : Type}
    {rules : Rules σ}
    {config : LandConfig}
    {created : Timestamp}
    {initial : σ}
    {start land : Land σ}
    {past : List (Passage σ)}
    (started : Land.live rules config created initial = .ok start)
    (matching : config.landType = rules.landType)
    (run : Run rules start past land)
    (emitted : Addressed (reports rules past)) :
    Replayable rules initial (reports rules past) land := by
  obtain ⟨all, tracks⟩ := run.tracks started
  obtain ⟨_, _, whole, -⟩ := tracks.history
  refine ⟨⟨config.recordingMetadata created (some (rules.fingerprint initial)), all⟩,
    tracks.recording_eq, whole.length_reports.symm, fun count strict rebuild rebuilt => ?_⟩
  let recording : Recording :=
    ⟨config.recordingMetadata created (some (rules.fingerprint initial)), all.take count⟩
  obtain ⟨state, numbering, history⟩ := whole.take count
  have numbered : Recording.Numbered recording.frames := fun _ _ found => history.tick_eq found
  have readable : ∀ frame ∈ recording.frames, frame.Addressed := fun frame member =>
    whole.addressed emitted frame (List.mem_of_mem_take member)
  obtain ⟨source, isSource, metadata, found, ends⟩ :=
    Source.ofRecording_eq_ok numbered readable
  have sameType : source.metadata.landType = rules.landType := by
    rw [metadata]
    exact matching
  have sameHash : source.metadata.initialHash = some (rules.fingerprint initial) := by
    rw [metadata]
    rfl
  have rebuilt : rebuild source.metadata = initial := by
    rw [metadata]
    exact rebuilt
  obtain ⟨replay, isStart, begins⟩ := Replay.start_eq_ok sameType rebuilt sameHash strict
  have within : ∀ frame ∈ recording.frames, ∃ last ∈ source.lastTick?, frame.tick ≤ last := by
    rw [ends]
    exact fun frame member => numbered.le_last member
  obtain ⟨reproduced, here⟩ :=
    Replay.At.reproduces_history begins history found within
  have finished := here.isFinished numbered ends
  refine ⟨source, replay, isSource, isStart, fun index before => ?_, ?_, ?_⟩
  · obtain ⟨live, isLive, report, replayed, reproduces⟩ := reproduced index before
    rw [List.getElem?_take_of_lt (Nat.lt_of_lt_of_le before (List.length_take_le _ _))] at isLive
    exact ⟨live, isLive, report, replayed, reproduces⟩
  · rw [Replay.step, if_pos finished]
  · rw [Replay.run, (begins {}).remaining numbered ends,
      Replay.runFor_advance fun index before =>
        let ⟨_, _, report, replayed, _⟩ := reproduced index before
        ⟨report, replayed⟩]
    rw [Replay.runFor, if_pos finished, Land.replaySummary, here.mode]

/-- On a ledger a join gets its stamp in the second tick and is executed before a note that
was submitted after it.  Two events and a milestone are emitted in three ticks, which can be
replayed. -/
theorem replay_reproduces_run_of_join :
    let rules := Ledger.rules { join := .stamped, milestone := 2 }
    ∃ start past land,
      Land.live rules { landId := "books", landType := "ledger" } .epoch {} = .ok start ∧
        Run rules start past land ∧
        (reports rules past).map (·.executed) = [[1], [0, 3], []] ∧
        (reports rules past).map (fun report => report.serverEvents.map (·.type)) =
          [["Add"], ["Joined", "Milestone"], []] ∧
        land.state = { entries := [(1, "late")], total := 2, joins := 1 } ∧
        Replayable rules {} (reports rules past) land := by
  intro rules
  let config : LandConfig := { landId := "books", landType := "ledger" }
  let player := Actor.ofIds "p1" "c1" "s1"
  let join : Inbound := .lifecycle .join player {}
  let stamp := (∅ : ResolverOutputs).insert "stamp" ⟨"Stamp", .string "in"⟩
  let operations : List Operation :=
    [.submit join, .submit (.action "Add" (.object [("amount", .ofInt64 2)]) player), .step,
      .submit (.action "Note" (.object [("text", .string "late")]) player),
      .complete ⟨join.submission 0, .ok stamp⟩, .step, .step]
  obtain ⟨start, started⟩ : ∃ start, Land.live rules config .epoch {} = .ok start := ⟨_, rfl⟩
  have run := Run.of_operations rules start operations (by
    obtain rfl := Except.ok.inj started
    decide +kernel)
  refine ⟨start, _, _, started, run, ?_, ?_, ?_, replay_reproduces_run started rfl run ?_⟩
  all_goals
    obtain rfl := Except.ok.inj started
    decide +kernel

end Chronicle
