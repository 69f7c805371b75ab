import Chronicle.Ledger
import Chronicle.Proofs.Account
import Chronicle.Proofs.Performance
import Chronicle.Proofs.Source
import Mathlib.Data.List.Sort

/-!
# The order of execution

In a run without a fatal error every item is executed once, in the tick in which
it became ready, and is recorded there.  The log of the whole run ascends by
that tick and the sequence number, so submissions that need no resolvers are
executed in the order in which they came.
-/

namespace Chronicle

variable {σ : Type} {rules : Rules σ} {past : List (Passage σ)} {land after : Land σ}
  {operation : Operation}

/-- The frames that a live land has recorded. -/
def Land.frames (land : Land σ) : List Recording.Frame :=
  match land.recorder? with
  | some recorder => recorder.frames
  | none => []

/-! ## Steps that end their tick -/

/-- A step of a live land ends its tick: the items that were ready leave the
queue and the frame that records them is added. -/
structure EndsTick (land after : Land σ) (queue : Queue) : Prop where
  live : ∃ recorder started, land.mode = .live queue recorder started
  consistent : queue.Consistent
  notFinal : land.nextTick ≠ finalTick
  left : ∃ recorder started,
    after.mode = .live (queue.drain (land.nextTick + 1)).2 recorder started
  nextTick : after.nextTick = land.nextTick + 1
  numbering : land.numbering.Behind after.numbering
  recorded : ∃ (outcome : TickOutcome) (stateHash : Option String),
    outcome.tick = land.nextTick ∧ outcome.executed = (queue.drain (land.nextTick + 1)).1 ∧
      after.frames = land.frames ++ [outcome.toFrame stateHash]

/-- A step that leaves no fatal error behind has ended its tick. -/
theorem Tracks.endsTick
    {initial : σ}
    {metadata : Recording.Metadata}
    {reports : List TickReport}
    {frames : List Recording.Frame}
    (tracks : Tracks rules initial metadata reports frames land)
    (takes : land.Takes .step)
    (going : (land.step rules).land.failed = false) :
    ∃ queue, EndsTick land (land.step rules).land queue := by
  obtain ⟨queue, recorder, started, live, consistent, holds⟩ := tracks.mode
  rcases Land.step_live_cases rules live holds (tracks.continues takes.1) with
    ⟨error, run, performed, stats, aborted⟩ | ⟨run, after, outcome, performed, isOutcome,
      afterHolds, stats, executed⟩
  · have fatal : error.isFatal = true := TickRun.isFatal_of_performAll performed
    rw [aborted, Land.note_eq] at going
    simp [fatal] at going
  · rw [executed]
    refine ⟨queue,
      { live := ⟨recorder, started, live⟩
        consistent := consistent
        notFinal := takes.2 rfl
        left := ⟨after, started, rfl⟩
        nextTick := rfl
        numbering := TickRun.behind_of_performAll performed
        recorded := ⟨outcome, some (rules.fingerprint run.state), ?_, ?_, ?_⟩ }⟩
    · rw [isOutcome]
    · rw [isOutcome]
    · simp only [Land.frames, Land.recorder?, live, holds.frames, afterHolds.frames]

/-! ## The log of a run -/

/-- The log of a run is in order: it ascends, every step has executed the part
of it that belongs to its tick, and every frame records that part. -/
structure LogInOrder (past : List (Passage σ)) (land : Land σ) : Prop where
  ascending : (log past).Pairwise Item.Precedes
  steps : ∀ passage ∈ past, passage.operation = .step →
    passage.before.nextTick < land.nextTick ∧
      passage.executed =
        (log past).filter fun item => item.resolvedAt == passage.before.nextTick
  frames : ∀ frame ∈ land.frames,
    frame.tick < land.nextTick ∧
      frame.records.Perm
        (((log past).filter fun item => item.resolvedAt == frame.tick).map
          (Item.toRecord frame.tick))

namespace LogInOrder

/-- An operation that is not a step keeps the log. -/
theorem keep
    (inOrder : LogInOrder past land)
    (notStep : operation ≠ .step)
    (nextTick : after.nextTick = land.nextTick)
    (frames : after.frames = land.frames) :
    LogInOrder (past ++ [⟨land, operation⟩]) after := by
  have sameLog : log (past ++ [⟨land, operation⟩]) = log past := by
    rw [log_snoc]
    cases operation with
    | submit inbound => exact List.append_nil _
    | complete completion => exact List.append_nil _
    | step => exact absurd rfl notStep
  refine ⟨?_, fun passage member isStep => ?_, ?_⟩
  · rw [sameLog]
    exact inOrder.ascending
  · rw [sameLog, nextTick]
    rcases List.mem_append.1 member with earlier | last
    · exact inOrder.steps passage earlier isStep
    · obtain rfl := List.mem_singleton.1 last
      exact absurd isStep notStep
  · rw [sameLog, nextTick, frames]
    exact inOrder.frames

/-- What a tick adds to the log belongs to the tick, and nothing else does. -/
theorem filter_log_snoc
    {queue : Queue}
    (balanced : Balanced rules past land queue)
    (ends : EndsTick land after queue)
    (tick : Tick) :
    (log (past ++ [⟨land, .step⟩])).filter (fun item => item.resolvedAt == tick) =
      if tick = land.nextTick then queue.toList
      else (log past).filter fun item => item.resolvedAt == tick := by
  obtain ⟨recorder, started, live⟩ := ends.live
  obtain ⟨everything, -⟩ := balanced.executed_step live ends.consistent ends.notFinal
  rw [log_snoc, everything, List.filter_append]
  split
  · rename_i now
    have noneBefore : (log past).filter (fun item => item.resolvedAt == tick) = [] := by
      apply List.filter_eq_nil_iff.2
      intro item executed same
      have earlier := balanced.done item executed
      rw [beq_iff_eq.1 same, now] at earlier
      exact UInt64.lt_irrefl _ earlier
    have allNow : queue.toList.filter (fun item => item.resolvedAt == tick) = queue.toList := by
      apply List.filter_eq_self.2
      intro item waits
      rw [balanced.waiting item waits, now, beq_self_eq_true]
    rw [noneBefore, allNow, List.nil_append]
  · rename_i other
    have noneNow : queue.toList.filter (fun item => item.resolvedAt == tick) = [] := by
      refine List.filter_eq_nil_iff.2 fun item waits same => other ?_
      rw [← beq_iff_eq.1 same, balanced.waiting item waits]
    rw [noneNow, List.append_nil]

/-- A step that ends its tick keeps the log in order. -/
theorem step
    {queue : Queue}
    (inOrder : LogInOrder past land)
    (balanced : Balanced rules past land queue)
    (ends : EndsTick land after queue) :
    LogInOrder (past ++ [⟨land, .step⟩]) after := by
  obtain ⟨recorder, started, live⟩ := ends.live
  obtain ⟨everything, -⟩ := balanced.executed_step live ends.consistent ends.notFinal
  have later {tick : Tick} (before : tick < land.nextTick) : tick < after.nextTick := by
    rw [ends.nextTick, Balanced.lt_next_iff ends.notFinal]
    exact .inl before
  have now : land.nextTick < after.nextTick := by
    rw [ends.nextTick, Balanced.lt_next_iff ends.notFinal]
    exact .inr rfl
  refine ⟨?_, fun passage member isStep => ?_, fun frame member => ?_⟩
  · rw [log_snoc, everything]
    refine List.pairwise_append.2 ⟨inOrder.ascending, ends.consistent.ordered, ?_⟩
    intro first executed second waits
    refine Item.precedes_iff.2 (.inl ?_)
    rw [balanced.waiting second waits]
    exact balanced.done first executed
  · rw [filter_log_snoc balanced ends]
    rcases List.mem_append.1 member with earlier | last
    · obtain ⟨before, executed⟩ := inOrder.steps passage earlier isStep
      refine ⟨later before, ?_⟩
      rw [if_neg (UInt64.ne_of_lt before), executed]
    · obtain rfl := List.mem_singleton.1 last
      exact ⟨now, by rw [if_pos rfl, everything]⟩
  · obtain ⟨outcome, stateHash, tick, executed, frames⟩ := ends.recorded
    rw [filter_log_snoc balanced ends]
    rw [frames] at member
    rcases List.mem_append.1 member with earlier | last
    · obtain ⟨before, records⟩ := inOrder.frames frame earlier
      refine ⟨later before, ?_⟩
      rw [if_neg (UInt64.ne_of_lt before)]
      exact records
    · obtain rfl := List.mem_singleton.1 last
      have sameTick : (outcome.toFrame stateHash).tick = land.nextTick := tick
      have drained : (queue.drain (land.nextTick + 1)).1 = queue.toList := by
        rw [← everything, Passage.executed, Land.take, live]
      rw [sameTick, if_pos rfl]
      refine ⟨now, (outcome.records_toFrame_perm stateHash).trans ?_⟩
      rw [executed, drained, tick]

end LogInOrder

/-! ## What holds in every run -/

section Runs

variable {config : LandConfig} {created : Timestamp} {initial : σ} {start : Land σ}

/-- The account of every run is balanced, until a fatal error occurs. -/
theorem Run.balanced
    (started : Land.live rules config created initial = .ok start)
    (run : Run rules start past land)
    (genuine : Genuine rules past)
    (going : land.failed = false)
    {queue : Queue}
    {recorder : Recorder}
    {resolutions : Nat}
    (live : land.mode = .live queue recorder resolutions) :
    Balanced rules past land queue := by
  induction run generalizing queue recorder resolutions with
  | nothing =>
      obtain ⟨_, _, rfl⟩ := Land.live_eq_ok started
      injection live with isEmpty
      exact isEmpty ▸ .begins _
  | next run takes inductionHypothesis =>
      rename_i past land operation
      obtain ⟨frames, tracks⟩ := run.tracks started
      obtain ⟨before, _, _, wasLive, consistent, -⟩ := tracks.mode
      have balanced := inductionHypothesis (genuine_snoc_iff.1 genuine).1 takes.1 wasLive
      cases operation with
      | submit inbound =>
          obtain ⟨_, _, _, isLive, after⟩ := balanced.submit wasLive consistent inbound
          injection isLive.symm.trans live with same
          exact same ▸ after
      | complete completion =>
          obtain ⟨_, _, _, isLive, after⟩ :=
            balanced.complete wasLive consistent ((genuine_snoc_iff.1 genuine).2 _ rfl)
          injection isLive.symm.trans live with same
          exact same ▸ after
      | step =>
          obtain ⟨drained, ends⟩ := tracks.endsTick takes going
          obtain ⟨_, _, alsoLive⟩ := ends.live
          obtain ⟨_, _, isLive⟩ := ends.left
          injection wasLive.symm.trans alsoLive with sameBefore
          injection isLive.symm.trans live with same
          subst sameBefore
          exact same ▸ balanced.step wasLive consistent ends.notFinal ends.nextTick ends.numbering

/-- The frames of a live land change in no operation but a step. -/
theorem Land.frames_after
    (rules : Rules σ)
    {queue : Queue}
    {recorder : Recorder}
    {resolutions : Nat}
    (live : land.mode = .live queue recorder resolutions)
    (notStep : operation ≠ .step) :
    (land.after rules operation).frames = land.frames ∧
      (land.after rules operation).nextTick = land.nextTick := by
  cases operation with
  | submit inbound =>
      rcases Land.submit_live_cases rules live inbound with
        ⟨error, refused⟩ | ⟨sequence, numbering, -, -, queued⟩ |
          ⟨resolvers, sequence, numbering, -, -, -, resolving⟩
      · rw [after, refused, note_eq]
        exact ⟨rfl, rfl⟩
      · rw [after, queued]
        exact ⟨by simp only [frames, recorder?, live], rfl⟩
      · rw [after, resolving]
        exact ⟨by simp only [frames, recorder?, live], rfl⟩
  | complete completion =>
      rcases Land.complete_live_cases live completion with
        ⟨outputs, -, resolved⟩ | ⟨error, -, dropped⟩
      · rw [after, resolved]
        exact ⟨by simp only [frames, recorder?, live], rfl⟩
      · rw [after, dropped]
        exact ⟨rfl, rfl⟩
  | step => exact absurd rfl notStep

/-- The log of every run is in order, until a fatal error occurs. -/
theorem Run.logInOrder
    (started : Land.live rules config created initial = .ok start)
    (run : Run rules start past land)
    (genuine : Genuine rules past)
    (going : land.failed = false) :
    LogInOrder past land := by
  induction run with
  | nothing =>
      obtain ⟨_, holds, rfl⟩ := Land.live_eq_ok started
      refine ⟨List.Pairwise.nil, fun _ member => absurd member List.not_mem_nil, ?_⟩
      simp only [Land.frames, Land.recorder?, holds.frames]
      exact fun _ member => absurd member List.not_mem_nil
  | next run takes inductionHypothesis =>
      rename_i past land operation
      obtain ⟨frames, tracks⟩ := run.tracks started
      obtain ⟨before, _, _, wasLive, consistent, -⟩ := tracks.mode
      have inOrder := inductionHypothesis (genuine_snoc_iff.1 genuine).1 takes.1
      by_cases isStep : operation = .step
      · subst isStep
        obtain ⟨queue, ends⟩ := tracks.endsTick takes going
        obtain ⟨_, _, live⟩ := ends.live
        exact inOrder.step (run.balanced started (genuine_snoc_iff.1 genuine).1 takes.1 live) ends
      · obtain ⟨sameFrames, nextTick⟩ := Land.frames_after rules wasLive isStep
        exact inOrder.keep isStep nextTick sameFrames

/-- Items of submissions without resolvers enter in the order of their numbers, for
ticks that do not go back. -/
theorem Run.direct_ascending
    (started : Land.live rules config created initial = .ok start)
    (run : Run rules start past land)
    (genuine : Genuine rules past) :
    (direct rules past).Pairwise fun first second =>
      first.resolvedAt ≤ second.resolvedAt ∧ first.sequence < second.sequence := by
  induction run with
  | nothing => exact List.Pairwise.nil
  | next run takes inductionHypothesis =>
      rename_i past land operation
      obtain ⟨frames, tracks⟩ := run.tracks started
      obtain ⟨queue, _, _, live, consistent, -⟩ := tracks.mode
      have balanced := run.balanced started (genuine_snoc_iff.1 genuine).1 takes.1 live
      have ascending := inductionHypothesis (genuine_snoc_iff.1 genuine).1
      rw [direct_snoc]
      cases new : (⟨land, operation⟩ : Passage σ).direct? rules with
      | none => simpa using ascending
      | some item =>
          refine List.pairwise_append.2
            ⟨ascending, List.pairwise_singleton _ _, fun first earlier second last => ?_⟩
          obtain rfl := List.mem_singleton.1 last
          have entered := mem_entries_of_direct earlier
          have resolvedAt := Passage.resolvedAt_of_enters (by rw [Passage.enters?, new]; rfl)
          have number := Passage.sequence_of_direct live new
          have smaller := balanced.issued.below _ (sequence_mem_given entered)
          rw [← number] at smaller
          refine ⟨?_, smaller⟩
          rw [resolvedAt]
          rcases List.mem_append.1 (balanced.conserved.mem_iff.2 entered) with executed | waits
          · exact UInt64.le_of_lt (balanced.done first executed)
          · exact UInt64.le_of_eq (balanced.waiting first waits)

/-- What comes after a submission without resolvers is executed in its tick or later. -/
theorem Run.resolvedAt_le_of_direct
    (started : Land.live rules config created initial = .ok start)
    (run : Run rules start past land)
    (genuine : Genuine rules past)
    {first second : Item}
    (isDirect : first ∈ direct rules past)
    (entered : second ∈ entries rules past)
    (smaller : first.sequence < second.sequence) :
    first.resolvedAt ≤ second.resolvedAt := by
  induction run with
  | nothing => exact absurd entered List.not_mem_nil
  | next run takes inductionHypothesis =>
      rename_i past land operation
      obtain ⟨frames, tracks⟩ := run.tracks started
      obtain ⟨queue, _, _, live, -⟩ := tracks.mode
      have balanced := run.balanced started (genuine_snoc_iff.1 genuine).1 takes.1 live
      rw [direct_snoc] at isDirect
      rw [entries_snoc] at entered
      rcases List.mem_append.1 isDirect with earlier | now <;>
        rcases List.mem_append.1 entered with before | enters
      · exact inductionHypothesis (genuine_snoc_iff.1 genuine).1 earlier before
      · rw [Passage.resolvedAt_of_enters (Option.mem_toList.1 enters)]
        rcases List.mem_append.1
          (balanced.conserved.mem_iff.2 (mem_entries_of_direct earlier)) with executed | waits
        · exact UInt64.le_of_lt (balanced.done first executed)
        · exact UInt64.le_of_eq (balanced.waiting first waits)
      · have given := balanced.issued.below _ (sequence_mem_given before)
        rw [← Passage.sequence_of_direct live (Option.mem_toList.1 now)] at given
        exact absurd (UInt64.lt_trans smaller given) (UInt64.lt_irrefl _)
      · have isFirst := Option.mem_toList.1 now
        rw [Option.mem_toList, Passage.enters?, Option.mem_def.1 isFirst, Option.some_or] at enters
        obtain rfl := Option.some.inj enters
        exact UInt64.le_refl _

end Runs

/-! ## Exactly once and in order -/

/-- What a run has executed: every item that has entered the queue once, in its
tick, and nothing else, in the order of execution. -/
structure ExecutedInOrder
    (rules : Rules σ)
    (past : List (Passage σ))
    (land : Land σ) : Prop where
  /-- An item becomes ready for the tick that comes next when it enters. -/
  ready : ∀ passage ∈ past, ∀ item ∈ passage.enters? rules,
    item.resolvedAt = passage.before.nextTick
  /-- An item is in the log once if its tick has been executed, and else not. -/
  once : ∀ item ∈ entries rules past,
    (log past).filter (fun other => other.sequence == item.sequence) =
      if item.resolvedAt < land.nextTick then [item] else []
  /-- The step of its tick executes an item, and no other step does. -/
  inTick : ∀ item ∈ entries rules past, ∀ passage ∈ past, passage.operation = .step →
    passage.executed.filter (fun other => other.sequence == item.sequence) =
      if passage.before.nextTick = item.resolvedAt then [item] else []
  /-- A step has what it executes handled, in this order, and then runs the update. -/
  performed : ∀ passage ∈ past, passage.operation = .step →
    passage.before.Performs rules passage.executed (passage.before.step rules)
  /-- The frame of its tick records an item, and no other frame does. -/
  recorded : ∃ recording,
    land.recording? = some recording ∧
      recording.frames.length = land.nextTick.toNat ∧
      Recording.Numbered recording.frames ∧
      ∀ frame ∈ recording.frames,
        (∀ record ∈ frame.records, record.resolvedAt = frame.tick) ∧
        ∀ item ∈ entries rules past,
          frame.records.filter (fun record => record.sequence == item.sequence) =
            if frame.tick = item.resolvedAt then [item.toRecord frame.tick] else []
  /-- Only admitted submissions are executed. -/
  admitted : ∀ item ∈ log past,
    item ∈ entries rules past ∧ item.toSubmission ∈ Chronicle.admitted rules past
  /-- Submissions whose resolvers have failed are not executed. -/
  notDropped : ∀ submission ∈ dropped past, ∀ item ∈ log past,
    item.sequence ≠ submission.sequence
  /-- The log ascends by the tick and the sequence number. -/
  ascending : (log past).Pairwise Item.Precedes
  /-- Submissions without resolvers are executed in the order of submission. -/
  direct : ((Chronicle.direct rules past).filter fun item =>
    item.resolvedAt < land.nextTick).Sublist (log past)

/-- Of the items that have entered, only one has its sequence number. -/
theorem Balanced.eq_of_sequence_eq
    {queue : Queue}
    (balanced : Balanced rules past land queue)
    {first second : Item}
    (here : first ∈ entries rules past)
    (there : second ∈ entries rules past)
    (same : first.sequence = second.sequence) :
    first = second :=
  List.inj_on_of_nodup_map (List.nodup_append.1 balanced.issued.distinct).1 here there same

/-- An item is in the log exactly when its tick has been executed. -/
theorem Balanced.mem_log_iff
    {queue : Queue}
    (balanced : Balanced rules past land queue)
    {item : Item} :
    item ∈ log past ↔ item ∈ entries rules past ∧ item.resolvedAt < land.nextTick := by
  constructor
  · intro executed
    exact ⟨balanced.conserved.mem_iff.1 (List.mem_append_left _ executed),
      balanced.done item executed⟩
  · rintro ⟨entered, before⟩
    rcases List.mem_append.1 (balanced.conserved.mem_iff.2 entered) with executed | waits
    · exact executed
    · rw [balanced.waiting item waits] at before
      exact absurd before (UInt64.lt_irrefl _)

/-- The part of the log with the number of an item that has entered. -/
theorem Balanced.filter_log
    {queue : Queue}
    (balanced : Balanced rules past land queue)
    (ascending : (log past).Pairwise Item.Precedes)
    {item : Item}
    (entered : item ∈ entries rules past) :
    (log past).filter (fun other => other.sequence == item.sequence) =
      if item.resolvedAt < land.nextTick then [item] else [] := by
  have onlyItem : ∀ other ∈ log past, (other.sequence == item.sequence) = true → other = item :=
    fun other executed same => balanced.eq_of_sequence_eq (balanced.mem_log_iff.1 executed).1
      entered (beq_iff_eq.1 same)
  refine List.Pairwise.eq_of_mem_iff (ascending.filter _) ?_ fun other => ?_
  · split
    · exact List.pairwise_singleton _ _
    · exact List.Pairwise.nil
  · rw [List.mem_filter]
    constructor
    · rintro ⟨executed, same⟩
      obtain rfl := onlyItem other executed same
      rw [if_pos (balanced.done other executed)]
      exact List.mem_cons_self
    · intro member
      split at member
      · rename_i before
        obtain rfl := List.mem_singleton.1 member
        exact ⟨balanced.mem_log_iff.2 ⟨entered, before⟩, beq_self_eq_true _⟩
      · exact absurd member List.not_mem_nil

/-- The part of the log with the number of an item that has entered, within one
tick. -/
theorem Balanced.filter_log_tick
    {queue : Queue}
    (balanced : Balanced rules past land queue)
    (ascending : (log past).Pairwise Item.Precedes)
    {item : Item}
    (entered : item ∈ entries rules past)
    {tick : Tick}
    (before : tick < land.nextTick) :
    ((log past).filter fun other => other.resolvedAt == tick).filter
        (fun other => other.sequence == item.sequence) =
      if tick = item.resolvedAt then [item] else [] := by
  rw [List.filter_comm, balanced.filter_log ascending entered]
  by_cases same : tick = item.resolvedAt
  · subst same
    simp [before]
  · split <;> simp [Ne.symm same]

/-- Every run of a new live land executes its items once and in order, as long
as no fatal error occurs and completions come from the runner of the
resolvers. -/
theorem run_executes_in_order
    {config : LandConfig}
    {created : Timestamp}
    {initial : σ}
    {start : Land σ}
    (started : Land.live rules config created initial = .ok start)
    (run : Run rules start past land)
    (genuine : Genuine rules past)
    (going : land.failed = false) :
    ExecutedInOrder rules past land := by
  obtain ⟨frames, tracks⟩ := run.tracks started
  obtain ⟨queue, recorder, resolutions, live, consistent, holds⟩ := tracks.mode
  obtain ⟨_, _, history, current⟩ := tracks.history
  obtain ⟨-, -, nextTick⟩ := current going
  have balanced := run.balanced started genuine going live
  have inOrder := run.logInOrder started genuine going
  have landFrames : land.frames = frames := by
    simp only [Land.frames, Land.recorder?, live, holds.frames]
  refine
    { ready := fun passage _ item entered => Passage.resolvedAt_of_enters entered
      once := fun item entered => balanced.filter_log inOrder.ascending entered
      inTick := fun item entered passage member isStep => ?_
      performed := fun passage member isStep => ?_
      recorded := ⟨⟨config.recordingMetadata created (some (rules.fingerprint initial)), frames⟩,
        tracks.recording_eq, nextTick.symm, fun _ _ found => history.tick_eq found,
        fun frame member => ⟨fun record recorded => ?_, fun item entered => ?_⟩⟩
      admitted := fun item executed => ?_
      notDropped := fun submission isDropped item executed same => ?_
      ascending := inOrder.ascending
      direct := ?_ }
  · obtain ⟨before, executed⟩ := inOrder.steps passage member isStep
    rw [executed, balanced.filter_log_tick inOrder.ascending entered before]
  · rw [Passage.executed, isStep]
    exact run.performs started going passage member isStep
  · obtain ⟨before, records⟩ := inOrder.frames frame (landFrames ▸ member)
    obtain ⟨item, executed, rfl⟩ := List.mem_map.1 (records.mem_iff.1 recorded)
    rw [Item.toRecord_resolvedAt]
    exact beq_iff_eq.1 (List.mem_filter.1 executed).2
  · obtain ⟨before, records⟩ := inOrder.frames frame (landFrames ▸ member)
    have sameNumber := records.filter fun record => record.sequence == item.sequence
    rw [List.filter_map] at sameNumber
    have within := balanced.filter_log_tick inOrder.ascending entered before
    simp only [Function.comp_def, Item.toRecord_sequence] at sameNumber
    rw [within] at sameNumber
    split
    · rename_i same
      rw [if_pos same] at sameNumber
      exact List.perm_singleton.1 sameNumber
    · rename_i other
      rw [if_neg other] at sameNumber
      exact List.perm_nil.1 sameNumber
  · have entered := (balanced.mem_log_iff.1 executed).1
    exact ⟨entered, mem_admitted_of_entries genuine entered⟩
  · have entered := (balanced.mem_log_iff.1 executed).1
    exact (List.nodup_append.1 balanced.issued.distinct).2.2 _ (List.mem_map_of_mem entered) _
      (List.mem_map_of_mem (List.mem_append_right _ isDropped)) same
  · have ascending : (Chronicle.direct rules past).Pairwise Item.Precedes :=
      (run.direct_ascending started genuine).imp fun ordered =>
        Item.precedes_of_le ordered.1 ordered.2
    refine List.sublist_of_subperm_of_pairwise ?_ (ascending.filter _) inOrder.ascending
    apply List.subperm_of_subset (ascending.filter _).nodup
    intro item member
    obtain ⟨isDirect, before⟩ := List.mem_filter.1 member
    exact balanced.mem_log_iff.2 ⟨mem_entries_of_direct isDirect, decide_eq_true_iff.1 before⟩

/-- On a ledger a join that waits for its stamp is executed after a note and a leave that
were submitted later. -/
theorem run_executes_in_order_of_stamped_join :
    ∃ start past land,
      Land.live (Ledger.rules { join := .stamped })
          { landId := "books", landType := "ledger" } .epoch {} = .ok start ∧
        Run (Ledger.rules { join := .stamped }) start past land ∧
        (log past).map (·.sequence) = [1, 2, 0] ∧
        land.state = { entries := [(0, "early")], joins := 1 } ∧
        ExecutedInOrder (Ledger.rules { join := .stamped }) past land := by
  let rules := Ledger.rules { join := .stamped }
  let config : LandConfig := { landId := "books", landType := "ledger" }
  let player := Actor.ofIds "p1" "c1" "s1"
  let operations : List Operation :=
    [.submit (.lifecycle .join player {}),
      .submit (.action "Note" (.object [("text", .string "early")]) player),
      .submit (.lifecycle .leave player {}), .step,
      .complete ⟨(Inbound.lifecycle .join player {}).submission 0, .ok ∅⟩, .step]
  obtain ⟨start, started⟩ : ∃ start, Land.live rules config .epoch {} = .ok start := ⟨_, rfl⟩
  have run := Run.of_operations rules start operations (by
    obtain rfl := Except.ok.inj started
    decide +kernel)
  refine ⟨start, _, _, started, run, ?_, ?_, run_executes_in_order started run ?_ ?_⟩
  all_goals
    obtain rfl := Except.ok.inj started
    decide +kernel

end Chronicle
