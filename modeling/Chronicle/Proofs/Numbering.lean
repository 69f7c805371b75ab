import Chronicle.Proofs.Visits
import Mathlib.Data.List.Flatten

/-!
# One numbering

Submissions and published events take their numbers from one counter.  Over a
run the counter hands out zero, one, two and so on, so no number is given twice,
to whatever it belongs.  Items are recorded later than their numbers were handed
out, events at once: an event has a greater number than every item executed up to
its tick.
-/

namespace Chronicle

/-! ## The events of a tick -/

namespace TickRun

variable {σ : Type}

/-- The events that a tick has recorded are its own and are numbered one after the
other, from a number on. -/
structure Numbered (tick : Tick) (first : Numbering) (run : TickRun σ) : Prop where
  sequences : run.recorded.map (·.sequence.toNat) =
    List.range' first.next.toNat run.recorded.length
  next : run.numbering.next.toNat = first.next.toNat + run.recorded.length
  own : ∀ event ∈ run.recorded, event.kind = .serverEvent ∧ event.tick = tick

namespace Numbered

variable {tick : Tick} {first : Numbering} {run : TickRun σ}

/-- A tick that has recorded nothing. -/
theorem begins (tick : Tick) (state : σ) (numbering : Numbering) :
    Numbered tick numbering ⟨state, numbering, [], [], 0⟩ where
  sequences := rfl
  next := rfl
  own := fun _ member => absurd member List.not_mem_nil

/-- An event that is published has the next number. -/
theorem withEvent
    (numbered : run.Numbered tick first)
    {event : Event}
    {sequence : Sequence}
    {numbering : Numbering}
    (issued : run.numbering.issue = .ok (sequence, numbering)) :
    (TickRun.withEvent tick run event sequence numbering).Numbered tick first := by
  obtain ⟨-, rfl, successor⟩ := Numbering.issue_eq_ok_iff.1 issued
  refine ⟨?_, ?_, fun other member => ?_⟩
  · simp only [List.map_append, List.map_cons, List.map_nil, List.length_append,
      List.length_singleton, numbered.sequences, List.range'_concat, record, numbered.next,
      Nat.one_mul]
  · rw [successor, numbered.next, List.length_append, List.length_singleton, Nat.add_assoc]
  · rcases List.mem_append.1 member with earlier | last
    · exact numbered.own other earlier
    · obtain rfl := List.mem_singleton.1 last
      exact ⟨rfl, rfl⟩

/-- Effects number their events one after the other, also when the numbers run
out. -/
theorem performAll (numbered : run.Numbered tick first) (effects : List (Effect σ Unit)) :
    (TickRun.performAll tick run effects).2.Numbered tick first :=
  performAll_preserves (motive := Numbered tick first)
    (fun _ _ _ holds => ⟨holds.sequences, holds.next, holds.own⟩)
    (fun _ _ _ _ issued holds => holds.withEvent issued) effects numbered

end Numbered
end TickRun

/-! ## The numbers of a run -/

namespace Passage

variable {σ : Type}

/-- The events that a step has published, also when its tick was aborted. -/
def published (rules : Rules σ) (passage : Passage σ) : List Recording.ServerEvent :=
  match passage.operation with
  | .step =>
      let land := passage.before
      (TickRun.performAll land.nextTick ⟨land.state, land.numbering, [], [], 0⟩
        (rules.effects land.nextTick land.take.1)).2.recorded
  | _ => []

/-- The numbers that are handed out in an operation, in order. -/
def numbers (rules : Rules σ) (passage : Passage σ) : List Sequence :=
  (passage.admitted? rules).toList.map (·.sequence) ++
    (passage.published rules).map (·.sequence)

end Passage

/-- The numbers that are handed out in a run, in order. -/
def handedOut {σ : Type} (rules : Rules σ) (past : List (Passage σ)) : List Sequence :=
  past.flatMap (Passage.numbers rules)

/-- The events that are published in a run, in order. -/
def published {σ : Type} (rules : Rules σ) (past : List (Passage σ)) :
    List Recording.ServerEvent :=
  past.flatMap (Passage.published rules)

/-- The numbers in a frame: those of its items, then those of its events. -/
def Recording.Frame.numbers (frame : Recording.Frame) : List Sequence :=
  frame.records.map (·.sequence) ++ frame.serverEvents.map (·.sequence)

section Runs

variable {σ : Type} {rules : Rules σ} {past : List (Passage σ)} {passage : Passage σ}
  {start land : Land σ} {config : LandConfig} {created : Timestamp} {initial : σ}

/-- A step leaves the counter where its tick has brought it. -/
theorem Land.numbering_step (rules : Rules σ) (land : Land σ) :
    (land.step rules).land.numbering =
      (TickRun.performAll land.nextTick ⟨land.state, land.numbering, [], [], 0⟩
        (rules.effects land.nextTick land.take.1)).2.numbering := by
  simp only [step, Rules.execute]
  generalize TickRun.performAll land.nextTick ⟨land.state, land.numbering, [], [], 0⟩
    (rules.effects land.nextTick land.take.1) = performed
  obtain ⟨result, run⟩ := performed
  cases result with
  | error error => simp only [note_eq]
  | ok _ =>
      simp only
      split
      · rfl
      · simp only [note_eq]

/-- A completion needs no number. -/
theorem Land.numbering_complete (completion : Completion) (land : Land σ) :
    (land.complete completion).2.numbering = land.numbering := by
  unfold complete
  split
  · simp only [enqueue]
    split <;> rfl
  · rfl

/-- An operation hands out the numbers that are next, one after the other. -/
theorem Passage.numbers_eq
    (rules : Rules σ)
    (passage : Passage σ)
    {queue : Queue}
    {recorder : Recorder}
    {resolutions : Nat}
    (live : passage.before.mode = .live queue recorder resolutions) :
    (passage.numbers rules).map (·.toNat) =
        List.range' passage.before.numbering.next.toNat (passage.numbers rules).length ∧
      (passage.after rules).numbering.next.toNat =
        passage.before.numbering.next.toNat + (passage.numbers rules).length := by
  obtain ⟨land, operation⟩ := passage
  cases operation with
  | submit inbound =>
      rcases Land.submit_live_cases rules live inbound with
        ⟨error, refused⟩ | ⟨sequence, numbering, -, issued, queued⟩ |
          ⟨resolvers, sequence, numbering, -, -, issued, resolving⟩
      · simp [numbers, admitted?, published, after, Land.after, refused, Land.note_eq]
      · obtain ⟨-, rfl, successor⟩ := Numbering.issue_eq_ok_iff.1 issued
        simp [numbers, admitted?, published, after, Land.after, queued, successor]
      · obtain ⟨-, rfl, successor⟩ := Numbering.issue_eq_ok_iff.1 issued
        simp [numbers, admitted?, published, after, Land.after, resolving, successor]
  | complete completion =>
      simp [numbers, admitted?, published, after, Land.after, Land.numbering_complete]
  | step =>
      have numbered := (TickRun.Numbered.begins land.nextTick land.state
        land.numbering).performAll (rules.effects land.nextTick land.take.1)
      have sequences := numbered.sequences
      have next := numbered.next
      rw [← Land.numbering_step] at next
      simp only [numbers, admitted?, published, after, Land.after, Option.toList_none,
        List.map_nil, List.nil_append, List.length_map, List.map_map]
      exact ⟨sequences, next⟩

/-- A run begins with the number zero and hands out one number after the other. -/
theorem Run.handedOut_eq
    (started : Land.live rules config created initial = .ok start)
    (run : Run rules start past land) :
    (handedOut rules past).map (·.toNat) = List.range land.numbering.next.toNat := by
  induction run with
  | nothing =>
      obtain ⟨_, -, rfl⟩ := Land.live_eq_ok started
      rfl
  | next run takes inductionHypothesis =>
      rename_i past land operation
      obtain ⟨frames, tracks⟩ := run.tracks started
      obtain ⟨queue, _, _, live, -⟩ := tracks.mode
      obtain ⟨sequences, next⟩ :=
        Passage.numbers_eq rules ⟨land, operation⟩ live
      have next : (land.after rules operation).numbering.next.toNat = _ := next
      rw [handedOut, List.flatMap_append, List.map_append, List.flatMap_singleton, sequences,
        ← handedOut, inductionHypothesis, next, List.range_eq_range', List.range_eq_range',
        ← List.range'_append_1, Nat.zero_add]

/-- What was handed out is from before. -/
theorem Run.lt_of_mem_handedOut
    (started : Land.live rules config created initial = .ok start)
    (run : Run rules start past land)
    {number : Sequence}
    (member : number ∈ handedOut rules past) :
    number < land.numbering.next := by
  have below := List.mem_map_of_mem (f := UInt64.toNat) member
  rw [run.handedOut_eq started, List.mem_range] at below
  exact UInt64.lt_iff_toNat_lt.2 below

/-- No number is handed out after a greater one. -/
theorem Run.ascending
    (started : Land.live rules config created initial = .ok start)
    (run : Run rules start past land) :
    (handedOut rules past).Pairwise fun earlier later => earlier < later := by
  have inOrder := List.pairwise_lt_range (n := land.numbering.next.toNat)
  rw [← run.handedOut_eq started, List.pairwise_map] at inOrder
  exact inOrder.imp UInt64.lt_iff_toNat_lt.2

/-- The numbers handed out in a run are those of the admitted submissions and of the
published events. -/
theorem handedOut_perm (rules : Rules σ) (past : List (Passage σ)) :
    (handedOut rules past).Perm
      ((admitted rules past).map (·.sequence) ++ (published rules past).map (·.sequence)) := by
  have parts := List.flatMap_append_perm past
    (fun passage => (passage.admitted? rules).toList.map (·.sequence))
    (fun passage => (passage.published rules).map (·.sequence))
  rw [← List.map_flatMap, ← List.map_flatMap, ← List.filterMap_eq_flatMap_toList] at parts
  exact parts.symm

/-- A run can be cut at any of its operations. -/
theorem Run.before
    {earlier later : List (Passage σ)}
    (run : Run rules start (earlier ++ passage :: later) land) :
    Run rules start earlier passage.before ∧ passage.before.Takes passage.operation := by
  generalize whole : earlier ++ passage :: later = past at run
  induction run generalizing later with
  | nothing => exact absurd whole (by simp)
  | next run takes inductionHypothesis =>
      rcases List.eq_nil_or_concat later with rfl | ⟨between, last, rfl⟩
      · obtain ⟨rfl, same⟩ := List.append_inj' whole rfl
        obtain rfl := List.singleton_inj.1 same
        exact ⟨run, takes⟩
      · rw [List.concat_eq_append, ← List.cons_append, ← List.append_assoc] at whole
        exact inductionHypothesis (List.append_inj' whole rfl).1

/-- A step adds the frame with its published events, or ends the run with a fatal
error and adds none. -/
theorem Tracks.frames_step
    {metadata : Recording.Metadata}
    {reports : List TickReport}
    {frames : List Recording.Frame}
    (tracks : Tracks rules initial metadata reports frames land)
    (takes : land.Takes .step) :
    ((land.step rules).land.failed = false ∧ ∃ frame,
      (land.step rules).land.frames = land.frames ++ [frame] ∧
        frame.serverEvents = (⟨land, .step⟩ : Passage σ).published rules) ∨
    ((land.step rules).land.failed = true ∧ (land.step rules).land.frames = land.frames) := by
  obtain ⟨queue, recorder, resolutions, live, -, holds⟩ := tracks.mode
  rcases Land.step_live_cases rules live holds (tracks.continues takes.1) with
    ⟨error, run, performed, stats, aborted⟩ | ⟨run, after, outcome, performed, isOutcome,
      afterHolds, stats, executed⟩
  · have fatal : error.isFatal = true := TickRun.isFatal_of_performAll performed
    rw [aborted, Land.note_eq]
    exact .inr ⟨by simp [fatal], by simp only [Land.frames, Land.recorder?, live]⟩
  · rw [executed]
    refine .inl ⟨takes.1, outcome.toFrame (some (rules.fingerprint run.state)), ?_, ?_⟩
    · simp only [Land.frames, Land.recorder?, live, holds.frames, afterHolds.frames]
    · simp only [Passage.published, Land.take, live, performed, isOutcome, TickOutcome.toFrame]

/-- What a run has recorded was recorded before a fatal error. -/
theorem Run.exists_going
    (started : Land.live rules config created initial = .ok start)
    (run : Run rules start past land) :
    ∃ going before, Run rules start going before ∧ before.failed = false ∧
      before.frames = land.frames ∧
      (past = going ∨ ∃ operation, past = going ++ [⟨before, operation⟩] ∧
        ∀ completion, operation ≠ .complete completion) := by
  cases run with
  | nothing =>
      refine ⟨[], start, .nothing, ?_, rfl, .inl rfl⟩
      obtain ⟨_, -, rfl⟩ := Land.live_eq_ok started
      rfl
  | next run takes =>
      rename_i past land operation
      obtain ⟨frames, tracks⟩ := run.tracks started
      obtain ⟨queue, recorder, resolutions, live, -⟩ := tracks.mode
      cases operation with
      | submit inbound =>
          have sameFrames : (land.after rules (.submit inbound)).frames = land.frames :=
            (Land.frames_after rules live (by simp)).1
          exact ⟨past, land, run, takes.1, sameFrames.symm, .inr ⟨_, rfl, by simp⟩⟩
      | complete completion =>
          refine ⟨_, _, run.next takes, ?_, rfl, .inl rfl⟩
          rcases Land.complete_live_cases live completion with
            ⟨outputs, -, resolved⟩ | ⟨error, -, dropped⟩
          · rw [Land.after, resolved]
            exact takes.1
          · rw [Land.after, dropped]
            exact takes.1
      | step =>
          rcases tracks.frames_step takes with ⟨going, -⟩ | ⟨-, sameFrames⟩
          · exact ⟨_, _, run.next takes, going, rfl, .inl rfl⟩
          · exact ⟨past, land, run, takes.1, sameFrames.symm, .inr ⟨_, rfl, by simp⟩⟩

/-- The published events are recorded in order, except those of an aborted tick. -/
theorem Run.published_eq
    (started : Land.live rules config created initial = .ok start)
    (run : Run rules start past land) :
    ∃ aborted, published rules past = land.frames.flatMap (·.serverEvents) ++ aborted ∧
      (land.failed = false → aborted = []) := by
  induction run with
  | nothing =>
      obtain ⟨_, holds, rfl⟩ := Land.live_eq_ok started
      exact ⟨[], by simp [published, Land.frames, Land.recorder?, holds.frames], fun _ => rfl⟩
  | next run takes inductionHypothesis =>
      rename_i past land operation
      obtain ⟨frames, tracks⟩ := run.tracks started
      obtain ⟨queue, _, _, live, -⟩ := tracks.mode
      obtain ⟨aborted, before, none⟩ := inductionHypothesis
      obtain rfl := none takes.1
      have split : published rules (past ++ [⟨land, operation⟩]) =
          land.frames.flatMap (·.serverEvents) ++
            (⟨land, operation⟩ : Passage σ).published rules := by
        rw [published, List.flatMap_append, List.flatMap_singleton, ← published, before,
          List.append_nil]
      rw [split]
      by_cases isStep : operation = .step
      · subst isStep
        rcases tracks.frames_step takes with
          ⟨-, frame, newFrames, serverEvents⟩ | ⟨failed, sameFrames⟩
        · refine ⟨[], ?_, fun _ => rfl⟩
          rw [Land.after, newFrames, List.flatMap_append, List.flatMap_singleton, serverEvents,
            List.append_nil]
        · refine ⟨_, by rw [Land.after, sameFrames], fun going => ?_⟩
          rw [Land.after, failed] at going
          cases going
      · obtain ⟨sameFrames, -⟩ := Land.frames_after rules live isStep
        have nothing : (⟨land, operation⟩ : Passage σ).published rules = [] := by
          cases operation with
          | submit inbound => rfl
          | complete completion => rfl
          | step => exact absurd rfl isStep
        exact ⟨[], by rw [nothing, sameFrames, List.append_nil], fun _ => rfl⟩

/-- The events of a frame are numbered one after the other. -/
theorem History.consecutive
    {frames : List Recording.Frame}
    {reports : List TickReport}
    {state : σ}
    {numbering : Numbering}
    (history : History rules initial frames reports state numbering) :
    ∀ frame ∈ frames, ∃ first, frame.serverEvents.map (·.sequence.toNat) =
      List.range' first frame.serverEvents.length := by
  induction history with
  | begins => exact fun frame member => absurd member List.not_mem_nil
  | numbered _ _ inductionHypothesis => exact inductionHypothesis
  | executed _ _ _ _ performed serverEvents _ inductionHypothesis =>
      rename_i state numbering outcome run older number notFinal ordered failures
      intro frame member
      rcases List.mem_append.1 member with earlier | last
      · exact inductionHypothesis frame earlier
      · obtain rfl := List.mem_singleton.1 last
        have numbered := (TickRun.Numbered.begins outcome.tick state
          numbering).performAll (rules.effects outcome.tick outcome.executed)
        rw [performed] at numbered
        refine ⟨numbering.next.toNat, ?_⟩
        have same : (outcome.toFrame (some (rules.fingerprint run.state))).serverEvents =
            run.recorded := serverEvents
        rw [same]
        exact numbered.sequences

/-- Dropped submissions were admitted. -/
theorem mem_admitted_of_dropped
    (genuine : Genuine rules past)
    {submission : Submission}
    (isDropped : submission ∈ dropped past) :
    submission ∈ admitted rules past := by
  induction past using List.reverseRecOn with
  | nil => exact absurd isDropped List.not_mem_nil
  | append_singleton past last inductionHypothesis =>
      obtain ⟨older, running⟩ := genuine_snoc_iff.1 genuine
      rw [dropped_snoc] at isDropped
      rcases List.mem_append.1 isDropped with earlier | now
      · exact admitted_subset_snoc (inductionHypothesis older earlier)
      · refine admitted_subset_snoc (mem_admitted_of_outstanding (running submission ?_))
        obtain ⟨land, operation⟩ := last
        cases operation with
        | submit inbound => cases now
        | complete completion =>
            obtain ⟨submission, result⟩ := completion
            cases result with
            | ok outputs => cases now
            | error error => exact Option.mem_toList.1 now
        | step => cases now

/-! ## Everything has a number of its own -/

/-- One counter numbers everything in a run.  The numbers are handed out in
ascending order without a gap; whatever is recorded has one of its own, and the
events of a tick come after its items. -/
structure OneNumbering (rules : Rules σ) (past : List (Passage σ)) (land : Land σ) : Prop where
  /-- Zero, one, two and so on are handed out in this order. -/
  consecutive : (handedOut rules past).map (·.toNat) = List.range land.numbering.next.toNat
  /-- No number is handed out twice, and none after a greater one. -/
  ascending : (handedOut rules past).Pairwise fun earlier later => earlier < later
  /-- The greatest number of 64 bits is not handed out. -/
  limited : Numbering.limit ∉ handedOut rules past
  /-- No two items or events of a recording have the same number. -/
  distinct : ∃ metadata, land.recording? = some ⟨metadata, land.frames⟩ ∧
    (land.frames.flatMap (·.numbers)).Nodup
  /-- What is recorded has a number that was handed out. -/
  recorded : ∀ number ∈ land.frames.flatMap (·.numbers), number ∈ handedOut rules past
  /-- The number of a submission whose resolvers have failed is not used again. -/
  dropped : ∀ submission ∈ dropped past, submission.sequence ∈ handedOut rules past ∧
    submission.sequence ∉ land.frames.flatMap (·.numbers)
  /-- Events are recorded as they were published, except those of an aborted tick. -/
  published : ∃ aborted, Chronicle.published rules past =
      land.frames.flatMap (·.serverEvents) ++ aborted ∧
    (land.failed = false → aborted = [])
  /-- An event has a greater number than every event published before. -/
  afterEvents : (Chronicle.published rules past).Pairwise fun earlier later =>
    earlier.sequence < later.sequence
  /-- An event has a greater number than every item executed up to its tick. -/
  afterItems : ∀ earlier passage later, past = earlier ++ passage :: later →
    ∀ event ∈ passage.published rules, ∀ item ∈ log (earlier ++ [passage]),
      item.sequence < event.sequence
  /-- The events of a frame are numbered one after the other. -/
  inFrame : ∀ frame ∈ land.frames, ∃ first, frame.serverEvents.map (·.sequence.toNat) =
    List.range' first frame.serverEvents.length

/-- The items executed in a run have numbers of their own, when each has entered
once and no number was given twice. -/
theorem nodup_log
    {waiting : List Item}
    (distinct : (given rules past).Nodup)
    (conserved : (log past ++ waiting).Perm (entries rules past)) :
    ((log past).map (·.sequence)).Nodup := by
  have entered := (List.nodup_append.1 distinct).1
  rw [← (conserved.map (·.sequence)).nodup_iff, List.map_append] at entered
  exact (List.nodup_append.1 entered).1

/-- In a run without a fatal error, what is recorded has numbers of admitted
submissions and of published events, each once. -/
theorem Run.numbers_frames_perm
    (started : Land.live rules config created initial = .ok start)
    (run : Run rules start past land)
    (genuine : Genuine rules past)
    (going : land.failed = false) :
    (land.frames.flatMap (·.numbers)).Perm
      ((log past).map (·.sequence) ++ (published rules past).map (·.sequence)) := by
  obtain ⟨aborted, events, none⟩ := run.published_eq started
  obtain rfl := none going
  have items := (run.records_perm started genuine going).map (·.sequence)
  simp only [List.map_map, Function.comp_def, Item.toRecord_sequence] at items
  have parts := (List.flatMap_append_perm land.frames
    (fun frame => frame.records.map (·.sequence))
    (fun frame => frame.serverEvents.map (·.sequence))).symm
  rw [← List.map_flatMap, ← List.map_flatMap] at parts
  rw [events, List.append_nil]
  exact parts.trans (items.append_right _)

/-- An event that is published in an operation has none of the numbers before. -/
theorem Passage.le_of_mem_published
    {event : Recording.ServerEvent}
    (member : event ∈ passage.published rules) :
    passage.before.numbering.next ≤ event.sequence := by
  obtain ⟨land, operation⟩ := passage
  cases operation with
  | submit inbound => cases member
  | complete completion => cases member
  | step =>
      have numbered := (TickRun.Numbered.begins land.nextTick land.state
        land.numbering).performAll (rules.effects land.nextTick land.take.1)
      have sequence := List.mem_map_of_mem (f := fun event : Recording.ServerEvent =>
        event.sequence.toNat) member
      simp only [published, numbered.sequences] at sequence
      exact UInt64.le_iff_toNat_le.2 (List.mem_range'_1.1 sequence).1

/-- An operation executes only items that have numbers from before. -/
theorem Run.lt_of_mem_log
    (started : Land.live rules config created initial = .ok start)
    (run : Run rules start past land)
    (genuine : Genuine rules past)
    (going : land.failed = false)
    {operation : Operation}
    {item : Item}
    (executed : item ∈ log (past ++ [⟨land, operation⟩])) :
    item.sequence < land.numbering.next := by
  obtain ⟨frames, tracks⟩ := run.tracks started
  obtain ⟨queue, recorder, resolutions, live, consistent, -⟩ := tracks.mode
  have balanced := run.balanced started genuine going live
  refine balanced.issued.below _ (sequence_mem_given (balanced.conserved.mem_iff.1 ?_))
  rw [log_snoc] at executed
  rcases List.mem_append.1 executed with earlier | now
  · exact List.mem_append_left _ earlier
  · apply List.mem_append_right
    cases operation with
    | submit inbound => cases now
    | complete completion => cases now
    | step =>
        simp only [Passage.executed, Land.take, live, consistent.drain_fst] at now
        exact (List.mem_filter.1 now).1

/-- What is recorded in a run without a fatal error has numbers that were handed
out, each once, and none of a dropped submission. -/
theorem Run.frames_numbered
    (started : Land.live rules config created initial = .ok start)
    (run : Run rules start past land)
    (genuine : Genuine rules past)
    (going : land.failed = false) :
    (land.frames.flatMap (·.numbers)).Nodup ∧
      (∀ number ∈ land.frames.flatMap (·.numbers), number ∈ handedOut rules past) ∧
      ∀ submission ∈ dropped past, submission.sequence ∉ land.frames.flatMap (·.numbers) := by
  obtain ⟨frames, tracks⟩ := run.tracks started
  obtain ⟨queue, recorder, resolutions, live, -⟩ := tracks.mode
  have balanced := run.balanced started genuine going live
  have numbers := run.numbers_frames_perm started genuine going
  have parts := handedOut_perm rules past
  obtain ⟨-, events, apart⟩ :=
    List.nodup_append.1 (parts.nodup_iff.1 ((run.ascending started).imp UInt64.ne_of_lt))
  have admitted {number : Sequence} (executed : number ∈ (log past).map (·.sequence)) :
      number ∈ (admitted rules past).map (·.sequence) := by
    obtain ⟨item, inLog, rfl⟩ := List.mem_map.1 executed
    have entered := balanced.conserved.mem_iff.1 (List.mem_append_left _ inLog)
    exact List.mem_map_of_mem (f := Submission.sequence) (mem_admitted_of_entries genuine entered)
  have itemsDistinct := nodup_log balanced.issued.distinct balanced.conserved
  refine ⟨numbers.nodup_iff.2 (List.nodup_append.2 ⟨itemsDistinct, events,
    fun number item other event => apart number (admitted item) other event⟩),
    fun number member => ?_, fun submission isDropped member => ?_⟩
  · rcases List.mem_append.1 (numbers.mem_iff.1 member) with item | event
    · exact parts.mem_iff.2 (List.mem_append_left _ (admitted item))
    · exact parts.mem_iff.2 (List.mem_append_right _ event)
  · rcases List.mem_append.1 (numbers.mem_iff.1 member) with item | event
    · obtain ⟨executed, inLog, same⟩ := List.mem_map.1 item
      have entered := balanced.conserved.mem_iff.1 (List.mem_append_left _ inLog)
      exact (List.nodup_append.1 balanced.issued.distinct).2.2 _ (List.mem_map_of_mem entered) _
        (List.mem_map_of_mem (List.mem_append_right _ isDropped)) same
    · exact apart _ (List.mem_map_of_mem (mem_admitted_of_dropped genuine isDropped)) _ event rfl

/-- Every run numbers everything from one counter, as long as completions come from
the runner of the resolvers. -/
theorem run_numbers_everything_once
    (started : Land.live rules config created initial = .ok start)
    (run : Run rules start past land)
    (genuine : Genuine rules past) :
    OneNumbering rules past land := by
  have ascending := run.ascending started
  have parts := handedOut_perm rules past
  obtain ⟨frames, tracks⟩ := run.tracks started
  obtain ⟨queue, recorder, resolutions, live, consistent, holds⟩ := tracks.mode
  obtain ⟨_, _, history, -⟩ := tracks.history
  have landFrames : land.frames = frames := by
    simp only [Land.frames, Land.recorder?, live, holds.frames]
  obtain ⟨past', before, run', going, sameFrames, rest⟩ := run.exists_going started
  have genuine' : Genuine rules past' := by
    rcases rest with rfl | ⟨operation, rfl, -⟩
    · exact genuine
    · exact (genuine_snoc_iff.1 genuine).1
  have sameDropped : dropped past = dropped past' := by
    rcases rest with rfl | ⟨operation, rfl, notCompletion⟩
    · rfl
    · rw [dropped_snoc]
      cases operation with
      | submit inbound => exact List.append_nil _
      | complete completion => exact absurd rfl (notCompletion completion)
      | step => exact List.append_nil _
  have within : handedOut rules past' ⊆ handedOut rules past := by
    rcases rest with rfl | ⟨operation, rfl, -⟩
    · exact fun _ => id
    · rw [handedOut, handedOut, List.flatMap_append]
      exact List.subset_append_left _ _
  obtain ⟨distinct, recorded, unused⟩ := run'.frames_numbered started genuine' going
  rw [sameFrames] at distinct recorded unused
  exact
    { consecutive := run.handedOut_eq started
      ascending := ascending
      limited := fun reached => by
        have bound : land.numbering.next.toNat < 18446744073709551616 :=
          land.numbering.next.toNat_lt
        have below := List.mem_map_of_mem (f := UInt64.toNat) reached
        rw [run.handedOut_eq started, List.mem_range] at below
        have greatest : Numbering.limit.toNat = 18446744073709551615 := rfl
        omega
      distinct := ⟨_, landFrames ▸ tracks.recording_eq, distinct⟩
      recorded := fun number member => within (recorded number member)
      dropped := fun submission isDropped =>
        ⟨parts.mem_iff.2 (List.mem_append_left _
            (List.mem_map_of_mem (mem_admitted_of_dropped genuine isDropped))),
          unused submission (sameDropped ▸ isDropped)⟩
      published := run.published_eq started
      afterEvents := by
        have events : ((published rules past).map (·.sequence)).Sublist (handedOut rules past) := by
          rw [published, List.map_flatMap]
          exact List.Sublist.flatMap_right past fun passage _ => List.sublist_append_right _ _
        exact List.pairwise_map.1 (ascending.sublist events)
      afterItems := fun earlier passage later split event emitted item executed => by
        subst split
        obtain ⟨run, takes⟩ := run.before
        have below := run.lt_of_mem_log started (genuine_append_iff.1 genuine).1 takes.1 executed
        exact UInt64.lt_of_lt_of_le below (Passage.le_of_mem_published emitted)
      inFrame := landFrames ▸ history.consecutive }

/-- On a ledger with a milestone in every tick, a join that waits for its stamp takes
the number zero, a leave the number one, and the milestone of the first tick the
number two.  The stamp is refused; zero is not used again. -/
theorem run_numbers_everything_once_of_milestones :
    ∃ start past land,
      Land.live (Ledger.rules { join := .stamped, milestone := 1 })
          { landId := "books", landType := "ledger" } .epoch {} = .ok start ∧
        Run (Ledger.rules { join := .stamped, milestone := 1 }) start past land ∧
        handedOut (Ledger.rules { join := .stamped, milestone := 1 }) past = [0, 1, 2, 3, 4] ∧
        land.frames.map (·.numbers) = [[1, 2], [3, 4]] ∧
        OneNumbering (Ledger.rules { join := .stamped, milestone := 1 }) past land := by
  let rules := Ledger.rules { join := .stamped, milestone := 1 }
  let config : LandConfig := { landId := "books", landType := "ledger" }
  let player := Actor.ofIds "p1" "c1" "s1"
  let operations : List Operation :=
    [.submit (.lifecycle .join player {}), .submit (.lifecycle .leave player {}), .step,
      .complete ⟨(Inbound.lifecycle .join player {}).submission 0,
        .error (.resolverFailure "stamp" "stamp service down")⟩,
      .submit (.lifecycle .leave player {}), .step]
  obtain ⟨start, started⟩ : ∃ start, Land.live rules config .epoch {} = .ok start := ⟨_, rfl⟩
  have run := Run.of_operations rules start operations (by
    obtain rfl := Except.ok.inj started
    decide +kernel)
  refine ⟨start, _, _, started, run, ?_, ?_, run_numbers_everything_once started run ?_⟩
  · obtain rfl := Except.ok.inj started
    decide +kernel
  · obtain rfl := Except.ok.inj started
    decide +kernel
  · obtain rfl := Except.ok.inj started
    decide +kernel

end Runs
end Chronicle
