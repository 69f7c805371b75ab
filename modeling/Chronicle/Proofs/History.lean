import Chronicle.Proofs.Run

/-!
# The history of a live land

A history is what the ticks of a land say without the land: one tick after the
other is executed on the state that the tick before has left, with a counter
that may have gone on in between.  Every run of a live land leaves a history
whose frames its recorder holds and whose reports its steps have given.
-/

namespace Chronicle

variable {σ : Type}

/-- Ticks from the initial state on: their frames and reports, and the state and
the counter after them. -/
inductive History (rules : Rules σ) (initial : σ) :
    List Recording.Frame → List TickReport → σ → Numbering → Prop
  | begins (numbering : Numbering) : History rules initial [] [] initial numbering
  | numbered {frames reports state numbering later}
      (history : History rules initial frames reports state numbering)
      (behind : numbering.Behind later) :
      History rules initial frames reports state later
  | executed {frames reports state numbering} {outcome : TickOutcome} {run : TickRun σ}
      (history : History rules initial frames reports state numbering)
      (number : outcome.tick.toNat = frames.length)
      (notFinal : outcome.tick ≠ finalTick)
      (ordered : outcome.executed.Pairwise Item.Precedes)
      (performed : TickRun.performAll outcome.tick ⟨state, numbering, [], [], 0⟩
        (rules.effects outcome.tick outcome.executed) = (.ok (), run))
      (serverEvents : outcome.serverEvents = run.recorded)
      (failures : outcome.failures = run.failures) :
      History rules initial
        (frames ++ [outcome.toFrame (some (rules.fingerprint run.state))])
        (reports ++ [Land.report outcome (rules.fingerprint run.state)])
        run.state run.numbering

namespace History

variable {rules : Rules σ} {initial state : σ} {frames : List Recording.Frame}
  {reports : List TickReport} {numbering : Numbering}

/-- There is one report for each frame. -/
theorem length_reports
    (history : History rules initial frames reports state numbering) :
    reports.length = frames.length := by
  induction history with
  | begins => rfl
  | numbered _ _ inductionHypothesis => exact inductionHypothesis
  | executed _ _ _ _ _ _ _ inductionHypothesis =>
      rw [List.length_append, List.length_append, inductionHypothesis]
      rfl

/-- The frames number the ticks from zero on. -/
theorem tick_eq
    (history : History rules initial frames reports state numbering)
    {index : Nat}
    {frame : Recording.Frame}
    (found : frames[index]? = some frame) :
    frame.tick.toNat = index := by
  induction history with
  | begins => exact absurd found (by simp)
  | numbered _ _ inductionHypothesis => exact inductionHypothesis found
  | executed _ number _ _ _ _ _ inductionHypothesis =>
      rw [List.getElem?_append] at found
      split at found
      · exact inductionHypothesis found
      · rename_i late
        obtain ⟨inside, rfl⟩ := List.getElem?_eq_some_iff.1 found
        rw [List.length_singleton] at inside
        simp only [List.getElem_singleton]
        exact number.trans (by omega)

/-- The ticks up to any of them are a history of their own. -/
theorem take
    (history : History rules initial frames reports state numbering)
    (count : Nat) :
    ∃ earlier counter,
      History rules initial (frames.take count) (reports.take count) earlier counter := by
  induction history with
  | begins numbering => exact ⟨initial, numbering, by simpa using .begins numbering⟩
  | numbered _ _ inductionHypothesis => exact inductionHypothesis
  | executed older number notFinal ordered performed serverEvents failures
      inductionHypothesis =>
      rename_i frames reports _ _ outcome run
      by_cases within : count ≤ frames.length
      · obtain ⟨earlier, counter, shorter⟩ := inductionHypothesis
        refine ⟨earlier, counter, ?_⟩
        rwa [List.take_append_of_le_length within,
          List.take_append_of_le_length (older.length_reports ▸ within)]
      · refine ⟨run.state, run.numbering, ?_⟩
        rw [List.take_of_length_le (by rw [List.length_append, List.length_singleton]; omega),
          List.take_of_length_le
            (by rw [List.length_append, List.length_singleton, older.length_reports]; omega)]
        exact .executed older number notFinal ordered performed serverEvents failures

end History

/-- What a run of a live land leaves behind: a queue in order, a recorder with
the frames of its history, and, unless the run has ended with a fatal error, the
state after that history. -/
structure Tracks
    (rules : Rules σ)
    (initial : σ)
    (metadata : Recording.Metadata)
    (reports : List TickReport)
    (frames : List Recording.Frame)
    (land : Land σ) : Prop where
  mode : ∃ queue recorder started,
    land.mode = .live queue recorder started ∧ queue.Consistent ∧ recorder.Holds metadata frames
  history : ∃ state numbering, History rules initial frames reports state numbering ∧
    (land.failed = false → land.state = state ∧ land.numbering = numbering ∧
      land.nextTick.toNat = frames.length)

namespace Tracks

variable {rules : Rules σ} {initial : σ} {metadata : Recording.Metadata}
  {reports : List TickReport} {frames : List Recording.Frame} {land after : Land σ}

/-- A new live land leaves nothing behind yet. -/
theorem of_live
    {config : LandConfig}
    {created : Timestamp}
    (started : Land.live rules config created initial = .ok land) :
    Tracks rules initial
      (config.recordingMetadata created (some (rules.fingerprint initial))) [] [] land := by
  obtain ⟨recorder, holds, rfl⟩ := Land.live_eq_ok started
  exact ⟨⟨{}, recorder, 0, rfl, Queue.consistent_empty, holds⟩,
    ⟨initial, {}, .begins {}, fun _ => ⟨rfl, rfl, rfl⟩⟩⟩

/-- The recorder holds the metadata record and the frames. -/
theorem recording_eq
    (tracks : Tracks rules initial metadata reports frames land) :
    land.recording? = some ⟨metadata, frames⟩ := by
  obtain ⟨queue, recorder, started, live, -, holds⟩ := tracks.mode
  exact Land.recording?_eq live holds

/-- The next tick follows the last recorded one. -/
theorem continues
    (tracks : Tracks rules initial metadata reports frames land)
    (going : land.failed = false) :
    Recorder.Continues frames land.nextTick := by
  obtain ⟨state, numbering, history, current⟩ := tracks.history
  obtain ⟨-, -, nextTick⟩ := current going
  intro last isLast
  rw [Option.mem_def, List.getLast?_eq_getElem?] at isLast
  have position := history.tick_eq isLast
  have inside : frames.length - 1 < frames.length := (List.getElem?_eq_some_iff.1 isLast).1
  have bound : land.nextTick.toNat < 18446744073709551616 := land.nextTick.toNat_lt
  rw [← UInt64.toNat_inj, UInt64.toNat_add, nextTick, position]
  rw [nextTick] at bound
  simp
  omega

/-- An operation that is not a step keeps the history; at most numbers are
issued. -/
theorem of_same_history
    (tracks : Tracks rules initial metadata reports frames land)
    (going : land.failed = false)
    (mode : ∃ queue recorder started, after.mode = .live queue recorder started ∧
      queue.Consistent ∧ recorder.Holds metadata frames)
    (state : after.state = land.state)
    (numbering : land.numbering.Behind after.numbering)
    (nextTick : after.nextTick = land.nextTick) :
    Tracks rules initial metadata reports frames after := by
  obtain ⟨_, _, history, current⟩ := tracks.history
  obtain ⟨rfl, rfl, position⟩ := current going
  refine ⟨mode, ⟨land.state, after.numbering, history.numbered numbering, fun _ => ?_⟩⟩
  exact ⟨state, rfl, nextTick ▸ position⟩

/-- A submission keeps the history. -/
theorem submit
    (tracks : Tracks rules initial metadata reports frames land)
    (going : land.failed = false)
    (inbound : Inbound) :
    Tracks rules initial metadata reports frames (land.submit rules inbound).2 := by
  obtain ⟨queue, recorder, started, live, consistent, holds⟩ := tracks.mode
  rcases Land.submit_live_cases rules live inbound with
    ⟨error, refused⟩ | ⟨sequence, numbering, -, issued, queued⟩ |
      ⟨resolvers, sequence, numbering, -, -, issued, resolving⟩
  · rw [refused, Land.note_eq]
    exact tracks.of_same_history going ⟨queue, recorder, started, live, consistent, holds⟩ rfl
      (Nat.le_refl _) rfl
  · rw [queued]
    exact tracks.of_same_history going ⟨_, recorder, started, rfl, consistent.push _, holds⟩ rfl
      (Numbering.behind_of_issue issued) rfl
  · rw [resolving]
    exact tracks.of_same_history going ⟨queue, recorder, _, rfl, consistent, holds⟩ rfl
      (Numbering.behind_of_issue issued) rfl

/-- A completion keeps the history, whatever it says. -/
theorem complete
    (tracks : Tracks rules initial metadata reports frames land)
    (going : land.failed = false)
    (completion : Completion) :
    Tracks rules initial metadata reports frames (land.complete completion).2 := by
  obtain ⟨queue, recorder, started, live, consistent, holds⟩ := tracks.mode
  rcases Land.complete_live_cases live completion with
    ⟨outputs, -, resolved⟩ | ⟨error, -, dropped⟩
  · rw [resolved]
    exact tracks.of_same_history going ⟨_, recorder, started, rfl, consistent.push _, holds⟩ rfl
      (Nat.le_refl _) rfl
  · rw [dropped]
    exact tracks.of_same_history going ⟨queue, recorder, started, live, consistent, holds⟩ rfl
      (Nat.le_refl _) rfl

/-- A step adds its tick to the history, or ends the run. -/
theorem step
    (tracks : Tracks rules initial metadata reports frames land)
    (takes : land.Takes .step) :
    ∃ frame : List Recording.Frame,
      Tracks rules initial metadata (reports ++ (land.step rules).result.toOption.toList)
        (frames ++ frame) (land.step rules).land := by
  obtain ⟨going, notFinal⟩ := takes
  obtain ⟨queue, recorder, started, live, consistent, holds⟩ := tracks.mode
  obtain ⟨_, _, history, current⟩ := tracks.history
  obtain ⟨rfl, rfl, position⟩ := current going
  rcases Land.step_live_cases rules live holds (tracks.continues going) with
    ⟨error, run, performed, stats, aborted⟩ | ⟨run, after, outcome, performed, isOutcome,
      afterHolds, stats, executed⟩
  · have fatal : error.isFatal = true := TickRun.isFatal_of_performAll performed
    refine ⟨[], ?_⟩
    rw [aborted, Land.note_eq]
    simp only [Except.toOption, Option.toList_none, List.append_nil]
    refine ⟨⟨_, recorder, started, rfl, consistent.drain _, holds⟩,
      ⟨land.state, land.numbering, history, fun still => ?_⟩⟩
    simp [going, fatal] at still
  · have ordered := (consistent.ordered).sublist
      (consistent.drain_fst (land.nextTick + 1) ▸ List.filter_sublist)
    refine ⟨[outcome.toFrame (some (rules.fingerprint run.state))], ?_⟩
    rw [executed]
    subst isOutcome
    refine ⟨⟨_, after, started, rfl, consistent.drain _, afterHolds⟩,
      ⟨run.state, run.numbering, history.executed position (notFinal rfl) ordered performed rfl rfl,
        fun _ => ⟨rfl, rfl, ?_⟩⟩⟩
    have bound : land.nextTick.toNat < 18446744073709551616 := land.nextTick.toNat_lt
    have notLast : land.nextTick.toNat ≠ 18446744073709551615 :=
      fun last => notFinal rfl (UInt64.toNat_inj.1 last)
    rw [List.length_append, List.length_singleton, ← position, UInt64.toNat_add]
    exact Nat.mod_eq_of_lt (by simp; omega)

end Tracks

/-- Every run of a new live land leaves its history behind. -/
theorem Run.tracks
    {rules : Rules σ}
    {config : LandConfig}
    {created : Timestamp}
    {initial : σ}
    {start land : Land σ}
    {past : List (Passage σ)}
    (started : Land.live rules config created initial = .ok start)
    (run : Run rules start past land) :
    ∃ frames, Tracks rules initial
      (config.recordingMetadata created (some (rules.fingerprint initial)))
      (reports rules past) frames land := by
  induction run with
  | nothing => exact ⟨[], .of_live started⟩
  | next run takes inductionHypothesis =>
      rename_i past land operation
      obtain ⟨frames, tracks⟩ := inductionHypothesis
      rw [reports_snoc]
      cases operation with
      | submit inbound =>
          refine ⟨frames, ?_⟩
          rw [Passage.report?, Option.toList_none, List.append_nil]
          exact tracks.submit takes.1 inbound
      | complete completion =>
          refine ⟨frames, ?_⟩
          rw [Passage.report?, Option.toList_none, List.append_nil]
          exact tracks.complete takes.1 completion
      | step =>
          obtain ⟨frame, later⟩ := tracks.step takes
          exact ⟨frames ++ frame, later⟩

end Chronicle
