import Chronicle.Proofs.Order
import Chronicle.Proofs.Resolving

/-!
# The figures of a live land

A land counts as it goes: what it has executed, what it has refused, how many
resolutions it has started, how many frames it has recorded.  After every run the
counters say what has passed.  So every submission that was admitted is found in
one place: executed, queued, resolving or dropped.
-/

namespace Chronicle

variable {σ : Type} {rules : Rules σ} {past : List (Passage σ)} {last : Passage σ}
  {start land : Land σ} {config : LandConfig} {created : Timestamp} {initial : σ}

/-- The submission that an operation refuses. -/
def Passage.refused? (rules : Rules σ) (passage : Passage σ) : Option Inbound :=
  match passage.operation with
  | .submit inbound =>
      match (passage.before.submit rules inbound).1 with
      | .ok _ => none
      | .error _ => some inbound
  | _ => none

/-- The submissions refused in a run. -/
def refused (rules : Rules σ) (past : List (Passage σ)) : List Inbound :=
  past.filterMap (Passage.refused? rules)

/-- The refused submissions after one more operation. -/
theorem refused_snoc :
    refused rules (past ++ [last]) = refused rules past ++ (last.refused? rules).toList := by
  rw [refused, List.filterMap_append, List.filterMap_cons, List.filterMap_nil]
  cases last.refused? rules <;> rfl

/-- The items that wait for their tick in a live land. -/
def Land.queued (land : Land σ) : List Item :=
  match land.mode with
  | .live queue _ _ => queue.toList
  | .replay _ _ _ => []

/-! ## Steps -/

/-- A recorder counts the frames that it takes. -/
theorem Recorder.recorded_of_record
    {recorder after : Recorder}
    {frame : Recording.Frame}
    (taken : recorder.record frame = .ok after) :
    after.recorded = recorder.recorded + 1 := by
  have settled (recorder : Recorder) : recorder.settled.recorded = recorder.recorded := by
    unfold Recorder.settled
    split
    · obtain ⟨-, same⟩ | ⟨-, passed⟩ := recorder.flush_cases
      · rw [same]
      · rw [passed]
        rfl
    · rfl
  obtain ⟨-, -, isTaken⟩ | ⟨-, refusal, isRefused⟩ := recorder.record_cases frame
  · obtain rfl := Except.ok.inj (isTaken.symm.trans taken)
    exact settled _
  · rw [isRefused] at taken
    cases taken

/-- The counters after a step that has executed its tick. -/
theorem Land.step_counts
    {queue : Queue}
    {recorder : Recorder}
    {started : Nat}
    {report : TickReport}
    (live : land.mode = .live queue recorder started)
    (executed : (land.step rules).result = .ok report) :
    (∃ after, (land.step rules).land.mode =
        .live (queue.drain (land.nextTick + 1)).2 after started ∧
      after.recorded = recorder.recorded + 1) ∧
    (land.step rules).land.ticks.items = land.ticks.items + land.take.1.length ∧
    (land.step rules).land.ticks.ticks = land.ticks.ticks + 1 ∧
    (land.step rules).land.nextTick = land.nextTick + 1 ∧
    (land.step rules).land.rejected = land.rejected := by
  simp only [step, take, live, Rules.execute] at executed ⊢
  cases performed : TickRun.performAll land.nextTick ⟨land.state, land.numbering, [], [], 0⟩
      (rules.effects land.nextTick (queue.drain (land.nextTick + 1)).1) with
  | mk result run =>
      rw [performed] at executed
      cases result with
      | error error => cases executed
      | ok _ =>
          simp only [conclude] at executed ⊢
          cases recorded : recorder.record (TickOutcome.toFrame ⟨land.nextTick,
              (queue.drain (land.nextTick + 1)).1, run.recorded, run.failures⟩
              (some (rules.fingerprint run.state))) with
          | error error =>
              rw [recorded] at executed
              cases executed
          | ok after =>
              exact ⟨⟨after, rfl, Recorder.recorded_of_record recorded⟩, rfl, rfl, rfl, rfl⟩

/-- A step of a land without a fatal error executes its tick, or lacks a number for an
event and is fatal. -/
theorem Tracks.step_cases
    {metadata : Recording.Metadata}
    {reports : List TickReport}
    {frames : List Recording.Frame}
    (tracks : Tracks rules initial metadata reports frames land)
    (going : land.failed = false) :
    (∃ report, (land.step rules).result = .ok report) ∨
    ((land.step rules).result = .error .sequenceOverflow ∧
      (land.step rules).land.failed = true) := by
  obtain ⟨queue, recorder, started, live, -, holds⟩ := tracks.mode
  rcases Land.step_live_cases rules live holds (tracks.continues going) with
    ⟨error, run, performed, stats, aborted⟩ | ⟨run, after, outcome, -, -, -, stats, executed⟩
  · have fatal : error.isFatal = true := TickRun.isFatal_of_performAll performed
    have overflow : error = .sequenceOverflow := by
      cases error <;> first | rfl | cases fatal
    refine .inr ⟨?_, ?_⟩
    · rw [aborted, overflow]
    · rw [aborted, Land.note_eq, fatal]
      exact Bool.or_true _
  · exact .inl ⟨_, by rw [executed]⟩

/-! ## Counters -/

/-- The number of ticks that an operation executes, if it executes its tick. -/
def Passage.ticks (passage : Passage σ) : Nat :=
  match passage.operation with
  | .step => 1
  | _ => 0

/-- What an operation adds to the figures of a land. -/
structure Passage.Adds (rules : Rules σ) (passage : Passage σ) : Prop where
  items : (passage.after rules).stats.ticks.items =
    passage.before.stats.ticks.items + passage.executed.length
  rejected : (passage.after rules).stats.rejected =
    passage.before.stats.rejected +
      ((passage.refused? rules).toList.length + passage.dropped?.toList.length)
  started : (passage.after rules).stats.started =
    passage.before.stats.started + (passage.resolving? rules).toList.length
  frames : (passage.after rules).stats.frames = passage.before.stats.frames + passage.ticks
  ticks : (passage.after rules).stats.ticks.ticks =
    passage.before.stats.ticks.ticks + passage.ticks
  nextTick : (passage.after rules).nextTick.toNat = passage.before.nextTick.toNat + passage.ticks

namespace Passage.Adds

/-- A submission is refused, or queued, or resolving. -/
theorem submit (live : land.IsLive) (inbound : Inbound) :
    Passage.Adds rules ⟨land, .submit inbound⟩ := by
  obtain ⟨queue, recorder, resolutions, live⟩ := live
  rcases Land.submit_live_cases rules live inbound with
    ⟨error, refused⟩ | ⟨sequence, numbering, -, -, queued⟩ |
      ⟨resolvers, sequence, numbering, -, -, -, resolving⟩
  · have after : (⟨land, .submit inbound⟩ : Passage σ).after rules =
        { land with rejected := land.rejected + 1, failed := land.failed || error.isFatal } := by
      rw [Passage.after, Land.after, refused, Land.note_eq]
    constructor <;> rw [after] <;>
      simp [Land.stats, live, refused?, dropped?, resolving?, executed, Passage.ticks, refused]
  · have after : (⟨land, .submit inbound⟩ : Passage σ).after rules =
        (land.submit rules inbound).2 := rfl
    constructor <;> rw [after, queued] <;>
      simp [Land.stats, live, refused?, dropped?, resolving?, executed, Passage.ticks, queued]
  · have after : (⟨land, .submit inbound⟩ : Passage σ).after rules =
        (land.submit rules inbound).2 := rfl
    constructor <;> rw [after, resolving] <;>
      simp [Land.stats, live, refused?, dropped?, resolving?, executed, Passage.ticks, resolving]

/-- A completion is queued or dropped. -/
theorem complete (live : land.IsLive) (completion : Completion) :
    Passage.Adds rules ⟨land, .complete completion⟩ := by
  obtain ⟨queue, recorder, resolutions, live⟩ := live
  obtain ⟨submission, result⟩ := completion
  have after : (⟨land, .complete ⟨submission, result⟩⟩ : Passage σ).after rules =
      (land.complete ⟨submission, result⟩).2 := rfl
  cases result with
  | ok outputs =>
      constructor <;> rw [after] <;>
        simp [Land.complete, Land.enqueue, Land.stats, live, refused?, dropped?, resolving?,
          executed, Passage.ticks]
  | error error =>
      constructor <;> rw [after] <;>
        simp [Land.complete, Land.stats, live, refused?, dropped?, resolving?, executed,
          Passage.ticks]

/-- A step executes its tick and records it. -/
theorem step
    {report : TickReport}
    (live : land.IsLive)
    (notFinal : land.nextTick ≠ finalTick)
    (done : (land.step rules).result = .ok report) :
    Passage.Adds rules ⟨land, .step⟩ := by
  obtain ⟨queue, recorder, resolutions, live⟩ := live
  obtain ⟨⟨later, mode, recorded⟩, items, ticks, nextTick, rejected⟩ :=
    Land.step_counts live done
  have after : (⟨land, .step⟩ : Passage σ).after rules = (land.step rules).land := rfl
  have next : (land.nextTick + 1).toNat = land.nextTick.toNat + 1 := by
    have bound : land.nextTick.toNat < 18446744073709551616 := land.nextTick.toNat_lt
    have notLast : land.nextTick.toNat ≠ 18446744073709551615 :=
      fun last => notFinal (UInt64.toNat_inj.1 last)
    rw [UInt64.toNat_add]
    exact Nat.mod_eq_of_lt (by simp; omega)
  constructor <;> rw [after]
  · exact items
  · exact rejected
  · simp [Land.stats, mode, live, resolving?]
  · simp [Land.stats, mode, live, recorded, Passage.ticks]
  · exact ticks
  · rw [nextTick, next]
    rfl

end Passage.Adds

/-- The figures of a live land say what has passed. -/
structure Counted (rules : Rules σ) (past : List (Passage σ)) (land : Land σ) : Prop where
  items : land.stats.ticks.items = (log past).length
  rejected : land.stats.rejected = (refused rules past).length + (dropped past).length
  started : land.stats.started = (launched rules past).length
  frames : land.stats.frames = land.nextTick.toNat
  ticks : land.stats.ticks.ticks = land.nextTick.toNat

namespace Counted

/-- At the beginning nothing has passed. -/
theorem begins (started : Land.live rules config created initial = .ok start) :
    Counted rules [] start := by
  unfold Land.live at started
  cases valid : config.validate with
  | error reason =>
      rw [valid] at started
      exact nomatch started
  | ok _ =>
      rw [valid] at started
      obtain rfl := Except.ok.inj started
      exact ⟨rfl, rfl, rfl, rfl, rfl⟩

/-- An operation adds the same to the figures and to what has passed. -/
theorem snoc (counted : Counted rules past last.before) (adds : last.Adds rules) :
    Counted rules (past ++ [last]) (last.after rules) where
  items := by rw [adds.items, counted.items, log_snoc, List.length_append]
  rejected := by
    rw [adds.rejected, counted.rejected, refused_snoc, dropped_snoc, List.length_append,
      List.length_append]
    omega
  started := by rw [adds.started, counted.started, launched_snoc, List.length_append]
  frames := by rw [adds.frames, counted.frames, adds.nextTick]
  ticks := by rw [adds.ticks, counted.ticks, adds.nextTick]

end Counted

/-- The figures of every run say what has passed, until a fatal error occurs. -/
theorem Run.counted
    (started : Land.live rules config created initial = .ok start)
    (run : Run rules start past land)
    (going : land.failed = false) :
    Counted rules past land := by
  induction run with
  | nothing => exact .begins started
  | next run takes inductionHypothesis =>
      rename_i past land operation
      obtain ⟨frames, tracks⟩ := run.tracks started
      obtain ⟨queue, recorder, resolutions, live, -⟩ := tracks.mode
      have isLive : land.IsLive := ⟨queue, recorder, resolutions, live⟩
      have adds : Passage.Adds rules ⟨land, operation⟩ := by
        cases operation with
        | submit inbound => exact .submit isLive inbound
        | complete completion => exact .complete isLive completion
        | step =>
            rcases tracks.step_cases takes.1 with ⟨report, done⟩ | ⟨-, failed⟩
            · exact .step isLive (takes.2 rfl) done
            · exact Bool.noConfusion (failed.symm.trans going)
      exact Counted.snoc (inductionHypothesis takes.1) adds

/-- After every step of a run the queue was empty, until a fatal error occurs. -/
theorem Run.drained
    (started : Land.live rules config created initial = .ok start)
    (run : Run rules start past land)
    (genuine : Genuine rules past)
    (going : land.failed = false) :
    ∀ passage ∈ past, passage.operation = .step → (passage.after rules).stats.pending = 0 := by
  induction run with
  | nothing => exact fun _ member => absurd member List.not_mem_nil
  | next run takes inductionHypothesis =>
      rename_i past land operation
      have older := (genuine_snoc_iff.1 genuine).1
      intro passage member isStep
      rcases List.mem_append.1 member with earlier | isLast
      · exact inductionHypothesis older takes.1 passage earlier isStep
      · obtain rfl := List.mem_singleton.1 isLast
        obtain rfl : operation = .step := isStep
        obtain ⟨frames, tracks⟩ := run.tracks started
        obtain ⟨queue, ends⟩ := tracks.endsTick takes going
        obtain ⟨_, _, live⟩ := ends.live
        obtain ⟨_, _, left⟩ := ends.left
        have balanced := run.balanced started older takes.1 live
        obtain ⟨-, nothing⟩ := balanced.executed_step live ends.consistent ends.notFinal
        simp only [Passage.after, Land.after, Land.stats, left, Queue.size_eq, nothing,
          List.length_nil]

/-- What was admitted was queued at once or launched. -/
theorem length_direct_add_launched (rules : Rules σ) (past : List (Passage σ)) :
    (direct rules past).length + (launched rules past).length = (admitted rules past).length := by
  induction past using List.reverseRecOn with
  | nil => rfl
  | append_singleton past last inductionHypothesis =>
      have parted : (last.direct? rules).toList.length + (last.resolving? rules).toList.length =
          (last.admitted? rules).toList.length := by
        obtain ⟨land, operation⟩ := last
        cases operation with
        | submit inbound =>
            simp only [Passage.direct?, Passage.resolving?, Passage.admitted?]
            cases (land.submit rules inbound).1 with
            | error error => rfl
            | ok admission => cases admission <;> rfl
        | complete completion => rfl
        | step => rfl
      rw [direct_snoc, launched_snoc, admitted_snoc, List.length_append, List.length_append,
        List.length_append]
      omega

/-! ## The whole account -/

/-- The numbers of the submissions that a land has executed, that wait in its queue,
that are resolving, and that were dropped. -/
def accountOf (rules : Rules σ) (past : List (Passage σ)) (land : Land σ) : List Sequence :=
  (log past).map (·.sequence) ++ land.queued.map (·.sequence) ++
    (outstanding rules past).map (·.sequence) ++ (dropped past).map (·.sequence)

/-- The figures of a live land add up: every submission that was admitted is counted
once, as executed, queued, resolving or dropped. -/
structure AddsUp (rules : Rules σ) (past : List (Passage σ)) (land : Land σ) : Prop where
  admitted : (Chronicle.admitted rules past).length =
    land.stats.ticks.items + land.stats.pending + land.stats.resolving + (dropped past).length
  account : (accountOf rules past land).Perm ((Chronicle.admitted rules past).map (·.sequence))
  distinct : (accountOf rules past land).Nodup
  rejected : land.stats.rejected = (refused rules past).length + (dropped past).length
  started : land.stats.started = (launched rules past).length
  direct : (Chronicle.direct rules past).length + land.stats.started =
    (Chronicle.admitted rules past).length
  drained : ∀ passage ∈ past, passage.operation = .step → (passage.after rules).stats.pending = 0
  frames : land.stats.frames = land.stats.nextTick.toNat
  ticks : land.stats.ticks.ticks = land.stats.nextTick.toNat
  /-- A step finds its recorder ready: it can only lack a number for an event. -/
  fault : ∀ error, (land.step rules).result = .error error → error = .sequenceOverflow

/-- The account of a run covers the submissions that were admitted. -/
theorem Run.account_perm
    (started : Land.live rules config created initial = .ok start)
    (run : Run rules start past land)
    (genuine : Genuine rules past)
    (going : land.failed = false) :
    (accountOf rules past land).Perm ((admitted rules past).map (·.sequence)) := by
  obtain ⟨frames, tracks⟩ := run.tracks started
  obtain ⟨queue, recorder, resolutions, live, -⟩ := tracks.mode
  have balanced := run.balanced started genuine going live
  have entered : ((log past).map (·.sequence) ++ land.queued.map (·.sequence)).Perm
      ((entries rules past).map (·.sequence)) := by
    rw [Land.queued, live, ← List.map_append]
    exact balanced.conserved.map _
  have given : (accountOf rules past land).Perm (given rules past) := by
    rw [accountOf, Chronicle.given, List.map_append, ← List.append_assoc]
    exact (entered.append_right _).append_right _
  exact given.trans (given_perm genuine)

/-- After every run without a fatal error the figures add up, if completions come from the
runner of the resolvers. -/
theorem figures_add_up
    (started : Land.live rules config created initial = .ok start)
    (run : Run rules start past land)
    (genuine : Genuine rules past)
    (going : land.failed = false) :
    AddsUp rules past land := by
  obtain ⟨frames, tracks⟩ := run.tracks started
  obtain ⟨queue, recorder, resolutions, live, -⟩ := tracks.mode
  have counted := run.counted started going
  have account := run.account_perm started genuine going
  have pending : land.stats.pending = land.queued.length := by
    simp only [Land.stats, Land.queued, live, Queue.size_eq]
  have resolving : land.stats.resolving = (outstanding rules past).length :=
    (run.awaits started genuine).count
  refine
    { admitted := ?_
      account := account
      distinct := account.nodup_iff.2 (run.nodup_admitted started)
      rejected := counted.rejected
      started := counted.started
      direct := by rw [counted.started, length_direct_add_launched]
      drained := run.drained started genuine going
      frames := counted.frames
      ticks := counted.ticks
      fault := fun error failed => ?_ }
  · have lengths := account.length_eq
    simp only [accountOf, List.length_append, List.length_map] at lengths
    rw [counted.items, pending, resolving]
    exact lengths.symm
  · rcases tracks.step_cases going with ⟨report, done⟩ | ⟨overflow, -⟩
    · rw [done] at failed
      cases failed
    · exact (Except.error.inj (overflow.symm.trans failed)).symm

/-- On a ledger one join is dropped, one is still resolving, and an action that nobody
handles is refused; leaves are executed and queued. -/
theorem figures_add_up_of_ledger :
    ∃ start past land,
      Land.live (Ledger.rules { join := .stamped })
          { landId := "books", landType := "ledger" } .epoch {} = .ok start ∧
        Run (Ledger.rules { join := .stamped }) start past land ∧
        Genuine (Ledger.rules { join := .stamped }) past ∧
        land.failed = false ∧
        land.stats =
          { mode := "live", nextTick := 1, pending := 1, resolving := 1, started := 2,
            rejected := 2, frames := 1, ticks := ⟨1, 1, 0, 0⟩ } ∧
        accountOf (Ledger.rules { join := .stamped }) past land = [1, 3, 2, 0] ∧
        AddsUp (Ledger.rules { join := .stamped }) past land := by
  let rules := Ledger.rules { join := .stamped }
  let config : LandConfig := { landId := "books", landType := "ledger" }
  let player := Actor.ofIds "p1" "c1" "s1"
  let join : Inbound := .lifecycle .join player {}
  let leave : Inbound := .lifecycle .leave player {}
  let operations : List Operation :=
    [.submit join, .submit leave, .step, .complete ⟨join.submission 0, .error .landClosed⟩,
      .submit (.action "unknown" (.object []) player), .submit join, .submit leave]
  obtain ⟨start, started⟩ : ∃ start, Land.live rules config .epoch {} = .ok start := ⟨_, rfl⟩
  have run := Run.of_operations rules start operations (by
    obtain rfl := Except.ok.inj started
    decide +kernel)
  have genuine : Genuine rules (start.passages rules operations) := by
    obtain rfl := Except.ok.inj started
    decide +kernel
  have going : (operations.foldl (Land.after rules) start).failed = false := by
    obtain rfl := Except.ok.inj started
    decide +kernel
  refine ⟨start, _, _, started, run, genuine, going, ?_, ?_,
    figures_add_up started run genuine going⟩
  · obtain rfl := Except.ok.inj started
    decide +kernel
  · obtain rfl := Except.ok.inj started
    decide +kernel

end Chronicle
