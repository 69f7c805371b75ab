import Chronicle.Proofs.Resolving

/-!
# When resolutions finish

Between two steps it does not matter when a resolution finishes.  Completions can
be moved past each other and past submissions, as long as each stays behind its
own submission: a stretch without steps comes to the same as its submissions
followed by its completions, in any order.
-/

namespace Chronicle

namespace Operation

/-- What an operation submits. -/
def inbound? : Operation → Option Inbound
  | .submit inbound => some inbound
  | _ => none

/-- The completion that an operation applies. -/
def completion? : Operation → Option Completion
  | .complete completion => some completion
  | _ => none

end Operation

variable {σ : Type} {rules : Rules σ} {past : List (Passage σ)} {start land other : Land σ}
  {stretch others : List Operation}

/-! ## Moving completions -/

namespace Land

/-- Makes submissions one after the other. -/
def submitAll (rules : Rules σ) (land : Land σ) (inbounds : List Inbound) : Land σ :=
  inbounds.foldl (fun land inbound => (land.submit rules inbound).2) land

/-- Applies completions one after the other. -/
def completeAll (land : Land σ) (completions : List Completion) : Land σ :=
  completions.foldl (fun land completion => (land.complete completion).2) land

/-- Completions of different submissions can be applied in either order. -/
theorem complete_comm
    (land : Land σ)
    {first second : Completion}
    (distinct : first.submission.sequence ≠ second.submission.sequence) :
    ((land.complete first).2.complete second).2 = ((land.complete second).2.complete first).2 := by
  obtain ⟨submission, result⟩ := first
  obtain ⟨otherSubmission, otherResult⟩ := second
  obtain ⟨id, mode, state, numbering, ticks, nextTick, interval, resolving, rejected, failed⟩ :=
    land
  cases mode with
  | replay source strict summary =>
      cases result <;> cases otherResult <;> rfl
  | live queue recorder resolutions =>
      cases result with
      | error error => cases otherResult <;> rfl
      | ok outputs =>
          cases otherResult with
          | error error => rfl
          | ok otherOutputs =>
              have pushed := queue.push_comm (submission.resolve outputs nextTick)
                (otherSubmission.resolve otherOutputs nextTick) distinct
              simp only [complete, enqueue, pushed]

/-- A completion of an earlier submission can be applied after a submission. -/
theorem submit_complete
    (rules : Rules σ)
    (live : land.IsLive)
    {completion : Completion}
    (counted : 0 < land.resolving)
    (earlier : completion.submission.sequence < land.numbering.next)
    (inbound : Inbound) :
    ((land.complete completion).2.submit rules inbound).2 =
      ((land.submit rules inbound).2.complete completion).2 := by
  obtain ⟨queue, recorder, resolutions, live⟩ := live
  obtain ⟨submission, result⟩ := completion
  have back : land.resolving - 1 + 1 = land.resolving + 1 - 1 := by omega
  cases result with
  | error error =>
      simp only [submit, accept, complete, live]
      cases rules.registry.resolversFor inbound.kind inbound.type with
      | error error => simp [note_eq, bind, Except.bind]
      | ok resolvers =>
          cases land.numbering.issue with
          | error error => simp [note_eq, bind, Except.bind]
          | ok pair => cases resolvers <;> simp [bind, Except.bind, pure, Except.pure, back]
  | ok outputs =>
      simp only [submit, accept, complete, enqueue, live]
      cases rules.registry.resolversFor inbound.kind inbound.type with
      | error error => simp [note_eq, bind, Except.bind]
      | ok resolvers =>
          cases issued : land.numbering.issue with
          | error error => simp [note_eq, bind, Except.bind]
          | ok pair =>
              obtain ⟨sequence, numbering⟩ := pair
              obtain ⟨-, rfl, -⟩ := Numbering.issue_eq_ok_iff.1 issued
              cases resolvers with
              | cons resolver rest => simp [bind, Except.bind, pure, Except.pure, back]
              | nil =>
                  have distinct : submission.sequence ≠
                      (inbound.submission land.numbering.next).sequence := by
                    rw [Inbound.sequence_submission]
                    exact UInt64.ne_of_lt earlier
                  have pushed := queue.push_comm (submission.resolve outputs land.nextTick)
                    ((inbound.submission land.numbering.next).resolve ∅ land.nextTick)
                    distinct
                  simp [bind, Except.bind, pure, Except.pure, pushed]

/-- A completion of an earlier submission can be applied after any submissions. -/
theorem Awaits.submitAll_complete
    {running : List Submission}
    (awaits : land.Awaits running)
    {completion : Completion}
    (isRunning : completion.submission ∈ running)
    (inbounds : List Inbound) :
    (land.complete completion).2.submitAll rules inbounds =
      ((land.submitAll rules inbounds).complete completion).2 := by
  induction inbounds generalizing land running with
  | nil => rfl
  | cons inbound rest inductionHypothesis =>
      have counted : 0 < land.resolving := awaits.count ▸ List.length_pos_of_mem isRunning
      have moved := submit_complete rules awaits.live counted
        (awaits.issued _ isRunning) inbound
      simp only [submitAll, List.foldl_cons, moved]
      exact inductionHypothesis (awaits.submit inbound) (List.mem_append_left _ isRunning)

/-- A stretch without steps comes to its submissions followed by its completions. -/
theorem Awaits.foldl_after_eq
    {running : List Submission}
    (awaits : land.Awaits running)
    (noStep : .step ∉ stretch)
    (genuine : GenuineFrom rules running (land.passages rules stretch)) :
    stretch.foldl (Land.after rules) land =
      (land.submitAll rules (stretch.filterMap Operation.inbound?)).completeAll
        (stretch.filterMap Operation.completion?) := by
  induction stretch generalizing land running with
  | nil => rfl
  | cons operation rest inductionHypothesis =>
      obtain ⟨isRunning, later⟩ := genuine
      have whole := inductionHypothesis (awaits.after isRunning)
        (fun member => noStep (List.mem_cons_of_mem _ member)) later
      rw [List.foldl_cons, whole]
      cases operation with
      | submit inbound => rfl
      | complete completion =>
          simp only [Land.after, awaits.submitAll_complete (isRunning _ rfl)]
          rfl
      | step => exact absurd List.mem_cons_self noStep

/-- Completions of different submissions can be applied in any order. -/
theorem completeAll_perm
    (land : Land σ)
    {completions reordered : List Completion}
    (same : reordered.Perm completions)
    (distinct : (completions.map (·.submission.sequence)).Nodup) :
    land.completeAll reordered = land.completeAll completions := by
  refine (List.Perm.foldl_eq' same.symm (fun first here second there land => ?_) land).symm
  by_cases equal : first = second
  · rw [equal]
  · exact land.complete_comm fun number =>
      equal (List.inj_on_of_nodup_map distinct here there number)

end Land

/-! ## What the operations answer -/

namespace Passage

/-- A submission with its result. -/
def submitted? (rules : Rules σ) (passage : Passage σ) :
    Option (Inbound × Except LandError Admission) :=
  match passage.operation with
  | .submit inbound => some (inbound, (passage.before.submit rules inbound).1)
  | _ => none

/-- A completion with its result. -/
def applied? (passage : Passage σ) : Option (Completion × Except LandError Sequence) :=
  match passage.operation with
  | .complete completion => some (completion, (passage.before.complete completion).1)
  | _ => none

end Passage

/-- The submissions of a run with their results, in order. -/
def submitted (rules : Rules σ) (past : List (Passage σ)) :
    List (Inbound × Except LandError Admission) :=
  past.filterMap (Passage.submitted? rules)

/-- The completions of a run with their results, in order. -/
def applied (past : List (Passage σ)) : List (Completion × Except LandError Sequence) :=
  past.filterMap Passage.applied?

/-- What was launched is seen from the results of the submissions. -/
theorem launched_eq_filterMap_submitted (rules : Rules σ) (past : List (Passage σ)) :
    launched rules past = (submitted rules past).filterMap fun
      | (_, .ok (.resolving resolution)) => some resolution.submission
      | _ => none := by
  rw [launched, submitted, List.filterMap_filterMap]
  refine congrArg (past.filterMap ·) (funext fun passage => ?_)
  obtain ⟨land, operation⟩ := passage
  cases operation with
  | submit inbound =>
      simp only [Passage.resolving?, Passage.submitted?, Option.bind_some]
      cases (land.submit rules inbound).1 with
      | error error => rfl
      | ok admission => cases admission <;> rfl
  | complete completion => rfl
  | step => rfl

/-- What a submission returns and which number is next after it depend on nothing but
the number that is next. -/
theorem Land.IsLive.submit_congr
    (rules : Rules σ)
    (live : land.IsLive)
    (alsoLive : other.IsLive)
    (same : land.numbering = other.numbering)
    (inbound : Inbound) :
    (land.submit rules inbound).1 = (other.submit rules inbound).1 ∧
      (land.submit rules inbound).2.numbering = (other.submit rules inbound).2.numbering := by
  obtain ⟨queue, recorder, resolutions, live⟩ := live
  obtain ⟨otherQueue, otherRecorder, otherResolutions, alsoLive⟩ := alsoLive
  simp only [submit, accept, live, alsoLive, same]
  cases rules.registry.resolversFor inbound.kind inbound.type with
  | error error => simp [note_eq, bind, Except.bind]
  | ok resolvers =>
      cases other.numbering.issue with
      | error error => simp [note_eq, bind, Except.bind]
      | ok pair => cases resolvers <;> simp [bind, Except.bind, pure, Except.pure]

/-- The submissions of a stretch return the same with and without its completions. -/
theorem Land.IsLive.submitted_passages
    (rules : Rules σ)
    (live : land.IsLive)
    (alsoLive : other.IsLive)
    (same : land.numbering = other.numbering)
    (noStep : .step ∉ stretch) :
    submitted rules (land.passages rules stretch) =
      submitted rules
        (other.passages rules ((stretch.filterMap Operation.inbound?).map Operation.submit)) := by
  induction stretch generalizing land other with
  | nil => rfl
  | cons operation rest inductionHypothesis =>
      have restNoStep : .step ∉ rest := fun member => noStep (List.mem_cons_of_mem _ member)
      cases operation with
      | submit inbound =>
          obtain ⟨sameResult, sameNumbering⟩ :=
            live.submit_congr rules alsoLive same inbound
          have later := inductionHypothesis (live.after rules (.submit inbound))
            (alsoLive.after rules (.submit inbound)) sameNumbering restNoStep
          simp only [submitted, Passage.submitted?, Operation.inbound?, Land.passages,
            List.filterMap_cons, List.map_cons, sameResult] at later ⊢
          rw [later]
      | complete completion =>
          have sameNumbering := (numbering_complete completion land).trans same
          exact inductionHypothesis (live.after rules (.complete completion)) alsoLive
            sameNumbering restNoStep
      | step => exact absurd List.mem_cons_self noStep

/-- The completions of a run return what their results say. -/
theorem applied_eq (past : List (Passage σ)) :
    applied past = ((past.map (·.operation)).filterMap Operation.completion?).map fun completion =>
      (completion, completion.result.map fun _ => completion.submission.sequence) := by
  rw [applied, List.filterMap_map, List.map_filterMap]
  refine congrArg (past.filterMap ·) (funext fun passage => ?_)
  obtain ⟨land, operation⟩ := passage
  cases operation with
  | submit inbound => rfl
  | complete completion =>
      exact congrArg (fun result => some (completion, result)) (land.complete_fst completion)
  | step => rfl

/-- The submissions whose resolvers are done are those of the completions. -/
theorem completed_eq (past : List (Passage σ)) :
    completed past =
      ((past.map (·.operation)).filterMap Operation.completion?).map (·.submission) := by
  rw [completed, List.filterMap_map, List.map_filterMap]
  refine congrArg (past.filterMap ·) (funext fun passage => ?_)
  obtain ⟨land, operation⟩ := passage
  cases operation <;> rfl

/-! ## Stretches in another order -/

/-- Every completion stands behind its own submission, after what has passed. -/
def BehindSubmissions (rules : Rules σ) : List (Passage σ) → List (Passage σ) → Prop
  | _, [] => True
  | past, passage :: rest =>
      (∀ submission ∈ passage.completed?, submission ∈ admitted rules past) ∧
        BehindSubmissions rules (past ++ [passage]) rest

instance decidableBehindSubmissions (rules : Rules σ) :
    (past rest : List (Passage σ)) → Decidable (BehindSubmissions rules past rest)
  | _, [] => isTrue trivial
  | past, passage :: rest =>
      have := decidableBehindSubmissions rules (past ++ [passage]) rest
      inferInstanceAs (Decidable (_ ∧ _))

/-- The operations of a stretch in another order, in which the submissions stand in
the same order and each completion stands behind its own submission. -/
structure Reorders
    (rules : Rules σ)
    (start : Land σ)
    (earlier stretch others : List Operation) : Prop where
  same : others.Perm stretch
  submissions : others.filterMap Operation.inbound? = stretch.filterMap Operation.inbound?
  behind : BehindSubmissions rules (start.passages rules earlier)
    ((earlier.foldl (Land.after rules) start).passages rules others)

/-- When nothing is completed twice and what is completed waits for resolvers, it is
enough that every completion stands behind its own submission. -/
theorem BehindSubmissions.genuine
    {rest : List (Passage σ)}
    (behind : BehindSubmissions rules past rest)
    (genuine : Genuine rules past)
    (live : ∀ passage ∈ past ++ rest, passage.before.IsLive)
    (once : (completed (past ++ rest)).Nodup)
    (waits : ∀ submission ∈ completed (past ++ rest), submission.Waits rules) :
    Genuine rules (past ++ rest) := by
  induction rest generalizing past with
  | nil => rwa [List.append_nil]
  | cons passage rest inductionHypothesis =>
      rw [List.append_cons] at live once waits ⊢
      refine inductionHypothesis behind.2 (genuine_snoc_iff.2 ⟨genuine, ?_⟩) live once waits
      intro submission isCompleted
      have parts : completed (past ++ [passage] ++ rest) =
          completed past ++ [submission] ++ completed rest := by
        rw [completed, List.filterMap_append, ← completed, completed_snoc, isCompleted]
        rfl
      have isLaunched : submission ∈ launched rules past :=
        (mem_launched_iff fun earlier member => live earlier (by simp [member])).2
          ⟨behind.1 submission isCompleted, waits submission (by rw [parts]; simp)⟩
      rcases List.mem_append.1 ((launched_perm genuine).mem_iff.2 isLaunched) with
        running | already
      · exact running
      · rw [parts] at once
        have apart := (List.nodup_append.1 (List.nodup_append.1 once).1).2.2
        exact absurd rfl (apart _ already _ List.mem_cons_self)

section Reordered

variable {config : LandConfig} {created : Timestamp} {initial : σ}
  {earlier later : List Operation} {last : Land σ}

namespace Reorders

variable (reorders : Reorders rules start earlier stretch others)
include reorders

/-- The same is completed in both orders. -/
theorem completed_perm :
    (completed (start.passages rules (earlier ++ others))).Perm
      (completed (start.passages rules (earlier ++ stretch))) := by
  simp only [completed_eq, Land.map_operation_passages]
  exact ((reorders.same.append_left earlier).filterMap _).map _

/-- In another order, too, every completion is of a submission whose resolvers are
running. -/
theorem genuine
    (started : Land.live rules config created initial = .ok start)
    (run : Run rules start (start.passages rules (earlier ++ stretch)) land)
    (genuine : Genuine rules (start.passages rules (earlier ++ stretch))) :
    Genuine rules (start.passages rules (earlier ++ others)) := by
  have live (operations : List Operation) := (Land.Awaits.begins started).live.passages rules
    operations
  have same := reorders.completed_perm
  have once := same.nodup_iff.2 (run.nodup_completed started genuine).of_map
  have waits : ∀ submission ∈ completed (start.passages rules (earlier ++ others)),
      submission.Waits rules := fun submission isCompleted =>
    ((mem_launched_iff (live _)).1 ((launched_perm genuine).mem_iff.1
      (List.mem_append_right _ (same.mem_iff.1 isCompleted)))).2
  have isLive := live (earlier ++ others)
  rw [Land.passages_append] at genuine once waits isLive ⊢
  exact reorders.behind.genuine (genuine_append_iff.1 genuine).1 isLive once waits

/-- The submissions return the same in both orders. -/
theorem submitted_eq
    (started : Land.live rules config created initial = .ok start)
    (noStep : .step ∉ stretch) :
    submitted rules (start.passages rules (earlier ++ others)) =
      submitted rules (start.passages rules (earlier ++ stretch)) := by
  have live := (Land.Awaits.begins started).live.foldl rules earlier
  simp only [submitted, Land.passages_append, List.filterMap_append]
  have given := live.submitted_passages rules live rfl noStep
  have reordered := live.submitted_passages rules live rfl
    fun member => noStep (reorders.same.mem_iff.1 member)
  rw [reorders.submissions, ← given] at reordered
  exact congrArg _ reordered

/-- Both orders lead to the same land. -/
theorem foldl_eq
    (started : Land.live rules config created initial = .ok start)
    (run : Run rules start (start.passages rules (earlier ++ stretch)) land)
    (genuine : Genuine rules (start.passages rules (earlier ++ stretch)))
    (noStep : .step ∉ stretch) :
    (earlier ++ others).foldl (Land.after rules) start =
      (earlier ++ stretch).foldl (Land.after rules) start := by
  have otherGenuine := reorders.genuine started run genuine
  have awaits := run.of_append.awaits started
    (genuine_append_iff.1 (Land.passages_append rules _ _ _ ▸ genuine)).1
  have completions := reorders.same.filterMap Operation.completion?
  have distinct :
      ((stretch.filterMap Operation.completion?).map (·.submission.sequence)).Nodup := by
    have once := run.nodup_completed started genuine
    rw [completed_eq, Land.map_operation_passages, List.filterMap_append, List.map_append,
      List.map_append, List.map_map (l := stretch.filterMap _)] at once
    exact (List.nodup_append.1 once).2.1
  rw [Land.passages_append] at genuine otherGenuine
  rw [List.foldl_append, List.foldl_append,
    awaits.foldl_after_eq noStep (genuine_append_iff.1 genuine).2,
    awaits.foldl_after_eq (fun member => noStep (reorders.same.mem_iff.1 member))
      (genuine_append_iff.1 otherGenuine).2, reorders.submissions]
  exact Land.completeAll_perm _ completions distinct

end Reorders

/-- An operation other than a step leaves no fatal error behind when there was one
before. -/
theorem Land.IsLive.going_of_after
    (live : land.IsLive)
    {operation : Operation}
    (notStep : operation ≠ .step)
    (going : (land.after rules operation).failed = false) :
    land.failed = false := by
  obtain ⟨queue, recorder, resolutions, live⟩ := live
  cases operation with
  | submit inbound =>
      rcases Land.submit_live_cases rules live inbound with
        ⟨error, refused⟩ | ⟨sequence, numbering, -, -, queued⟩ |
          ⟨resolvers, sequence, numbering, -, -, -, resolving⟩
      · rw [Land.after, refused, note_eq] at going
        exact (Bool.or_eq_false_iff.1 going).1
      · rwa [Land.after, queued] at going
      · rwa [Land.after, resolving] at going
  | complete completion =>
      rcases Land.complete_live_cases live completion with
        ⟨outputs, -, resolved⟩ | ⟨error, -, dropped⟩
      · rwa [Land.after, resolved] at going
      · rwa [Land.after, dropped] at going
  | step => exact absurd rfl notStep

/-- A stretch without steps that leaves no fatal error behind was taken. -/
theorem Land.IsLive.takes_stretch
    (live : land.IsLive)
    (noStep : .step ∉ stretch)
    (going : (stretch.foldl (Land.after rules) land).failed = false) :
    land.failed = false ∧ ∀ passage ∈ land.passages rules stretch,
      passage.before.Takes passage.operation := by
  induction stretch generalizing land with
  | nil => exact ⟨going, fun _ member => absurd member List.not_mem_nil⟩
  | cons operation rest inductionHypothesis =>
      have notStep : operation ≠ .step := fun same => noStep (same ▸ List.mem_cons_self)
      obtain ⟨goingAfter, later⟩ := inductionHypothesis (live.after rules operation)
        (fun member => noStep (List.mem_cons_of_mem _ member)) going
      have goingBefore := live.going_of_after notStep goingAfter
      exact ⟨goingBefore, List.forall_mem_cons.2
        ⟨⟨goingBefore, fun isStep => absurd isStep notStep⟩, later⟩⟩

/-- Only steps are reported. -/
theorem reports_stretch (rules : Rules σ) (land : Land σ) (noStep : .step ∉ stretch) :
    reports rules (land.passages rules stretch) = [] := by
  refine List.filterMap_eq_nil_iff.2 fun passage member => ?_
  have isOperation : passage.operation ∈ stretch := by
    rw [← Land.map_operation_passages rules land stretch]
    exact List.mem_map_of_mem member
  obtain ⟨before, operation⟩ := passage
  cases operation with
  | submit inbound => rfl
  | complete completion => rfl
  | step => exact absurd isOperation noStep

/-- The same submissions are outstanding after both orders. -/
theorem Reorders.outstanding_perm
    (reorders : Reorders rules start earlier stretch others)
    (started : Land.live rules config created initial = .ok start)
    (run : Run rules start (start.passages rules (earlier ++ stretch)) land)
    (genuine : Genuine rules (start.passages rules (earlier ++ stretch)))
    (noStep : .step ∉ stretch) :
    (outstanding rules (start.passages rules (earlier ++ others))).Perm
      (outstanding rules (start.passages rules (earlier ++ stretch))) := by
  have here := launched_perm (reorders.genuine started run genuine)
  have there := launched_perm genuine
  rw [launched_eq_filterMap_submitted, reorders.submitted_eq started noStep,
    ← launched_eq_filterMap_submitted] at here
  exact (List.perm_append_right_iff _).1
    (here.trans (there.symm.trans (reorders.completed_perm.symm.append_left _)))

/-- Two orders of a stretch come to the same: each is part of a run, every operation
returns the same, and the land is the same after the stretch and in the end, with its
figures, its state and what it has recorded. -/
structure ComesToTheSame
    (rules : Rules σ)
    (start last : Land σ)
    (earlier stretch others later : List Operation) : Prop where
  /-- Every submission returns the same. -/
  submissions : submitted rules (start.passages rules (earlier ++ others ++ later)) =
    submitted rules (start.passages rules (earlier ++ stretch ++ later))
  /-- Every completion returns the same. -/
  completions : (applied (start.passages rules (earlier ++ others ++ later))).Perm
    (applied (start.passages rules (earlier ++ stretch ++ later)))
  /-- The land after the stretch is the same. -/
  reached : (earlier ++ others).foldl (Land.after rules) start =
    (earlier ++ stretch).foldl (Land.after rules) start
  /-- Every tick is reported the same. -/
  reported : reports rules (start.passages rules (earlier ++ others ++ later)) =
    reports rules (start.passages rules (earlier ++ stretch ++ later))
  /-- The run in the other order leads to the same land, unless the stretch has ended
  with a fatal error. -/
  run : ((earlier ++ stretch).foldl (Land.after rules) start).failed = false →
    Run rules start (start.passages rules (earlier ++ others ++ later)) last
  /-- The other run completes only what is running, too. -/
  genuine : Genuine rules (start.passages rules (earlier ++ others ++ later))

/-- In every run of a new live land the completions within a stretch without steps can
be reordered, as long as they stay behind their submissions. -/
theorem run_ignores_timing
    (started : Land.live rules config created initial = .ok start)
    (run : Run rules start (start.passages rules (earlier ++ stretch ++ later)) last)
    (genuine : Genuine rules (start.passages rules (earlier ++ stretch ++ later)))
    (noStep : .step ∉ stretch)
    (reorders : Reorders rules start earlier stretch others) :
    ComesToTheSame rules start last earlier stretch others later := by
  have runStretch := run.of_append
  have genuineBoth := genuine
  rw [Land.passages_append] at genuineBoth
  obtain ⟨genuineStretch, genuineLater⟩ := genuine_append_iff.1 genuineBoth
  have reached := reorders.foldl_eq started runStretch genuineStretch noStep
  have otherNoStep : .step ∉ others := fun member => noStep (reorders.same.mem_iff.1 member)
  refine ⟨?_, ?_, reached, ?_, fun going => ?_, ?_⟩
  · rw [submitted, submitted, Land.passages_append, Land.passages_append _ _ (earlier ++ stretch),
      List.filterMap_append, List.filterMap_append, reached]
    exact congrArg (· ++ _) (reorders.submitted_eq started noStep)
  · simp only [applied_eq, Land.map_operation_passages]
    exact (((reorders.same.append_left earlier).append_right later).filterMap _).map _
  · rw [Land.passages_append, Land.passages_append _ _ (earlier ++ stretch), reached]
    simp only [reports, Land.passages_append, List.filterMap_append]
    have given := reports_stretch rules (earlier.foldl (Land.after rules) start) noStep
    have reordered :=
      reports_stretch rules (earlier.foldl (Land.after rules) start) otherNoStep
    rw [reports] at given reordered
    rw [given, reordered]
  · have whole := run.eq_foldl
    rw [Land.map_operation_passages, List.foldl_append, ← reached, ← List.foldl_append] at whole
    rw [whole]
    have taken := run.takes
    refine Run.of_operations rules start _ fun passage member => ?_
    rw [Land.passages_append, List.mem_append, Land.passages_append, List.mem_append] at member
    rw [Land.passages_append, Land.passages_append] at taken
    rcases member with (before | within) | after
    · exact taken passage (List.mem_append_left _ (List.mem_append_left _ before))
    · have live := (Land.Awaits.begins started).live.foldl rules earlier
      rw [← reached, List.foldl_append] at going
      exact (live.takes_stretch otherNoStep going).2 passage within
    · rw [reached] at after
      exact taken passage (List.mem_append_right _ after)
  · rw [Land.passages_append, reached]
    exact genuine_append_iff.2 ⟨reorders.genuine started runStretch genuineStretch,
      genuineLater.perm (reorders.outstanding_perm started runStretch genuineStretch noStep)⟩

/-- On a ledger the join of one player is stamped before a leave and the join of another
is refused after it, or the other way round. -/
theorem run_ignores_timing_of_stamped_joins :
    let rules := Ledger.rules { join := .stamped }
    let first := Inbound.lifecycle .join (Actor.ofIds "p1" "c1" "s1") {}
    let second := Inbound.lifecycle .join (Actor.ofIds "p2" "c2" "s2") {}
    let leave := Inbound.lifecycle .leave (Actor.ofIds "p1" "c1" "s1") {}
    let stamped := Completion.mk (first.submission 0) (.ok ∅)
    let refused := Completion.mk (second.submission 1)
      (.error (.resolverFailure "stamp" "stamp service down"))
    let earlier : List Operation := [.submit first, .step]
    let stretch : List Operation :=
      [.submit second, .complete stamped, .submit leave, .complete refused]
    let others : List Operation :=
      [.submit second, .complete refused, .submit leave, .complete stamped]
    ∃ start last,
      Land.live rules { landId := "books", landType := "ledger" } .epoch {} = .ok start ∧
        Run rules start (start.passages rules (earlier ++ stretch ++ [.step])) last ∧
        last.stats.rejected = 1 ∧
        ComesToTheSame rules start last earlier stretch others [.step] := by
  intro rules first second leave stamped refused earlier stretch others
  obtain ⟨start, started⟩ :
      ∃ start, Land.live rules { landId := "books", landType := "ledger" } .epoch {} = .ok start :=
    ⟨_, rfl⟩
  have run := Run.of_operations rules start (earlier ++ stretch ++ [.step]) (by
    obtain rfl := Except.ok.inj started
    decide +kernel)
  have reorders : Reorders rules start earlier stretch others := by
    refine ⟨.cons _ ?_, rfl, ?_⟩
    · exact ((List.Perm.swap _ _ _).trans ((List.Perm.swap _ _ _).cons _)).trans (.swap _ _ _)
    · obtain rfl := Except.ok.inj started
      decide +kernel
  refine ⟨start, _, started, run, ?_, run_ignores_timing started run ?_ ?_ reorders⟩
  · obtain rfl := Except.ok.inj started
    decide +kernel
  · obtain rfl := Except.ok.inj started
    decide +kernel
  · simp [stretch]

end Reordered
end Chronicle
