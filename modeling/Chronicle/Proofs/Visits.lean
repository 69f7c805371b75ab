import Chronicle.Proofs.Order

/-!
# Visits

A player comes with a join and goes with a leave.  Two orders of the same visits
matter: the one in which they are submitted, which says who is expected to be
there, and the one in which they are executed, which says who is there.  They
differ when a join is still resolving while its leave is executed.
-/

namespace Chronicle

/-- A join or leave of a player. -/
structure Visit where
  kind : LifecycleKind
  player : Option String
  deriving DecidableEq

/-- Whether a player is there after some visits: the last of the player's own
visits decides. -/
def present (player : String) (visits : List Visit) : Bool :=
  visits.foldl
    (fun there visit =>
      if visit.player = some player then visit.kind = .join else there)
    false

@[simp] theorem present_nil (player : String) : present player [] = false := rfl

@[simp] theorem present_snoc (player : String) (visits : List Visit) (last : Visit) :
    present player (visits ++ [last]) =
      if last.player = some player then decide (last.kind = .join) else present player visits := by
  rw [present, List.foldl_append]
  rfl

/-- A player is there exactly when the last of the player's own visits is a join. -/
theorem present_iff_getLast? (player : String) (visits : List Visit) :
    present player visits = true ↔
      (visits.filter (·.player = some player)).getLast? = some ⟨.join, some player⟩ := by
  induction visits using List.reverseRecOn with
  | nil => simp
  | append_singleton visits last inductionHypothesis =>
      obtain ⟨kind, visitor⟩ := last
      by_cases own : visitor = some player
      · simp [List.filter_append, own]
      · simpa [List.filter_append, own] using inductionHypothesis

/-- In a list in order, a player is there exactly when a join of the player comes
after all leaves of the player. -/
theorem present_iff
    {α : Type}
    {before : α → α → Prop}
    (visit? : α → Option Visit)
    (asymmetric : ∀ first second, before first second → ¬ before second first)
    {entries : List α}
    (ordered : entries.Pairwise before)
    (player : String) :
    present player (entries.filterMap visit?) = true ↔
      ∃ join ∈ entries, visit? join = some ⟨.join, some player⟩ ∧
        ∀ leave ∈ entries, visit? leave = some ⟨.leave, some player⟩ → before leave join := by
  induction entries using List.reverseRecOn with
  | nil => simp
  | append_singleton entries last inductionHypothesis =>
      obtain ⟨older, -, behind⟩ := List.pairwise_append.1 ordered
      have others (elsewhere : ∀ kind, visit? last ≠ some ⟨kind, some player⟩) :
          (∃ join ∈ entries ++ [last], visit? join = some ⟨.join, some player⟩ ∧
            ∀ leave ∈ entries ++ [last], visit? leave = some ⟨.leave, some player⟩ →
              before leave join) ↔
          ∃ join ∈ entries, visit? join = some ⟨.join, some player⟩ ∧
            ∀ leave ∈ entries, visit? leave = some ⟨.leave, some player⟩ → before leave join := by
        simp [or_and_right, exists_or, or_imp, forall_and, elsewhere]
      rw [List.filterMap_append, List.filterMap_cons, List.filterMap_nil]
      cases visit : visit? last with
      | none =>
          rw [others (by simp [visit])]
          simpa using inductionHypothesis older
      | some found =>
          obtain ⟨kind, visitor⟩ := found
          by_cases own : visitor = some player
          · subst own
            cases kind with
            | join =>
                simp only [present_snoc, if_true, decide_true, true_iff]
                refine ⟨last, by simp, visit, fun leave member left => ?_⟩
                rcases List.mem_append.1 member with earlier | now
                · exact behind leave earlier last List.mem_cons_self
                · obtain rfl := List.mem_singleton.1 now
                  exact absurd (visit.symm.trans left) (by simp)
            | leave =>
                simp only [present_snoc, if_true, reduceCtorEq, decide_false, Bool.false_eq_true,
                  false_iff, not_exists, not_and]
                intro join member joined later
                have left := later last (by simp) visit
                rcases List.mem_append.1 member with earlier | now
                · exact asymmetric _ _ left (behind join earlier last List.mem_cons_self)
                · obtain rfl := List.mem_singleton.1 now
                  exact absurd (visit.symm.trans joined) (by simp)
          · rw [others (by simp [visit, own])]
            simp only [present_snoc, own, if_false]
            exact inductionHypothesis older

/-- The visit that a submission is. -/
def Submission.visit? (submission : Submission) : Option Visit :=
  match submission.kind with
  | .lifecycle kind => some ⟨kind, submission.actor.player⟩
  | _ => none

/-- The visit that an inbound is submitted for. -/
def Inbound.visit? (inbound : Inbound) : Option Visit := (inbound.submission 0).visit?

@[simp] theorem Inbound.visit?_submission (inbound : Inbound) (sequence : Sequence) :
    (inbound.submission sequence).visit? = inbound.visit? := by
  cases inbound <;> rfl

/-- The visit that an item is. -/
def Item.visit? (item : Item) : Option Visit := item.toSubmission.visit?

/-- The visit that a recorded join or leave is. -/
def Recording.Lifecycle.visit (event : Recording.Lifecycle) : Visit :=
  ⟨event.kind, event.actor.player⟩

/-! ## Submissions in order -/

section Submitted

variable {σ : Type} {rules : Rules σ} {past : List (Passage σ)} {last : Passage σ}
  {start land : Land σ} {config : LandConfig} {created : Timestamp} {initial : σ}

/-- What was admitted is resolving, was dropped, or has entered the queue. -/
theorem admitted_cases
    {submission : Submission}
    (member : submission ∈ admitted rules past) :
    submission ∈ outstanding rules past ∨ submission ∈ dropped past ∨
      ∃ item ∈ entries rules past, item.toSubmission = submission := by
  induction past using List.reverseRecOn with
  | nil => exact absurd member List.not_mem_nil
  | append_singleton past last inductionHypothesis =>
      obtain ⟨land, operation⟩ := last
      rw [admitted_snoc] at member
      rw [outstanding_snoc, dropped_snoc, entries_snoc]
      rcases List.mem_append.1 member with earlier | now
      · rcases inductionHypothesis earlier with running | isDropped | ⟨item, entered, same⟩
        · cases operation with
          | submit inbound => exact .inl (List.mem_append_left _ running)
          | complete completion =>
              by_cases done : submission = completion.submission
              · subst done
                obtain ⟨submission, result⟩ := completion
                cases result with
                | ok outputs =>
                    exact .inr (.inr ⟨submission.resolve outputs land.nextTick,
                      List.mem_append_right _ List.mem_cons_self, rfl⟩)
                | error error => exact .inr (.inl (List.mem_append_right _ List.mem_cons_self))
              · exact .inl ((List.mem_erase_of_ne done).2 running)
          | step => exact .inl (List.mem_append_left _ running)
        · exact .inr (.inl (List.mem_append_left _ isDropped))
        · exact .inr (.inr ⟨item, List.mem_append_left _ entered, same⟩)
      · cases operation with
        | submit inbound =>
            simp only [Passage.admitted?, Option.mem_toList] at now
            split at now
            · rename_i sequence result
              obtain rfl := Option.some.inj now
              refine .inr (.inr ⟨(inbound.submission sequence).resolve ∅ land.nextTick,
                List.mem_append_right _ (Option.mem_toList.2 ?_), rfl⟩)
              simp only [Passage.enters?, Passage.direct?, result]
              rfl
            · rename_i resolution result
              obtain rfl := Option.some.inj now
              refine .inl (List.mem_append_right _ (Option.mem_toList.2 ?_))
              simp only [Passage.resolving?, result]
            · cases now
        | complete completion => cases now
        | step => cases now

/-- A submission carries the next number of the land. -/
theorem Passage.sequence_of_admitted
    {queue : Queue}
    {recorder : Recorder}
    {started : Nat}
    {submission : Submission}
    (live : last.before.mode = .live queue recorder started)
    (admits : last.admitted? rules = some submission) :
    submission.sequence = last.before.numbering.next := by
  obtain ⟨land, operation⟩ := last
  cases operation with
  | submit inbound =>
      rcases Land.submit_live_cases rules live inbound with
        ⟨error, refused⟩ | ⟨sequence, numbering, -, next, queued⟩ |
          ⟨resolvers, sequence, numbering, -, -, next, resolving⟩
      · simp [admitted?, refused] at admits
      · simp only [admitted?, queued, Option.some.injEq] at admits
        rw [← admits, Inbound.sequence_submission]
        exact (Numbering.issue_eq_ok_iff.1 next).2.1
      · simp only [admitted?, resolving, Option.some.injEq] at admits
        rw [← admits, Inbound.sequence_submission]
        exact (Numbering.issue_eq_ok_iff.1 next).2.1
  | complete completion => cases admits
  | step => cases admits

/-- Submissions are admitted in the order of their numbers. -/
theorem Run.admitted_ascending
    (started : Land.live rules config created initial = .ok start)
    (run : Run rules start past land)
    (genuine : Genuine rules past) :
    (admitted rules past).Pairwise fun first second => first.sequence < second.sequence := by
  induction run with
  | nothing => exact List.Pairwise.nil
  | next run takes inductionHypothesis =>
      rename_i past land operation
      obtain ⟨frames, tracks⟩ := run.tracks started
      obtain ⟨queue, _, _, live, -⟩ := tracks.mode
      have balanced := run.balanced started (genuine_snoc_iff.1 genuine).1 takes.1 live
      have ascending := inductionHypothesis (genuine_snoc_iff.1 genuine).1
      have given {submission : Submission} (member : submission ∈ admitted rules past) :
          submission.sequence ∈ given rules past := by
        rcases admitted_cases member with running | isDropped | ⟨item, entered, rfl⟩
        · exact List.mem_append_right _ (List.mem_map_of_mem (List.mem_append_left _ running))
        · exact List.mem_append_right _ (List.mem_map_of_mem (List.mem_append_right _ isDropped))
        · exact sequence_mem_given entered
      rw [admitted_snoc]
      refine List.pairwise_append.2 ⟨ascending, ?_, fun first earlier second now => ?_⟩
      · cases (⟨land, operation⟩ : Passage σ).admitted? rules with
        | none => exact List.Pairwise.nil
        | some submission => exact List.pairwise_singleton _ _
      · rw [Passage.sequence_of_admitted live (Option.mem_toList.1 now)]
        exact balanced.issued.below _ (given earlier)

end Submitted

/-! ## Recorded visits -/

section Recorded

variable {σ : Type} {rules : Rules σ} {past : List (Passage σ)} {start land : Land σ}
  {config : LandConfig} {created : Timestamp} {initial : σ}

/-- The joins and leaves that a live land has recorded. -/
def Land.lifecycleEvents (land : Land σ) : List Recording.Lifecycle :=
  land.frames.flatMap (·.lifecycleEvents)

/-- A land records what was executed, each item in its tick. -/
theorem Run.records_perm
    (started : Land.live rules config created initial = .ok start)
    (run : Run rules start past land)
    (genuine : Genuine rules past)
    (going : land.failed = false) :
    (land.frames.flatMap (·.records)).Perm
      ((log past).map fun item => item.toRecord item.resolvedAt) := by
  induction run with
  | nothing =>
      obtain ⟨_, holds, rfl⟩ := Land.live_eq_ok started
      simp [Land.frames, Land.recorder?, holds.frames, log]
  | next run takes inductionHypothesis =>
      rename_i past land operation
      obtain ⟨frames, tracks⟩ := run.tracks started
      have before := inductionHypothesis (genuine_snoc_iff.1 genuine).1 takes.1
      rw [log_snoc]
      by_cases isStep : operation = .step
      · subst isStep
        obtain ⟨queue, ends⟩ := tracks.endsTick takes going
        obtain ⟨recorder, resolutions, live⟩ := ends.live
        have balanced := run.balanced started (genuine_snoc_iff.1 genuine).1 takes.1 live
        obtain ⟨everything, -⟩ := balanced.executed_step live ends.consistent ends.notFinal
        obtain ⟨outcome, stateHash, tick, executed, newFrames⟩ := ends.recorded
        have isExecuted : outcome.executed = (⟨land, .step⟩ : Passage σ).executed := by
          simp only [executed, Passage.executed, Land.take, live]
        rw [Land.after, newFrames, List.flatMap_append, List.map_append]
        apply before.append
        rw [List.flatMap_singleton]
        apply (outcome.records_toFrame_perm stateHash).trans
        rw [isExecuted, everything, tick]
        refine List.Perm.of_eq (List.map_congr_left fun item waits => ?_)
        rw [balanced.waiting item waits]
      · obtain ⟨queue, _, _, live, -⟩ := tracks.mode
        obtain ⟨sameFrames, -⟩ := Land.frames_after rules live isStep
        have nothing : (⟨land, operation⟩ : Passage σ).executed = [] := by
          cases operation with
          | submit inbound => rfl
          | complete completion => rfl
          | step => exact absurd rfl isStep
        rw [sameFrames, nothing, List.append_nil]
        exact before

/-- A visit is recorded exactly when its item was executed. -/
theorem Run.exists_lifecycleEvent_iff
    (started : Land.live rules config created initial = .ok start)
    (run : Run rules start past land)
    (genuine : Genuine rules past)
    (going : land.failed = false)
    (visit : Visit)
    (inTick : Tick → Prop) :
    (∃ event ∈ land.lifecycleEvents, event.visit = visit ∧ inTick event.tick) ↔
      ∃ item ∈ log past, item.visit? = some visit ∧ inTick item.resolvedAt := by
  have records := run.records_perm started genuine going
  have recorded (event : Recording.Lifecycle) :
      event ∈ land.lifecycleEvents ↔ .lifecycle event ∈ land.frames.flatMap (·.records) := by
    simp [Land.lifecycleEvents, Recording.Frame.records]
  constructor
  · rintro ⟨event, member, rfl, holds⟩
    obtain ⟨item, executed, record⟩ :=
      List.mem_map.1 (records.mem_iff.1 ((recorded event).1 member))
    refine ⟨item, executed, ?_⟩
    unfold Item.toRecord at record
    split at record
    · cases record
    · cases record
    · rename_i kind isLifecycle
      obtain rfl := ItemRecord.lifecycle.inj record
      exact ⟨by simp only [Item.visit?, Submission.visit?, isLifecycle]; rfl, holds⟩
  · rintro ⟨item, executed, isVisit, holds⟩
    unfold Item.visit? Submission.visit? at isVisit
    split at isVisit
    · rename_i kind isLifecycle
      obtain rfl := Option.some.inj isVisit
      refine ⟨item.toLifecycle kind item.resolvedAt, (recorded _).2 (records.mem_iff.2 ?_), rfl,
        holds⟩
      refine List.mem_map.2 ⟨item, executed, ?_⟩
      simp only [Item.toRecord, isLifecycle]
    · cases isVisit

end Recorded
end Chronicle
