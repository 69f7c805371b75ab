import Chronicle.Proofs.Renumbering

/-!
# Runs without one of their submissions

A submission that waits for its resolvers has taken a number and is counted, and
nothing else.  When the resolvers fail, the run without it is the same up to the
numbers after it.
-/

namespace Chronicle

/-! ## Lands -/

namespace Land

variable {σ : Type} {rules : Rules σ} {land other : Land σ} {removed : Sequence}
  {waiting failures : Nat}

/-- A land that has admitted a submission and does not have its item, and a land that
is the same but has not admitted it.  The submission is still waiting for its
resolvers, or they have failed. -/
inductive Renumbered (removed : Sequence) (waiting failures : Nat) : Land σ → Land σ → Prop
  | intro {land : Land σ} {queue otherQueue : Queue} {recorder : Recorder}
      {numbering : Numbering} {resolutions resolving rejected : Nat}
      (live : land.mode = .live queue recorder (resolutions + 1))
      (queues : queue.Renumbered removed otherQueue)
      (next : land.numbering.next.toNat = numbering.next.toNat + 1)
      (above : removed < land.numbering.next)
      (outstanding : land.resolving = resolving + waiting)
      (refused : land.rejected = rejected + failures) :
      Renumbered removed waiting failures land
        { land with
          mode := .live otherQueue (recorder.renumber (closeGap removed)) resolutions
          numbering := numbering
          resolving := resolving
          rejected := rejected }

/-! What a submission to a live land comes to, by its reasons. -/

section Submit

variable {queue : Queue} {recorder : Recorder} {resolutions : Nat} {inbound : Inbound}
  {error : LandError} {resolvers : List Resolver} {sequence : Sequence} {numbering : Numbering}

theorem submit_eq_of_unknown
    (live : land.mode = .live queue recorder resolutions)
    (unknown : rules.registry.resolversFor inbound.kind inbound.type = .error error) :
    land.submit rules inbound =
      (.error error, note error { land with rejected := land.rejected + 1 }) := by
  simp only [submit, accept, live, unknown]
  rfl

theorem submit_eq_of_not_issued
    (live : land.mode = .live queue recorder resolutions)
    (known : rules.registry.resolversFor inbound.kind inbound.type = .ok resolvers)
    (notIssued : land.numbering.issue = .error error) :
    land.submit rules inbound =
      (.error error, note error { land with rejected := land.rejected + 1 }) := by
  simp only [submit, accept, live, known, notIssued]
  rfl

theorem submit_eq_of_no_resolvers
    (live : land.mode = .live queue recorder resolutions)
    (known : rules.registry.resolversFor inbound.kind inbound.type = .ok [])
    (issued : land.numbering.issue = .ok (sequence, numbering)) :
    land.submit rules inbound =
      (.ok (.queued sequence),
        { land with
          numbering := numbering
          mode := .live (queue.push ((inbound.submission sequence).resolve ∅ land.nextTick))
            recorder resolutions }) := by
  simp only [submit, accept, live, known, issued]
  rfl

theorem submit_eq_of_resolvers
    {resolver : Resolver}
    (live : land.mode = .live queue recorder resolutions)
    (known : rules.registry.resolversFor inbound.kind inbound.type = .ok (resolver :: resolvers))
    (issued : land.numbering.issue = .ok (sequence, numbering)) :
    land.submit rules inbound =
      (.ok (.resolving ⟨inbound.submission sequence, resolver :: resolvers⟩),
        { land with
          numbering := numbering
          mode := .live queue recorder (resolutions + 1)
          resolving := land.resolving + 1 }) := by
  simp only [submit, accept, live, known, issued]
  rfl

end Submit

namespace Renumbered

/-- The figures of the lands differ in what counts the submission. -/
theorem stats (renumbered : land.Renumbered removed waiting failures other) :
    land.stats =
      { other.stats with
        started := other.stats.started + 1
        resolving := other.stats.resolving + waiting
        rejected := other.stats.rejected + failures } := by
  obtain ⟨live, queues, -, -, outstanding, refused⟩ := renumbered
  rename_i queue otherQueue _ _ _ _ _
  have sameSize : otherQueue.size = queue.size := by
    rw [Queue.size_eq, Queue.size_eq, queues.toList, List.length_map]
  simp [Land.stats, live, outstanding, refused, sameSize, LandMode.name, Recorder.renumber]

/-- The lands have recorded the same frames, up to the numbers. -/
theorem frames (renumbered : land.Renumbered removed waiting failures other) :
    other.frames = land.frames.map (Recording.Frame.renumber (closeGap removed)) := by
  obtain ⟨live, -, -, -, -, -⟩ := renumbered
  simp only [Land.frames, recorder?, live, Recorder.frames_renumber]

/-- A submission is admitted to both lands, or refused by both. -/
theorem submit
    (renumbered : land.Renumbered removed waiting failures other)
    (inbound : Inbound)
    (going : (land.submit rules inbound).2.failed = false) :
    (other.submit rules inbound).1 =
        (land.submit rules inbound).1.map (Admission.renumber (closeGap removed)) ∧
      (land.submit rules inbound).2.Renumbered removed waiting failures
        (other.submit rules inbound).2 := by
  obtain ⟨live, queues, next, above, outstanding, refused⟩ := renumbered
  cases known : rules.registry.resolversFor inbound.kind inbound.type with
  | error error =>
      rw [submit_eq_of_unknown live known, submit_eq_of_unknown rfl known, note_eq, note_eq]
      refine ⟨rfl, .intro live queues next above outstanding ?_⟩
      rw [refused, Nat.add_right_comm]
  | ok resolvers =>
      cases issued : land.numbering.issue with
      | error error =>
          obtain ⟨-, rfl⟩ := Numbering.issue_eq_error_iff.1 issued
          rw [submit_eq_of_not_issued live known issued, note_eq] at going
          simp [LandError.isFatal] at going
      | ok pair =>
          obtain ⟨sequence, later⟩ := pair
          obtain ⟨isOther, laterAbove, otherLater, otherIssued, laterNext⟩ :=
            Numbering.issue_renumber next above issued
          cases resolvers with
          | nil =>
              rw [submit_eq_of_no_resolvers live known issued,
                submit_eq_of_no_resolvers rfl known otherIssued]
              have pushed := queues.push ((inbound.submission sequence).resolve ∅ land.nextTick)
                (by rwa [Submission.resolve, Inbound.sequence_submission])
              have moved : ((inbound.submission sequence).resolve ∅ land.nextTick).renumber
                  (closeGap removed) =
                  (inbound.submission (closeGap removed sequence)).resolve ∅ land.nextTick := by
                rw [← Inbound.renumber_submission]
                rfl
              rw [moved] at pushed
              exact ⟨rfl, .intro rfl pushed laterNext laterAbove outstanding refused⟩
          | cons resolver rest =>
              rw [submit_eq_of_resolvers live known issued,
                submit_eq_of_resolvers rfl known otherIssued]
              refine ⟨?_, .intro rfl queues laterNext laterAbove ?_ refused⟩
              · rw [← Inbound.renumber_submission]
                rfl
              · exact (congrArg (· + 1) outstanding).trans (Nat.add_right_comm _ _ _)

/-- A completion is applied to both lands. -/
theorem complete
    (renumbered : land.Renumbered removed waiting failures other)
    {completion : Completion}
    (isOther : completion.submission.sequence ≠ removed)
    (counted : 0 < other.resolving) :
    (other.complete (completion.renumber (closeGap removed))).1 =
        (land.complete completion).1.map (closeGap removed) ∧
      (land.complete completion).2.Renumbered removed waiting failures
        (other.complete (completion.renumber (closeGap removed))).2 := by
  obtain ⟨live, queues, next, above, outstanding, refused⟩ := renumbered
  rename_i queue otherQueue recorder numbering resolutions resolving rejected
  have counts : land.resolving - 1 = resolving - 1 + waiting := by
    rw [outstanding]
    exact Nat.sub_add_comm counted
  obtain ⟨submission, result⟩ := completion
  cases result with
  | error error =>
      refine ⟨rfl, .intro live queues next above counts ?_⟩
      exact (congrArg (· + 1) refused).trans (Nat.add_right_comm _ _ _)
  | ok outputs =>
      simp only [Land.complete, Completion.renumber, enqueue, live]
      exact ⟨rfl, .intro rfl (queues.push (submission.resolve outputs land.nextTick) isOther) next
        above counts refused⟩

/-- Both lands execute the same tick. -/
theorem step
    (renumbered : land.Renumbered removed waiting failures other)
    (going : (land.step rules).land.failed = false) :
    (other.step rules).result =
        (land.step rules).result.map (TickReport.renumber (closeGap removed)) ∧
      (other.step rules).heard = (land.step rules).heard ∧
      (land.step rules).land.Renumbered removed waiting failures (other.step rules).land := by
  obtain ⟨live, queues, next, above, outstanding, refused⟩ := renumbered
  rename_i queue otherQueue recorder numbering resolutions resolving rejected
  obtain ⟨sameItems, drained⟩ := queues.drain (land.nextTick + 1)
  simp only [Land.step, take, live, Rules.execute] at going ⊢
  cases performed : TickRun.performAll land.nextTick ⟨land.state, land.numbering, [], [], 0⟩
      (rules.effects land.nextTick (queue.drain (land.nextTick + 1)).1) with
  | mk result run =>
      cases result with
      | error error =>
          have fatal := TickRun.isFatal_of_performAll performed
          simp [performed, note_eq, fatal] at going
      | ok _ =>
          obtain ⟨later, laterNext, otherPerformed⟩ :=
            TickRun.performAll_renumber next above performed
          have laterAbove : removed < run.numbering.next :=
            UInt64.lt_of_lt_of_le above (UInt64.le_iff_toNat_le.2
              (TickRun.behind_of_performAll performed))
          let outcome : TickOutcome := ⟨land.nextTick, (queue.drain (land.nextTick + 1)).1,
            run.recorded, run.failures⟩
          have recorded := Recorder.record_renumber (closeGap removed) recorder
            (outcome.toFrame (some (rules.fingerprint run.state)))
          rw [← TickOutcome.toFrame_renumber] at recorded
          have reported :
              report (outcome.renumber (closeGap removed)) (rules.fingerprint run.state) =
                (report outcome (rules.fingerprint run.state)).renumber (closeGap removed) := by
            simp [report, TickOutcome.renumber, TickReport.renumber, Item.renumber,
              Function.comp_def]
          simp only [TickOutcome.renumber, outcome] at recorded reported
          simp only [sameItems, Rules.effects_renumber, otherPerformed, conclude, recorded,
            reported, List.length_map]
          cases recorder.record (TickOutcome.toFrame ⟨land.nextTick,
              (queue.drain (land.nextTick + 1)).1, run.recorded, run.failures⟩
              (some (rules.fingerprint run.state))) with
          | ok after =>
              exact ⟨rfl, rfl, .intro rfl drained laterNext laterAbove outstanding refused⟩
          | error error =>
              refine ⟨rfl, rfl, ?_⟩
              simp only [Except.map, note_eq]
              exact .intro rfl drained laterNext laterAbove outstanding refused

end Renumbered
end Land

/-! ## One operation -/

section Omitted

variable {σ : Type} {rules : Rules σ} {land other : Land σ} {removed : Submission}
  {waiting running others : List Submission} {failures : Nat} {operation : Operation}

/-- A run with a submission and a run without it have come equally far.  The submission
is still waiting, or its resolvers have failed. -/
structure Omits
    (removed : Submission)
    (waiting : List Submission)
    (failures : Nat)
    (land other : Land σ)
    (running others : List Submission) : Prop where
  lands : land.Renumbered removed.sequence waiting.length failures other
  awaits : other.Awaits others
  only : ∀ submission ∈ waiting, submission = removed
  running : ∃ rest, running.Perm (waiting ++ rest) ∧
    others.Perm (rest.map (Submission.renumber (closeGap removed.sequence)))

/-- What starts to be resolved has another number when what is returned has. -/
theorem Passage.resolving?_renumber
    {number : Sequence → Sequence}
    {passage otherPassage : Passage σ}
    (same : otherPassage.answer rules = (passage.answer rules).renumber number) :
    otherPassage.resolving? rules =
      (passage.resolving? rules).map (Submission.renumber number) := by
  rw [resolving?_eq, resolving?_eq, same]
  cases passage.answer rules with
  | submitted result =>
      cases result with
      | error error => rfl
      | ok admission => cases admission <;> rfl
  | completed result => rfl
  | stepped result heard => rfl

namespace Omits

/-- Another submission that is running is not the one that is waiting. -/
theorem not_mem_waiting
    (omits : Omits removed waiting failures land other running others)
    {submission : Submission}
    (isOther : submission.sequence ≠ removed.sequence) :
    submission ∉ waiting :=
  fun waits => isOther (congrArg Submission.sequence (omits.only _ waits))

/-- What is running in one run is running in the other. -/
theorem mem_others
    (omits : Omits removed waiting failures land other running others)
    {submission : Submission}
    (isRunning : submission ∈ running)
    (isOther : submission.sequence ≠ removed.sequence) :
    submission.renumber (closeGap removed.sequence) ∈ others := by
  obtain ⟨rest, same, otherSame⟩ := omits.running
  refine otherSame.mem_iff.2 (List.mem_map_of_mem ?_)
  exact (List.mem_append.1 (same.mem_iff.1 isRunning)).resolve_left
    (omits.not_mem_waiting isOther)

/-- The operation is taken in both runs. -/
theorem takes
    (omits : Omits removed waiting failures land other running others)
    (takes : land.Takes operation) :
    other.Takes (operation.renumber (closeGap removed.sequence)) := by
  obtain ⟨live, -, -, -, -, -⟩ := omits.lands
  refine ⟨takes.1, fun isStep => takes.2 ?_⟩
  cases operation with
  | submit inbound => cases isStep
  | complete completion => cases isStep
  | step => rfl

/-- An operation that leaves no fatal error behind does the same in both runs. -/
theorem after
    (omits : Omits removed waiting failures land other running others)
    (isRunning : ∀ submission ∈ (⟨land, operation⟩ : Passage σ).completed?,
      submission ∈ running ∧ submission.sequence ≠ removed.sequence)
    (going : (land.after rules operation).failed = false) :
    (⟨other, operation.renumber (closeGap removed.sequence)⟩ : Passage σ).answer rules =
        ((⟨land, operation⟩ : Passage σ).answer rules).renumber (closeGap removed.sequence) ∧
      Omits removed waiting failures (land.after rules operation)
        (other.after rules (operation.renumber (closeGap removed.sequence)))
        (settle rules running ⟨land, operation⟩)
        (settle rules others ⟨other, operation.renumber (closeGap removed.sequence)⟩) := by
  obtain ⟨rest, same, otherSame⟩ := omits.running
  cases operation with
  | submit inbound =>
      obtain ⟨sameResult, lands⟩ := omits.lands.submit inbound going
      have sameAnswer := congrArg Answer.submitted sameResult
      refine ⟨sameAnswer, lands, omits.awaits.submit inbound, omits.only,
        rest ++ ((⟨land, .submit inbound⟩ : Passage σ).resolving? rules).toList, ?_, ?_⟩
      · rw [← List.append_assoc]
        exact same.append_right _
      · have started : (⟨other, .submit inbound⟩ : Passage σ).resolving? rules =
            ((⟨land, .submit inbound⟩ : Passage σ).resolving? rules).map
              (Submission.renumber (closeGap removed.sequence)) :=
          Passage.resolving?_renumber sameAnswer
        rw [List.map_append, ← Option.toList_map, ← started]
        exact otherSame.append_right _
  | complete completion =>
      obtain ⟨runs, isOther⟩ := isRunning _ rfl
      have alsoRuns := omits.mem_others runs isOther
      have counted : 0 < other.resolving :=
        omits.awaits.count ▸ List.length_pos_of_mem alsoRuns
      obtain ⟨sameResult, lands⟩ := omits.lands.complete isOther counted
      have notWaiting := omits.not_mem_waiting isOther
      have inRest := (List.mem_append.1 (same.mem_iff.1 runs)).resolve_left notWaiting
      refine ⟨congrArg Answer.completed sameResult, lands, omits.awaits.complete alsoRuns,
        omits.only, rest.erase completion.submission, ?_, ?_⟩
      · rw [← List.erase_append_right _ notWaiting]
        exact same.erase _
      · have parts := ((List.perm_cons_erase inRest).map
          (Submission.renumber (closeGap removed.sequence))).erase
            (completion.submission.renumber (closeGap removed.sequence))
        rw [List.map_cons, List.erase_cons_head] at parts
        exact (otherSame.erase _).trans parts
  | step =>
      obtain ⟨sameResult, sameHeard, lands⟩ := omits.lands.step going
      refine ⟨congrArg₂ Answer.stepped sameResult sameHeard, ?_⟩
      simp only [Operation.renumber, settle_step]
      exact ⟨lands, omits.awaits.step, omits.only, rest, same, otherSame⟩

/-- The resolvers of the submission fail. -/
theorem fail
    (omits : Omits removed [removed] 0 land other running others)
    (error : LandError) :
    Omits removed [] 1 (land.complete ⟨removed, .error error⟩).2 other (running.erase removed)
      others := by
  obtain ⟨live, queues, next, above, outstanding, refused⟩ := omits.lands
  refine ⟨.intro live queues next above ?_ ?_, omits.awaits, fun _ => nofun, ?_⟩
  · exact congrArg (· - 1) outstanding
  · exact congrArg (· + 1) refused
  · obtain ⟨rest, same, otherSame⟩ := omits.running
    refine ⟨rest, ?_, otherSame⟩
    have fewer := same.erase removed
    rwa [List.singleton_append, List.erase_cons_head] at fewer

end Omits

/-! ## Runs -/

/-- Two lands are in the same state and have recorded the same frames, up to the
numbers, and one of them counts a submission more: as started, and as waiting or
refused. -/
structure Land.SameUpTo
    (number : Sequence → Sequence)
    (waiting failures : Nat)
    (land other : Land σ) : Prop where
  state : other.state = land.state
  frames : other.frames = land.frames.map (Recording.Frame.renumber number)
  stats : land.stats =
    { other.stats with
      started := other.stats.started + 1
      resolving := other.stats.resolving + waiting
      rejected := other.stats.rejected + failures }

theorem Land.Renumbered.sameUpTo
    {sequence : Sequence}
    {waiting failures : Nat}
    (renumbered : land.Renumbered sequence waiting failures other) :
    land.SameUpTo (closeGap sequence) waiting failures other := by
  refine ⟨?_, renumbered.frames, renumbered.stats⟩
  obtain ⟨-, -, -, -, -, -⟩ := renumbered
  rfl

/-- Two operations are the same and return the same, up to the numbers, on lands that
are the same up to them.  What returns a fatal error in one run may be done in the
other, which has a number more. -/
structure Passage.SameUpTo
    (rules : Rules σ)
    (number : Sequence → Sequence)
    (waiting failures : Nat)
    (passage other : Passage σ) : Prop where
  operation : other.operation = passage.operation.renumber number
  before : passage.before.SameUpTo number waiting failures other.before
  answer : (passage.after rules).failed = false →
    other.answer rules = (passage.answer rules).renumber number

/-- Operations on the two lands return the same, up to the numbers. -/
theorem Omits.passages
    (omits : Omits removed waiting failures land other running others)
    (operations : List Operation)
    (genuine : GenuineFrom rules running (land.passages rules operations))
    (apart : ∀ passage ∈ land.passages rules operations, ∀ submission ∈ passage.completed?,
      submission.sequence ≠ removed.sequence)
    (taken : ∀ passage ∈ land.passages rules operations,
      passage.before.Takes passage.operation) :
    let renumbered := operations.map (Operation.renumber (closeGap removed.sequence))
    List.Forall₂ (Passage.SameUpTo rules (closeGap removed.sequence) waiting.length failures)
        (land.passages rules operations) (other.passages rules renumbered) ∧
      (∀ passage ∈ other.passages rules renumbered, passage.before.Takes passage.operation) ∧
      GenuineFrom rules others (other.passages rules renumbered) ∧
      ((operations.foldl (Land.after rules) land).failed = false →
        Omits removed waiting failures (operations.foldl (Land.after rules) land)
          (renumbered.foldl (Land.after rules) other)
          ((land.passages rules operations).foldl (settle rules) running)
          ((other.passages rules renumbered).foldl (settle rules) others)) := by
  induction operations generalizing land other running others with
  | nil => exact ⟨.nil, fun _ member => absurd member List.not_mem_nil, trivial, fun _ => omits⟩
  | cons operation rest inductionHypothesis =>
      obtain ⟨isRunning, genuineLater⟩ := genuine
      obtain ⟨firstApart, laterApart⟩ := List.forall_mem_cons.1 apart
      obtain ⟨takes, takesLater⟩ := List.forall_mem_cons.1 taken
      have both : ∀ submission ∈ (⟨land, operation⟩ : Passage σ).completed?,
          submission ∈ running ∧ submission.sequence ≠ removed.sequence :=
        fun submission completed => ⟨isRunning submission completed,
          firstApart submission completed⟩
      have alsoRunning : ∀ submission ∈
          (⟨other, operation.renumber (closeGap removed.sequence)⟩ : Passage σ).completed?,
          submission ∈ others := by
        intro submission completed
        cases operation with
        | submit inbound => cases completed
        | complete completion =>
            obtain rfl := Option.some.inj completed
            obtain ⟨runs, isOther⟩ := both _ rfl
            exact omits.mem_others runs isOther
        | step => cases completed
      by_cases going : (land.after rules operation).failed = false
      · obtain ⟨sameAnswer, after⟩ := omits.after both going
        obtain ⟨same, alsoTaken, alsoGenuine, final⟩ :=
          inductionHypothesis after genuineLater laterApart takesLater
        exact ⟨.cons ⟨rfl, omits.lands.sameUpTo, fun _ => sameAnswer⟩ same,
          List.forall_mem_cons.2 ⟨omits.takes takes, alsoTaken⟩, ⟨alsoRunning, alsoGenuine⟩,
          final⟩
      · have isLast : rest = [] := by
          cases rest with
          | nil => rfl
          | cons second others => exact absurd (takesLater _ List.mem_cons_self).1 going
        subst isLast
        exact ⟨.cons ⟨rfl, omits.lands.sameUpTo, fun still => absurd still going⟩ .nil,
          List.forall_mem_cons.2
            ⟨omits.takes takes, fun _ member => absurd member List.not_mem_nil⟩,
          ⟨alsoRunning, trivial⟩, fun still => absurd still going⟩

/-! ## A submission whose resolvers fail -/

section Failing

variable {past : List (Passage σ)} {start last : Land σ} {config : LandConfig}
  {created : Timestamp} {initial : σ} {inbound : Inbound}

/-- Numbers below the one that is taken out stay. -/
theorem closeGap_of_lt {sequence number : Sequence} (below : number < sequence) :
    closeGap sequence number = number :=
  if_neg fun above => UInt64.lt_irrefl _ (UInt64.lt_trans below above)

/-- A land that has just admitted a submission, and the land before. -/
theorem Omits.begins
    (started : Land.live rules config created initial = .ok start)
    (run : Run rules start past land)
    (genuine : Genuine rules past)
    (going : land.failed = false)
    (resolving : (⟨land, .submit inbound⟩ : Passage σ).resolving? rules = some removed) :
    Omits removed [removed] 0 (land.submit rules inbound).2 land
      (settle rules (outstanding rules past) ⟨land, .submit inbound⟩) (outstanding rules past) := by
  obtain ⟨frames, tracks⟩ := run.tracks started
  obtain ⟨queue, recorder, resolutions, live, consistent, -⟩ := tracks.mode
  have balanced := run.balanced started genuine going live
  have awaits := run.awaits started genuine
  obtain ⟨-, handed, -⟩ := run.frames_numbered started genuine going
  rcases Land.submit_live_cases rules live inbound with
    ⟨error, refused⟩ | ⟨sequence, numbering, -, issued, queued⟩ |
      ⟨resolvers, sequence, numbering, -, -, issued, isResolving⟩
  · simp [Passage.resolving?, refused] at resolving
  · simp [Passage.resolving?, queued] at resolving
  · have settled : settle rules (outstanding rules past) ⟨land, .submit inbound⟩ =
        outstanding rules past ++ [inbound.submission sequence] := by
      simp only [settle, Passage.resolving?, isResolving, Option.toList_some]
    simp only [Passage.resolving?, isResolving, Option.some.injEq] at resolving
    subst resolving
    obtain ⟨-, rfl, successor⟩ := Numbering.issue_eq_ok_iff.1 issued
    have sameRecorder : recorder.renumber (closeGap land.numbering.next) = recorder := by
      refine Recorder.renumber_eq_self fun frame member =>
        Recording.Frame.renumber_eq_self fun number inFrame => closeGap_of_lt ?_
      have held : frame ∈ land.frames := by
        simpa only [Land.frames, Land.recorder?, live] using member
      exact run.lt_of_mem_handedOut started
        (handed number (List.mem_flatMap.2 ⟨frame, held, inFrame⟩))
    have below : ∀ item ∈ queue.toList, item.sequence < land.numbering.next := fun item waits =>
      balanced.issued.below _ (sequence_mem_given
        (balanced.conserved.mem_iff.1 (List.mem_append_right _ waits)))
    have sameQueue : queue.Renumbered land.numbering.next queue := by
      refine ⟨consistent, consistent, fun item waits => UInt64.ne_of_lt (below item waits), ?_⟩
      refine ((List.map_congr_left fun item waits => ?_).trans (List.map_id _)).symm
      rw [Item.renumber, closeGap_of_lt (below item waits)]
      rfl
    have sameOutstanding : (outstanding rules past).map
        (Submission.renumber (closeGap land.numbering.next)) = outstanding rules past := by
      refine (List.map_congr_left fun submission runs => ?_).trans (List.map_id _)
      rw [Submission.renumber, closeGap_of_lt (awaits.issued submission runs)]
      rfl
    have above : land.numbering.next < numbering.next := by
      rw [UInt64.lt_iff_toNat_lt, successor]
      exact Nat.lt_succ_self _
    have back : { land with mode := .live queue recorder resolutions } = land := by
      rw [← live]
    have lands : Land.Renumbered land.numbering.next 1 0
        { land with
          numbering := numbering
          mode := .live queue recorder (resolutions + 1)
          resolving := land.resolving + 1 }
        { land with
          mode := .live queue (recorder.renumber (closeGap land.numbering.next)) resolutions } :=
      .intro rfl sameQueue successor above rfl rfl
    rw [sameRecorder, back] at lands
    rw [settled, isResolving]
    refine ⟨?_, awaits, fun _ => List.mem_singleton.1, outstanding rules past,
      List.perm_append_comm, ?_⟩
    · rwa [Inbound.sequence_submission]
    · rw [Inbound.sequence_submission, sameOutstanding]

/-- What a run is without a submission whose resolvers have failed, and without their
completion: a run in which everything is the same up to the numbers, which close the
gap, and up to the counts of the submission. -/
structure SameWithoutFailed
    (rules : Rules σ)
    (start last : Land σ)
    (earlier between later : List Operation)
    (inbound : Inbound)
    (removed : Submission)
    (error : LandError) : Prop where
  /-- The numbers keep their order. -/
  ordered : ∀ first second, first ≠ removed.sequence → second ≠ removed.sequence →
    first < second → closeGap removed.sequence first < closeGap removed.sequence second
  /-- The other operations are a run. -/
  run : Run rules start
    (start.passages rules
      (earlier ++ (between ++ later).map (Operation.renumber (closeGap removed.sequence))))
    ((earlier ++ (between ++ later).map (Operation.renumber (closeGap removed.sequence))).foldl
      (Land.after rules) start)
  /-- The other operations complete only what is running. -/
  genuine : Genuine rules
    (start.passages rules
      (earlier ++ (between ++ later).map (Operation.renumber (closeGap removed.sequence))))
  /-- While the submission waits, one more is counted as resolving. -/
  waiting : List.Forall₂ (Passage.SameUpTo rules (closeGap removed.sequence) 1 0)
    (((earlier ++ [Operation.submit inbound]).foldl (Land.after rules) start).passages rules
      between)
    ((earlier.foldl (Land.after rules) start).passages rules
      (between.map (Operation.renumber (closeGap removed.sequence))))
  /-- After its resolvers have failed, one more is counted as refused. -/
  refused : List.Forall₂ (Passage.SameUpTo rules (closeGap removed.sequence) 0 1)
    (((earlier ++ Operation.submit inbound ::
      (between ++ [Operation.complete ⟨removed, .error error⟩])).foldl
        (Land.after rules) start).passages rules later)
    (((earlier ++ between.map (Operation.renumber (closeGap removed.sequence))).foldl
      (Land.after rules) start).passages rules
        (later.map (Operation.renumber (closeGap removed.sequence))))
  /-- Both runs end alike. -/
  final : last.failed = false → last.SameUpTo (closeGap removed.sequence) 0 1
    ((earlier ++ (between ++ later).map (Operation.renumber (closeGap removed.sequence))).foldl
      (Land.after rules) start)

/-- When nothing is completed twice, the other operations complete other submissions. -/
theorem apart_of_nodup_completed
    {earlier later : List (Passage σ)}
    {passage : Passage σ}
    {removed : Submission}
    (once : ((completed (earlier ++ passage :: later)).map (·.sequence)).Nodup)
    (isCompleted : passage.completed? = some removed) :
    ∀ other ∈ earlier ++ later, ∀ submission ∈ other.completed?,
      submission.sequence ≠ removed.sequence := by
  intro other member submission completes same
  have parts : completed (earlier ++ passage :: later) =
      completed earlier ++ removed :: completed later := by
    rw [completed, List.filterMap_append, List.filterMap_cons, isCompleted]
    rfl
  rw [parts, List.map_append, List.map_cons, List.nodup_middle, List.nodup_cons,
    ← List.map_append] at once
  refine once.1 (List.mem_map.2 ⟨submission, ?_, same⟩)
  have inBoth : submission ∈ completed (earlier ++ later) :=
    List.mem_filterMap.2 ⟨other, member, completes⟩
  rwa [completed, List.filterMap_append] at inBoth

/-- A submission whose resolvers have failed can be taken out of a run together with
their completion. -/
theorem Run.same_without_failed
    {earlier between later : List Operation}
    {error : LandError}
    (started : Land.live rules config created initial = .ok start)
    (run : Run rules start
      (start.passages rules (earlier ++ .submit inbound ::
        (between ++ .complete ⟨removed, .error error⟩ :: later))) last)
    (genuine : Genuine rules
      (start.passages rules (earlier ++ .submit inbound ::
        (between ++ .complete ⟨removed, .error error⟩ :: later))))
    (resolving : (⟨earlier.foldl (Land.after rules) start, .submit inbound⟩ :
      Passage σ).resolving? rules = some removed) :
    SameWithoutFailed rules start last earlier between later inbound removed error := by
  have taken := run.takes
  have once := run.nodup_completed started genuine
  have final := run.eq_foldl
  have runEarlier := run.of_append
  rw [Land.map_operation_passages] at final
  simp only [Land.passages_append, Land.passages, List.foldl_append, List.foldl_cons]
    at taken genuine once final
  rw [← List.cons_append, ← List.append_assoc] at once
  have apart := apart_of_nodup_completed once rfl
  simp only [List.forall_mem_append, List.forall_mem_cons] at taken apart
  obtain ⟨takenEarlier, takesSubmit, takenBetween, takesComplete, takenLater⟩ := taken
  obtain ⟨⟨-, -, apartBetween⟩, apartLater⟩ := apart
  rw [genuine_append_iff, GenuineFrom, genuineFrom_append_iff, GenuineFrom] at genuine
  obtain ⟨genuineEarlier, -, genuineBetween, -, genuineLater⟩ := genuine
  have begins := Omits.begins started runEarlier genuineEarlier takesSubmit.1 resolving
  obtain ⟨waiting, otherBetween, alsoGenuine, reached⟩ :=
    begins.passages between genuineBetween apartBetween takenBetween
  have failed := (reached takesComplete.1).fail error
  obtain ⟨refused, otherLater, alsoGenuineLater, ended⟩ :=
    failed.passages later genuineLater apartLater takenLater
  refine ⟨fun _ _ => closeGap_lt_closeGap, Run.of_operations rules start _ ?_, ?_, ?_, ?_,
    fun going => ?_⟩
  · simp only [List.map_append, Land.passages_append, List.forall_mem_append]
    exact ⟨takenEarlier, otherBetween, otherLater⟩
  · simp only [List.map_append, Land.passages_append]
    exact genuine_append_iff.2
      ⟨genuineEarlier, genuineFrom_append_iff.2 ⟨alsoGenuine, alsoGenuineLater⟩⟩
  · simp only [List.foldl_append, List.foldl_cons, List.foldl_nil]
    exact waiting
  · simp only [List.foldl_append, List.foldl_cons, List.foldl_nil]
    exact refused
  · rw [final] at going ⊢
    simp only [List.map_append, List.foldl_append]
    exact (ended going).lands.sameUpTo

end Failing
end Omitted
end Chronicle
