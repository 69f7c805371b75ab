import Chronicle.Proofs.Numbering

/-!
# Submissions that wait for their resolvers

Whether a submission waits for resolvers is a matter of its kind and type alone.
In a genuine run a submission whose resolvers were started is outstanding or
completed, and not both; the land counts the outstanding ones.
-/

namespace Chronicle

variable {σ : Type} {rules : Rules σ} {past : List (Passage σ)} {passage last : Passage σ}
  {start land : Land σ} {config : LandConfig} {created : Timestamp} {initial : σ}

/-- The submissions whose resolvers were started in a run, in order. -/
def launched (rules : Rules σ) (past : List (Passage σ)) : List Submission :=
  past.filterMap (Passage.resolving? rules)

/-- The submissions whose resolvers are done, in the order in which that was
applied. -/
def completed (past : List (Passage σ)) : List Submission := past.filterMap Passage.completed?

/-- The submission whose resolvers are started is seen from what is returned. -/
theorem Passage.resolving?_eq (passage : Passage σ) :
    passage.resolving? rules =
      match passage.answer rules with
      | .submitted (.ok (.resolving resolution)) => some resolution.submission
      | _ => none := by
  obtain ⟨land, operation⟩ := passage
  cases operation with
  | submit inbound =>
      simp only [resolving?, answer]
      cases (land.submit rules inbound).1 with
      | error error => rfl
      | ok admission => cases admission <;> rfl
  | complete completion => rfl
  | step => rfl

/-- The submissions that wait for resolvers are those with a handler that declares
some. -/
def Submission.Waits (rules : Rules σ) (submission : Submission) : Prop :=
  ∃ resolvers, rules.registry.resolversFor submission.kind submission.type = .ok resolvers ∧
    resolvers ≠ []

theorem launched_snoc :
    launched rules (past ++ [last]) = launched rules past ++ (last.resolving? rules).toList := by
  rw [launched, List.filterMap_append, List.filterMap_cons, List.filterMap_nil]
  cases last.resolving? rules <;> rfl

theorem completed_snoc : completed (past ++ [last]) = completed past ++ last.completed?.toList := by
  rw [completed, List.filterMap_append, List.filterMap_cons, List.filterMap_nil]
  cases last.completed? <;> rfl

/-- The resolvers of an admitted submission are started exactly when it waits for
some. -/
theorem Passage.resolving?_eq_some_iff
    {queue : Queue}
    {recorder : Recorder}
    {resolutions : Nat}
    {submission : Submission}
    (live : passage.before.mode = .live queue recorder resolutions) :
    passage.resolving? rules = some submission ↔
      passage.admitted? rules = some submission ∧ submission.Waits rules := by
  obtain ⟨land, operation⟩ := passage
  cases operation with
  | submit inbound =>
      rcases Land.submit_live_cases rules live inbound with
        ⟨error, refused⟩ | ⟨sequence, numbering, declared, issued, queued⟩ |
          ⟨resolvers, sequence, numbering, declared, some, issued, resolving⟩
      · simp [resolving?, admitted?, refused]
      · simp only [resolving?, admitted?, queued, reduceCtorEq, Option.some.injEq, false_iff,
          not_and]
        rintro rfl ⟨resolvers, alsoDeclared, some⟩
        rw [Inbound.kind_submission, Inbound.type_submission, declared] at alsoDeclared
        exact some (Except.ok.inj alsoDeclared).symm
      · simp only [resolving?, admitted?, resolving, Option.some.injEq, iff_self_and]
        rintro rfl
        exact ⟨resolvers, by rwa [Inbound.kind_submission, Inbound.type_submission], some⟩
  | complete completion => simp [resolving?, admitted?]
  | step => simp [resolving?, admitted?]

/-- A completion returns what its result says. -/
theorem Land.complete_fst (completion : Completion) (land : Land σ) :
    (land.complete completion).1 =
      completion.result.map fun _ => completion.submission.sequence := by
  obtain ⟨submission, result⟩ := completion
  cases result <;> rfl

/-- A land that takes submissions. -/
def Land.IsLive (land : Land σ) : Prop :=
  ∃ queue recorder resolutions, land.mode = .live queue recorder resolutions

/-- A live land stays live. -/
theorem Land.IsLive.after (live : land.IsLive) (rules : Rules σ) (operation : Operation) :
    (land.after rules operation).IsLive := by
  obtain ⟨queue, recorder, resolutions, live⟩ := live
  cases operation with
  | submit inbound =>
      rcases Land.submit_live_cases rules live inbound with
        ⟨error, refused⟩ | ⟨sequence, numbering, -, -, queued⟩ |
          ⟨resolvers, sequence, numbering, -, -, -, resolving⟩
      · rw [Land.after, refused, note_eq]
        exact ⟨_, _, _, live⟩
      · rw [Land.after, queued]
        exact ⟨_, _, _, rfl⟩
      · rw [Land.after, resolving]
        exact ⟨_, _, _, rfl⟩
  | complete completion =>
      rcases Land.complete_live_cases live completion with
        ⟨outputs, -, resolved⟩ | ⟨error, -, dropped⟩
      · rw [Land.after, resolved]
        exact ⟨_, _, _, rfl⟩
      · rw [Land.after, dropped]
        exact ⟨_, _, _, live⟩
  | step =>
      simp only [Land.after, step, take, live, conclude, note_eq]
      split
      · exact ⟨_, _, _, rfl⟩
      · split
        · cases recorder.record _ <;> exact ⟨_, _, _, rfl⟩
        · cases recorder.record _ <;> exact ⟨_, _, _, rfl⟩

/-- A land is live before each of the operations that are done to a live land. -/
theorem Land.IsLive.passages
    (live : land.IsLive)
    (rules : Rules σ)
    (operations : List Operation) :
    ∀ passage ∈ land.passages rules operations, passage.before.IsLive :=
  Land.forall_before_passages rules (fun _ operation live => live.after rules operation) live
    operations

/-- A land is live after operations that are done to a live land. -/
theorem Land.IsLive.foldl
    (live : land.IsLive)
    (rules : Rules σ)
    (operations : List Operation) :
    (operations.foldl (Land.after rules) land).IsLive := by
  induction operations generalizing land with
  | nil => exact live
  | cons operation rest inductionHypothesis =>
      exact inductionHypothesis (live.after rules operation)

/-- What was launched was admitted, and waits for resolvers. -/
theorem mem_launched_iff
    (live : ∀ passage ∈ past, passage.before.IsLive)
    {submission : Submission} :
    submission ∈ launched rules past ↔
      submission ∈ admitted rules past ∧ submission.Waits rules := by
  have each (passage : Passage σ) (member : passage ∈ past) :
      passage.resolving? rules = some submission ↔
        passage.admitted? rules = some submission ∧ submission.Waits rules := by
    obtain ⟨queue, recorder, resolutions, isLive⟩ := live passage member
    exact Passage.resolving?_eq_some_iff isLive
  simp only [launched, admitted, List.mem_filterMap]
  constructor
  · rintro ⟨passage, member, launches⟩
    obtain ⟨admits, waits⟩ := (each passage member).1 launches
    exact ⟨⟨passage, member, admits⟩, waits⟩
  · rintro ⟨⟨passage, member, admits⟩, waits⟩
    exact ⟨passage, member, (each passage member).2 ⟨admits, waits⟩⟩

/-- In a genuine run, what was launched is outstanding or completed. -/
theorem launched_perm (genuine : Genuine rules past) :
    (outstanding rules past ++ completed past).Perm (launched rules past) := by
  induction past using List.reverseRecOn with
  | nil => exact List.Perm.nil
  | append_singleton past last inductionHypothesis =>
      obtain ⟨older, running⟩ := genuine_snoc_iff.1 genuine
      have before := inductionHypothesis older
      obtain ⟨land, operation⟩ := last
      rw [outstanding_snoc, completed_snoc, launched_snoc]
      cases operation with
      | submit inbound =>
          simp only [settle, Passage.completed?, Option.toList_none, List.append_nil]
          rw [List.append_assoc]
          refine (List.perm_append_comm.append_left _).trans ?_
          rw [← List.append_assoc]
          exact before.append_right _
      | complete completion =>
          simp only [settle, Passage.completed?, Passage.resolving?, Option.toList_none,
            List.append_nil, Option.toList_some]
          have isRunning := running _ rfl
          refine List.Perm.trans ?_ before
          rw [← List.append_assoc]
          refine List.perm_append_comm.trans ?_
          exact ((List.perm_cons_erase isRunning).append_right (completed past)).symm
      | step => simpa [settle, Passage.completed?, Passage.resolving?] using before

/-- The submissions admitted in a run have numbers of their own. -/
theorem Run.nodup_admitted
    (started : Land.live rules config created initial = .ok start)
    (run : Run rules start past land) :
    ((admitted rules past).map (·.sequence)).Nodup :=
  (List.nodup_append.1 ((handedOut_perm rules past).nodup_iff.1
    ((run.ascending started).imp UInt64.ne_of_lt))).1

/-- What was launched was admitted, in the same order. -/
theorem launched_sublist (rules : Rules σ) (past : List (Passage σ)) :
    (launched rules past).Sublist (admitted rules past) := by
  rw [launched, admitted, List.filterMap_eq_flatMap_toList, List.filterMap_eq_flatMap_toList]
  refine List.Sublist.flatMap_right past fun passage _ => ?_
  obtain ⟨land, operation⟩ := passage
  cases operation with
  | submit inbound =>
      simp only [Passage.resolving?, Passage.admitted?]
      cases (land.submit rules inbound).1 with
      | error error => exact List.Sublist.refl _
      | ok admission =>
          cases admission with
          | queued sequence => exact List.nil_sublist _
          | resolving resolution => exact List.Sublist.refl _
  | complete completion => exact List.Sublist.refl _
  | step => exact List.Sublist.refl _

/-- Nothing is launched twice. -/
theorem Run.nodup_launched
    (started : Land.live rules config created initial = .ok start)
    (run : Run rules start past land) :
    ((launched rules past).map (·.sequence)).Nodup :=
  (run.nodup_admitted started).sublist ((launched_sublist rules past).map _)

/-- In a genuine run nothing is completed twice. -/
theorem Run.nodup_completed
    (started : Land.live rules config created initial = .ok start)
    (run : Run rules start past land)
    (genuine : Genuine rules past) :
    ((completed past).map (·.sequence)).Nodup := by
  have parts := ((launched_perm genuine).map (·.sequence)).nodup_iff.2 (run.nodup_launched started)
  rw [List.map_append] at parts
  exact (List.nodup_append.1 parts).2.1

/-- In a genuine run no two outstanding submissions have the same number. -/
theorem Run.nodup_outstanding
    (started : Land.live rules config created initial = .ok start)
    (run : Run rules start past land)
    (genuine : Genuine rules past) :
    ((outstanding rules past).map (·.sequence)).Nodup := by
  have parts := ((launched_perm genuine).map (·.sequence)).nodup_iff.2 (run.nodup_launched started)
  rw [List.map_append] at parts
  exact (List.nodup_append.1 parts).1

/-- A genuine continuation is one as well when the running submissions are listed in
another order. -/
theorem GenuineFrom.perm
    {running reordered : List Submission}
    (genuine : GenuineFrom rules running past)
    (same : reordered.Perm running) :
    GenuineFrom rules reordered past := by
  induction past generalizing running reordered with
  | nil => trivial
  | cons passage rest inductionHypothesis =>
      refine ⟨fun submission isCompleted => same.mem_iff.2 (genuine.1 submission isCompleted),
        inductionHypothesis genuine.2 ?_⟩
      obtain ⟨land, operation⟩ := passage
      cases operation with
      | submit inbound => exact same.append_right _
      | complete completion => exact same.erase _
      | step => exact same.append_right _

/-- Nothing is resolved in a step. -/
@[simp] theorem settle_step (running : List Submission) (land : Land σ) :
    settle rules running ⟨land, .step⟩ = running := List.append_nil _

/-! ## The count of the land -/

/-- A live land waits for some submissions: it counts them, and their numbers are
from before. -/
structure Land.Awaits (land : Land σ) (running : List Submission) : Prop where
  live : land.IsLive
  count : land.resolving = running.length
  issued : ∀ submission ∈ running, submission.sequence < land.numbering.next

namespace Land.Awaits

variable {running : List Submission}

/-- A new land waits for nothing. -/
theorem begins (started : Land.live rules config created initial = .ok start) :
    start.Awaits [] := by
  obtain ⟨_, -, rfl⟩ := Land.live_eq_ok started
  exact ⟨⟨_, _, _, rfl⟩, rfl, fun _ member => absurd member List.not_mem_nil⟩

/-- A submission adds itself to what the land waits for, or does not. -/
theorem submit (awaits : land.Awaits running) (inbound : Inbound) :
    (land.submit rules inbound).2.Awaits (settle rules running ⟨land, .submit inbound⟩) := by
  have stillLive : (land.submit rules inbound).2.IsLive :=
    awaits.live.after rules (.submit inbound)
  obtain ⟨queue, recorder, resolutions, live⟩ := awaits.live
  have later {sequence : Sequence} {numbering : Numbering}
      (issued : land.numbering.issue = .ok (sequence, numbering)) :
      sequence < numbering.next ∧
        ∀ submission ∈ running, submission.sequence < numbering.next := by
    obtain ⟨-, rfl, successor⟩ := Numbering.issue_eq_ok_iff.1 issued
    have grown : land.numbering.next < numbering.next := by
      rw [UInt64.lt_iff_toNat_lt, successor]
      exact Nat.lt_succ_self _
    exact ⟨grown, fun submission member => UInt64.lt_trans (awaits.issued submission member) grown⟩
  rcases Land.submit_live_cases rules live inbound with
    ⟨error, refused⟩ | ⟨sequence, numbering, -, issued, queued⟩ |
      ⟨resolvers, sequence, numbering, -, some, issued, resolving⟩
  · refine ⟨stillLive, ?_, ?_⟩
    · simpa [refused, note_eq, settle, Passage.resolving?] using awaits.count
    · simpa [refused, note_eq, settle, Passage.resolving?] using awaits.issued
  · refine ⟨stillLive, ?_, ?_⟩
    · simpa [queued, settle, Passage.resolving?] using awaits.count
    · simpa [queued, settle, Passage.resolving?] using (later issued).2
  · refine ⟨stillLive, ?_, ?_⟩
    · simpa [resolving, settle, Passage.resolving?] using awaits.count
    · simp only [resolving, settle, Passage.resolving?, Option.toList_some, List.mem_append,
        List.mem_singleton]
      rintro submission (earlier | rfl)
      · exact (later issued).2 submission earlier
      · rw [Inbound.sequence_submission]
        exact (later issued).1

/-- A completion takes one submission from what the land waits for. -/
theorem complete
    (awaits : land.Awaits running)
    {completion : Completion}
    (isRunning : completion.submission ∈ running) :
    (land.complete completion).2.Awaits (running.erase completion.submission) := by
  obtain ⟨queue, recorder, resolutions, live⟩ := awaits.live
  have fewer := List.length_erase_of_mem isRunning
  have issued : ∀ submission ∈ running.erase completion.submission,
      submission.sequence < land.numbering.next :=
    fun submission member => awaits.issued submission (List.mem_of_mem_erase member)
  rcases Land.complete_live_cases live completion with
    ⟨outputs, -, resolved⟩ | ⟨error, -, dropped⟩
  · rw [resolved]
    exact ⟨⟨_, _, _, rfl⟩, by simp [awaits.count, fewer], issued⟩
  · rw [dropped]
    exact ⟨⟨_, _, _, live⟩, by simp [awaits.count, fewer], issued⟩

/-- A step changes nothing about what the land waits for. -/
theorem step (awaits : land.Awaits running) : (land.step rules).land.Awaits running := by
  refine ⟨awaits.live.after rules .step, ?_, fun submission member => ?_⟩
  · have same : (land.step rules).land.resolving = land.resolving := by
      simp only [Land.step, note_eq]
      split
      · rfl
      · split <;> rfl
    rw [same, awaits.count]
  · have behind : land.numbering.Behind (land.step rules).land.numbering := by
      rw [numbering_step]
      have begins : land.numbering =
          (⟨land.state, land.numbering, [], [], 0⟩ : TickRun σ).numbering := rfl
      conv => lhs; rw [begins]
      exact TickRun.behind_of_performAll rfl
    exact UInt64.lt_of_lt_of_le (awaits.issued submission member)
      (UInt64.le_iff_toNat_le.2 behind)

/-- What a land waits for is settled by each operation. -/
theorem after
    (awaits : land.Awaits running)
    {operation : Operation}
    (isRunning : ∀ submission ∈ (⟨land, operation⟩ : Passage σ).completed?, submission ∈ running) :
    (land.after rules operation).Awaits (settle rules running ⟨land, operation⟩) := by
  cases operation with
  | submit inbound => exact awaits.submit inbound
  | complete completion => exact awaits.complete (isRunning _ rfl)
  | step =>
      rw [settle_step]
      exact awaits.step

end Land.Awaits

/-- A land waits for the submissions that are outstanding. -/
theorem Run.awaits
    (started : Land.live rules config created initial = .ok start)
    (run : Run rules start past land)
    (genuine : Genuine rules past) :
    land.Awaits (outstanding rules past) := by
  induction run with
  | nothing => exact .begins started
  | next run takes inductionHypothesis =>
      obtain ⟨older, isRunning⟩ := genuine_snoc_iff.1 genuine
      rw [outstanding_snoc]
      exact (inductionHypothesis older).after isRunning

end Chronicle
