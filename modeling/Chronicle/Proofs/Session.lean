import Chronicle.Proofs.Message
import Chronicle.Proofs.NextTick
import Mathlib.Data.List.Pairwise

/-!
# Sessions

A land of its own takes submissions, completions, steps and questions in any order
until it is shut down or fails.  Its land goes through a run meanwhile, and under
their numbers wait those whose submissions are still resolving.
-/

namespace Chronicle

/-- Where nothing is found twice, what is found says where it was found. -/
theorem eq_of_nodup_filterMap
    {α β : Type}
    {find? : α → Option β}
    {entries : List α}
    (distinct : (entries.filterMap find?).Nodup)
    {first second : α}
    (here : first ∈ entries)
    (there : second ∈ entries)
    {found : β}
    (byFirst : find? first = some found)
    (bySecond : find? second = some found) :
    first = second := by
  rw [List.Nodup, List.pairwise_filterMap] at distinct
  have : Std.Symm fun one other : α => ∀ found, find? one = some found →
      ∀ another, find? other = some another → found ≠ another :=
    ⟨fun _ _ apart _ second _ first => (apart _ first _ second).symm⟩
  by_contra different
  exact distinct.forall here there different found byFirst found bySecond rfl

namespace LandTask

variable {σ ν : Type} {rules : Rules σ} {first task : LandTask σ ν}
  {turns before later : List (Turn σ ν)} {turn made last : Turn σ ν} {submitter : ν}
  {inbound : Inbound} {completion : Completion}

/-! ## Who waits -/

/-- Under the numbers wait those whose submissions are still resolving. -/
def Waits
    (rules : Rules σ)
    (earlier : List (Passage σ))
    (turns : List (Turn σ ν))
    (awaiting : Dict Sequence ν) : Prop :=
  ∀ sequence submitter, awaiting.get? sequence = some submitter ↔
    ∃ turn ∈ turns, ∃ submission ∈ outstanding rules (earlier ++ passages turns),
      turn.launches? rules = some (submitter, submission) ∧ submission.sequence = sequence

namespace Waits

variable {earlier : List (Passage σ)} {awaiting : Dict Sequence ν} {submission : Submission}

/-- A turn that starts nothing and completes nothing lets the same wait. -/
theorem keep
    (waits : Waits rules earlier turns awaiting)
    (launches : turn.launches? rules = none)
    (same : outstanding rules (earlier ++ passages (turns ++ [turn])) =
      outstanding rules (earlier ++ passages turns)) :
    Waits rules earlier (turns ++ [turn]) awaiting := by
  intro sequence submitter
  rw [waits sequence submitter, same]
  constructor
  · rintro ⟨made, member, rest⟩
    exact ⟨made, List.mem_append_left _ member, rest⟩
  · rintro ⟨made, member, submission, running, launched, number⟩
    rcases List.mem_append.1 member with older | now
    · exact ⟨made, older, submission, running, launched, number⟩
    · obtain rfl := List.mem_singleton.1 now
      rw [launches] at launched
      cases launched

/-- Who makes a submission with resolvers begins to wait. -/
theorem insert
    (waits : Waits rules earlier turns awaiting)
    (launches : turn.launches? rules = some (submitter, submission))
    (more : outstanding rules (earlier ++ passages (turns ++ [turn])) =
      outstanding rules (earlier ++ passages turns) ++ [submission])
    (fresh : ∀ other ∈ launched rules (earlier ++ passages turns),
      other.sequence ≠ submission.sequence) :
    Waits rules earlier (turns ++ [turn]) (awaiting.insert submission.sequence submitter) := by
  intro sequence other
  rw [Dict.get?_eq_some_iff, Dict.mem_entries_insert, Prod.mk.injEq, ← Dict.get?_eq_some_iff,
    waits sequence other, more]
  constructor
  · rintro (⟨rfl, rfl⟩ | ⟨⟨made, member, another, running, launched, number⟩, -⟩)
    · exact ⟨turn, List.mem_append_right _ List.mem_cons_self, submission,
        List.mem_append_right _ List.mem_cons_self, launches, rfl⟩
    · exact ⟨made, List.mem_append_left _ member, another, List.mem_append_left _ running,
        launched, number⟩
  · rintro ⟨made, member, another, running, launched, rfl⟩
    rcases List.mem_append.1 member with older | now
    · have notNew : another.sequence ≠ submission.sequence := by
        refine fresh another ?_
        rw [Chronicle.launched, List.filterMap_append]
        exact List.mem_append_right _ (mem_launched_of_launches older launched)
      rcases List.mem_append.1 running with earlier | new
      · exact .inr ⟨⟨made, older, another, earlier, launched, rfl⟩, notNew⟩
      · rw [List.mem_singleton.1 new] at notNew
        exact absurd rfl notNew
    · obtain rfl := List.mem_singleton.1 now
      rw [launches] at launched
      obtain ⟨rfl, rfl⟩ := Prod.mk.inj (Option.some.inj launched)
      exact .inl ⟨rfl, rfl⟩

/-- Who has made a submission no longer waits when it is completed. -/
theorem erase
    (waits : Waits rules earlier turns awaiting)
    (launches : turn.launches? rules = none)
    (settled : outstanding rules (earlier ++ passages (turns ++ [turn])) =
      (outstanding rules (earlier ++ passages turns)).erase submission)
    (running : submission ∈ outstanding rules (earlier ++ passages turns))
    (distinct : ((outstanding rules (earlier ++ passages turns)).map (·.sequence)).Nodup) :
    Waits rules earlier (turns ++ [turn]) (awaiting.erase submission.sequence) := by
  intro sequence submitter
  rw [Dict.get?_eq_some_iff, Dict.mem_entries_erase, ← Dict.get?_eq_some_iff,
    waits sequence submitter, settled]
  simp only [(List.Nodup.of_map _ distinct).mem_erase_iff]
  constructor
  · rintro ⟨⟨made, member, another, isRunning, launched, rfl⟩, different⟩
    refine ⟨made, List.mem_append_left _ member, another, ⟨?_, isRunning⟩, launched, rfl⟩
    rintro rfl
    exact different rfl
  · rintro ⟨made, member, another, ⟨different, isRunning⟩, launched, rfl⟩
    refine ⟨?_, fun same => different ?_⟩
    · rcases List.mem_append.1 member with older | now
      · exact ⟨made, older, another, isRunning, launched, rfl⟩
      · obtain rfl := List.mem_singleton.1 now
        rw [launches] at launched
        cases launched
    · exact List.inj_on_of_nodup_map distinct isRunning running same

end Waits

/-! ## What a session keeps -/

/-- Where a land of its own is after some turns: its land has been through the run
of the turns, those who have made submissions are acknowledged, wait or were dropped,
and those wait whose submissions are still resolving. -/
structure Keeps
    (rules : Rules σ)
    (start : Land σ)
    (earlier : List (Passage σ))
    (turns : List (Turn σ ν))
    (task : LandTask σ ν) : Prop where
  run : Run rules start (earlier ++ passages turns) task.land
  genuine : Genuine rules (earlier ++ passages turns)
  running : task.running.map (·.submission) = outstanding rules (earlier ++ passages turns)
  accounted : ((acknowledged rules turns).map (·.submitter) ++
    (task.awaiting.values ++ task.dropped)).Perm (submitters turns)
  waits : task.isOpen = true → Waits rules earlier turns task.awaiting

namespace Keeps

variable {start : Land σ} {earlier : List (Passage σ)} {config : LandConfig}
  {created : Timestamp} {initial : σ}

/-- A land that ends drops those who wait. -/
theorem finish
    (keeps : Keeps rules start earlier turns task)
    (result : Except LandError Unit) :
    Keeps rules start earlier turns (task.finish result) where
  run := keeps.run
  genuine := keeps.genuine
  running := keeps.running
  accounted := by
    have swapped : (task.dropped ++ task.awaiting.values).Perm
        (task.awaiting.values ++ task.dropped) := List.perm_append_comm
    exact (swapped.append_left _).trans keeps.accounted
  waits := fun isOpen => nomatch isOpen

/-- The check whether a land has failed keeps what a session keeps. -/
theorem check (keeps : Keeps rules start earlier turns task) :
    Keeps rules start earlier turns task.check := by
  unfold LandTask.check
  split
  · exact keeps.finish _
  · exact keeps

/-- One more turn keeps the account when whoever is new in it is acknowledged or
waits. -/
theorem accounted_snoc
    (keeps : Keeps rules start earlier turns task)
    {awaiting : Dict Sequence ν}
    (moved : ((last.acknowledgments rules).map (·.submitter) ++ awaiting.values).Perm
      (last.message.submitter?.toList ++ task.awaiting.values)) :
    ((acknowledged rules (turns ++ [last])).map (·.submitter) ++
      (awaiting.values ++ task.dropped)).Perm (submitters (turns ++ [last])) := by
  rw [acknowledged_snoc, submitters_snoc, List.map_append, List.append_assoc,
    ← List.append_assoc ((last.acknowledgments rules).map _)]
  refine ((moved.append_right task.dropped).append_left _).trans ?_
  rw [List.append_assoc, ← List.append_assoc]
  refine (List.perm_append_comm.append_right _).trans ?_
  rw [List.append_assoc]
  exact (keeps.accounted.append_left _).trans List.perm_append_comm

/-- A turn that starts and completes nothing, and acknowledges its own submission if it
makes one. -/
theorem keep
    (keeps : Keeps rules start earlier turns task)
    (isOpen : task.isOpen = true)
    {land : Land σ}
    (run : Run rules start (earlier ++ passages (turns ++ [turn])) land)
    (genuine : Genuine rules (earlier ++ passages (turns ++ [turn])))
    (same : outstanding rules (earlier ++ passages (turns ++ [turn])) =
      outstanding rules (earlier ++ passages turns))
    (launches : turn.launches? rules = none)
    (answered : (turn.acknowledgments rules).map (·.submitter) =
      turn.message.submitter?.toList) :
    Keeps rules start earlier (turns ++ [turn]) { task with land := land } where
  run := run
  genuine := genuine
  running := same ▸ keeps.running
  accounted := keeps.accounted_snoc (answered ▸ List.Perm.refl _)
  waits := fun _ => (keeps.waits isOpen).keep launches same

/-- A turn in which somebody begins to wait under a new number. -/
theorem wait
    (keeps : Keeps rules start earlier turns task)
    (isOpen : task.isOpen = true)
    {land : Land σ}
    {resolution : Resolution}
    (run : Run rules start (earlier ++ passages (turns ++ [turn])) land)
    (genuine : Genuine rules (earlier ++ passages (turns ++ [turn])))
    (more : outstanding rules (earlier ++ passages (turns ++ [turn])) =
      outstanding rules (earlier ++ passages turns) ++ [resolution.submission])
    (fresh : ∀ other ∈ launched rules (earlier ++ passages turns),
      other.sequence ≠ resolution.submission.sequence)
    (launches : turn.launches? rules = some (submitter, resolution.submission))
    (silent : turn.acknowledgments rules = []) :
    Keeps rules start earlier (turns ++ [turn])
      { task with
        land := land
        awaiting := task.awaiting.insert resolution.submission.sequence submitter
        running := task.running ++ [resolution] } := by
  refine ⟨run, genuine, ?_, keeps.accounted_snoc ?_, fun _ => ?_⟩
  · rw [more, ← keeps.running]
    exact List.map_append
  · rw [silent, (Turn.admitted_of_launches launches).1]
    refine Dict.values_insert_perm submitter fun entry member same => ?_
    obtain ⟨made, there, submission, -, launched, number⟩ :=
      (keeps.waits isOpen entry.1 entry.2).1 (Dict.get?_eq_some_iff.2 member)
    refine fresh submission ?_ (number.trans same)
    rw [Chronicle.launched, List.filterMap_append]
    exact List.mem_append_right _ (mem_launched_of_launches there launched)
  · exact (keeps.waits isOpen).insert launches more fresh

/-- A submission is acknowledged at once, or its submitter waits under its number. -/
theorem submit
    (started : Land.live rules config created initial = .ok start)
    (keeps : Keeps rules start earlier turns task)
    (isOpen : task.isOpen = true)
    (going : task.land.failed = false)
    (submitter : ν)
    (inbound : Inbound) :
    Keeps rules start earlier (turns ++ [⟨task, .submit submitter inbound⟩])
      (task.submit rules submitter inbound).2 := by
  let passage : Passage σ := ⟨task.land, .submit inbound⟩
  let turn : Turn σ ν := ⟨task, .submit submitter inbound⟩
  have past : earlier ++ passages (turns ++ [turn]) = (earlier ++ passages turns) ++ [passage] :=
    passages_snoc earlier
  have takes : task.land.Takes (.submit inbound) := ⟨going, nofun⟩
  have run := keeps.run.next takes
  rw [← past, Land.after] at run
  have genuine : Genuine rules (earlier ++ passages (turns ++ [turn])) := by
    rw [past]
    exact genuine_snoc keeps.genuine rfl
  have settled : outstanding rules (earlier ++ passages (turns ++ [turn])) =
      outstanding rules (earlier ++ passages turns) ++ (passage.resolving? rules).toList := by
    rw [past, outstanding_snoc]
    rfl
  have atOnce (none : passage.resolving? rules = none) :
      outstanding rules (earlier ++ passages (turns ++ [turn])) =
          outstanding rules (earlier ++ passages turns) ∧
        turn.launches? rules = .none := by
    rw [settled, none]
    exact ⟨List.append_nil _, congrArg (Option.map _) none⟩
  cases submitted : task.land.submit rules inbound with
  | mk result land =>
      rw [submitted] at run
      cases result with
      | error error =>
          obtain ⟨same, launches⟩ := atOnce (by simp only [passage, Passage.resolving?, submitted])
          rw [submit_of_error submitted]
          refine (keeps.keep isOpen run genuine same launches ?_).check
          rw [Turn.acknowledgments_submit, submit_of_error submitted]
          rfl
      | ok admission =>
          cases admission with
          | queued sequence =>
              obtain ⟨same, launches⟩ :=
                atOnce (by simp only [passage, Passage.resolving?, submitted])
              rw [submit_of_queued submitted]
              refine (keeps.keep isOpen run genuine same launches ?_).check
              rw [Turn.acknowledgments_submit, submit_of_queued submitted]
              rfl
          | resolving resolution =>
              have resolving : passage.resolving? rules = some resolution.submission := by
                simp only [passage, Passage.resolving?, submitted]
              rw [resolving, Option.toList_some] at settled
              have fresh : ∀ other ∈ launched rules (earlier ++ passages turns),
                  other.sequence ≠ resolution.submission.sequence := by
                have distinct := run.nodup_launched started
                rw [past, launched_snoc, resolving, Option.toList_some, List.map_append]
                  at distinct
                intro other member
                exact (List.nodup_append.1 distinct).2.2 _ (List.mem_map_of_mem member) _
                  List.mem_cons_self
              rw [submit_of_resolving submitted]
              refine (keeps.wait isOpen run genuine settled fresh ?_ ?_).check
              · exact congrArg (Option.map _) resolving
              · rw [Turn.acknowledgments_submit, submit_of_resolving submitted]

/-- Who has made a submission is acknowledged when it is completed, if it was made on
this land. -/
theorem complete
    (started : Land.live rules config created initial = .ok start)
    (keeps : Keeps rules start earlier turns task)
    (isOpen : task.isOpen = true)
    (going : task.land.failed = false)
    (isRunning : completion.submission ∈ task.running.map (·.submission)) :
    Keeps rules start earlier (turns ++ [⟨task, .complete completion⟩])
      (task.complete completion).2 := by
  let turn : Turn σ ν := ⟨task, .complete completion⟩
  have past : earlier ++ passages (turns ++ [turn]) =
      (earlier ++ passages turns) ++ [⟨task.land, .complete completion⟩] := passages_snoc earlier
  have takes : task.land.Takes (.complete completion) := ⟨going, nofun⟩
  have run := keeps.run.next takes
  have distinct := keeps.run.nodup_outstanding started keeps.genuine
  have running := keeps.running ▸ isRunning
  have settled : outstanding rules (earlier ++ passages (turns ++ [turn])) =
      (outstanding rules (earlier ++ passages turns)).erase completion.submission := by
    rw [past, outstanding_snoc]
    rfl
  rw [LandTask.complete]
  refine check ⟨past ▸ run, ?_, ?_, keeps.accounted_snoc ?_, fun _ => ?_⟩
  · rw [past]
    refine genuine_snoc_iff.2 ⟨keeps.genuine, fun submission isCompleted => ?_⟩
    obtain rfl := Option.mem_some_iff.1 isCompleted
    exact running
  · obtain ⟨resolution, member, same⟩ := List.mem_map.1 isRunning
    rw [settled, ← keeps.running, ← same]
    exact Resolution.map_submission_filter member (keeps.running ▸ distinct)
  · rw [Turn.acknowledgments_complete, LandTask.acknowledgments_complete, List.map_map]
    refine List.Perm.trans ?_ (task.awaiting.values_erase_perm completion.submission.sequence)
    simp [Function.comp_def]
  · exact (keeps.waits isOpen).erase rfl settled running distinct

/-- A tick acknowledges nothing, and nobody begins or ceases to wait. -/
theorem step
    (keeps : Keeps rules start earlier turns task)
    (isOpen : task.isOpen = true)
    (takes : task.land.Takes .step) :
    Keeps rules start earlier (turns ++ [⟨task, .step⟩]) (task.step rules).2 := by
  let turn : Turn σ ν := ⟨task, .step⟩
  have past : earlier ++ passages (turns ++ [turn]) =
      (earlier ++ passages turns) ++ [⟨task.land, .step⟩] := passages_snoc earlier
  have run := keeps.run.next takes
  refine (keeps.keep isOpen (past ▸ run) ?_ ?_ rfl rfl).check
  · rw [past]
    exact genuine_snoc keeps.genuine rfl
  · rw [past, outstanding_snoc, settle_step]

/-- A turn that does nothing to the land. -/
theorem idle
    (keeps : Keeps rules start earlier turns task)
    (isOpen : task.isOpen = true)
    (nothing : turn.passage? = none)
    (launches : turn.launches? rules = none)
    (answered : (turn.acknowledgments rules).map (·.submitter) =
      turn.message.submitter?.toList) :
    Keeps rules start earlier (turns ++ [turn]) task := by
  have past : earlier ++ passages (turns ++ [turn]) = earlier ++ passages turns := by
    rw [passages_snoc, nothing]
    exact List.append_nil _
  exact keeps.keep isOpen (past ▸ keeps.run) (past ▸ keeps.genuine) (congrArg _ past) launches
    answered

/-- Every turn keeps what a session keeps. -/
theorem after
    (started : Land.live rules config created initial = .ok start)
    (keeps : Keeps rules start earlier turns task)
    (going : task.land.failed = false)
    {message : Message ν}
    (takes : task.Takes message) :
    Keeps rules start earlier (turns ++ [⟨task, message⟩]) (task.after rules message) := by
  obtain ⟨isOpen, suits⟩ := takes
  cases message with
  | submit submitter inbound => exact keeps.submit started isOpen going submitter inbound
  | complete completion => exact keeps.complete started isOpen going suits
  | step => exact keeps.step isOpen ⟨going, fun _ => suits⟩
  | stats => exact keeps.idle isOpen rfl rfl rfl
  | shutdown =>
      have ends : task.shutdown = task.finish (.ok ()) := if_pos isOpen
      rw [LandTask.after, ends]
      exact (keeps.idle isOpen rfl rfl rfl).finish _

/-- A land is put on its own after a run; what is outstanding goes on running. -/
theorem begins
    {land : Land σ}
    {running : List Resolution}
    (run : Run rules start earlier land)
    (genuine : Genuine rules earlier)
    (leftOver : running.map (·.submission) = outstanding rules earlier) :
    Keeps rules start earlier [] ({ land := land, running := running } : LandTask σ ν) := by
  have past : earlier ++ passages ([] : List (Turn σ ν)) = earlier := List.append_nil earlier
  refine
    { run := past.symm ▸ run
      genuine := past.symm ▸ genuine
      running := past.symm ▸ leftOver
      accounted := List.Perm.refl _
      waits := fun _ sequence submitter => ⟨nofun, ?_⟩ }
  rintro ⟨made, member, -⟩
  cases member

/-- The acknowledgment of a completion goes to whoever made the submission on this
land, if it was made there. -/
theorem acknowledgments_complete
    (started : Land.live rules config created initial = .ok start)
    (keeps : Keeps rules start earlier turns task)
    (isOpen : task.isOpen = true)
    (isRunning : completion.submission ∈ task.running.map (·.submission)) :
    (∀ ack ∈ (task.complete completion).1,
      ack.result = completion.result.map (fun _ => completion.submission.sequence) ∧
        ∃ made ∈ turns, made.launches? rules = some (ack.submitter, completion.submission)) ∧
    ∀ made ∈ turns, ∀ submitter,
      made.launches? rules = some (submitter, completion.submission) →
        (task.complete completion).1 =
          [⟨submitter, completion.result.map fun _ => completion.submission.sequence⟩] := by
  have running := keeps.running ▸ isRunning
  have waits := keeps.waits isOpen
  rw [LandTask.acknowledgments_complete]
  constructor
  · intro ack member
    obtain ⟨submitter, found, rfl⟩ := List.mem_map.1 member
    obtain ⟨made, there, submission, isRunning, launches, number⟩ :=
      (waits _ _).1 (Option.mem_toList.1 found)
    have distinct := keeps.run.nodup_outstanding started keeps.genuine
    obtain rfl := List.inj_on_of_nodup_map distinct isRunning running number
    exact ⟨rfl, made, there, launches⟩
  · intro made member submitter launches
    have found := (waits completion.submission.sequence submitter).2
      ⟨made, member, completion.submission, running, launches, rfl⟩
    rw [found]
    rfl

end Keeps

/-! ## Whole sessions -/

/-- The turns of a land of its own, one after the other, and the land after them.
Every submission has a submitter of its own. -/
inductive Session (rules : Rules σ) (first : LandTask σ ν) :
    List (Turn σ ν) → LandTask σ ν → Prop
  | nothing : Session rules first [] first
  | next {turns : List (Turn σ ν)} {task : LandTask σ ν} {message : Message ν}
      (session : Session rules first turns task)
      (takes : task.Takes message)
      (own : ∀ submitter ∈ message.submitter?, submitter ∉ submitters turns) :
      Session rules first (turns ++ [⟨task, message⟩]) (task.after rules message)

namespace Session

variable {start : Land σ} {earlier : List (Passage σ)} {config : LandConfig}
  {created : Timestamp} {initial : σ}

/-- As long as a land of its own is open, it has not failed. -/
theorem going
    (session : Session rules first turns task)
    (begun : first.land.failed = false)
    (isOpen : task.isOpen = true) :
    task.land.failed = false := by
  induction session with
  | nothing => exact begun
  | next session takes own inductionHypothesis =>
      rename_i task message
      cases message with
      | submit submitter inbound =>
          obtain ⟨-, going, land, -⟩ := submit_of_isOpen isOpen
          exact (congrArg Land.failed land).trans going
      | complete completion =>
          obtain ⟨going, land, -⟩ := complete_of_isOpen isOpen
          exact (congrArg Land.failed land).trans going
      | step =>
          obtain ⟨going, land, -⟩ := step_of_isOpen isOpen
          exact (congrArg Land.failed land).trans going
      | stats => exact inductionHypothesis isOpen
      | shutdown =>
          rw [after, shutdown, if_pos takes.1] at isOpen
          cases isOpen

/-- What a session keeps holds after all of its turns. -/
theorem keeps
    (started : Land.live rules config created initial = .ok start)
    (begins : Keeps rules start earlier [] first)
    (begun : first.land.failed = false)
    (session : Session rules first turns task) :
    Keeps rules start earlier turns task := by
  induction session with
  | nothing => exact begins
  | next session takes own inductionHypothesis =>
      exact inductionHypothesis.after started (session.going begun takes.1) takes

/-- A session can be cut at any of its turns. -/
theorem cut (session : Session rules first (before ++ turn :: later) task) :
    Session rules first before turn.before ∧ turn.before.Takes turn.message := by
  generalize whole : before ++ turn :: later = turns at session
  induction session generalizing later with
  | nothing => exact absurd whole (by simp)
  | next session takes own inductionHypothesis =>
      rcases List.eq_nil_or_concat later with rfl | ⟨between, last, rfl⟩
      · obtain ⟨rfl, same⟩ := List.append_inj' whole rfl
        obtain rfl := List.singleton_inj.1 same
        exact ⟨session, takes⟩
      · rw [List.concat_eq_append, ← List.cons_append, ← List.append_assoc] at whole
        exact inductionHypothesis (List.append_inj' whole rfl).1

/-- Nobody makes two submissions. -/
theorem nodup_submitters (session : Session rules first turns task) :
    (submitters turns).Nodup := by
  induction session with
  | nothing => exact List.nodup_nil
  | next session takes own inductionHypothesis =>
      rename_i message
      rw [submitters_snoc]
      refine List.nodup_append.2 ⟨inductionHypothesis, ?_, fun older member newer now same => ?_⟩
      · cases message.submitter? with
        | none => exact List.nodup_nil
        | some submitter => exact List.nodup_singleton submitter
      · exact own newer (Option.mem_toList.1 now) (same ▸ member)

/-- The turn in which somebody makes a submission is the only one. -/
theorem eq_of_submitter
    (session : Session rules first turns task)
    (here : made ∈ turns)
    (there : turn ∈ turns)
    (byMade : made.message.submitter? = some submitter)
    (byTurn : turn.message.submitter? = some submitter) :
    made = turn :=
  eq_of_nodup_filterMap session.nodup_submitters here there byMade byTurn

end Session

/-- The turns in which a land of its own is told some messages. -/
def told (rules : Rules σ) (task : LandTask σ ν) : List (Message ν) → List (Turn σ ν)
  | [] => []
  | message :: rest => ⟨task, message⟩ :: (task.after rules message).told rules rest

/-- Messages that a land of its own takes continue a session. -/
theorem Session.append_told
    (session : Session rules first turns task)
    (messages : List (Message ν))
    (takes : ∀ turn ∈ task.told rules messages, turn.before.Takes turn.message)
    (own : (submitters (turns ++ task.told rules messages)).Nodup) :
    Session rules first (turns ++ task.told rules messages)
      (messages.foldl (LandTask.after rules) task) := by
  induction messages generalizing turns task with
  | nil =>
      rw [told, List.append_nil]
      exact session
  | cons message rest inductionHypothesis =>
      obtain ⟨now, later⟩ := List.forall_mem_cons.1 takes
      rw [told, List.append_cons] at own ⊢
      refine inductionHypothesis (session.next now fun submitter member known => ?_) later own
      rw [submitters, List.filterMap_append, ← submitters, submitters_snoc] at own
      have apart := (List.nodup_append.1 (List.nodup_append.1 own).1).2.2
      exact apart submitter known submitter (Option.mem_toList.2 member) rfl

end LandTask
end Chronicle
