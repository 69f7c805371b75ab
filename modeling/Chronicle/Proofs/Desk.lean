import Chronicle.Proofs.Course
import Chronicle.Proofs.Message

/-!
# Who waits for an acknowledgment

Whoever makes a submission waits for its acknowledgment: first while it is on its way
to the land, then while it is resolving, and last while the acknowledgment is on its
way back.  Nobody is forgotten and nobody is acknowledged twice, whatever becomes of
the land.
-/

namespace Chronicle

/-! ## Lands of their own -/

namespace Land

variable {σ : Type}

/-- A submission is refused and leaves the numbers alone, or it gets the next one. -/
theorem submit_cases (rules : Rules σ) (land : Land σ) (inbound : Inbound) :
    (∃ error after,
      land.submit rules inbound = (.error error, after) ∧ after.numbering = land.numbering) ∨
    ∃ admission after,
      land.submit rules inbound = (.ok admission, after) ∧
        land.numbering.issue = .ok (admission.sequence, after.numbering) := by
  cases isMode : land.mode with
  | live queue recorder started =>
      rcases submit_live_cases rules isMode inbound with
        ⟨error, refused⟩ | ⟨sequence, numbering, -, issued, queued⟩ |
          ⟨resolvers, sequence, numbering, -, -, issued, resolving⟩
      · exact .inl ⟨error, _, refused, by rw [note_eq]⟩
      · exact .inr ⟨_, _, queued, issued⟩
      · refine .inr ⟨_, _, resolving, ?_⟩
        rw [Admission.sequence, Inbound.sequence_submission]
        exact issued
  | replay source strict summary =>
      let error : LandError := .modeViolation inbound.operation "replay"
      refine .inl ⟨error, note error { land with rejected := land.rejected + 1 }, ?_, ?_⟩
      · simp only [submit, accept, isMode, error]
      · rw [note_eq]

/-- A step takes no number back. -/
theorem behind_step (rules : Rules σ) (land : Land σ) :
    land.numbering.Behind (land.step rules).land.numbering := by
  rw [numbering_step, Numbering.Behind, ((TickRun.Numbered.begins _ _ _).performAll _).next]
  exact Nat.le_add_right _ _

end Land

namespace LandTask

variable {σ ν : Type} {rules : Rules σ} {task : LandTask σ ν} {submitter : ν} {inbound : Inbound}

/-- A check changes nothing, or the land has ended. -/
theorem check_cases (task : LandTask σ ν) :
    task.check = task ∨ task.check = task.finish (.error .sequenceOverflow) := by
  unfold check
  split
  · exact .inr rfl
  · exact .inl rfl

@[simp] theorem land_check (task : LandTask σ ν) : task.check.land = task.land := by
  rcases task.check_cases with same | ended
  · rw [same]
  · rw [ended]
    rfl

/-- A land that has applied a completion is checked. -/
theorem complete_snd (task : LandTask σ ν) (completion : Completion) :
    (task.complete completion).2 =
      { task with
        land := (task.land.complete completion).2
        awaiting := task.awaiting.erase completion.submission.sequence
        running := task.running.filter fun resolution =>
          resolution.submission.sequence != completion.submission.sequence }.check := rfl

/-- Those who wait for an acknowledgment, or are still to be told that there will be
none. -/
def waiting (task : LandTask σ ν) : List ν := task.awaiting.values ++ task.dropped

theorem waiting_finish (task : LandTask σ ν) (result : Except LandError Unit) :
    (task.finish result).waiting.Perm task.waiting := by
  change (task.dropped ++ task.awaiting.values).Perm (task.awaiting.values ++ task.dropped)
  exact List.perm_append_comm

theorem waiting_check (task : LandTask σ ν) : task.check.waiting.Perm task.waiting := by
  rcases task.check_cases with same | ended
  · rw [same]
  · rw [ended]
    exact task.waiting_finish _

/-- Everybody waits under a number that was issued, and while the land is open those
wait whose submissions are resolving. -/
structure Orderly (task : LandTask σ ν) : Prop where
  issued : ∀ entry ∈ task.awaiting.entries, entry.1 < task.land.numbering.next
  running : task.isOpen = true → ∀ resolution ∈ task.running,
    task.awaiting.contains resolution.submission.sequence = true

namespace Orderly

/-- A land that ends lets nobody wait. -/
theorem finish (task : LandTask σ ν) (result : Except LandError Unit) :
    (task.finish result).Orderly where
  issued := fun _ member => absurd member List.not_mem_nil
  running := fun isOpen => nomatch isOpen

theorem check (orderly : task.Orderly) : task.check.Orderly := by
  rcases task.check_cases with same | ended
  · rwa [same]
  · rw [ended]
    exact finish task _

theorem shutdown (orderly : task.Orderly) : task.shutdown.Orderly := by
  unfold LandTask.shutdown
  split
  · exact finish task _
  · exact orderly

/-- Another land keeps the order when it has issued as many numbers. -/
theorem mono
    (orderly : task.Orderly)
    {land : Land σ}
    (behind : task.land.numbering.Behind land.numbering) :
    { task with land := land }.Orderly where
  issued := fun entry member =>
    UInt64.lt_of_lt_of_le (orderly.issued entry member) (UInt64.le_iff_toNat_le.2 behind)
  running := orderly.running

theorem step (orderly : task.Orderly) (rules : Rules σ) : (task.step rules).2.Orderly :=
  (orderly.mono (task.land.behind_step rules)).check

theorem complete (orderly : task.Orderly) (completion : Completion) :
    (task.complete completion).2.Orderly := by
  rw [complete_snd]
  refine check ⟨fun entry member => ?_, fun isOpen resolution member => ?_⟩
  · rw [Land.numbering_complete]
    exact orderly.issued entry (Dict.mem_entries_erase.1 member).1
  · obtain ⟨running, other⟩ := List.mem_filter.1 member
    rw [Dict.contains_erase, decide_eq_false (bne_iff_ne.1 other)]
    exact orderly.running isOpen resolution running

/-- Whoever begins to wait does so under a new number. -/
theorem fresh
    (orderly : task.Orderly)
    {number : Sequence}
    {numbering : Numbering}
    (issued : task.land.numbering.issue = .ok (number, numbering)) :
    ∀ entry ∈ task.awaiting.entries, entry.1 ≠ number := by
  intro entry member same
  have below := orderly.issued entry member
  rw [same, (Numbering.issue_eq_ok_iff.1 issued).2.1] at below
  exact UInt64.lt_irrefl _ below

theorem submit
    (orderly : task.Orderly)
    (rules : Rules σ)
    (submitter : ν)
    (inbound : Inbound) :
    (task.submit rules submitter inbound).2.Orderly := by
  rcases task.land.submit_cases rules inbound with
    ⟨error, land, refused, numbering⟩ | ⟨admission, land, admitted, issued⟩
  · rw [submit_of_error refused]
    exact (orderly.mono (Nat.le_of_eq (by rw [numbering]))).check
  · have behind := Numbering.behind_of_issue issued
    cases admission with
    | queued sequence =>
        rw [submit_of_queued admitted]
        exact (orderly.mono behind).check
    | resolving resolution =>
        rw [submit_of_resolving admitted]
        obtain ⟨-, next, successor⟩ := Numbering.issue_eq_ok_iff.1 issued
        refine check ⟨fun entry member => ?_, fun isOpen other member => ?_⟩
        · rcases Dict.mem_entries_insert.1 member with rfl | ⟨earlier, -⟩
          · rw [UInt64.lt_iff_toNat_lt, successor]
            exact Nat.lt_succ_of_le (Nat.le_of_eq (congrArg UInt64.toNat next))
          · exact (orderly.mono behind).issued entry earlier
        · rw [Dict.contains_insert, Bool.or_eq_true, decide_eq_true_eq]
          refine (List.mem_append.1 member).symm.imp (fun now => ?_)
            (orderly.running isOpen other)
          rw [List.mem_singleton.1 now]

end Orderly

/-- Whoever makes a submission is acknowledged at once or waits. -/
theorem waiting_submit
    (orderly : task.Orderly)
    (rules : Rules σ)
    (submitter : ν)
    (inbound : Inbound) :
    ((task.submit rules submitter inbound).1.map (·.submitter) ++
      (task.submit rules submitter inbound).2.waiting).Perm (submitter :: task.waiting) := by
  rcases task.land.submit_cases rules inbound with
    ⟨error, land, refused, -⟩ | ⟨admission, land, admitted, issued⟩
  · rw [submit_of_error refused]
    exact (waiting_check _).cons submitter
  · cases admission with
    | queued sequence =>
        rw [submit_of_queued admitted]
        exact (waiting_check _).cons submitter
    | resolving resolution =>
        rw [submit_of_resolving admitted]
        refine (waiting_check _).trans ?_
        exact (Dict.values_insert_perm submitter (orderly.fresh issued)).append_right task.dropped

/-- Whoever is acknowledged for a completion has waited. -/
theorem waiting_complete (task : LandTask σ ν) (completion : Completion) :
    ((task.complete completion).1.map (·.submitter) ++
      (task.complete completion).2.waiting).Perm task.waiting := by
  have erased := task.awaiting.values_erase_perm completion.submission.sequence
  have told : (task.complete completion).1.map (·.submitter) =
      (task.awaiting.get? completion.submission.sequence).toList := by
    rw [acknowledgments_complete, List.map_map]
    exact List.map_id _
  rw [told]
  refine ((waiting_check _).append_left _).trans ?_
  rw [waiting, ← List.append_assoc]
  exact erased.append_right task.dropped

theorem waiting_step (rules : Rules σ) (task : LandTask σ ν) :
    (task.step rules).2.waiting.Perm task.waiting :=
  waiting_check _

theorem waiting_shutdown (task : LandTask σ ν) : task.shutdown.waiting.Perm task.waiting := by
  unfold shutdown
  split
  · exact task.waiting_finish _
  · exact List.Perm.refl _

end LandTask

/-! ## Services -/

namespace Service

variable {σ : Type} {rules : Rules σ}

/-- Those who wait for an acknowledgment in front of a service's land: as long as the
submission is on its way, resolving, or acknowledged and the acknowledgment on its way. -/
def desk (service : Service σ) : List Submitter :=
  service.requests.map (·.submitter) ++ (service.task.waiting ++
    service.receipts.map (·.submitter))

/-- What comes from the land is put on the desk. -/
theorem desk_update
    (service : Service σ)
    (acknowledgments : List (Acknowledgment Submitter))
    (task : LandTask σ Submitter) :
    (service.update acknowledgments task).desk.Perm
      (service.requests.map (·.submitter) ++
        ((acknowledgments.map (·.submitter) ++ task.waiting) ++
          service.receipts.map (·.submitter))) := by
  rw [List.perm_iff_count]
  intro submitter
  cases isOpen : task.isOpen <;>
    simp [desk, update, LandTask.waiting, isOpen, Function.comp_def] <;> omega

/-- Whoever was waiting or makes a submission waits after the move, or is passed an
acknowledgment in it. -/
theorem desk_after
    (rules : Rules σ)
    (service : Service σ)
    (orderly : service.task.Orderly)
    (move : Move) :
    (service.desk ++ (⟨service, move⟩ : Occurrence σ).requests.map (·.submitter)).Perm
      ((service.after rules move).desk ++
        (⟨service, move⟩ : Occurrence σ).receipt?.toList.map (·.submitter)) := by
  have updates (acknowledgments : List (Acknowledgment Submitter))
      {task : LandTask σ Submitter}
      (told : (acknowledgments.map (·.submitter) ++ task.waiting).Perm service.task.waiting)
      (transport : Transport) :
      (service.desk ++ []).Perm
        ((update { service with transport := transport } acknowledgments task).desk ++ []) := by
    rw [List.append_nil, List.append_nil]
    refine List.Perm.trans ?_ (desk_update _ _ _).symm
    exact (told.symm.append_right _).append_left _
  have submits {after : Service σ} {requests : List Request}
      (submitted : after.requests = service.requests ++ requests)
      (task : after.task = service.task)
      (receipts : after.receipts = service.receipts) :
      (service.desk ++ requests.map (·.submitter)).Perm (after.desk ++ []) := by
    rw [List.append_nil, desk, desk, submitted, task, receipts, List.map_append,
      List.append_assoc (service.requests.map _), List.append_assoc (service.requests.map _)]
    exact List.perm_append_comm.append_left _
  have does := service.does rules move
  generalize service.after rules move = after at does ⊢
  cases does with
  | idles idle =>
      rw [idle.requests, idle.receipt?]
      exact List.Perm.refl _
  | receives => exact submits rfl rfl rfl
  | expires expired =>
      simp only [Occurrence.requests, expired]
      exact submits rfl rfl rfl
  | takes requests =>
      rename_i request rest
      refine (List.Perm.of_eq (List.append_nil _)).trans ?_
      refine List.Perm.trans ?_ ((desk_update _ _ _).append_right []).symm
      have told := LandTask.waiting_submit orderly rules request.submitter request.inbound
      rw [List.append_nil, desk, requests, List.map_cons, List.cons_append]
      refine List.perm_middle.symm.trans ?_
      exact (told.symm.append_right _).append_left _
  | resolves => exact updates _ (service.task.waiting_complete _) service.transport
  | ticks => exact updates [] (service.task.waiting_step rules) _
  | passesOn found =>
      obtain ⟨within, isReceipt⟩ := List.getElem?_eq_some_iff.1 found
      have taken := (List.getElem_cons_eraseIdx_perm within).map (·.submitter)
      rw [isReceipt] at taken
      simp only [Occurrence.receipt?, found]
      refine (List.Perm.of_eq (List.append_nil _)).trans ?_
      rw [desk, desk, List.append_assoc, List.append_assoc]
      refine ((taken.symm.trans ?_).append_left _).append_left _
      exact (List.perm_append_singleton _ _).symm
  | closes => exact updates [] service.task.waiting_shutdown service.transport
  | drops | sends => exact List.Perm.refl _

/-- Every move keeps the order of those who wait. -/
theorem orderly_after
    (rules : Rules σ)
    {service : Service σ}
    (orderly : service.task.Orderly)
    (move : Move) :
    (service.after rules move).task.Orderly := by
  have updated {before : Service σ} {acknowledgments : List (Acknowledgment Submitter)}
      {task : LandTask σ Submitter}
      (orderly : task.Orderly) : (before.update acknowledgments task).task.Orderly :=
    ⟨orderly.issued, orderly.running⟩
  have does := service.does rules move
  generalize service.after rules move = after at does ⊢
  cases does with
  | takes => exact updated (orderly.submit rules _ _)
  | resolves => exact updated (orderly.complete _)
  | ticks => exact updated (orderly.step rules)
  | closes => exact updated orderly.shutdown
  | idles | receives | drops | expires | passesOn | sends => exact orderly

/-- At the start nobody waits. -/
theorem orderly_fresh (clients : Clients) (land : Land σ) :
    (fresh clients land).task.Orderly where
  issued := fun _ member => absurd member List.not_mem_nil
  running := fun _ _ member => absurd member List.not_mem_nil

namespace Course

variable {past : List (Occurrence σ)} {start service : Service σ}

/-- Those who wait do so in order throughout a course. -/
theorem orderly
    (course : Course rules start past service)
    (begins : start.task.Orderly) :
    service.task.Orderly := by
  induction course with
  | nothing => exact begins
  | next _ _ inductionHypothesis => exact orderly_after rules inductionHypothesis _

/-- Everybody who has made a submission is waiting or was passed an acknowledgment. -/
theorem desk
    (course : Course rules start past service)
    (begins : start.task.Orderly)
    (nobody : start.desk = []) :
    ((submitted past).map (·.submitter)).Perm
      (service.desk ++ (passedOn past).map (·.submitter)) := by
  induction course with
  | nothing =>
      rw [nobody]
      exact List.Perm.refl _
  | next course takes inductionHypothesis =>
      rename_i past service move
      rw [submitted_snoc, passedOn_snoc, List.map_append, List.map_append, ← List.append_assoc]
      have turned := desk_after rules service (course.orderly begins) move
      rw [List.perm_iff_count] at inductionHypothesis turned ⊢
      intro submitter
      have earlier := inductionHypothesis submitter
      have now := turned submitter
      simp only [List.count_append] at earlier now ⊢
      omega

end Course
end Service
end Chronicle
