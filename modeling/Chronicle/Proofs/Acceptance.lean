import Chronicle.Proofs.Desk

/-!
# Which submissions are accepted

A land accepts a submission when its item enters the queue, and says so with the
number that it has given to the submission.  So nobody is told a number of somebody
else's, and every number is told once.
-/

namespace Chronicle

/-- Who is told that a submission was accepted, and under which number. -/
def Acknowledgment.accepts? {ν : Type} (acknowledgment : Acknowledgment ν) :
    Option (ν × Sequence) :=
  match acknowledgment.result with
  | .ok sequence => some (acknowledgment.submitter, sequence)
  | .error _ => none

/-- Who is told that a submission was accepted, and under which number. -/
def Receipt.accepts? (receipt : Receipt) : Option (Submitter × Sequence) :=
  match receipt.result with
  | some (.ok sequence) => some (receipt.submitter, sequence)
  | _ => none

theorem Receipt.submitter_of_accepts
    {receipt : Receipt}
    {submitter : Submitter}
    {sequence : Sequence}
    (accepts : receipt.accepts? = some (submitter, sequence)) :
    receipt.submitter = submitter := by
  obtain ⟨owner, _ | _ | _⟩ := receipt <;> cases accepts
  rfl

/-! ## Lands of their own -/

namespace LandTask

variable {σ ν : Type} {rules : Rules σ} {task : LandTask σ ν}

/-- Those who wait for an acknowledgment, each with the number of the submission. -/
def claims (task : LandTask σ ν) : List (ν × Sequence) :=
  task.awaiting.entries.map Prod.swap

/-- A check takes all claims or none. -/
theorem claims_check (task : LandTask σ ν) : List.Sublist task.check.claims task.claims := by
  rcases task.check_cases with same | ended
  · rw [same]
  · rw [ended]
    exact List.nil_sublist _

theorem claims_shutdown (task : LandTask σ ν) :
    List.Sublist task.shutdown.claims task.claims := by
  unfold shutdown
  split
  · exact List.nil_sublist _
  · exact List.Sublist.refl _

/-- Whoever makes a submission that is admitted is told its number or claims it. -/
theorem claims_submit
    (orderly : task.Orderly)
    (rules : Rules σ)
    (submitter : ν)
    (inbound : Inbound) :
    List.Subperm
      ((task.submit rules submitter inbound).1.filterMap Acknowledgment.accepts? ++
        (task.submit rules submitter inbound).2.claims)
      (task.claims ++
        (((⟨task.land, .submit inbound⟩ : Passage σ).admitted? rules).map
          fun submission => (submitter, submission.sequence)).toList) := by
  rcases task.land.submit_cases rules inbound with
    ⟨error, land, refused, -⟩ | ⟨admission, land, admitted, issued⟩
  · rw [submit_of_error refused]
    simp only [Passage.admitted?, refused]
    exact ((claims_check _).trans (List.sublist_append_left _ _)).subperm
  · cases admission with
    | queued sequence =>
        rw [submit_of_queued admitted]
        simp only [Passage.admitted?, admitted, Option.map_some, Option.toList_some,
          Inbound.sequence_submission]
        exact (((claims_check _).cons_cons (submitter, sequence)).subperm).trans
          (List.perm_append_singleton _ _).symm.subperm
    | resolving resolution =>
        rw [submit_of_resolving admitted]
        simp only [Passage.admitted?, admitted, Option.map_some, Option.toList_some]
        have inserted := (Dict.insertEntry_perm submitter (orderly.fresh issued)).map Prod.swap
        refine (claims_check _).subperm.trans (inserted.subperm.trans ?_)
        exact (List.perm_append_singleton _ _).symm.subperm

/-- Whoever is told a number for a completion has claimed it. -/
theorem claims_complete (task : LandTask σ ν) (completion : Completion) :
    List.Subperm
      ((task.complete completion).1.filterMap Acknowledgment.accepts? ++
        (task.complete completion).2.claims)
      task.claims := by
  have erased :=
    (task.awaiting.entries_erase_perm completion.submission.sequence).map Prod.swap
  rw [List.map_append] at erased
  have told : List.Sublist
      ((task.complete completion).1.filterMap Acknowledgment.accepts?)
      (((task.awaiting.get? completion.submission.sequence).toList.map
        (completion.submission.sequence, ·)).map Prod.swap) := by
    rw [acknowledgments_complete]
    cases task.awaiting.get? completion.submission.sequence with
    | none => exact List.Sublist.refl _
    | some submitter =>
        cases completion.result with
        | ok outputs => exact List.Sublist.refl _
        | error error => exact List.nil_sublist _
  rw [complete_snd]
  exact (told.append (claims_check _)).subperm.trans erased.subperm

/-- A land tells the number of a submission when its item enters the queue. -/
theorem accepts_submit
    (rules : Rules σ)
    (task : LandTask σ ν)
    (submitter : ν)
    (inbound : Inbound) :
    ((task.submit rules submitter inbound).1.filterMap Acknowledgment.accepts?).map (·.2) =
      ((⟨task.land, .submit inbound⟩ : Passage σ).enters? rules).toList.map (·.sequence) := by
  rcases task.land.submit_cases rules inbound with
    ⟨error, land, refused, -⟩ | ⟨admission, land, admitted, -⟩
  · rw [submit_of_error refused]
    simp only [Passage.enters?, Passage.direct?, refused]
    rfl
  · cases admission with
    | queued sequence =>
        rw [submit_of_queued admitted]
        simp only [Passage.enters?, Passage.direct?, admitted]
        exact congrArg (fun number => [number]) (inbound.sequence_submission sequence).symm
    | resolving resolution =>
        rw [submit_of_resolving admitted]
        simp only [Passage.enters?, Passage.direct?, admitted]
        rfl

/-- A land tells the number of a completion when its item enters the queue, as somebody
claims it. -/
theorem accepts_complete
    (rules : Rules σ)
    (task : LandTask σ ν)
    {completion : Completion}
    (claimed : task.awaiting.contains completion.submission.sequence = true) :
    ((task.complete completion).1.filterMap Acknowledgment.accepts?).map (·.2) =
      ((⟨task.land, .complete completion⟩ : Passage σ).enters? rules).toList.map
        (·.sequence) := by
  obtain ⟨submitter, found⟩ := Option.isSome_iff_exists.1 claimed
  obtain ⟨submission, result⟩ := completion
  rw [acknowledgments_complete, found]
  cases result <;> rfl

end LandTask

/-! ## Services -/

namespace Occurrence

variable {σ : Type}

/-- Whose submission is admitted in a move, and under which number. -/
def admission? (rules : Rules σ) (occurrence : Occurrence σ) : Option (Submitter × Sequence) :=
  occurrence.taken?.bind fun request =>
    let passage : Passage σ := ⟨occurrence.before.task.land, .submit request.inbound⟩
    (passage.admitted? rules).map fun submission => (request.submitter, submission.sequence)

end Occurrence

namespace Service

variable {σ : Type} {rules : Rules σ}

/-- The acknowledgments that the land makes in a course. -/
def acknowledged (rules : Rules σ) (past : List (Occurrence σ)) :
    List (Acknowledgment Submitter) :=
  past.flatMap (Occurrence.acknowledgments rules)

/-- Whose submissions are admitted in a course, and under which numbers. -/
def admissions (rules : Rules σ) (past : List (Occurrence σ)) : List (Submitter × Sequence) :=
  past.filterMap (Occurrence.admission? rules)

@[simp] theorem acknowledged_snoc (past : List (Occurrence σ)) (last : Occurrence σ) :
    acknowledged rules (past ++ [last]) =
      acknowledged rules past ++ last.acknowledgments rules := by
  rw [acknowledged, List.flatMap_append, List.flatMap_singleton]
  rfl

@[simp] theorem admissions_snoc (past : List (Occurrence σ)) (last : Occurrence σ) :
    admissions rules (past ++ [last]) =
      admissions rules past ++ (last.admission? rules).toList := by
  rw [admissions, List.filterMap_append, List.filterMap_cons, List.filterMap_nil]
  cases last.admission? rules <;> rfl

/-- The acknowledgments of the land that accept something are on their way. -/
theorem accepts_update
    (service : Service σ)
    (acknowledgments : List (Acknowledgment Submitter))
    (task : LandTask σ Submitter) :
    (service.update acknowledgments task).receipts.filterMap Receipt.accepts? =
      service.receipts.filterMap Receipt.accepts? ++
        acknowledgments.filterMap Acknowledgment.accepts? := by
  have passed : (acknowledgments.map fun ack =>
      Receipt.mk ack.submitter (some ack.result)).filterMap Receipt.accepts? =
        acknowledgments.filterMap Acknowledgment.accepts? := by
    rw [List.filterMap_map]
    refine List.filterMap_congr fun ack _ => ?_
    obtain ⟨submitter, result⟩ := ack
    cases result <;> rfl
  have dropped (submitters : List Submitter) : (submitters.map fun submitter =>
      Receipt.mk submitter none).filterMap Receipt.accepts? = [] := by
    rw [List.filterMap_map]
    exact List.filterMap_eq_nil_iff.2 fun _ _ => rfl
  have abandoned : (if task.isOpen then [] else
      service.requests.map fun request => Receipt.mk request.submitter none).filterMap
        Receipt.accepts? = [] := by
    split
    · rfl
    · rw [List.filterMap_map]
      exact List.filterMap_eq_nil_iff.2 fun _ _ => rfl
  simp only [update, List.filterMap_append, passed, dropped, abandoned, List.append_nil]

/-- An acceptance is on its way until it is passed on. -/
theorem receipts_after (rules : Rules σ) (service : Service σ) (move : Move) :
    ((service.after rules move).receipts.filterMap Receipt.accepts? ++
        (⟨service, move⟩ : Occurrence σ).receipt?.toList.filterMap Receipt.accepts?).Perm
      (service.receipts.filterMap Receipt.accepts? ++
        ((⟨service, move⟩ : Occurrence σ).acknowledgments rules).filterMap
          Acknowledgment.accepts?) := by
  have same {after : Service σ} (receipts : after.receipts = service.receipts) :
      (after.receipts.filterMap Receipt.accepts? ++ []).Perm
        (service.receipts.filterMap Receipt.accepts? ++ []) := by
    rw [receipts]
  have updates {before : Service σ} {task : LandTask σ Submitter}
      (acknowledgments : List (Acknowledgment Submitter))
      (receipts : before.receipts = service.receipts) :
      ((before.update acknowledgments task).receipts.filterMap Receipt.accepts? ++ []).Perm
        (service.receipts.filterMap Receipt.accepts? ++
          acknowledgments.filterMap Acknowledgment.accepts?) := by
    rw [List.append_nil, accepts_update, receipts]
  have does := service.does rules move
  generalize service.after rules move = after at does ⊢
  cases does with
  | idles idle =>
      rw [idle.acknowledgments, idle.receipt?]
      exact same rfl
  | takes requests =>
      rw [Occurrence.acknowledgments, requests]
      exact updates _ rfl
  | resolves isOpen found =>
      simp only [Occurrence.acknowledgments, isOpen, found]
      exact updates _ rfl
  | ticks | closes => exact updates [] rfl
  | passesOn found =>
      obtain ⟨within, isReceipt⟩ := List.getElem?_eq_some_iff.1 found
      have taken := (List.getElem_cons_eraseIdx_perm within).filterMap Receipt.accepts?
      rw [isReceipt, ← List.singleton_append, List.filterMap_append] at taken
      simp only [Occurrence.receipt?, found]
      exact (List.perm_append_comm.trans taken).trans (List.Perm.of_eq (List.append_nil _).symm)
  | receives | drops | expires | sends => exact same rfl

/-- Whoever is told a number in a move has claimed it before, or the submission is admitted
in the move. -/
theorem claims_after
    (rules : Rules σ)
    (service : Service σ)
    (orderly : service.task.Orderly)
    (move : Move) :
    List.Subperm
      (((⟨service, move⟩ : Occurrence σ).acknowledgments rules).filterMap
          Acknowledgment.accepts? ++ (service.after rules move).task.claims)
      (service.task.claims ++ ((⟨service, move⟩ : Occurrence σ).admission? rules).toList) := by
  have silent {after : Service σ} (fewer : List.Sublist after.task.claims service.task.claims) :
      List.Subperm ([] ++ after.task.claims) (service.task.claims ++ []) := by
    rw [List.append_nil]
    exact fewer.subperm
  have does := service.does rules move
  generalize service.after rules move = after at does ⊢
  cases does with
  | idles idle =>
      rw [idle.acknowledgments, Occurrence.admission?, idle.taken?]
      exact silent (List.Sublist.refl _)
  | takes requests =>
      rw [Occurrence.acknowledgments, Occurrence.admission?, Occurrence.taken?, requests]
      exact LandTask.claims_submit orderly rules _ _
  | resolves isOpen found =>
      rw [show (⟨service, .resolve _ _⟩ : Occurrence σ).admission? rules = none from rfl,
        Option.toList_none, List.append_nil]
      simp only [Occurrence.acknowledgments, isOpen, found]
      exact service.task.claims_complete _
  | ticks => exact silent (LandTask.claims_check _)
  | closes => exact silent service.task.claims_shutdown
  | receives | drops | expires | passesOn | sends => exact silent (List.Sublist.refl _)

/-- Numbers are told in the moves in which items of these numbers enter the queue. -/
theorem entered_eq
    (rules : Rules σ)
    (service : Service σ)
    (orderly : service.task.Orderly)
    (nothing : service.task.isOpen = false → service.requests = [])
    (move : Move) :
    (((⟨service, move⟩ : Occurrence σ).acknowledgments rules).filterMap
        Acknowledgment.accepts?).map (·.2) =
      (entries rules (⟨service, move⟩ : Occurrence σ).passage?.toList).map (·.sequence) := by
  have entering (passage : Passage σ) :
      (entries rules [passage]).map (·.sequence) =
        (passage.enters? rules).toList.map (·.sequence) := by
    rw [entries, List.filterMap_cons]
    cases passage.enters? rules <;> rfl
  rw [Occurrence.passage?]
  cases isOpen : service.task.isOpen with
  | false =>
      rw [if_neg Bool.false_ne_true]
      cases move with
      | take =>
          rw [Occurrence.acknowledgments, nothing isOpen]
          rfl
      | resolve sequence chance =>
          rw [Occurrence.acknowledgments, isOpen]
          rfl
      | _ => rfl
  | true =>
      rw [if_pos rfl]
      cases move with
      | take =>
          simp only [Occurrence.acknowledgments, passage?, operation?]
          cases requests : service.requests with
          | nil => rfl
          | cons request rest =>
              exact (LandTask.accepts_submit rules _ _ _).trans (entering _).symm
      | resolve sequence chance =>
          simp only [Occurrence.acknowledgments, passage?, operation?, isOpen]
          cases found : service.task.running.find? fun running =>
              running.submission.sequence = sequence with
          | none => rfl
          | some resolution =>
              have claimed := orderly.running isOpen resolution (List.mem_of_find?_eq_some found)
              exact (LandTask.accepts_complete rules _ claimed).trans (entering _).symm
      | tick => rfl
      | _ => rfl

/-- The numbers of a service's land only go on, and whatever is admitted gets a new one. -/
theorem issued_after
    (rules : Rules σ)
    (service : Service σ)
    (move : Move)
    {numbers : List Sequence}
    (issued : Issued numbers service.task.land.numbering) :
    Issued (((⟨service, move⟩ : Occurrence σ).admission? rules).toList.map (·.2) ++ numbers)
      (service.after rules move).task.land.numbering := by
  have does := service.does rules move
  generalize service.after rules move = after at does ⊢
  cases does with
  | idles idle =>
      rw [Occurrence.admission?, idle.taken?]
      exact issued
  | takes requests =>
      rename_i request rest
      rw [Occurrence.admission?, Occurrence.taken?, requests, update_land]
      simp only [List.head?_cons, Option.bind_some, Passage.admitted?]
      rcases service.task.land.submit_cases rules request.inbound with
        ⟨error, land, refused, numbering⟩ | ⟨admission, land, admitted, next⟩
      · rw [LandTask.submit_of_error refused, refused, LandTask.land_check, numbering]
        exact issued
      · have one := issued.cons next
        cases admission with
        | queued sequence =>
            rw [LandTask.submit_of_queued admitted, admitted, LandTask.land_check]
            simp only [Option.map_some, Option.toList_some, Inbound.sequence_submission]
            exact one
        | resolving resolution =>
            rw [LandTask.submit_of_resolving admitted, admitted, LandTask.land_check]
            exact one
  | resolves =>
      rw [update_land, LandTask.complete_snd, LandTask.land_check, Land.numbering_complete]
      exact issued
  | ticks =>
      rw [update_land, LandTask.step, LandTask.land_check]
      exact issued.mono (service.task.land.behind_step rules)
  | closes =>
      have sameLand : service.task.shutdown.land = service.task.land := by
        unfold LandTask.shutdown
        split <;> rfl
      rw [update_land, sameLand]
      exact issued
  | receives | drops | expires | passesOn | sends => exact issued

namespace Course

variable {past : List (Occurrence σ)} {start service : Service σ}

/-- The numbers that were admitted in a course are different and below the next one. -/
theorem issued (course : Course rules start past service) :
    Issued ((admissions rules past).map (·.2)) service.task.land.numbering := by
  induction course with
  | nothing => exact ⟨List.nodup_nil, fun _ member => absurd member List.not_mem_nil⟩
  | next course takes inductionHypothesis =>
      refine (issued_after rules _ _ inductionHypothesis).perm ?_
      rw [admissions_snoc, List.map_append]
      exact List.perm_append_comm

/-- What was accepted in a course is on its way or was passed on. -/
theorem acceptances
    (course : Course rules start past service)
    (begins : start.receipts = []) :
    ((service.receipts ++ passedOn past).filterMap Receipt.accepts?).Perm
      ((acknowledged rules past).filterMap Acknowledgment.accepts?) := by
  induction course with
  | nothing =>
      rw [begins]
      exact List.Perm.refl _
  | next course takes inductionHypothesis =>
      rename_i past service move
      have turned := receipts_after rules service move
      rw [passedOn_snoc, acknowledged_snoc]
      rw [List.perm_iff_count] at inductionHypothesis turned ⊢
      intro acceptance
      have earlier := inductionHypothesis acceptance
      have now := turned acceptance
      simp only [List.filterMap_append, List.count_append] at earlier now ⊢
      omega

/-- Whoever was told a number or claims one has made a submission that was admitted
under it, each admission once. -/
theorem claims
    (course : Course rules start past service)
    (orderly : start.task.Orderly)
    (begins : start.task.claims = []) :
    List.Subperm
      ((acknowledged rules past).filterMap Acknowledgment.accepts? ++ service.task.claims)
      (admissions rules past) := by
  induction course with
  | nothing =>
      rw [begins]
      exact List.Subperm.refl _
  | next course takes inductionHypothesis =>
      rename_i past service move
      have turned := claims_after rules service (course.orderly orderly) move
      rw [acknowledged_snoc, admissions_snoc]
      refine List.subperm_ext_iff.2 fun claim _ => ?_
      have earlier := inductionHypothesis.count_le claim
      have now := turned.count_le claim
      simp only [List.filterMap_append, List.count_append] at earlier now ⊢
      omega

/-- The numbers that were told are those of the items that have entered the queue. -/
theorem entered
    (course : Course rules start past service)
    (orderly : start.task.Orderly)
    (begins : start.requests = []) :
    ((acknowledged rules past).filterMap Acknowledgment.accepts?).map (·.2) =
      (entries rules (passages past)).map (·.sequence) := by
  induction course with
  | nothing => rfl
  | next course takes inductionHypothesis =>
      rename_i past service move
      have turned := entered_eq rules service (course.orderly orderly)
        (course.requests_of_closed begins) move
      rw [acknowledged_snoc, passages_snoc, List.filterMap_append, List.map_append, entries,
        List.filterMap_append, List.map_append, turned, inductionHypothesis]
      rfl

end Course
end Service
end Chronicle
