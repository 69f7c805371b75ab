import Chronicle.Proofs.Resolving
import Chronicle.Proofs.Service

/-!
# Messages to a land of its own

A land of its own takes one message after the other.  In one turn it takes a message,
sends the acknowledgments that are due, and does to its land what the message says.
-/

namespace Chronicle
namespace LandTask

/-- What a land of its own is told: a submission, that a resolution is done, to
execute its next tick, which is also what its timer tells it, to give its figures,
and to shut down, which is also what it does when nobody can reach it any more. -/
inductive Message (ν : Type) where
  | submit (submitter : ν) (inbound : Inbound)
  | complete (completion : Completion)
  | step
  | stats
  | shutdown

/-- Who makes a submission. -/
def Message.submitter? {ν : Type} : Message ν → Option ν
  | .submit submitter _ => some submitter
  | _ => none

variable {σ ν : Type}

/-- The land after a message. -/
def after (rules : Rules σ) (task : LandTask σ ν) : Message ν → LandTask σ ν
  | .submit submitter inbound => (task.submit rules submitter inbound).2
  | .complete completion => (task.complete completion).2
  | .step => (task.step rules).2
  | .stats => task
  | .shutdown => task.shutdown

/-- A land takes messages while it is open.  Only what is running is completed, and
the final tick is not executed. -/
def Takes (task : LandTask σ ν) (message : Message ν) : Prop :=
  task.isOpen = true ∧
    match message with
    | .complete completion => completion.submission ∈ task.running.map (·.submission)
    | .step => task.land.nextTick ≠ finalTick
    | _ => True

instance (task : LandTask σ ν) : (message : Message ν) → Decidable (task.Takes message)
  | .submit _ _ => inferInstanceAs (Decidable (task.isOpen = true ∧ True))
  | .complete completion => inferInstanceAs (Decidable
      (task.isOpen = true ∧ completion.submission ∈ task.running.map (·.submission)))
  | .step => inferInstanceAs (Decidable (task.isOpen = true ∧ task.land.nextTick ≠ finalTick))
  | .stats => inferInstanceAs (Decidable (task.isOpen = true ∧ True))
  | .shutdown => inferInstanceAs (Decidable (task.isOpen = true ∧ True))

/-- A message that a land of its own has taken, with the land before it. -/
structure Turn (σ ν : Type) where
  before : LandTask σ ν
  message : Message ν

namespace Turn

/-- The acknowledgments that are sent in a turn. -/
def acknowledgments (rules : Rules σ) (turn : Turn σ ν) : List (Acknowledgment ν) :=
  match turn.message with
  | .submit submitter inbound => (turn.before.submit rules submitter inbound).1
  | .complete completion => (turn.before.complete completion).1
  | _ => []

@[simp] theorem acknowledgments_submit
    (rules : Rules σ)
    (task : LandTask σ ν)
    (submitter : ν)
    (inbound : Inbound) :
    (⟨task, .submit submitter inbound⟩ : Turn σ ν).acknowledgments rules =
      (task.submit rules submitter inbound).1 := rfl

@[simp] theorem acknowledgments_complete
    (rules : Rules σ)
    (task : LandTask σ ν)
    (completion : Completion) :
    (⟨task, .complete completion⟩ : Turn σ ν).acknowledgments rules =
      (task.complete completion).1 := rfl

/-- What passes on the land in a turn. -/
def passage? (turn : Turn σ ν) : Option (Passage σ) :=
  match turn.message with
  | .submit _ inbound => some ⟨turn.before.land, .submit inbound⟩
  | .complete completion => some ⟨turn.before.land, .complete completion⟩
  | .step => some ⟨turn.before.land, .step⟩
  | _ => none

/-- What a turn admits. -/
def admitted? (rules : Rules σ) (turn : Turn σ ν) : Option Submission :=
  turn.passage?.bind (Passage.admitted? rules)

/-- The submission whose resolvers a turn starts, with its submitter. -/
def launches? (rules : Rules σ) (turn : Turn σ ν) : Option (ν × Submission) :=
  match turn.message with
  | .submit submitter inbound =>
      ((⟨turn.before.land, .submit inbound⟩ : Passage σ).resolving? rules).map (submitter, ·)
  | _ => none

/-- The items that a tick takes from the queue. -/
def executed (turn : Turn σ ν) : List Item :=
  match turn.message with
  | .step => turn.before.land.take.1
  | _ => []

/-- A tick that runs without a fatal error. -/
def Ticks (rules : Rules σ) (turn : Turn σ ν) : Prop :=
  turn.message = .step ∧
    ∀ error, (turn.before.step rules).1.result = .error error → error.isFatal = false

end Turn

/-- What passes on the land in some turns. -/
def passages (turns : List (Turn σ ν)) : List (Passage σ) := turns.filterMap Turn.passage?

/-- Those who have made submissions in some turns. -/
def submitters (turns : List (Turn σ ν)) : List ν := turns.filterMap (·.message.submitter?)

/-- The acknowledgments sent in some turns. -/
def acknowledged (rules : Rules σ) (turns : List (Turn σ ν)) : List (Acknowledgment ν) :=
  turns.flatMap (Turn.acknowledgments rules)

variable {rules : Rules σ} {task : LandTask σ ν} {turns before later : List (Turn σ ν)}
  {turn last : Turn σ ν} {submitter : ν} {inbound : Inbound} {completion : Completion}

/-! ## One turn -/

theorem passages_append :
    passages (before ++ later) = passages before ++ passages later :=
  List.filterMap_append

theorem passages_cons : passages (turn :: turns) = turn.passage?.toList ++ passages turns := by
  rw [passages, List.filterMap_cons]
  cases turn.passage? <;> rfl

theorem passages_snoc (earlier : List (Passage σ)) :
    earlier ++ passages (turns ++ [last]) =
      (earlier ++ passages turns) ++ last.passage?.toList := by
  rw [passages_append, passages_cons, ← List.append_assoc]
  exact congrArg _ (List.append_nil _)

theorem submitters_snoc :
    submitters (turns ++ [last]) = submitters turns ++ last.message.submitter?.toList := by
  rw [submitters, List.filterMap_append, List.filterMap_cons, List.filterMap_nil]
  cases last.message.submitter? <;> rfl

theorem acknowledged_snoc :
    acknowledged rules (turns ++ [last]) =
      acknowledged rules turns ++ last.acknowledgments rules := by
  rw [acknowledged, List.flatMap_append, List.flatMap_singleton]
  rfl

section Submit

variable {land : Land σ}

/-- A refused submission is acknowledged with its error. -/
theorem submit_of_error
    {error : LandError}
    (refused : task.land.submit rules inbound = (.error error, land)) :
    task.submit rules submitter inbound =
      ([⟨submitter, .error error⟩], { task with land := land }.check) := by
  rw [submit, refused]

/-- A submission that is queued is acknowledged with its number. -/
theorem submit_of_queued
    {sequence : Sequence}
    (queued : task.land.submit rules inbound = (.ok (.queued sequence), land)) :
    task.submit rules submitter inbound =
      ([⟨submitter, .ok sequence⟩], { task with land := land }.check) := by
  rw [submit, queued]

/-- The submitter waits while the resolvers run. -/
theorem submit_of_resolving
    {resolution : Resolution}
    (resolving : task.land.submit rules inbound = (.ok (.resolving resolution), land)) :
    task.submit rules submitter inbound =
      ([],
        { task with
          land := land
          awaiting := task.awaiting.insert resolution.submission.sequence submitter
          running := task.running ++ [resolution] }.check) := by
  rw [submit, resolving]

/-- A submission acknowledges nothing but itself. -/
theorem submitter_of_mem_submit
    {ack : Acknowledgment ν}
    (member : ack ∈ (task.submit rules submitter inbound).1) :
    ack.submitter = submitter := by
  cases submitted : task.land.submit rules inbound with
  | mk result land =>
      cases result with
      | error error =>
          rw [submit_of_error submitted] at member
          rw [List.mem_singleton.1 member]
      | ok admission =>
          cases admission with
          | queued sequence =>
              rw [submit_of_queued submitted] at member
              rw [List.mem_singleton.1 member]
          | resolving resolution =>
              rw [submit_of_resolving submitted] at member
              cases member

end Submit

/-- A completion is acknowledged with what its result says. -/
theorem acknowledgments_complete :
    (task.complete completion).1 =
      (task.awaiting.get? completion.submission.sequence).toList.map fun submitter =>
        ⟨submitter, completion.result.map fun _ => completion.submission.sequence⟩ := by
  rw [← Land.complete_fst completion task.land]
  rfl

/-- A submission whose resolvers are started is admitted. -/
theorem Turn.admitted_of_launches
    {submission : Submission}
    (launched : turn.launches? rules = some (submitter, submission)) :
    turn.message.submitter? = some submitter ∧ turn.admitted? rules = some submission := by
  obtain ⟨task, message⟩ := turn
  cases message with
  | submit maker inbound =>
      simp only [launches?, Option.map_eq_some_iff, Prod.mk.injEq] at launched
      obtain ⟨_, resolving, rfl, rfl⟩ := launched
      refine ⟨rfl, ?_⟩
      simp only [admitted?, passage?, Option.bind_some, Passage.admitted?, Passage.resolving?]
        at resolving ⊢
      split at resolving
      · rename_i resolution result
        rw [result]
        exact resolving
      · cases resolving
  | complete completion => cases launched
  | step => cases launched
  | stats => cases launched
  | shutdown => cases launched

/-- What is started in some turns was made by somebody in one of them. -/
theorem exists_launches
    {submission : Submission}
    (member : submission ∈ launched rules (passages turns)) :
    ∃ turn ∈ turns, ∃ submitter, turn.launches? rules = some (submitter, submission) := by
  obtain ⟨passage, there, resolving⟩ := List.mem_filterMap.1 member
  obtain ⟨⟨task, message⟩, isTurn, passes⟩ := List.mem_filterMap.1 there
  refine ⟨⟨task, message⟩, isTurn, ?_⟩
  cases message with
  | submit submitter inbound =>
      obtain rfl := Option.some.inj passes
      exact ⟨submitter, Option.map_eq_some_iff.2 ⟨submission, resolving, rfl⟩⟩
  | complete completion =>
      obtain rfl := Option.some.inj passes
      cases resolving
  | step =>
      obtain rfl := Option.some.inj passes
      cases resolving
  | stats => cases passes
  | shutdown => cases passes

/-- What a turn starts is started in the run of the land. -/
theorem mem_launched_of_launches
    {submission : Submission}
    (member : turn ∈ turns)
    (launches : turn.launches? rules = some (submitter, submission)) :
    submission ∈ launched rules (passages turns) := by
  obtain ⟨task, message⟩ := turn
  cases message with
  | submit maker inbound =>
      obtain ⟨_, resolving, same⟩ := Option.map_eq_some_iff.1 launches
      obtain ⟨-, rfl⟩ := Prod.mk.inj same
      exact List.mem_filterMap.2 ⟨_, List.mem_filterMap.2 ⟨_, member, rfl⟩, resolving⟩
  | complete completion => cases launches
  | step => cases launches
  | stats => cases launches
  | shutdown => cases launches

/-- A submission that is acknowledged with an error is not admitted. -/
theorem admitted_of_error
    {ack : Acknowledgment ν}
    (sent : ack ∈ (task.submit rules submitter inbound).1)
    {error : LandError}
    (failed : ack.result = .error error) :
    (⟨task, .submit submitter inbound⟩ : Turn σ ν).admitted? rules = none := by
  simp only [Turn.admitted?, Turn.passage?, Option.bind_some, Passage.admitted?]
  cases submitted : task.land.submit rules inbound with
  | mk result land =>
      cases result with
      | error reason => rfl
      | ok admission =>
          cases admission with
          | queued sequence =>
              rw [submit_of_queued submitted] at sent
              obtain rfl := List.mem_singleton.1 sent
              cases failed
          | resolving resolution =>
              rw [submit_of_resolving submitted] at sent
              cases sent

/-- A submission whose item enters the queue at once is acknowledged with its number. -/
theorem mem_submit_of_enters
    (submitter : ν)
    {item : Item}
    (enters : (⟨task.land, .submit inbound⟩ : Passage σ).enters? rules = some item) :
    (⟨task, .submit submitter inbound⟩ : Turn σ ν).admitted? rules = some item.toSubmission ∧
      ⟨submitter, .ok item.sequence⟩ ∈ (task.submit rules submitter inbound).1 := by
  simp only [Turn.admitted?, Turn.passage?, Option.bind_some, Passage.admitted?]
  simp only [Passage.enters?, Passage.direct?, Passage.resolved?, Option.or_none] at enters
  cases submitted : task.land.submit rules inbound with
  | mk result land =>
      rw [submitted] at enters
      cases result with
      | error error => cases enters
      | ok admission =>
          cases admission with
          | queued sequence =>
              obtain rfl := Option.some.inj enters
              rw [submit_of_queued submitted]
              refine ⟨rfl, List.mem_singleton.2 (congrArg _ (congrArg Except.ok ?_))⟩
              exact inbound.sequence_submission sequence
          | resolving resolution => cases enters

/-- With an acknowledgment without an error an item of its number enters the queue. -/
theorem Turn.exists_enters
    {ack : Acknowledgment ν}
    (member : ack ∈ turn.acknowledgments rules)
    {sequence : Sequence}
    (accepted : ack.result = .ok sequence) :
    ∃ passage item, turn.passage? = some passage ∧ passage.enters? rules = some item ∧
      item.sequence = sequence := by
  obtain ⟨task, message⟩ := turn
  cases message with
  | submit submitter inbound =>
      rw [acknowledgments_submit] at member
      cases submitted : task.land.submit rules inbound with
      | mk result land =>
          cases result with
          | error error =>
              rw [submit_of_error submitted] at member
              obtain rfl := List.mem_singleton.1 member
              cases accepted
          | ok admission =>
              cases admission with
              | queued number =>
                  rw [submit_of_queued submitted] at member
                  obtain rfl := List.mem_singleton.1 member
                  obtain rfl := Except.ok.inj accepted
                  refine ⟨_, (inbound.submission number).resolve ∅ task.land.nextTick, rfl, ?_,
                    inbound.sequence_submission number⟩
                  simp only [Passage.enters?, Passage.direct?, submitted]
                  rfl
              | resolving resolution =>
                  rw [submit_of_resolving submitted] at member
                  cases member
  | complete completion =>
      rw [acknowledgments_complete, LandTask.acknowledgments_complete] at member
      obtain ⟨submitter, -, rfl⟩ := List.mem_map.1 member
      obtain ⟨submission, result⟩ := completion
      cases result with
      | error error => cases accepted
      | ok outputs =>
          obtain rfl := Except.ok.inj accepted
          exact ⟨_, submission.resolve outputs task.land.nextTick, rfl, rfl, rfl⟩
  | step => cases member
  | stats => cases member
  | shutdown => cases member

end LandTask
end Chronicle
