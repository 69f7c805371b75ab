import Chronicle.Land.Basic

/-!
# Lands of their own

A land of its own is reached through messages: submissions, each of which is
acknowledged, steps, questions for its figures, and the request to shut down.
A submission that waits for its resolvers is acknowledged when they are done.
The land ends when it is shut down or has failed for good; what still waits
then is never acknowledged.
-/

namespace Chronicle

/-- The acknowledgment of a submission, addressed to whoever made it. -/
structure Acknowledgment (ν : Type) where
  submitter : ν
  result : Except LandError Sequence

/-- A land of its own: the submitters that wait for an acknowledgment under
the sequence numbers of their submissions, the resolutions that are running,
how the land has ended, if it has, and who still waited then. -/
structure LandTask (σ ν : Type) where
  land : Land σ
  awaiting : Dict Sequence ν := ∅
  running : List Resolution := []
  ended : Option (Except LandError Unit) := none
  dropped : List ν := []

namespace LandTask

variable {σ ν : Type}

/-- Whether the land still takes messages. -/
def isOpen (task : LandTask σ ν) : Bool := task.ended.isNone

/-- Ends a land; whoever waits for an acknowledgment is dropped. -/
def finish (result : Except LandError Unit) (task : LandTask σ ν) : LandTask σ ν :=
  { task with
    awaiting := ∅
    ended := some result
    dropped := task.dropped ++ task.awaiting.values }

/-- Ends a land that has failed for good. -/
def check (task : LandTask σ ν) : LandTask σ ν :=
  if task.land.failed then task.finish (.error .sequenceOverflow) else task

/-- Takes a submission.  It is acknowledged at once, unless it waits for its
resolvers. -/
def submit (rules : Rules σ) (submitter : ν) (inbound : Inbound) (task : LandTask σ ν) :
    List (Acknowledgment ν) × LandTask σ ν :=
  let (result, land) := task.land.submit rules inbound
  let taken := { task with land := land }
  match result with
  | .ok (.queued sequence) => ([⟨submitter, .ok sequence⟩], taken.check)
  | .ok (.resolving resolution) =>
      let waiting :=
        { taken with
          awaiting := task.awaiting.insert resolution.submission.sequence submitter
          running := task.running ++ [resolution] }
      ([], waiting.check)
  | .error error => ([⟨submitter, .error error⟩], taken.check)

/-- Applies a completion and acknowledges the submission that waited for it. -/
def complete (completion : Completion) (task : LandTask σ ν) :
    List (Acknowledgment ν) × LandTask σ ν :=
  let sequence := completion.submission.sequence
  let (result, land) := task.land.complete completion
  let applied :=
    { task with
      land := land
      awaiting := task.awaiting.erase sequence
      running := task.running.filter fun resolution =>
        resolution.submission.sequence != sequence }
  let acknowledgments :=
    (task.awaiting.get? sequence).toList.map fun submitter => ⟨submitter, result⟩
  (acknowledgments, applied.check)

/-- Executes the next tick, on request or because it is time. -/
def step (rules : Rules σ) (task : LandTask σ ν) : Stepped σ × LandTask σ ν :=
  let stepped := task.land.step rules
  (stepped, { task with land := stepped.land }.check)

/-- Shuts the land down, unless it has ended already. -/
def shutdown (task : LandTask σ ν) : LandTask σ ν :=
  if task.isOpen then task.finish (.ok ()) else task

/-- Lets all running resolutions finish, in the order in which they were
started. -/
def settleFrom (chance : Chance) (task : LandTask σ ν) :
    List Resolution → List (Acknowledgment ν) × LandTask σ ν
  | [] => ([], task)
  | resolution :: rest =>
      let (first, task) := task.complete (resolution.run task.land.id chance)
      let (others, task) := settleFrom chance task rest
      (first ++ others, task)

/-- Lets all running resolutions of an open land finish. -/
def settle (chance : Chance) (task : LandTask σ ν) : List (Acknowledgment ν) × LandTask σ ν :=
  if task.isOpen then settleFrom chance task task.running else ([], task)

/-- The result that some acknowledgments give to a submitter; one that got none
was dropped. -/
def resultFor [BEq ν] (acknowledgments : List (Acknowledgment ν)) (submitter : ν) :
    Except LandError Sequence :=
  match acknowledgments.find? fun acknowledgment => acknowledgment.submitter == submitter with
  | some acknowledgment => acknowledgment.result
  | none => .error .landClosed

/-- Makes submissions one after the other, as long as the land is open. -/
def submitEach (rules : Rules σ) (task : LandTask σ ν) :
    List (ν × Inbound) → List (Acknowledgment ν) × LandTask σ ν
  | [] => ([], task)
  | (submitter, inbound) :: rest =>
      if task.isOpen then
        let (first, task) := task.submit rules submitter inbound
        let (others, task) := submitEach rules task rest
        (first ++ others, task)
      else ([], task)

/-- Makes submissions together and waits for what becomes of each. -/
def submitAll (rules : Rules σ) (chance : Chance) (inbounds : List Inbound)
    (task : LandTask σ Nat) :
    List (Except LandError Sequence) × LandTask σ Nat :=
  let (early, task) := task.submitEach rules (inbounds.mapIdx fun i inbound => (i, inbound))
  let (late, task) := task.settle chance
  ((List.range inbounds.length).map (resultFor (early ++ late)), task)

/-- Executes the next tick of a land that is open. -/
def stepIfOpen (rules : Rules σ) (task : LandTask σ ν) :
    Except LandError TickReport × LandTask σ ν :=
  if task.isOpen then
    let (stepped, task) := task.step rules
    (stepped.result, task)
  else (.error .landClosed, task)

/-- The figures of a land that is open. -/
def stats (task : LandTask σ ν) : Except LandError LandStats :=
  if task.isOpen then .ok task.land.stats else .error .landClosed

end LandTask
end Chronicle
