import Chronicle.Proofs.Order
import Chronicle.Transport.Service

/-!
# A service in front of a live land

As long as the land of a service is open, the moves of the service make a run of
the land: what the land takes is submitted, the resolutions that finish are
completed, and the ticks are its steps.  Each completion is of a resolution that
was running, so these runs are genuine.
-/

namespace Chronicle

/-! ## Lands of their own -/

namespace LandTask

variable {σ ν : Type} {rules : Rules σ} {task : LandTask σ ν}

/-- A land that is open after a check was open and has not failed, and the check
has changed nothing. -/
theorem check_of_isOpen (isOpen : task.check.isOpen = true) :
    task.isOpen = true ∧ task.land.failed = false ∧ task.check = task := by
  unfold check at isOpen ⊢
  split at isOpen
  · cases isOpen
  · rename_i going
    exact ⟨isOpen, Bool.eq_false_iff.2 going, if_neg going⟩

/-- The resolution that a submission has started. -/
def startedBy : Except LandError Admission → List Resolution
  | .ok (.resolving resolution) => [resolution]
  | _ => []

/-- An open land has submitted what it took, keeps the resolution that was
started, and acknowledges at most this submission, with what came of it. -/
theorem submit_of_isOpen
    {submitter : ν}
    {inbound : Inbound}
    (isOpen : (task.submit rules submitter inbound).2.isOpen = true) :
    task.isOpen = true ∧
      (task.land.submit rules inbound).2.failed = false ∧
      (task.submit rules submitter inbound).2.land = (task.land.submit rules inbound).2 ∧
      (task.submit rules submitter inbound).2.running =
        task.running ++ startedBy (task.land.submit rules inbound).1 ∧
      ∀ ack ∈ (task.submit rules submitter inbound).1, ∀ error, ack.result = .error error →
        ack.submitter = submitter ∧ (task.land.submit rules inbound).1 = .error error := by
  cases submitted : task.land.submit rules inbound with
  | mk result land =>
      cases result with
      | error reason =>
          simp only [submit, submitted] at isOpen ⊢
          obtain ⟨wasOpen, going, same⟩ := check_of_isOpen isOpen
          rw [same]
          refine ⟨wasOpen, going, rfl, (List.append_nil _).symm, fun ack member error failed => ?_⟩
          obtain rfl := List.mem_singleton.1 member
          exact ⟨rfl, congrArg Except.error (Except.error.inj failed)⟩
      | ok admission =>
          cases admission with
          | queued sequence =>
              simp only [submit, submitted] at isOpen ⊢
              obtain ⟨wasOpen, going, same⟩ := check_of_isOpen isOpen
              rw [same]
              refine ⟨wasOpen, going, rfl, (List.append_nil _).symm,
                fun ack member error failed => ?_⟩
              obtain rfl := List.mem_singleton.1 member
              cases failed
          | resolving resolution =>
              simp only [submit, submitted] at isOpen ⊢
              obtain ⟨wasOpen, going, same⟩ := check_of_isOpen isOpen
              rw [same]
              exact ⟨wasOpen, going, rfl, rfl, fun ack member => absurd member List.not_mem_nil⟩

/-- An open land has completed a resolution, no longer runs it, and acknowledges
what came of it. -/
theorem complete_of_isOpen
    {completion : Completion}
    (isOpen : (task.complete completion).2.isOpen = true) :
    (task.land.complete completion).2.failed = false ∧
      (task.complete completion).2.land = (task.land.complete completion).2 ∧
      (task.complete completion).2.running =
        task.running.filter (fun resolution =>
          resolution.submission.sequence != completion.submission.sequence) ∧
      ∀ ack ∈ (task.complete completion).1, ack.result = (task.land.complete completion).1 := by
  unfold complete at isOpen ⊢
  obtain ⟨-, going, same⟩ := check_of_isOpen isOpen
  refine ⟨going, congrArg LandTask.land same, congrArg LandTask.running same,
    fun ack member => ?_⟩
  obtain ⟨submitter, -, rfl⟩ := List.mem_map.1 member
  rfl

/-- An open land has executed its tick. -/
theorem step_of_isOpen (isOpen : (task.step rules).2.isOpen = true) :
    (task.land.step rules).land.failed = false ∧
      (task.step rules).2.land = (task.land.step rules).land ∧
      (task.step rules).2.running = task.running := by
  unfold step at isOpen ⊢
  obtain ⟨-, going, same⟩ := check_of_isOpen isOpen
  have sameRunning := congrArg LandTask.running same
  exact ⟨going, congrArg LandTask.land same, sameRunning⟩

end LandTask

/-! ## Moves -/

namespace Service

variable {σ : Type} {rules : Rules σ} {service : Service σ}

/-- What a move does to the land, if it does anything. -/
def operation? (service : Service σ) : Move → Option Operation
  | .take => service.requests.head?.map fun request => .submit request.inbound
  | .resolve sequence chance =>
      (service.task.running.find? fun resolution => resolution.submission.sequence = sequence).map
        fun resolution => .complete (resolution.run service.task.land.id chance)
  | .tick => some .step
  | _ => none

/-- What passes on the land in a move. -/
def passage? (service : Service σ) (move : Move) : Option (Passage σ) :=
  (service.operation? move).map fun operation => ⟨service.task.land, operation⟩

/-- The final tick is not executed. -/
def Takes (service : Service σ) (move : Move) : Prop :=
  move = .tick → service.task.land.nextTick ≠ finalTick

instance (service : Service σ) (move : Move) : Decidable (service.Takes move) :=
  inferInstanceAs (Decidable (_ → _))

/-- A service takes moves one after the other. -/
def TakesAll (rules : Rules σ) : Service σ → List Move → Prop
  | _, [] => True
  | service, move :: rest => service.Takes move ∧ TakesAll rules (service.after rules move) rest

instance decidableTakesAll (rules : Rules σ) :
    (service : Service σ) → (moves : List Move) → Decidable (service.TakesAll rules moves)
  | _, [] => isTrue trivial
  | service, move :: rest =>
      have := decidableTakesAll rules (service.after rules move) rest
      inferInstanceAs (Decidable (_ ∧ _))

/-- The services that moves in any order lead to. -/
inductive Reaches (rules : Rules σ) (start : Service σ) : Service σ → Prop
  | nothing : Reaches rules start start
  | next {service : Service σ} {move : Move}
      (reached : Reaches rules start service) (takes : service.Takes move) :
      Reaches rules start (service.after rules move)

/-- Moves that a service takes one after the other lead to where they end. -/
theorem Reaches.foldl
    {start : Service σ}
    (reached : Reaches rules start service)
    (moves : List Move)
    (takes : service.TakesAll rules moves) :
    Reaches rules start (moves.foldl (Service.after rules) service) := by
  induction moves generalizing service with
  | nil => exact reached
  | cons move rest inductionHypothesis =>
      obtain ⟨first, later⟩ := takes
      exact inductionHypothesis (reached.next first) later

section Update

variable (service) (acknowledgments : List (Acknowledgment Submitter)) (task : LandTask σ Submitter)

@[simp] theorem update_land : (service.update acknowledgments task).task.land = task.land := rfl

@[simp] theorem update_running :
    (service.update acknowledgments task).task.running = task.running := rfl

@[simp] theorem update_isOpen :
    (service.update acknowledgments task).task.isOpen = task.isOpen := rfl

@[simp] theorem update_transport :
    (service.update acknowledgments task).transport = service.transport := rfl

@[simp] theorem update_expired :
    (service.update acknowledgments task).expired = service.expired := rfl

theorem update_requests (isOpen : (service.update acknowledgments task).task.isOpen = true) :
    (service.update acknowledgments task).requests = service.requests := if_pos isOpen

/-- A receipt with an error after a change was there before or acknowledges a
submission. -/
theorem mem_receipts_update
    {receipt : Receipt}
    {error : LandError}
    (member : receipt ∈ (service.update acknowledgments task).receipts)
    (failed : receipt.result = some (.error error)) :
    receipt ∈ service.receipts ∨
      ∃ ack ∈ acknowledgments, ack.submitter = receipt.submitter ∧ ack.result = .error error := by
  simp only [update, List.mem_append, List.mem_map] at member
  rcases member with ((old | ⟨ack, passed, rfl⟩) | ⟨submitter, -, rfl⟩) | abandoned
  · exact .inl old
  · exact .inr ⟨ack, passed, rfl, Option.some.inj failed⟩
  · cases failed
  · split at abandoned
    · exact absurd abandoned List.not_mem_nil
    · obtain ⟨request, -, rfl⟩ := List.mem_map.1 abandoned
      cases failed

end Update

/-- A land does not open again. -/
theorem isOpen_of_after
    {move : Move}
    (isOpen : (service.after rules move).task.isOpen = true) :
    service.task.isOpen = true := by
  cases move with
  | packet clock packet address => exact isOpen
  | dropSilent clock => exact isOpen
  | expire =>
      simp only [after, expire] at isOpen
      split at isOpen <;> exact isOpen
  | take =>
      simp only [after, take] at isOpen
      split at isOpen
      · exact isOpen
      · exact (LandTask.submit_of_isOpen isOpen).1
  | resolve sequence chance =>
      simp only [after, resolve] at isOpen
      split at isOpen
      · assumption
      · exact isOpen
  | tick =>
      simp only [after, tick] at isOpen
      split at isOpen
      · assumption
      · exact isOpen
  | acknowledge index =>
      simp only [after, acknowledge] at isOpen
      split at isOpen <;> exact isOpen
  | send => exact isOpen
  | close =>
      simp only [after, close, update_isOpen, LandTask.shutdown] at isOpen
      split at isOpen
      · cases isOpen
      · exact isOpen

end Service

/-! ## The run of the land -/

/-- A completion of a run is what came of the resolvers that its registry
declares. -/
def Passage.Resolved {σ : Type} (rules : Rules σ) (passage : Passage σ) : Prop :=
  ∀ completion, passage.operation = .complete completion →
    ∃ resolvers landId chance,
      rules.registry.resolversFor completion.submission.kind completion.submission.type =
          .ok resolvers ∧
        resolvers ≠ [] ∧
        completion = Resolution.run ⟨completion.submission, resolvers⟩ landId chance

/-- The land of an open service after a run: the resolutions that are running
are those of the run, with the resolvers that the registry declares. -/
structure Service.Fronts
    {σ : Type}
    (rules : Rules σ)
    (start : Land σ)
    (past : List (Passage σ))
    (service : Service σ) : Prop where
  run : Run rules start past service.task.land
  genuine : Genuine rules past
  going : service.task.land.failed = false
  running : service.task.running.map (·.submission) = outstanding rules past
  declared : ∀ resolution ∈ service.task.running,
    rules.registry.resolversFor resolution.submission.kind resolution.submission.type =
        .ok resolution.resolvers ∧
      resolution.resolvers ≠ []
  resolved : ∀ passage ∈ past, passage.Resolved rules

/-- Of resolutions with different numbers, one that is done is taken out. -/
theorem Resolution.map_submission_filter
    {running : List Resolution}
    {resolution : Resolution}
    (member : resolution ∈ running)
    (distinct : ((running.map (·.submission)).map (·.sequence)).Nodup) :
    (running.filter fun other =>
        other.submission.sequence != resolution.submission.sequence).map (·.submission) =
      (running.map (·.submission)).erase resolution.submission := by
  induction running with
  | nil => rfl
  | cons first rest inductionHypothesis =>
      simp only [List.map_cons, List.nodup_cons] at distinct
      obtain ⟨fresh, distinct⟩ := distinct
      rcases List.mem_cons.1 member with rfl | later
      · have others : rest.filter (fun other =>
            other.submission.sequence != resolution.submission.sequence) = rest := by
          refine List.filter_eq_self.2 fun other there => bne_iff_ne.2 fun same => fresh ?_
          rw [← same]
          exact List.mem_map_of_mem (List.mem_map_of_mem there)
        simp [others]
      · have different : first.submission.sequence ≠ resolution.submission.sequence := by
          intro same
          rw [same] at fresh
          exact fresh (List.mem_map_of_mem (List.mem_map_of_mem later))
        have apart : first.submission ≠ resolution.submission :=
          fun same => different (congrArg Submission.sequence same)
        simp only [List.filter_cons, bne_iff_ne.2 different, if_true, List.map_cons,
          List.erase_cons_tail (beq_eq_false_iff_ne.2 apart ▸ Bool.false_ne_true),
          inductionHypothesis later distinct]

namespace Service.Fronts

variable {σ : Type} {rules : Rules σ} {service : Service σ} {start : Land σ}
  {past : List (Passage σ)} {config : LandConfig} {created : Timestamp} {initial : σ}

/-- A move that leaves the land alone keeps the run. -/
theorem keep
    (fronts : service.Fronts rules start past)
    {after : Service σ}
    (land : after.task.land = service.task.land)
    (running : after.task.running = service.task.running) :
    after.Fronts rules start past where
  run := land ▸ fronts.run
  genuine := fronts.genuine
  going := land ▸ fronts.going
  running := running ▸ fronts.running
  declared := running ▸ fronts.declared
  resolved := fronts.resolved

/-- A submission that is taken goes on with the run. -/
theorem take
    (started : Land.live rules config created initial = .ok start)
    (fronts : service.Fronts rules start past)
    {request : Request}
    {rest : List Request}
    (requests : service.requests = request :: rest)
    (isOpen : (service.take rules).task.isOpen = true) :
    (service.take rules).Fronts rules start
      (past ++ [⟨service.task.land, .submit request.inbound⟩]) := by
  obtain ⟨frames, tracks⟩ := fronts.run.tracks started
  obtain ⟨queue, recorder, resolutions, live, -⟩ := tracks.mode
  simp only [Service.take, requests] at isOpen ⊢
  obtain ⟨-, going, land, running, -⟩ := LandTask.submit_of_isOpen isOpen
  have takes : service.task.land.Takes (.submit request.inbound) := ⟨fronts.going, nofun⟩
  refine
    { run := ?_
      genuine := genuine_snoc fronts.genuine rfl
      going := ?_
      running := ?_
      declared := ?_
      resolved := ?_ }
  · rw [update_land, land]
    exact fronts.run.next takes
  · rw [update_land, land]
    exact going
  · rw [update_running, running, outstanding_snoc, List.map_append, fronts.running]
    simp only [Chronicle.settle, Passage.resolving?]
    rcases Land.submit_live_cases rules live request.inbound with
      ⟨error, refused⟩ | ⟨sequence, numbering, -, -, queued⟩ |
        ⟨resolvers, sequence, numbering, -, -, -, resolving⟩
    · rw [refused]
      rfl
    · rw [queued]
      rfl
    · rw [resolving]
      rfl
  · intro resolution member
    rw [update_running, running] at member
    rcases List.mem_append.1 member with earlier | now
    · exact fronts.declared resolution earlier
    · rcases Land.submit_live_cases rules live request.inbound with
        ⟨error, refused⟩ | ⟨sequence, numbering, -, -, queued⟩ |
          ⟨resolvers, sequence, numbering, declared, some, -, resolving⟩
      · rw [refused] at now
        exact absurd now List.not_mem_nil
      · rw [queued] at now
        exact absurd now List.not_mem_nil
      · rw [resolving] at now
        obtain rfl := List.mem_singleton.1 now
        rw [Inbound.kind_submission, Inbound.type_submission]
        exact ⟨declared, some⟩
  · intro passage member
    rcases List.mem_append.1 member with earlier | last
    · exact fronts.resolved passage earlier
    · obtain rfl := List.mem_singleton.1 last
      intro completion isCompletion
      cases isCompletion

/-- A resolution that finishes goes on with the run. -/
theorem resolve
    (started : Land.live rules config created initial = .ok start)
    (fronts : service.Fronts rules start past)
    {sequence : Sequence}
    {chance : Chance}
    {resolution : Resolution}
    (wasOpen : service.task.isOpen = true)
    (found : service.task.running.find? (fun other => other.submission.sequence = sequence) =
      some resolution)
    (isOpen : (service.resolve sequence chance).task.isOpen = true) :
    (service.resolve sequence chance).Fronts rules start
      (past ++ [⟨service.task.land,
        .complete (resolution.run service.task.land.id chance)⟩]) := by
  obtain ⟨frames, tracks⟩ := fronts.run.tracks started
  obtain ⟨queue, recorder, resolutions, live, -⟩ := tracks.mode
  have member := List.mem_of_find?_eq_some found
  have balanced := fronts.run.balanced started fronts.genuine fronts.going live
  have distinct : ((service.task.running.map (·.submission)).map (·.sequence)).Nodup := by
    have given := (List.nodup_append.1 balanced.issued.distinct).2.1
    rw [List.map_append, ← fronts.running] at given
    exact (List.nodup_append.1 given).1
  have outstanding : resolution.submission ∈ outstanding rules past :=
    fronts.running ▸ List.mem_map_of_mem member
  simp only [Service.resolve, wasOpen, found] at isOpen ⊢
  obtain ⟨going, land, running, -⟩ := LandTask.complete_of_isOpen isOpen
  have takes : service.task.land.Takes
      (.complete (resolution.run service.task.land.id chance)) := ⟨fronts.going, nofun⟩
  refine
    { run := ?_
      genuine := genuine_snoc_iff.2 ⟨fronts.genuine, fun submission isDone => ?_⟩
      going := ?_
      running := ?_
      declared := fun other there => ?_
      resolved := fun passage there => ?_ }
  · rw [update_land, land]
    exact fronts.run.next takes
  · obtain rfl := Option.mem_some_iff.1 isDone
    exact outstanding
  · rw [update_land, land]
    exact going
  · rw [update_running, running, outstanding_snoc]
    exact (Resolution.map_submission_filter member distinct).trans
      (congrArg (List.erase · resolution.submission) fronts.running)
  · rw [update_running, running] at there
    exact fronts.declared other (List.mem_filter.1 there).1
  · rcases List.mem_append.1 there with earlier | last
    · exact fronts.resolved passage earlier
    · obtain rfl := List.mem_singleton.1 last
      rintro completion isCompletion
      obtain rfl := Operation.complete.inj isCompletion
      obtain ⟨declared, some⟩ := fronts.declared resolution member
      exact ⟨resolution.resolvers, _, chance, declared, some, rfl⟩

/-- A tick of an open land goes on with the run. -/
theorem tick
    (fronts : service.Fronts rules start past)
    (takes : service.Takes .tick)
    (wasOpen : service.task.isOpen = true)
    (isOpen : (service.tick rules).2.task.isOpen = true) :
    (service.tick rules).2.Fronts rules start (past ++ [⟨service.task.land, .step⟩]) := by
  simp only [Service.tick, wasOpen, if_true] at isOpen ⊢
  obtain ⟨going, land, running⟩ := LandTask.step_of_isOpen isOpen
  have takes : service.task.land.Takes .step := ⟨fronts.going, fun _ => takes rfl⟩
  refine
    { run := ?_
      genuine := genuine_snoc fronts.genuine rfl
      going := ?_
      running := ?_
      declared := ?_
      resolved := fun passage member => ?_ }
  · rw [update_land, land]
    exact fronts.run.next takes
  · rw [update_land, land]
    exact going
  · rw [update_running, running, outstanding_snoc, fronts.running]
    exact (List.append_nil _).symm
  · rw [update_running, running]
    exact fronts.declared
  · rcases List.mem_append.1 member with earlier | last
    · exact fronts.resolved passage earlier
    · obtain rfl := List.mem_singleton.1 last
      intro completion isCompletion
      cases isCompletion

/-- Every move of a service whose land stays open goes on with the run. -/
theorem after
    (started : Land.live rules config created initial = .ok start)
    (fronts : service.Fronts rules start past)
    {move : Move}
    (takes : service.Takes move)
    (isOpen : (service.after rules move).task.isOpen = true) :
    (service.after rules move).Fronts rules start (past ++ (service.passage? move).toList) := by
  have wasOpen := isOpen_of_after isOpen
  cases move with
  | packet clock packet address => exact (List.append_nil past).symm ▸ fronts.keep rfl rfl
  | dropSilent clock => exact (List.append_nil past).symm ▸ fronts.keep rfl rfl
  | expire =>
      refine (List.append_nil past).symm ▸ fronts.keep ?_ ?_
      all_goals
        simp only [Service.after, expire]
        split <;> rfl
  | take =>
      cases requests : service.requests with
      | nil =>
          simp only [Service.after, Service.take, passage?, operation?, requests]
          exact (List.append_nil past).symm ▸ fronts.keep rfl rfl
      | cons request rest =>
          simp only [passage?, operation?, requests]
          exact fronts.take started requests isOpen
  | resolve sequence chance =>
      cases found : service.task.running.find? fun other =>
          other.submission.sequence = sequence with
      | none =>
          simp only [Service.after, Service.resolve, passage?, operation?, wasOpen, found]
          exact (List.append_nil past).symm ▸ fronts.keep rfl rfl
      | some resolution =>
          simp only [passage?, operation?, found]
          exact fronts.resolve started wasOpen found isOpen
  | tick => exact fronts.tick takes wasOpen isOpen
  | acknowledge index =>
      refine (List.append_nil past).symm ▸ fronts.keep ?_ ?_
      all_goals
        simp only [Service.after, acknowledge]
        split <;> rfl
  | send => exact (List.append_nil past).symm ▸ fronts.keep rfl rfl
  | close =>
      refine (List.append_nil past).symm ▸ fronts.keep ?_ ?_
      all_goals
        simp only [Service.after, close, update_land, update_running, LandTask.shutdown]
        split <;> rfl

end Service.Fronts
end Chronicle
