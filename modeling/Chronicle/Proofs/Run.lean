import Chronicle.Land.Basic
import Chronicle.Proofs.Queue
import Chronicle.Proofs.Recorder
import Chronicle.Proofs.Tick

/-!
# Runs of a live land

A run takes a land through submissions, completions and steps, for as long as
no fatal error has occurred.  For each of the three operations one theorem says
everything that it can do to a live land; what holds in every run is proved
from these.
-/

namespace Chronicle

/-- What is done to a live land. -/
inductive Operation where
  | submit (inbound : Inbound)
  | complete (completion : Completion)
  | step

/-- The greatest number of a tick.  A step needs a number for the tick after
its own, so this tick is never executed. -/
def finalTick : Tick := 0xffffffffffffffff

namespace Land

variable {σ : Type}

/-- The land after an operation. -/
def after (rules : Rules σ) (land : Land σ) : Operation → Land σ
  | .submit inbound => (land.submit rules inbound).2
  | .complete completion => (land.complete completion).2
  | .step => (land.step rules).land

/-- Nothing is done to a land after a fatal error, and the final tick is not
executed. -/
def Takes (land : Land σ) (operation : Operation) : Prop :=
  land.failed = false ∧ (operation = .step → land.nextTick ≠ finalTick)

instance (land : Land σ) : (operation : Operation) → Decidable (land.Takes operation)
  | .submit _ =>
      decidable_of_iff (land.failed = false) ⟨fun going => ⟨going, nofun⟩, fun takes => takes.1⟩
  | .complete _ =>
      decidable_of_iff (land.failed = false) ⟨fun going => ⟨going, nofun⟩, fun takes => takes.1⟩
  | .step =>
      decidable_of_iff (land.failed = false ∧ land.nextTick ≠ finalTick)
        ⟨fun both => ⟨both.1, fun _ => both.2⟩, fun takes => ⟨takes.1, takes.2 rfl⟩⟩

/-- The metadata record and the frames that a live land has recorded. -/
def recording? (land : Land σ) : Option Recording := do
  let recorder ← land.recorder?
  let metadata ← recorder.metadata?
  return ⟨metadata, recorder.frames⟩

/-- The recording of a live land is what its recorder holds. -/
theorem recording?_eq
    {land : Land σ}
    {queue : Queue}
    {recorder : Recorder}
    {started : Nat}
    {metadata : Recording.Metadata}
    {frames : List Recording.Frame}
    (live : land.mode = .live queue recorder started)
    (holds : recorder.Holds metadata frames) :
    land.recording? = some ⟨metadata, frames⟩ := by
  simp only [recording?, recorder?, live, Option.bind_eq_bind, Option.bind_some,
    holds.metadata, holds.frames]
  rfl

/-- A new live land has an empty queue, holds its metadata record and has
executed nothing. -/
theorem live_eq_ok
    {rules : Rules σ}
    {config : LandConfig}
    {created : Timestamp}
    {initial : σ}
    {land : Land σ}
    (started : live rules config created initial = .ok land) :
    ∃ recorder,
      recorder.Holds (config.recordingMetadata created (some (rules.fingerprint initial))) [] ∧
        land = { id := config.landId, mode := .live {} recorder 0, state := initial,
                 tickInterval := config.tickInterval } := by
  unfold live at started
  cases valid : config.validate with
  | error reason =>
      rw [valid] at started
      exact nomatch started
  | ok _ =>
      rw [valid] at started
      obtain rfl := Except.ok.inj started
      exact ⟨_, Recorder.holds_of_setMetadata rfl, rfl⟩

section Live

variable {land : Land σ} {queue : Queue} {recorder : Recorder} {started : Nat}

/-- Marking a land after an error changes at most whether it has failed. -/
theorem note_eq (error : LandError) (land : Land σ) :
    note error land = { land with failed := land.failed || error.isFatal } := by
  unfold note
  split
  · rename_i fatal
    rw [fatal, Bool.or_true]
  · rename_i harmless
    rw [Bool.eq_false_iff.2 harmless, Bool.or_false]

/-- A submission to a live land is refused and counted, or numbered and queued,
or numbered and resolving. -/
theorem submit_live_cases
    (rules : Rules σ)
    (live : land.mode = .live queue recorder started)
    (inbound : Inbound) :
    (∃ error,
      land.submit rules inbound =
        (.error error, note error { land with rejected := land.rejected + 1 })) ∨
    (∃ sequence numbering,
      rules.registry.resolversFor inbound.kind inbound.type = .ok [] ∧
        land.numbering.issue = .ok (sequence, numbering) ∧
        land.submit rules inbound =
          (.ok (.queued sequence),
            { land with
              numbering := numbering
              mode := .live
                (queue.push ((inbound.submission sequence).resolve ∅ land.nextTick))
                recorder started })) ∨
    (∃ resolvers sequence numbering,
      rules.registry.resolversFor inbound.kind inbound.type = .ok resolvers ∧
        resolvers ≠ [] ∧
        land.numbering.issue = .ok (sequence, numbering) ∧
        land.submit rules inbound =
          (.ok (.resolving ⟨inbound.submission sequence, resolvers⟩),
            { land with
              numbering := numbering
              mode := .live queue recorder (started + 1)
              resolving := land.resolving + 1 })) := by
  simp only [submit, accept, live]
  cases known : rules.registry.resolversFor inbound.kind inbound.type with
  | error reason => exact .inl ⟨reason, rfl⟩
  | ok resolvers =>
      cases issued : land.numbering.issue with
      | error reason => exact .inl ⟨reason, rfl⟩
      | ok pair =>
          obtain ⟨sequence, numbering⟩ := pair
          cases resolvers with
          | nil => exact .inr (.inl ⟨sequence, numbering, rfl, rfl, rfl⟩)
          | cons resolver rest =>
              exact .inr (.inr ⟨resolver :: rest, sequence, numbering, rfl,
                List.cons_ne_nil _ _, rfl, rfl⟩)

/-- A completion puts its item into the queue, or is dropped and counted. -/
theorem complete_live_cases
    (live : land.mode = .live queue recorder started)
    (completion : Completion) :
    (∃ outputs,
      completion.result = .ok outputs ∧
        land.complete completion =
          (.ok completion.submission.sequence,
            { land with
              resolving := land.resolving - 1
              mode := .live (queue.push (completion.submission.resolve outputs land.nextTick))
                recorder started })) ∨
    (∃ error,
      completion.result = .error error ∧
        land.complete completion =
          (.error error,
            { land with
              resolving := land.resolving - 1
              rejected := land.rejected + 1 })) := by
  obtain ⟨submission, result⟩ := completion
  cases result with
  | ok outputs =>
      refine .inl ⟨outputs, rfl, ?_⟩
      simp only [complete, enqueue, live]
  | error error => exact .inr ⟨error, rfl, rfl⟩

/-- A step of a live land lacks a number for an event and is fatal, or executes
its tick and records the frame when the recorder takes that. -/
theorem step_live_cases
    (rules : Rules σ)
    (live : land.mode = .live queue recorder started)
    {metadata : Recording.Metadata}
    {frames : List Recording.Frame}
    (holds : recorder.Holds metadata frames)
    (continues : Recorder.Continues frames land.nextTick) :
    (∃ error run,
      TickRun.performAll land.nextTick ⟨land.state, land.numbering, [], [], 0⟩
          (rules.effects land.nextTick (queue.drain (land.nextTick + 1)).1) = (.error error, run) ∧
        ∃ stats,
          land.step rules =
            ⟨.error error,
              note error
                { land with
                  mode := .live (queue.drain (land.nextTick + 1)).2 recorder started
                  state := run.state
                  numbering := run.numbering
                  ticks := stats },
              run.heard⟩) ∨
    (∃ run after outcome,
      TickRun.performAll land.nextTick ⟨land.state, land.numbering, [], [], 0⟩
          (rules.effects land.nextTick (queue.drain (land.nextTick + 1)).1) = (.ok (), run) ∧
        outcome = ⟨land.nextTick, (queue.drain (land.nextTick + 1)).1, run.recorded,
          run.failures⟩ ∧
        after.Holds metadata
          (frames ++ [outcome.toFrame (some (rules.fingerprint run.state))]) ∧
        ∃ stats,
          land.step rules =
            ⟨.ok (report outcome (rules.fingerprint run.state)),
              { land with
                mode := .live (queue.drain (land.nextTick + 1)).2 after started
                state := run.state
                numbering := run.numbering
                ticks := stats
                nextTick := land.nextTick + 1 },
              run.heard⟩) := by
  simp only [step, take, live, Rules.execute]
  cases performed : TickRun.performAll land.nextTick ⟨land.state, land.numbering, [], [], 0⟩
      (rules.effects land.nextTick (queue.drain (land.nextTick + 1)).1) with
  | mk result run =>
      cases result with
      | error error => exact .inl ⟨error, run, rfl, _, rfl⟩
      | ok _ =>
          let outcome : TickOutcome := ⟨land.nextTick, (queue.drain (land.nextTick + 1)).1,
            run.recorded, run.failures⟩
          obtain ⟨after, recorded, afterHolds⟩ :=
            holds.record (outcome.toFrame (some (rules.fingerprint run.state))) continues
          refine .inr ⟨run, after, outcome, rfl, rfl, afterHolds, ?_⟩
          simp only [conclude]
          rw [recorded]
          exact ⟨_, rfl⟩

end Live
end Land

/-! ## Runs -/

/-- One operation of a run, with the land before it. -/
structure Passage (σ : Type) where
  before : Land σ
  operation : Operation

/-- What an operation returns, and for a step also what the listener has heard. -/
inductive Answer where
  | submitted (result : Except LandError Admission)
  | completed (result : Except LandError Sequence)
  | stepped (result : Except LandError TickReport) (heard : List Event)

namespace Passage

variable {σ : Type}

/-- The land after the operation. -/
def after (rules : Rules σ) (passage : Passage σ) : Land σ :=
  passage.before.after rules passage.operation

/-- What the operation returns. -/
def answer (rules : Rules σ) (passage : Passage σ) : Answer :=
  match passage.operation with
  | .submit inbound => .submitted (passage.before.submit rules inbound).1
  | .complete completion => .completed (passage.before.complete completion).1
  | .step => .stepped (passage.before.step rules).result (passage.before.step rules).heard

/-- The report of a step that has executed its tick. -/
def report? (rules : Rules σ) (passage : Passage σ) : Option TickReport :=
  match passage.operation with
  | .step => (passage.before.step rules).result.toOption
  | _ => none

end Passage

/-- The runs that begin with a land: what has passed, and the land after it. -/
inductive Run {σ : Type} (rules : Rules σ) (start : Land σ) : List (Passage σ) → Land σ → Prop
  | nothing : Run rules start [] start
  | next {past : List (Passage σ)} {land : Land σ} {operation : Operation}
      (run : Run rules start past land) (takes : land.Takes operation) :
      Run rules start (past ++ [⟨land, operation⟩]) (land.after rules operation)

/-- What passes when some operations are done to a land one after the other. -/
def Land.passages {σ : Type} (rules : Rules σ) (land : Land σ) : List Operation → List (Passage σ)
  | [] => []
  | operation :: rest => ⟨land, operation⟩ :: (land.after rules operation).passages rules rest

/-- Operations that a land takes one after the other continue a run. -/
theorem Run.append_passages
    {σ : Type}
    {rules : Rules σ}
    {start land : Land σ}
    {past : List (Passage σ)}
    (run : Run rules start past land)
    (operations : List Operation)
    (takes : ∀ passage ∈ land.passages rules operations,
      passage.before.Takes passage.operation) :
    Run rules start (past ++ land.passages rules operations)
      (operations.foldl (Land.after rules) land) := by
  induction operations generalizing past land with
  | nil => simpa [Land.passages] using run
  | cons operation rest inductionHypothesis =>
      obtain ⟨first, later⟩ := List.forall_mem_cons.1 takes
      rw [Land.passages, List.append_cons]
      exact inductionHypothesis (run.next first) later

/-- Operations that a land takes one after the other make a run. -/
theorem Run.of_operations
    {σ : Type}
    (rules : Rules σ)
    (start : Land σ)
    (operations : List Operation)
    (takes : ∀ passage ∈ start.passages rules operations,
      passage.before.Takes passage.operation) :
    Run rules start (start.passages rules operations)
      (operations.foldl (Land.after rules) start) := by
  have whole := Run.nothing.append_passages operations takes
  rwa [List.nil_append] at whole

section Operations

variable {σ : Type} {rules : Rules σ} {past : List (Passage σ)} {start land : Land σ}

/-- What passes consists of the operations. -/
@[simp] theorem Land.map_operation_passages
    (rules : Rules σ)
    (land : Land σ)
    (operations : List Operation) :
    (land.passages rules operations).map (·.operation) = operations := by
  induction operations generalizing land with
  | nil => rfl
  | cons operation rest inductionHypothesis =>
      rw [passages, List.map_cons, inductionHypothesis]

/-- What passes when operations are done after others. -/
theorem Land.passages_append
    (rules : Rules σ)
    (land : Land σ)
    (earlier later : List Operation) :
    land.passages rules (earlier ++ later) =
      land.passages rules earlier ++
        (earlier.foldl (after rules) land).passages rules later := by
  induction earlier generalizing land with
  | nil => rfl
  | cons operation rest inductionHypothesis =>
      rw [List.cons_append, passages, passages, inductionHypothesis]
      rfl

/-- What every operation keeps holds before each operation. -/
theorem Land.forall_before_passages
    {holds : Land σ → Prop}
    (rules : Rules σ)
    (keeps : ∀ land operation, holds land → holds (land.after rules operation))
    (begins : holds land)
    (operations : List Operation) :
    ∀ passage ∈ land.passages rules operations, holds passage.before := by
  induction operations generalizing land with
  | nil => exact fun _ member => absurd member List.not_mem_nil
  | cons operation rest inductionHypothesis =>
      exact List.forall_mem_cons.2 ⟨begins, inductionHypothesis (keeps land operation begins)⟩

/-- A run leads to the land that its operations lead to. -/
theorem Run.eq_foldl (run : Run rules start past land) :
    land = (past.map (·.operation)).foldl (Land.after rules) start := by
  induction run with
  | nothing => rfl
  | next run takes inductionHypothesis =>
      rw [List.map_append, List.foldl_append, ← inductionHypothesis]
      rfl

/-- Every operation of a run was taken. -/
theorem Run.takes (run : Run rules start past land) :
    ∀ passage ∈ past, passage.before.Takes passage.operation := by
  induction run with
  | nothing => exact fun _ member => absurd member List.not_mem_nil
  | next run takes inductionHypothesis =>
      intro passage member
      rcases List.mem_append.1 member with earlier | last
      · exact inductionHypothesis passage earlier
      · obtain rfl := List.mem_singleton.1 last
        exact takes

/-- The first operations of a run are a run. -/
theorem Run.of_append
    {earlier later : List Operation}
    (run : Run rules start (start.passages rules (earlier ++ later)) land) :
    Run rules start (start.passages rules earlier) (earlier.foldl (Land.after rules) start) := by
  refine Run.of_operations rules start earlier fun passage member => run.takes passage ?_
  rw [Land.passages_append]
  exact List.mem_append_left _ member

end Operations

/-- The reports of the ticks that were executed in a run. -/
def reports {σ : Type} (rules : Rules σ) (past : List (Passage σ)) : List TickReport :=
  past.filterMap (Passage.report? rules)

/-- The first operation gives its report, if there is one. -/
theorem reports_cons {σ : Type} (rules : Rules σ) (first : Passage σ) (past : List (Passage σ)) :
    reports rules (first :: past) = (first.report? rules).toList ++ reports rules past := by
  rw [reports, List.filterMap_cons]
  cases first.report? rules <;> rfl

/-- The last operation adds its report, if there is one. -/
theorem reports_snoc {σ : Type} (rules : Rules σ) (past : List (Passage σ)) (last : Passage σ) :
    reports rules (past ++ [last]) = reports rules past ++ (last.report? rules).toList := by
  rw [reports, List.filterMap_append]
  exact congrArg (reports rules past ++ ·) ((reports_cons rules last []).trans (List.append_nil _))

end Chronicle
