import Chronicle.Ledger
import Chronicle.Proofs.Omission

/-!
# Refused submissions

A submission that is refused leaves nothing behind but its count.  Without the
submissions of unknown types a run is the same; without one whose resolvers fail it
is the same up to the numbers after it; and a replaying land goes on as if nothing
had been submitted.
-/

namespace Chronicle

variable {σ : Type} {rules : Rules σ} {past : List (Passage σ)} {start land other last : Land σ}
  {config : LandConfig} {created : Timestamp} {initial : σ}

/-! ## Lands that have refused more -/

namespace Land

/-- A land that has refused some submissions more. -/
def plusRejected (count : Nat) (land : Land σ) : Land σ :=
  { land with rejected := land.rejected + count }

@[simp] theorem plusRejected_plusRejected (more count : Nat) (land : Land σ) :
    (land.plusRejected count).plusRejected more = land.plusRejected (count + more) := by
  simp [plusRejected, Nat.add_assoc]

/-- A submission does not depend on what was refused before. -/
theorem submit_plusRejected (count : Nat) (inbound : Inbound) (land : Land σ) :
    (land.plusRejected count).submit rules inbound =
      ((land.submit rules inbound).1, (land.submit rules inbound).2.plusRejected count) := by
  obtain ⟨id, mode, state, numbering, ticks, nextTick, interval, resolving, rejected, failed⟩ :=
    land
  cases mode with
  | replay source strict summary =>
      simp only [submit, accept, plusRejected, note_eq, Nat.add_right_comm]
  | live queue recorder resolutions =>
      simp only [submit, accept, plusRejected]
      cases rules.registry.resolversFor inbound.kind inbound.type with
      | error error => simp [note_eq, bind, Except.bind, Nat.add_right_comm]
      | ok resolvers =>
          cases numbering.issue with
          | error error => simp [note_eq, bind, Except.bind, Nat.add_right_comm]
          | ok pair => cases resolvers <;> rfl

/-- A completion does not depend on what was refused before. -/
theorem complete_plusRejected (count : Nat) (completion : Completion) (land : Land σ) :
    (land.plusRejected count).complete completion =
      ((land.complete completion).1, (land.complete completion).2.plusRejected count) := by
  obtain ⟨submission, result⟩ := completion
  obtain ⟨id, mode, state, numbering, ticks, nextTick, interval, resolving, rejected, failed⟩ :=
    land
  cases result with
  | ok outputs => cases mode <;> rfl
  | error error => simp [complete, plusRejected, Nat.add_right_comm]

/-- A step does not depend on what was refused before. -/
theorem step_plusRejected (count : Nat) (land : Land σ) :
    (land.plusRejected count).step rules =
      { land.step rules with land := (land.step rules).land.plusRejected count } := by
  have taken : (land.plusRejected count).take = land.take := rfl
  simp only [step, note_eq]
  rw [taken]
  simp only [plusRejected]
  cases (rules.execute land.nextTick land.take.1 land.state land.numbering land.ticks).result with
  | error error => rfl
  | ok outcome =>
      simp only []
      split <;> rfl

/-- No operation depends on what was refused before. -/
theorem after_plusRejected (count : Nat) (operation : Operation) (land : Land σ) :
    (land.plusRejected count).after rules operation =
      (land.after rules operation).plusRejected count := by
  cases operation with
  | submit inbound => rw [after, submit_plusRejected, after]
  | complete completion => rw [after, complete_plusRejected, after]
  | step => rw [after, step_plusRejected, after]

/-- A submission that is refused for a reason that is not fatal is counted, and that is
all. -/
theorem submit_snd_of_error
    {inbound : Inbound}
    {error : LandError}
    (refused : (land.submit rules inbound).1 = .error error)
    (harmless : error.isFatal = false) :
    (land.submit rules inbound).2 = land.plusRejected 1 := by
  unfold submit at refused ⊢
  split at refused
  · exact nomatch refused
  · obtain rfl := Except.error.inj refused
    simp [note_eq, harmless, plusRejected]

end Land

/-! ## Deleting what only counts -/

/-- Two operations are the same and return the same, on lands of which the one has
refused some submissions more. -/
structure Passage.Alike (rules : Rules σ) (passage other : Passage σ) : Prop where
  operation : other.operation = passage.operation
  answer : other.answer rules = passage.answer rules
  before : ∃ count, passage.before = other.before.plusRejected count

/-- An operation returns the same, whatever was refused before. -/
theorem Passage.alike_plusRejected (count : Nat) (land : Land σ) (operation : Operation) :
    Alike rules ⟨land.plusRejected count, operation⟩ ⟨land, operation⟩ where
  operation := rfl
  answer := by
    cases operation with
    | submit inbound => simp only [answer, Land.submit_plusRejected]
    | complete completion => simp only [answer, Land.complete_plusRejected]
    | step => simp only [answer, Land.step_plusRejected]
  before := ⟨count, rfl⟩

/-- When operations are deleted that only count a refusal, the others return the same,
and the land in the end has refused so many less. -/
theorem passages_alike
    (rules : Rules σ)
    (land : Land σ)
    (deletes : Passage σ → Bool)
    (count : Nat)
    (operations : List Operation)
    (counts : ∀ passage ∈ (land.plusRejected count).passages rules operations,
      deletes passage = true → passage.after rules = passage.before.plusRejected 1) :
    let passages := (land.plusRejected count).passages rules operations
    let kept := passages.filter fun passage => !deletes passage
    List.Forall₂ (Passage.Alike rules) kept (land.passages rules (kept.map (·.operation))) ∧
      operations.foldl (Land.after rules) (land.plusRejected count) =
        ((kept.map (·.operation)).foldl (Land.after rules) land).plusRejected
          (count + passages.countP deletes) := by
  induction operations generalizing land count with
  | nil => exact ⟨.nil, rfl⟩
  | cons operation rest inductionHypothesis =>
      obtain ⟨first, later⟩ := List.forall_mem_cons.1 counts
      cases deleted : deletes ⟨land.plusRejected count, operation⟩ with
      | true =>
          have same : (land.plusRejected count).after rules operation =
              land.plusRejected (count + 1) :=
            (first deleted).trans (Land.plusRejected_plusRejected 1 count land)
          rw [same] at later
          obtain ⟨alike, final⟩ := inductionHypothesis land (count + 1) later
          simp only [Land.passages, List.foldl_cons, same, List.filter_cons, deleted,
            List.countP_cons, Bool.not_true, Bool.false_eq_true, if_false, if_true]
          refine ⟨alike, ?_⟩
          rw [final, Nat.add_right_comm, Nat.add_assoc]
      | false =>
          rw [Land.after_plusRejected] at later
          obtain ⟨alike, final⟩ := inductionHypothesis _ count later
          simp only [Land.passages, List.foldl_cons, Land.after_plusRejected, List.filter_cons,
            deleted, List.countP_cons, Bool.not_false, Bool.false_eq_true, if_false, if_true,
            List.map_cons]
          exact ⟨.cons (Passage.alike_plusRejected count land operation) alike, final⟩

section Alike

variable {kept others : List (Passage σ)} {running : List Submission}

/-- What is running is settled the same. -/
theorem Passage.Alike.settle_eq
    {passage other : Passage σ}
    (alike : passage.Alike rules other)
    (running : List Submission) :
    settle rules running other = settle rules running passage := by
  have resolving : other.resolving? rules = passage.resolving? rules := by
    rw [resolving?_eq, resolving?_eq, alike.answer]
  simp only [settle, alike.operation, resolving]

/-- Operations that were taken are taken when less was refused before. -/
theorem takes_of_alike
    (alike : List.Forall₂ (Passage.Alike rules) kept others)
    (taken : ∀ passage ∈ kept, passage.before.Takes passage.operation) :
    ∀ passage ∈ others, passage.before.Takes passage.operation := by
  induction alike with
  | nil => exact fun _ member => absurd member List.not_mem_nil
  | cons first _ inductionHypothesis =>
      obtain ⟨takes, later⟩ := List.forall_mem_cons.1 taken
      refine List.forall_mem_cons.2 ⟨?_, inductionHypothesis later⟩
      obtain ⟨count, before⟩ := first.before
      rw [before, ← first.operation] at takes
      exact takes

/-- Completions are genuine when they were so with more refused before. -/
theorem GenuineFrom.of_alike
    (genuine : GenuineFrom rules running kept)
    (alike : List.Forall₂ (Passage.Alike rules) kept others) :
    GenuineFrom rules running others := by
  induction alike generalizing running with
  | nil => trivial
  | cons first _ inductionHypothesis =>
      refine ⟨?_, first.settle_eq running ▸ inductionHypothesis genuine.2⟩
      have isRunning := genuine.1
      rw [Passage.completed?, ← first.operation] at isRunning
      exact isRunning

end Alike

/-! ## Submissions of unknown types -/

/-- Whether an operation is a submission of a type that is not known. -/
def Passage.isUnknown (rules : Rules σ) (passage : Passage σ) : Bool :=
  match passage.answer rules with
  | .submitted (.error (.unknownType _)) => true
  | _ => false

/-- A submission of an unknown type is counted, and starts nothing. -/
theorem Passage.of_isUnknown
    {passage : Passage σ}
    (unknown : passage.isUnknown rules = true) :
    passage.after rules = passage.before.plusRejected 1 ∧
      ∀ running, settle rules running passage = running := by
  obtain ⟨land, operation⟩ := passage
  cases operation with
  | submit inbound =>
      simp only [isUnknown, answer] at unknown
      split at unknown
      · rename_i result
        have refused := Answer.submitted.inj result
        refine ⟨Land.submit_snd_of_error refused rfl, fun running => ?_⟩
        simp only [settle, resolving?, refused, Option.toList_none, List.append_nil]
      · exact absurd unknown Bool.false_ne_true
  | complete completion => exact absurd unknown Bool.false_ne_true
  | step => exact absurd unknown Bool.false_ne_true

/-- The operations of a run without the submissions of unknown types. -/
def knownOperations (rules : Rules σ) (past : List (Passage σ)) : List Operation :=
  (past.filter fun passage => !passage.isUnknown rules).map (·.operation)

/-- A run without the submissions of unknown types is a run in which every operation
returns the same, on lands that have refused less and are the same otherwise. -/
structure SameWithoutUnknown
    (rules : Rules σ)
    (start : Land σ)
    (past : List (Passage σ))
    (land other : Land σ) : Prop where
  run : Run rules start (start.passages rules (knownOperations rules past)) other
  passages : List.Forall₂ (Passage.Alike rules)
    (past.filter fun passage => !passage.isUnknown rules)
    (start.passages rules (knownOperations rules past))
  final : land = other.plusRejected (past.countP (Passage.isUnknown rules))
  genuine : Genuine rules past →
    Genuine rules (start.passages rules (knownOperations rules past))

/-- Completions stay genuine without the submissions of unknown types. -/
theorem GenuineFrom.filter_known
    {running : List Submission}
    (genuine : GenuineFrom rules running past) :
    GenuineFrom rules running (past.filter fun passage => !passage.isUnknown rules) := by
  induction past generalizing running with
  | nil => trivial
  | cons passage rest inductionHypothesis =>
      have later := inductionHypothesis genuine.2
      rw [List.filter_cons]
      cases unknown : passage.isUnknown rules with
      | true =>
          rw [(Passage.of_isUnknown unknown).2] at later
          exact later
      | false => exact ⟨genuine.1, later⟩

/-- What has passed in a run is what passes when its operations are done. -/
theorem Run.eq_passages (run : Run rules start past land) :
    past = start.passages rules (past.map (·.operation)) := by
  induction run with
  | nothing => rfl
  | next run takes inductionHypothesis =>
      rw [List.map_append, Land.passages_append, ← inductionHypothesis, ← run.eq_foldl]
      rfl

/-- Every run is the same without its submissions of unknown types. -/
theorem Run.same_without_unknown (run : Run rules start past land) :
    ∃ other, SameWithoutUnknown rules start past land other := by
  have none : start.plusRejected 0 = start := rfl
  obtain ⟨alike, final⟩ := passages_alike rules start (Passage.isUnknown rules) 0
    (past.map (·.operation)) fun passage _ unknown => (Passage.of_isUnknown unknown).1
  rw [none, ← run.eq_passages] at alike final
  rw [← run.eq_foldl, Nat.zero_add] at final
  refine ⟨_, ⟨Run.of_operations rules start _ (takes_of_alike alike fun passage member => ?_),
    alike, final, fun genuine => genuine.filter_known.of_alike alike⟩⟩
  exact run.takes passage (List.mem_filter.1 member).1

/-! ## Submissions to a replaying land -/

/-- Whether an operation is a submission. -/
def Operation.isSubmission : Operation → Bool
  | .submit _ => true
  | _ => false

/-- A land that executes what a recording says. -/
def Land.IsReplaying (land : Land σ) : Prop :=
  ∃ source strict summary, land.mode = .replay source strict summary

/-- A land that executes what a source says. -/
def Land.Replays (land : Land σ) (source : Source) : Prop :=
  ∃ strict summary, land.mode = .replay source strict summary

/-- A replay of a source begins with a land that replays it. -/
theorem Land.replays_of_replay
    {source : Source}
    {strict : Bool}
    (started : Land.replay rules source strict initial = .ok start) :
    start.Replays source := by
  simp only [Land.replay] at started
  split at started
  · obtain rfl := Except.ok.inj started
    exact ⟨_, _, rfl⟩
  · cases started

/-- A land that replays a source goes on replaying it. -/
theorem Land.Replays.after
    {source : Source}
    (replays : land.Replays source)
    (rules : Rules σ)
    (operation : Operation) :
    (land.after rules operation).Replays source := by
  obtain ⟨strict, summary, mode⟩ := replays
  cases operation with
  | submit inbound =>
      simp only [Land.after, submit, accept, mode, note_eq]
      exact ⟨_, _, rfl⟩
  | complete completion =>
      simp only [Land.after, complete, enqueue, mode]
      cases completion.result <;> exact ⟨_, _, rfl⟩
  | step =>
      simp only [Land.after, step, take, mode, conclude, note_eq]
      split
      · exact ⟨_, _, rfl⟩
      · split <;> exact ⟨_, _, rfl⟩

/-- A replaying land goes on replaying. -/
theorem Land.IsReplaying.after
    (replaying : land.IsReplaying)
    (rules : Rules σ)
    (operation : Operation) :
    (land.after rules operation).IsReplaying := by
  obtain ⟨source, replays⟩ := replaying
  exact ⟨source, Land.Replays.after replays rules operation⟩

/-- A replaying land replays before each operation that is done to it. -/
theorem Land.IsReplaying.passages
    (replaying : land.IsReplaying)
    (rules : Rules σ)
    (operations : List Operation) :
    ∀ passage ∈ land.passages rules operations, passage.before.IsReplaying :=
  Land.forall_before_passages rules (fun _ operation replaying => replaying.after rules operation)
    replaying operations

/-- A submission to a replaying land is refused because of its mode. -/
theorem Land.IsReplaying.submit_fst
    (replaying : land.IsReplaying)
    (rules : Rules σ)
    (inbound : Inbound) :
    (land.submit rules inbound).1 = .error (.modeViolation inbound.operation "replay") := by
  obtain ⟨source, strict, summary, mode⟩ := replaying
  simp only [submit, accept, mode]

/-- Submissions between the operations of a replaying land are refused because of its
mode; every other operation returns the same without them, on lands that have refused
less and are the same otherwise. -/
structure SameWithoutSubmissions
    (rules : Rules σ)
    (start : Land σ)
    (operations : List Operation) : Prop where
  refused : ∀ passage ∈ start.passages rules operations, ∀ inbound,
    passage.operation = .submit inbound →
      passage.answer rules = .submitted (.error (.modeViolation inbound.operation "replay"))
  passages : List.Forall₂ (Passage.Alike rules)
    ((start.passages rules operations).filter fun passage => !passage.operation.isSubmission)
    (start.passages rules (operations.filter fun operation => !operation.isSubmission))
  final : operations.foldl (Land.after rules) start =
    ((operations.filter fun operation => !operation.isSubmission).foldl (Land.after rules)
      start).plusRejected (operations.countP Operation.isSubmission)

/-- A replaying land goes on as if nothing had been submitted. -/
theorem Land.IsReplaying.same_without_submissions
    (replaying : start.IsReplaying)
    (operations : List Operation) :
    SameWithoutSubmissions rules start operations := by
  have answered : ∀ passage ∈ start.passages rules operations, ∀ inbound,
      passage.operation = .submit inbound →
        (passage.before.submit rules inbound).1 =
          .error (.modeViolation inbound.operation "replay") :=
    fun passage member inbound _ =>
      (replaying.passages rules operations passage member).submit_fst rules inbound
  have none : start.plusRejected 0 = start := rfl
  obtain ⟨alike, final⟩ := passages_alike rules start
    (fun passage => passage.operation.isSubmission) 0 operations (by
      intro passage member isSubmission
      obtain ⟨land, operation⟩ := passage
      cases operation with
      | submit inbound => exact submit_snd_of_error (answered _ member inbound rfl) rfl
      | complete completion => exact absurd isSubmission Bool.false_ne_true
      | step => exact absurd isSubmission Bool.false_ne_true)
  have kept : ((start.passages rules operations).filter fun passage =>
      !passage.operation.isSubmission).map (·.operation) =
        operations.filter fun operation => !operation.isSubmission := by
    conv => rhs; rw [← Land.map_operation_passages rules start operations, List.filter_map]
    rfl
  have counted : (start.passages rules operations).countP
      (fun passage => passage.operation.isSubmission) =
        operations.countP Operation.isSubmission := by
    conv => rhs; rw [← Land.map_operation_passages rules start operations, List.countP_map]
    rfl
  rw [none, kept] at alike final
  rw [counted, Nat.zero_add] at final
  refine ⟨fun passage member inbound isSubmit => ?_, alike, final⟩
  simp only [Passage.answer, isSubmit, answered passage member inbound isSubmit]

/-! ## What refusals do to runs -/

/-- Refused submissions leave no trace but their counts.  Without the submissions of
unknown types a run is the same.  Without a submission whose resolvers fail, and without
their completion, it is the same up to the numbers.  A replaying land refuses every
submission and goes on as without it. -/
theorem refused_submissions_leave_no_trace (rules : Rules σ) :
    (∀ {config created initial} {start land : Land σ} {past},
      Land.live rules config created initial = .ok start →
      Run rules start past land →
      ∃ other, SameWithoutUnknown rules start past land other) ∧
    (∀ {config created initial} {start last : Land σ} {earlier between later inbound removed error},
      Land.live rules config created initial = .ok start →
      Run rules start
        (start.passages rules (earlier ++ .submit inbound ::
          (between ++ .complete ⟨removed, .error error⟩ :: later))) last →
      Genuine rules
        (start.passages rules (earlier ++ .submit inbound ::
          (between ++ .complete ⟨removed, .error error⟩ :: later))) →
      (⟨earlier.foldl (Land.after rules) start, .submit inbound⟩ : Passage σ).resolving? rules =
        some removed →
      SameWithoutFailed rules start last earlier between later inbound removed error) ∧
    (∀ {source strict initial} {start : Land σ},
      Land.replay rules source strict initial = .ok start →
      ∀ operations, SameWithoutSubmissions rules start operations) := by
  refine ⟨fun _ run => run.same_without_unknown,
    fun started run genuine resolving => run.same_without_failed started genuine resolving,
    fun {source strict initial start} started operations => ?_⟩
  have replaying : start.IsReplaying := by
    simp only [Land.replay] at started
    split at started
    · obtain rfl := Except.ok.inj started
      exact ⟨_, _, _, rfl⟩
    · exact nomatch started
  exact replaying.same_without_submissions operations

/-- On a ledger a note of an unknown type, a join whose stamp is refused, and two joins
submitted to the replay of a sum and a note leave no trace. -/
theorem refused_submissions_leave_no_trace_of_ledger :
    let rules := Ledger.rules { join := .stamped, milestone := 1 }
    let config : LandConfig := { landId := "books", landType := "ledger" }
    let join := Inbound.lifecycle .join (.ofIds "p1" "c1" "s1") {}
    let leave := Inbound.lifecycle .leave (.ofIds "p1" "c1" "s1") {}
    let unknown := Inbound.action "Nothing" .null (.ofIds "p1" "c1" "s1")
    let refusal := LandError.resolverFailure "stamp" "stamp service down"
    let earlier : List Operation := [.submit unknown, .submit leave, .step]
    let between : List Operation := [.submit leave, .step]
    let later : List Operation := [.submit leave, .step]
    let operations : List Operation := earlier ++ .submit join ::
      (between ++ .complete ⟨join.submission 2, .error refusal⟩ :: later)
    let input (sequence : Sequence) (type : String) (payload : Json) (tick : Tick) :
        Recording.Input := ⟨.action, sequence, type, payload, .nobody, ∅, tick⟩
    let frames : List Recording.Frame :=
      [{ tick := 0, actions := [input 0 "Add" (.object [("amount", .ofInt64 2)]) 0] },
        { tick := 1, actions := [input 3 "Note" (.object [("text", .string "late")]) 1] }]
    let replaying : List Operation := [.submit join, .step, .submit join, .step]
    ∃ start last other source replayed,
      Land.live rules config .epoch {} = .ok start ∧
        Run rules start (start.passages rules operations) last ∧
        last.stats.rejected = 2 ∧
        SameWithoutUnknown rules start (start.passages rules operations) last other ∧
        SameWithoutFailed rules start last earlier between later join (join.submission 2) refusal ∧
        Source.ofRecording ⟨config.recordingMetadata .epoch none, frames⟩ = .ok source ∧
        Land.replay rules source true {} = .ok replayed ∧
        (replaying.foldl (Land.after rules) replayed).state =
          { entries := [(1, "late")], total := 2 } ∧
        (replaying.foldl (Land.after rules) replayed).stats.rejected = 2 ∧
        SameWithoutSubmissions rules replayed replaying := by
  intro rules config join leave unknown refusal earlier between later operations input frames
    replaying
  obtain ⟨start, started⟩ : ∃ start, Land.live rules config .epoch {} = .ok start := ⟨_, rfl⟩
  have run := Run.of_operations rules start operations (by
    obtain rfl := Except.ok.inj started
    decide +kernel)
  have genuine : Genuine rules (start.passages rules operations) := by
    obtain rfl := Except.ok.inj started
    decide +kernel
  have resolving : (⟨earlier.foldl (Land.after rules) start, .submit join⟩ :
      Passage Ledger.State).resolving? rules = some (join.submission 2) := by
    obtain rfl := Except.ok.inj started
    decide +kernel
  obtain ⟨source, accepted⟩ : ∃ source,
      Source.ofRecording ⟨config.recordingMetadata .epoch none, frames⟩ = .ok source := ⟨_, rfl⟩
  obtain ⟨replayed, replays⟩ : ∃ replayed, Land.replay rules source true {} = .ok replayed := by
    obtain rfl := Except.ok.inj accepted
    exact ⟨_, rfl⟩
  obtain ⟨other, same⟩ := (refused_submissions_leave_no_trace rules).1 started run
  refine ⟨start, _, other, source, replayed, started, run, ?_, same,
    (refused_submissions_leave_no_trace rules).2.1 started run genuine resolving, accepted,
    replays, ?_, ?_, (refused_submissions_leave_no_trace rules).2.2 replays _⟩
  all_goals
    obtain rfl := Except.ok.inj started
    obtain rfl := Except.ok.inj accepted
    obtain rfl := Except.ok.inj replays
    decide +kernel

end Chronicle
