import Chronicle.Proofs.Resolving

/-!
# Other numbers

When one number is taken out and all later ones move down by one, they keep their
order, and nothing but their order matters: queues hold the same items, handlers do
the same, and recorders take the same frames, up to the numbers.
-/

namespace Chronicle

/-! ## Numbers without one of them -/

/-- The numbers above one that is taken out move down by one. -/
def closeGap (removed sequence : Sequence) : Sequence :=
  if removed < sequence then sequence - 1 else sequence

/-- A number above the one that is taken out moves down by one. -/
theorem toNat_closeGap {removed sequence : Sequence} (above : removed < sequence) :
    sequence.toNat = (closeGap removed sequence).toNat + 1 := by
  have positive : 0 < sequence.toNat :=
    Nat.lt_of_le_of_lt (Nat.zero_le _) (UInt64.lt_iff_toNat_lt.1 above)
  have bound : sequence.toNat < 18446744073709551616 := sequence.toNat_lt
  rw [closeGap, if_pos above, UInt64.toNat_sub]
  simp
  omega

/-- The other numbers keep their order. -/
theorem closeGap_lt_closeGap
    {removed first second : Sequence}
    (firstOther : first ≠ removed)
    (secondOther : second ≠ removed)
    (less : first < second) :
    closeGap removed first < closeGap removed second := by
  rw [ne_eq, ← UInt64.toNat_inj] at firstOther secondOther
  rw [UInt64.lt_iff_toNat_lt] at less ⊢
  by_cases firstAbove : removed < first <;> by_cases secondAbove : removed < second
  · have := toNat_closeGap firstAbove
    have := toNat_closeGap secondAbove
    omega
  · rw [UInt64.lt_iff_toNat_lt] at firstAbove secondAbove
    omega
  · have := toNat_closeGap secondAbove
    rw [UInt64.lt_iff_toNat_lt] at firstAbove secondAbove
    rw [closeGap, if_neg (by rwa [UInt64.lt_iff_toNat_lt])]
    omega
  · rw [closeGap, if_neg firstAbove, closeGap, if_neg secondAbove]
    exact less

/-! ## Data with other numbers -/

section Renumber

variable (number : Sequence → Sequence)

namespace Submission

/-- A submission with another number. -/
def renumber (submission : Submission) : Submission :=
  { submission with sequence := number submission.sequence }

end Submission

@[simp] theorem Inbound.renumber_submission (inbound : Inbound) (sequence : Sequence) :
    (inbound.submission sequence).renumber number = inbound.submission (number sequence) := by
  cases inbound <;> rfl

/-- A completion of a submission with another number. -/
def Completion.renumber (completion : Completion) : Completion :=
  { completion with submission := completion.submission.renumber number }

/-- An operation with other numbers. -/
def Operation.renumber : Operation → Operation
  | .submit inbound => .submit inbound
  | .complete completion => .complete (completion.renumber number)
  | .step => .step

/-- An admission with another number. -/
def Admission.renumber : Admission → Admission
  | .queued sequence => .queued (number sequence)
  | .resolving resolution =>
      .resolving { resolution with submission := resolution.submission.renumber number }

/-- An item with another number. -/
def Item.renumber (item : Item) : Item := { item with sequence := number item.sequence }

namespace Recording

/-- A recorded input with another number. -/
def Input.renumber (input : Input) : Input := { input with sequence := number input.sequence }

/-- A recorded join or leave with another number. -/
def Lifecycle.renumber (event : Lifecycle) : Lifecycle :=
  { event with sequence := number event.sequence }

/-- A recorded event with another number. -/
def ServerEvent.renumber (event : ServerEvent) : ServerEvent :=
  { event with sequence := number event.sequence }

/-- A frame with other numbers. -/
def Frame.renumber (frame : Frame) : Frame :=
  { frame with
    actions := frame.actions.map (Input.renumber number)
    clientEvents := frame.clientEvents.map (Input.renumber number)
    serverEvents := frame.serverEvents.map (ServerEvent.renumber number)
    lifecycleEvents := frame.lifecycleEvents.map (Lifecycle.renumber number) }

end Recording

/-- The record of an item with another number. -/
def ItemRecord.renumber : ItemRecord → ItemRecord
  | .action input => .action (input.renumber number)
  | .clientEvent input => .clientEvent (input.renumber number)
  | .lifecycle event => .lifecycle (event.renumber number)

/-- What a tick has executed, with other numbers. -/
def TickOutcome.renumber (outcome : TickOutcome) : TickOutcome :=
  { outcome with
    executed := outcome.executed.map (Item.renumber number)
    serverEvents := outcome.serverEvents.map (Recording.ServerEvent.renumber number) }

/-- The report of a tick with other numbers. -/
def TickReport.renumber (report : TickReport) : TickReport :=
  { report with
    executed := report.executed.map number
    serverEvents := report.serverEvents.map (Recording.ServerEvent.renumber number) }

/-- What an operation returns, with other numbers. -/
def Answer.renumber : Answer → Answer
  | .submitted result => .submitted (result.map (Admission.renumber number))
  | .completed result => .completed (result.map number)
  | .stepped result heard => .stepped (result.map (TickReport.renumber number)) heard

/-- A command with other numbers in its frames. -/
def WriterCommand.renumber : WriterCommand → WriterCommand
  | .metadata record => .metadata record
  | .append frames => .append (frames.map (Recording.Frame.renumber number))

namespace Log

variable {α β : Type} (f : α → β)

/-- Applies a function to every entry. -/
def map (log : Log α) : Log β := ⟨log.latest.map f, log.size, by simp [log.size_eq]⟩

@[simp] theorem toList_map (log : Log α) : (log.map f).toList = log.toList.map f := by
  simp [toList, map]

@[simp] theorem isEmpty_map (log : Log α) : (log.map f).isEmpty = log.isEmpty := by
  simp [isEmpty, map]

end Log

/-- A recorder with other numbers in its frames. -/
def Recorder.renumber (recorder : Recorder) : Recorder :=
  { recorder with
    buffer := recorder.buffer.map (Recording.Frame.renumber number)
    commands := recorder.commands.map (WriterCommand.renumber number) }

/-- The record of an item has the number of the item. -/
theorem Item.toRecord_renumber (tick : Tick) (item : Item) :
    (item.renumber number).toRecord tick = (item.toRecord tick).renumber number := by
  obtain ⟨⟨kind, sequence, type, payload, actor, details⟩, outputs, resolvedAt⟩ := item
  cases kind <;> rfl

/-- The frame of a tick has the numbers of its items and events. -/
theorem TickOutcome.toFrame_renumber (outcome : TickOutcome) (stateHash : Option String) :
    (outcome.renumber number).toFrame stateHash =
      (outcome.toFrame stateHash).renumber number := by
  have records : (outcome.executed.map (Item.renumber number)).map (Item.toRecord outcome.tick) =
      (outcome.executed.map (Item.toRecord outcome.tick)).map (ItemRecord.renumber number) := by
    simp [Function.comp_def, Item.toRecord_renumber]
  simp only [toFrame, renumber, Recording.Frame.renumber, records, List.filterMap_map,
    List.map_filterMap]
  congr 1 <;> refine congrArg (outcome.executed.filterMap ·) (funext fun item => ?_) <;>
    simp only [Function.comp_apply] <;> cases item.toRecord outcome.tick <;> rfl

namespace Recorder

/-- Passing on frames does not depend on their numbers. -/
theorem flush_renumber (recorder : Recorder) :
    (recorder.renumber number).flush = recorder.flush.renumber number := by
  unfold flush
  simp only [renumber, Log.isEmpty_map, Log.toList_map]
  split <;> rfl

/-- Taking a frame does not depend on its numbers. -/
theorem record_renumber (recorder : Recorder) (frame : Recording.Frame) :
    (recorder.renumber number).record (frame.renumber number) =
      (recorder.record frame).map (Recorder.renumber number) := by
  have taken : (recorder.renumber number).taking (frame.renumber number) =
      (recorder.taking frame).renumber number := rfl
  have settled : ((recorder.taking frame).renumber number).settled =
      (recorder.taking frame).settled.renumber number := by
    unfold Recorder.settled
    rw [flush_renumber]
    exact (apply_ite (renumber number) _ _ _).symm
  have metadataSet : (recorder.renumber number).metadataSet = recorder.metadataSet := rfl
  have lastTick : (recorder.renumber number).lastTick = recorder.lastTick := rfl
  have tick : (frame.renumber number).tick = frame.tick := rfl
  rw [record_eq, record_eq, taken, settled, metadataSet, lastTick, tick,
    apply_ite (Except.map (renumber number))]
  cases recorder.lastTick with
  | none => rfl
  | some last =>
      simp only [Option.elim_some, apply_ite (Except.map (renumber number))]
      rfl

/-- What a recorder holds has the numbers of its frames. -/
theorem frames_renumber (recorder : Recorder) :
    (recorder.renumber number).frames =
      recorder.frames.map (Recording.Frame.renumber number) := by
  simp only [frames, renumber, Log.toList_map, List.map_append, List.flatMap_map,
    List.map_flatMap]
  refine congrArg (· ++ _) (List.flatMap_congr fun command _ => ?_)
  cases command <;> rfl

end Recorder

variable {number} in
/-- A frame whose numbers stay is the same frame. -/
theorem Recording.Frame.renumber_eq_self
    {frame : Frame}
    (same : ∀ sequence ∈ frame.numbers, number sequence = sequence) :
    frame.renumber number = frame := by
  simp only [numbers, records, List.map_append, List.map_map, List.mem_append, List.mem_map,
    Function.comp_def, ItemRecord.sequence, or_assoc] at same
  have inputs {list : List Input} (stay : ∀ input ∈ list, number input.sequence = input.sequence) :
      list.map (Input.renumber number) = list := by
    refine (List.map_congr_left fun input member => ?_).trans (List.map_id _)
    rw [Input.renumber, stay input member]
    rfl
  have serverEvents :
      frame.serverEvents.map (ServerEvent.renumber number) = frame.serverEvents := by
    refine (List.map_congr_left fun event member => ?_).trans (List.map_id _)
    rw [ServerEvent.renumber, same _ (.inr (.inr (.inr ⟨event, member, rfl⟩)))]
    rfl
  have lifecycleEvents :
      frame.lifecycleEvents.map (Lifecycle.renumber number) = frame.lifecycleEvents := by
    refine (List.map_congr_left fun event member => ?_).trans (List.map_id _)
    rw [Lifecycle.renumber, same _ (.inr (.inr (.inl ⟨event, member, rfl⟩)))]
    rfl
  rw [renumber, inputs fun input member => same _ (.inl ⟨input, member, rfl⟩),
    inputs fun input member => same _ (.inr (.inl ⟨input, member, rfl⟩)), serverEvents,
    lifecycleEvents]

variable {number} in
/-- A recorder that holds only frames whose numbers stay is the same recorder. -/
theorem Recorder.renumber_eq_self
    {recorder : Recorder}
    (same : ∀ frame ∈ recorder.frames, frame.renumber number = frame) :
    recorder.renumber number = recorder := by
  have allSame {frames : List Recording.Frame} (within : frames ⊆ recorder.frames) :
      frames.map (Recording.Frame.renumber number) = frames :=
    (List.map_congr_left fun frame member => same frame (within member)).trans (List.map_id _)
  have buffer : recorder.buffer.map (Recording.Frame.renumber number) = recorder.buffer := by
    refine Log.ext_toList ?_
    rw [Log.toList_map]
    exact allSame (List.subset_append_right _ _)
  have commands : recorder.commands.map (WriterCommand.renumber number) = recorder.commands := by
    refine Log.ext_toList ?_
    rw [Log.toList_map]
    refine (List.map_congr_left fun command member => ?_).trans (List.map_id _)
    cases command with
    | metadata record => rfl
    | append frames =>
        refine congrArg WriterCommand.append (allSame fun frame inside => ?_)
        exact List.mem_append_left _ (List.mem_flatMap.2 ⟨_, member, inside⟩)
  rw [renumber, buffer, commands]

/-- Handlers do not know the numbers of their items. -/
theorem Rules.effects_renumber
    (rules : Rules σ)
    (tick : Tick)
    (items : List Item) :
    rules.effects tick (items.map (Item.renumber number)) = rules.effects tick items := by
  have each (item : Item) : rules.registry.dispatch (.ofItem tick (item.renumber number))
      (item.renumber number) = rules.registry.dispatch (.ofItem tick item) item := rfl
  simp [Rules.effects, Function.comp_def, each]

end Renumber

/-! ## Queues -/

/-- A queue without an item of a number, and a queue that is the same but for that
number. -/
structure Queue.Renumbered (removed : Sequence) (queue other : Queue) : Prop where
  consistent : queue.Consistent
  otherConsistent : other.Consistent
  apart : ∀ item ∈ queue.toList, item.sequence ≠ removed
  toList : other.toList = queue.toList.map (Item.renumber (closeGap removed))

namespace Queue.Renumbered

variable {removed : Sequence} {queue other : Queue}

/-- Different numbers stay different. -/
theorem closeGap_inj
    {first second : Sequence}
    (firstOther : first ≠ removed)
    (secondOther : second ≠ removed) :
    closeGap removed first = closeGap removed second ↔ first = second := by
  refine ⟨fun same => ?_, congrArg _⟩
  by_contra different
  rcases UInt64.lt_or_lt_of_ne different with less | less
  · exact UInt64.ne_of_lt (closeGap_lt_closeGap firstOther secondOther less) same
  · exact UInt64.ne_of_lt (closeGap_lt_closeGap secondOther firstOther less) same.symm

/-- The order of execution does not change. -/
theorem precedes
    {first second : Item}
    (firstOther : first.sequence ≠ removed)
    (secondOther : second.sequence ≠ removed)
    (before : first.Precedes second) :
    (first.renumber (closeGap removed)).Precedes (second.renumber (closeGap removed)) := by
  rw [Item.precedes_iff] at before ⊢
  exact before.imp_right fun ⟨together, less⟩ =>
    ⟨together, closeGap_lt_closeGap firstOther secondOther less⟩

/-- An item is pushed to both queues. -/
theorem push
    (renumbered : queue.Renumbered removed other)
    (item : Item)
    (isOther : item.sequence ≠ removed) :
    (queue.push item).Renumbered removed (other.push (item.renumber (closeGap removed))) := by
  have sameNumbers : other.toList.map (·.sequence) =
      (queue.toList.map (·.sequence)).map (closeGap removed) := by
    simp [renumbered.toList, Item.renumber, Function.comp_def]
  have waits : closeGap removed item.sequence ∈ other.toList.map (·.sequence) ↔
      item.sequence ∈ queue.toList.map (·.sequence) := by
    rw [sameNumbers]
    simp only [List.mem_map]
    constructor
    · rintro ⟨_, ⟨waiting, member, rfl⟩, same⟩
      exact ⟨waiting, member, (closeGap_inj (renumbered.apart waiting member) isOther).1 same⟩
    · rintro ⟨waiting, member, same⟩
      exact ⟨_, ⟨waiting, member, rfl⟩, congrArg _ same⟩
  by_cases known : item.sequence ∈ queue.toList.map (·.sequence)
  · rw [renumbered.consistent.push_of_mem known]
    rwa [renumbered.otherConsistent.push_of_mem (waits.2 known)]
  · have pushed := renumbered.consistent.toList_push_perm known
    have fresh : (item.renumber (closeGap removed)).sequence ∉ other.toList.map (·.sequence) :=
      fun member => known (waits.1 member)
    have otherPushed := renumbered.otherConsistent.toList_push_perm fresh
    have apart : ∀ other ∈ (queue.push item).toList, other.sequence ≠ removed := by
      intro other member
      rcases List.mem_cons.1 (pushed.mem_iff.1 member) with rfl | earlier
      · exact isOther
      · exact renumbered.apart other earlier
    refine ⟨renumbered.consistent.push item, renumbered.otherConsistent.push _, apart, ?_⟩
    refine List.Perm.eq_of_pairwise' (r := Item.Precedes)
      (renumbered.otherConsistent.push _).ordered ?_ ?_
    · rw [List.pairwise_map]
      exact (renumbered.consistent.push item).ordered.imp_of_mem fun here there before =>
        precedes (apart _ here) (apart _ there) before
    · rw [renumbered.toList] at otherPushed
      exact otherPushed.trans ((pushed.map (Item.renumber (closeGap removed))).symm)

/-- Both queues hand over the same items, up to the numbers. -/
theorem drain (renumbered : queue.Renumbered removed other) (tick : Tick) :
    (other.drain tick).1 = (queue.drain tick).1.map (Item.renumber (closeGap removed)) ∧
      (queue.drain tick).2.Renumbered removed (other.drain tick).2 := by
  refine ⟨?_, renumbered.consistent.drain tick, renumbered.otherConsistent.drain tick,
    fun item member => ?_, ?_⟩
  · rw [renumbered.consistent.drain_fst, renumbered.otherConsistent.drain_fst, renumbered.toList,
      List.filter_map]
    rfl
  · rw [renumbered.consistent.toList_drain_snd] at member
    exact renumbered.apart item (List.mem_filter.1 member).1
  · rw [renumbered.consistent.toList_drain_snd, renumbered.otherConsistent.toList_drain_snd,
      renumbered.toList, List.filter_map]
    rfl

end Queue.Renumbered

/-! ## Ticks -/

/-- The number of an event of a tick. -/
theorem TickRun.Numbered.toNat_sequence
    {tick : Tick}
    {first : Numbering}
    {run : TickRun σ}
    (numbered : run.Numbered tick first)
    {index : Nat}
    (inside : index < run.recorded.length) :
    run.recorded[index].sequence.toNat = first.next.toNat + index := by
  have here := congrArg (·[index]?) numbered.sequences
  simpa [inside] using here

/-- A tick that begins with the number before does the same, and its events have the
numbers before theirs. -/
theorem TickRun.performAll_renumber
    {tick : Tick}
    {state : σ}
    {removed : Sequence}
    {numbering other : Numbering}
    {effects : List (Effect σ Unit)}
    {run : TickRun σ}
    (next : numbering.next.toNat = other.next.toNat + 1)
    (above : removed < numbering.next)
    (performed : performAll tick ⟨state, numbering, [], [], 0⟩ effects = (.ok (), run)) :
    ∃ later, run.numbering.next.toNat = later.next.toNat + 1 ∧
      performAll tick ⟨state, other, [], [], 0⟩ effects =
        (.ok (), { run with
          numbering := later
          recorded := run.recorded.map (Recording.ServerEvent.renumber (closeGap removed)) }) := by
  have behind : other.Behind numbering := by
    rw [Numbering.Behind, next]
    exact Nat.le_succ _
  have begins : Follows (⟨state, other, [], [], 0⟩ : TickRun σ) ⟨state, numbering, [], [], 0⟩ :=
    ⟨rfl, rfl, rfl, behind, .nil⟩
  obtain ⟨final, alsoPerformed, follows⟩ := begins.performAll _ performed
  have numbered : run.Numbered tick numbering := by
    have whole := (Numbered.begins tick state numbering).performAll effects
    rwa [performed] at whole
  have otherNumbered : final.Numbered tick other := by
    have whole := (Numbered.begins tick state other).performAll effects
    rwa [alsoPerformed] at whole
  have sameLength := follows.recorded.length_eq
  have recorded : final.recorded =
      run.recorded.map (Recording.ServerEvent.renumber (closeGap removed)) := by
    refine List.ext_getElem (by simp [sameLength]) fun index inside alsoInside => ?_
    rw [List.length_map] at alsoInside
    obtain ⟨type, payload, target⟩ := follows.recorded.get alsoInside inside
    have number := numbered.toNat_sequence alsoInside
    have otherNumber := otherNumbered.toNat_sequence inside
    have isAbove : removed < run.recorded[index].sequence := by
      rw [UInt64.lt_iff_toNat_lt] at above ⊢
      omega
    have moved : final.recorded[index].sequence =
        closeGap removed run.recorded[index].sequence := by
      rw [← UInt64.toNat_inj]
      have := toNat_closeGap isAbove
      omega
    obtain ⟨kind, own⟩ := numbered.own _ (List.getElem_mem alsoInside)
    obtain ⟨otherKind, otherOwn⟩ := otherNumbered.own _ (List.getElem_mem inside)
    rw [List.getElem_map, Recording.ServerEvent.renumber, ← moved]
    simp only [List.get_eq_getElem] at type payload target
    generalize final.recorded[index] = event at *
    generalize run.recorded[index] = original at *
    cases event
    cases original
    simp_all
  refine ⟨final.numbering, ?_, ?_⟩
  · rw [numbered.next, otherNumbered.next, next, sameLength]
    omega
  · rw [alsoPerformed, ← follows.state, ← follows.failures, ← follows.heard, ← recorded]

/-- The number after a number is issued when the number is. -/
theorem Numbering.issue_renumber
    {removed sequence : Sequence}
    {numbering later other : Numbering}
    (next : numbering.next.toNat = other.next.toNat + 1)
    (above : removed < numbering.next)
    (issued : numbering.issue = .ok (sequence, later)) :
    sequence ≠ removed ∧ removed < later.next ∧
      ∃ otherLater, other.issue = .ok (closeGap removed sequence, otherLater) ∧
        later.next.toNat = otherLater.next.toNat + 1 := by
  obtain ⟨-, rfl, successor⟩ := issue_eq_ok_iff.1 issued
  have bound : numbering.next.toNat < 18446744073709551616 := numbering.next.toNat_lt
  have behind : other.Behind numbering := by
    rw [Behind, next]
    exact Nat.le_succ _
  obtain ⟨otherSequence, otherLater, otherIssued, -⟩ := behind.issue issued
  obtain ⟨-, rfl, otherSuccessor⟩ := issue_eq_ok_iff.1 otherIssued
  have moved : closeGap removed numbering.next = other.next := by
    have := toNat_closeGap above
    rw [← UInt64.toNat_inj]
    omega
  refine ⟨(UInt64.ne_of_lt above).symm, ?_, otherLater, moved ▸ otherIssued, by omega⟩
  rw [UInt64.lt_iff_toNat_lt] at above ⊢
  omega

end Chronicle
