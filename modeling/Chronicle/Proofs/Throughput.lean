import Chronicle.Proofs.Queue

/-!
# What passes through a queue

A queue is used by pushing and draining, in any order.  However it was used, its index
lists the numbers that wait and no others, so an item is refused exactly while another
one of its number waits.  What was accepted is what has been drained and what waits.
-/

namespace Chronicle
namespace Queue

/-- What is done to a queue. -/
inductive Use where
  | push (item : Item)
  | drain (tick : Tick)

/-- The queue after it was used. -/
def after (queue : Queue) : Use → Queue
  | .push item => queue.push item
  | .drain tick => (queue.drain tick).2

/-- The item that is accepted, if it is not refused. -/
def accepts (queue : Queue) : Use → List Item
  | .push item => if (queue.push? item).isSome then [item] else []
  | .drain _ => []

/-- The items that are drained. -/
def gives (queue : Queue) : Use → List Item
  | .push _ => []
  | .drain tick => (queue.drain tick).1

/-- What the uses of a queue come to one after the other. -/
def collect (part : Queue → Use → List Item) (queue : Queue) : List Use → List Item
  | [] => []
  | use :: rest => part queue use ++ collect part (queue.after use) rest

/-- The queue after some uses. -/
def afterAll (queue : Queue) (uses : List Use) : Queue := uses.foldl after queue

/-- What a queue does with the next item or tick, given what it has accepted and what
was drained from it. -/
structure Conserves (queue : Queue) (accepted drained : List Item) : Prop where
  /-- The index lists the numbers of the waiting items. -/
  index : ∀ sequence, sequence ∈ queue.sequences.keys ↔
    sequence ∈ queue.toList.map (·.sequence)
  /-- Every item stands in its own place. -/
  places : ∀ key item, queue.items.get? key = some item → key = item.orderKey
  /-- No two waiting items have one number. -/
  distinct : (queue.toList.map (·.sequence)).Nodup
  /-- An item is refused while one of its number waits. -/
  refused : ∀ item, queue.push? item = none ↔ item.sequence ∈ queue.toList.map (·.sequence)
  /-- A refused item changes nothing. -/
  unchanged : ∀ item, queue.push? item = none → queue.push item = queue
  /-- An accepted item waits with the others. -/
  added : ∀ item next, queue.push? item = some next → next.toList.Perm (item :: queue.toList)
  /-- Draining takes the items that became ready before the tick. -/
  taken : ∀ tick, (queue.drain tick).1 = queue.toList.filter (·.resolvedAt < tick)
  /-- They are taken in the order of execution. -/
  ordered : ∀ tick, (queue.drain tick).1.Pairwise Item.Precedes
  /-- Draining leaves the others. -/
  left : ∀ tick, (queue.drain tick).2.toList =
    queue.toList.filter fun item => !(item.resolvedAt < tick)
  /-- Nothing is lost and nothing doubled. -/
  conserved : accepted.Perm (drained ++ queue.toList)

namespace Consistent

variable {queue : Queue}

/-- The index of a consistent queue lists the numbers that wait. -/
theorem mem_keys_iff (consistent : queue.Consistent) {sequence : Sequence} :
    sequence ∈ queue.sequences.keys ↔ sequence ∈ queue.toList.map (·.sequence) := by
  rw [← consistent.indexed, Dict.contains_iff, Dict.keys, List.mem_map]
  constructor
  · rintro ⟨⟨_, value⟩, member, rfl⟩
    exact ⟨value, member⟩
  · rintro ⟨value, member⟩
    exact ⟨(sequence, value), member, rfl⟩

/-- A consistent queue refuses the items whose number waits. -/
theorem push?_eq_none_iff (consistent : queue.Consistent) {item : Item} :
    queue.push? item = none ↔ item.sequence ∈ queue.toList.map (·.sequence) := by
  rw [← consistent.indexed, push?]
  split
  · rename_i known
    exact iff_of_true rfl known
  · rename_i unknown
    exact iff_of_false (Option.some_ne_none _) unknown

/-- A consistent queue takes an item that it does not refuse to those that wait. -/
theorem toList_perm_of_push? (consistent : queue.Consistent) {item : Item} {next : Queue}
    (accepted : queue.push? item = some next) :
    next.toList.Perm (item :: queue.toList) := by
  have fresh : item.sequence ∉ queue.toList.map (·.sequence) := by
    rw [← consistent.push?_eq_none_iff, accepted]
    exact Option.some_ne_none _
  have pushed : queue.push item = next := by
    rw [Queue.push, accepted, Option.getD_some]
  exact pushed ▸ consistent.toList_push_perm fresh

/-- What is drained, with what is left, is what waited. -/
theorem drain_perm (consistent : queue.Consistent) (tick : Tick) :
    ((queue.drain tick).1 ++ (queue.drain tick).2.toList).Perm queue.toList := by
  rw [consistent.drain_fst, consistent.toList_drain_snd]
  exact List.filter_append_perm (ready tick) queue.toList

/-- A queue stays consistent when it is used. -/
theorem after (consistent : queue.Consistent) (use : Use) : (queue.after use).Consistent := by
  cases use with
  | push item => exact consistent.push item
  | drain tick => exact consistent.drain tick

/-- What waits after a use, with what is given, is what waited before with what was
accepted. -/
theorem after_perm (consistent : queue.Consistent) (use : Use) :
    (queue.toList ++ queue.accepts use).Perm (queue.gives use ++ (queue.after use).toList) := by
  cases use with
  | push item =>
      simp only [accepts, gives, Queue.after, List.nil_append]
      cases pushed : queue.push? item with
      | none =>
          have same : queue.push item = queue :=
            consistent.push_of_mem (consistent.push?_eq_none_iff.1 pushed)
          simp [same]
      | some next =>
          have isNext : queue.push item = next := by
            rw [Queue.push, pushed, Option.getD_some]
          rw [isNext, Option.isSome_some, if_pos rfl]
          exact (List.perm_append_singleton item queue.toList).trans
            (consistent.toList_perm_of_push? pushed).symm
  | drain tick =>
      simp only [accepts, gives, Queue.after, List.append_nil]
      exact (consistent.drain_perm tick).symm

/-- A queue stays consistent however it is used. -/
theorem afterAll (consistent : queue.Consistent) (uses : List Use) :
    (queue.afterAll uses).Consistent := by
  induction uses generalizing queue with
  | nil => exact consistent
  | cons use rest inductionHypothesis => exact inductionHypothesis (consistent.after use)

/-- What waits in the end, with all that was given, is what waited at first with all that
was accepted. -/
theorem afterAll_perm (consistent : queue.Consistent) (uses : List Use) :
    (queue.toList ++ collect accepts queue uses).Perm
      (collect gives queue uses ++ (queue.afterAll uses).toList) := by
  induction uses generalizing queue with
  | nil => simp [collect, Queue.afterAll]
  | cons use rest inductionHypothesis =>
      have first := consistent.after_perm use
      have later := inductionHypothesis (consistent.after use)
      have before : (queue.toList ++ collect accepts queue (use :: rest)).Perm
          (queue.gives use ++ ((queue.after use).toList ++
            collect accepts (queue.after use) rest)) := by
        rw [collect, ← List.append_assoc, ← List.append_assoc]
        exact first.append_right _
      refine before.trans ?_
      rw [collect, List.append_assoc]
      exact later.append_left _

end Consistent

/-- However an empty queue was used, its index and its places are right, it refuses exactly
the numbers that wait, it drains the items of earlier ticks in the order of execution and
leaves the others, and what it has accepted is what was drained from it and what waits in
it. -/
theorem conserves_items (uses : List Use) :
    (afterAll {} uses).Conserves (collect accepts {} uses) (collect gives {} uses) := by
  have consistent : (afterAll {} uses).Consistent := consistent_empty.afterAll uses
  exact
    { index := fun _ => consistent.mem_keys_iff
      places := fun _ _ found => consistent.keyed _ (Dict.get?_eq_some_iff.1 found)
      distinct := consistent.distinct
      refused := fun _ => consistent.push?_eq_none_iff
      unchanged := fun _ refused => consistent.push_of_mem (consistent.push?_eq_none_iff.1 refused)
      added := fun _ _ accepted => consistent.toList_perm_of_push? accepted
      taken := consistent.drain_fst
      ordered := fun tick => consistent.drain_fst tick ▸ consistent.ordered.filter _
      left := consistent.toList_drain_snd
      conserved := consistent_empty.afterAll_perm uses }

/-- While a number waits for one tick it is refused for another, and after that tick it is
accepted again. -/
example :
    let item (tick : Tick) : Item := (default : Submission).resolve ∅ tick
    (collect accepts {} [.push (item 5), .push (item 3), .drain 6, .push (item 3)]).map
      (·.resolvedAt) = [5, 3] := by
  decide

end Queue
end Chronicle
